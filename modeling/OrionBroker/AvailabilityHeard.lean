import OrionBroker.RegisterContext

/-!
# What availability subscriptions hear of

A subscription should hear of a request exactly if one of its context registrations has an entity and an attribute of the
subscription (`Covers`), and only of its own entities (`Owns`).  The sub-query for patterns does not look at the
attributes, and the content of every notification is queried with the entities of the whole request.

`availability_heard_iff` says when this makes no difference.
-/

namespace OrionBroker.Availability

open Bson

/-! ### The sub-queries -/

/-- The sub-query for plain entities finds the subscription. -/
def HitPlain (cr : ContextRegistration) (s : AvailabilitySubscription) : Prop :=
  (∃ en ∈ cr.entityIdVector, en.isPattern = "false" ∧ en.type ≠ "" ∧
    ∃ o ∈ s.entities, o.id = en.id ∧ o.type = en.type ∧ o.isPattern = "false") ∧
    (s.attrs = [] ∨ ∃ cra ∈ cr.contextRegistrationAttributeVector, cra.name ∈ s.attrs)

/-- The sub-query for patterns finds the subscription by the arrays that the engine reads. -/
def HitPattern (env : RegisterEnv) (enId enType : List String) (s : AvailabilitySubscription) : Prop :=
  ∃ o ∈ s.entities, o.isPattern = "true" ∧ ∃ p ∈ enId.zipIdx, env.jsMatch p.1 o.id = true ∧
    enType[p.2]? = if o.type = "" then none else some o.type

section Queries

variable {env : RegisterEnv} {s : AvailabilitySubscription} {cr : ContextRegistration}

private theorem lookup_entities_casub : s.toBson.lookup "entities" =
    some (.array (s.entities.map fun en => .object (stringFields (casubEntity en)))) := by
  simp [AvailabilitySubscription.toBson, lookup_cons_eq]

private theorem lookup_attrs_casub : s.toBson.lookup "attrs" = some (.array (s.attrs.map .string)) := by
  simp [AvailabilitySubscription.toBson, lookup_cons_eq]

theorem notExpired_iff : notExpired env s.toBson = true ↔ env.getCurrentTime < s.expiration := by
  have hpath : splitPath "expiration" = ["expiration"] := by decide
  have hlookup : s.toBson.lookup "expiration" = some (.int s.expiration) := by
    simp [AvailabilitySubscription.toBson, lookup_cons_eq]
  rw [notExpired, Filter.accepts, Criterion.accepts, hpath, reached_object, reachedField_of_lookup hlookup]
  simp [reached, gt_holds_int_iff]

theorem sizeZero_iff : sizeZero s.toBson = true ↔ s.attrs = [] := by
  rw [sizeZero, lookup_attrs_casub]
  simp

/-- An entity is stored as the sub-query has it. -/
private theorem casubEntity_eq_iff {en o : EntityId} :
    casubEntity o = [("id", en.id), ("type", en.type), ("isPattern", "false")] ↔
      en.type ≠ "" ∧ o.id = en.id ∧ o.type = en.type ∧ o.isPattern = "false" := by
  unfold casubEntity
  split
  · rename_i htype
    refine iff_of_false (by simp) ?_
    rintro ⟨hne, -, he, -⟩
    exact hne (he.symm.trans htype)
  · rename_i htype
    simp only [List.cons.injEq, Prod.mk.injEq, true_and, and_true]
    constructor
    · rintro ⟨hid, he, hpattern⟩
      exact ⟨he ▸ htype, hid, he, hpattern⟩
    · rintro ⟨-, hid, he, hpattern⟩
      exact ⟨hid, he, hpattern⟩

/-- The entities themselves are reached, and the array that holds them. -/
private theorem reached_casubEntities : reached (splitPath "entities") (.object s.toBson) =
    s.entities.map (fun o => some (.object (stringFields (casubEntity o)))) ++
      [some (.array (s.entities.map fun o => .object (stringFields (casubEntity o))))] := by
  have hpath : splitPath "entities" = ["entities"] := by decide
  rw [hpath, reached_object, reachedField_of_lookup lookup_entities_casub, reached, List.map_map]
  rfl

private theorem accepts_entities_iff :
    (Filter.field "entities" (.isIn ((entitiesNoPattern cr).map fun en =>
      .value (.object (stringFields [("id", en.id), ("type", en.type), ("isPattern", "false")]))))).accepts env.pcre
        s.toBson = true ↔
      ∃ en ∈ cr.entityIdVector, en.isPattern = "false" ∧ en.type ≠ "" ∧
        ∃ o ∈ s.entities, o.id = en.id ∧ o.type = en.type ∧ o.isPattern = "false" := by
  have harray : ∀ en : EntityId, InItem.holds env.pcre
      (some (.array (s.entities.map fun o => .object (stringFields (casubEntity o)))))
      (.value (.object (stringFields [("id", en.id), ("type", en.type), ("isPattern", "false")]))) = false := by
    intro en
    simp [InItem.holds, Comparison.holds, BSONValue.canonicalType]
  have hitem : ∀ en o : EntityId, InItem.holds env.pcre (some (.object (stringFields (casubEntity o))))
      (.value (.object (stringFields [("id", en.id), ("type", en.type), ("isPattern", "false")]))) = true ↔
        en.type ≠ "" ∧ o.id = en.id ∧ o.type = en.type ∧ o.isPattern = "false" := by
    intro en o
    rw [InItem.holds, eq_holds_stringFields_iff]
    exact casubEntity_eq_iff
  rw [Filter.accepts, Criterion.accepts, reached_casubEntities, List.any_append, List.any_map, List.any_cons,
    List.any_nil, Bool.or_false, Bool.or_eq_true]
  simp only [List.any_map, List.any_eq_true, Function.comp, harray, hitem, Bool.false_eq_true, and_false, exists_false,
    or_false]
  unfold entitiesNoPattern
  simp only [List.mem_filter, decide_eq_true_eq]
  constructor
  · rintro ⟨o, ho, en, ⟨hen, hplain⟩, htype, he⟩
    exact ⟨en, hen, hplain, htype, o, ho, he⟩
  · rintro ⟨en, hen, hplain, htype, o, ho, he⟩
    exact ⟨o, ho, en, ⟨hen, hplain⟩, htype, he⟩

private theorem accepts_attrs_iff :
    (Filter.field "attrs" (.isIn (cr.contextRegistrationAttributeVector.map fun cra =>
      .value (.string cra.name)))).accepts env.pcre s.toBson = true ↔
      ∃ cra ∈ cr.contextRegistrationAttributeVector, cra.name ∈ s.attrs := by
  have hpath : splitPath "attrs" = ["attrs"] := by decide
  rw [Filter.accepts, Criterion.accepts, hpath, reached_object, reachedField_of_lookup lookup_attrs_casub, reached]
  simp only [List.map_map, List.any_append, List.any_map, List.any_cons, List.any_nil, Bool.or_false, Bool.or_eq_true,
    List.any_eq_true, Function.comp, InItem.holds, eq_holds_string_iff, Option.some.injEq, BSONValue.string.injEq,
    reduceCtorEq, and_false, exists_false, or_false]
  constructor
  · rintro ⟨name, hname, cra, hcra, rfl⟩
    exact ⟨cra, hcra, hname⟩
  · rintro ⟨cra, hcra, hname⟩
    exact ⟨_, hname, cra, hcra, rfl⟩

theorem queryNoPattern_iff :
    queryNoPattern env cr s.toBson = true ↔ HitPlain cr s ∧ env.getCurrentTime < s.expiration := by
  rw [queryNoPattern, Bool.and_eq_true, Bool.and_eq_true, accepts_entities_iff, notExpired_iff, HitPlain]
  refine and_congr_left fun _ => and_congr_right fun _ => ?_
  split
  · rw [Bool.or_eq_true, accepts_attrs_iff, sizeZero_iff, or_comm]
  · rename_i hnone
    have hempty : cr.contextRegistrationAttributeVector = [] := by
      rw [← List.length_eq_zero_iff]
      omega
    rw [sizeZero_iff, hempty]
    simp

private theorem lookup_casubEntity (o : EntityId) :
    (casubEntity o).lookup "id" = some o.id ∧ (casubEntity o).lookup "isPattern" = some o.isPattern ∧
      (casubEntity o).lookup "type" = if o.type = "" then none else some o.type := by
  unfold casubEntity
  split
  · exact ⟨rfl, rfl, rfl⟩
  · exact ⟨rfl, rfl, rfl⟩

private theorem accepts_isPattern_iff :
    (Filter.field "entities.isPattern" (.compare .eq (.string "true"))).accepts env.pcre s.toBson = true ↔
      ∃ o ∈ s.entities, o.isPattern = "true" := by
  have hpath : splitPath "entities.isPattern" = ["entities", "isPattern"] := by decide
  rw [Filter.accepts, Criterion.accepts, hpath, reached_object, reachedField_of_lookup lookup_entities_casub,
    reached_objects _ _ (by decide), List.any_flatMap, List.any_eq_true]
  refine exists_congr fun o => and_congr_right fun _ => ?_
  rw [reachedField_stringFields, (lookup_casubEntity o).2.1]
  simp [eq_holds_string_iff]

private theorem whereFunction_iff {enId enType : List String} :
    whereFunction env enId enType s.toBson = true ↔ HitPattern env enId enType s := by
  have hitems : arrayItems s.toBson "entities" =
      s.entities.map fun en => .object (stringFields (casubEntity en)) := by
    rw [arrayItems, lookup_entities_casub]
  rw [whereFunction, hitems, List.any_map, List.any_eq_true]
  refine exists_congr fun o => and_congr_right fun _ => ?_
  obtain ⟨hid, hpattern, htype⟩ := lookup_casubEntity o
  have hidField : getStringFieldF (stringFields (casubEntity o)) "id" = o.id := by
    rw [getStringFieldF, lookup_stringFields, hid]
    rfl
  have hmap : Function.Injective (BSONValue.string) := fun _ _ h => BSONValue.string.inj h
  simp only [Function.comp, embeddedObject, Bool.and_eq_true, decide_eq_true_eq, lookup_stringFields, hpattern, htype,
    hidField, List.any_eq_true]
  refine and_congr ?_ (exists_congr fun p => and_congr_right fun _ => and_congr_right fun _ => ?_)
  · simp
  · rw [(Option.map_injective hmap).eq_iff, eq_comm]

theorem queryPattern_iff {enId enType : List String} :
    queryPattern env enId enType s.toBson = true ↔ HitPattern env enId enType s ∧ env.getCurrentTime < s.expiration := by
  rw [queryPattern, Bool.and_eq_true, Bool.and_eq_true, accepts_isPattern_iff, notExpired_iff, whereFunction_iff]
  constructor
  · rintro ⟨⟨-, htime⟩, hhit⟩
    exact ⟨hhit, htime⟩
  · rintro ⟨hhit, htime⟩
    have ho : ∃ o ∈ s.entities, o.isPattern = "true" := hhit.imp fun o h => ⟨h.1, h.2.1⟩
    exact ⟨⟨ho, htime⟩, hhit⟩

end Queries

/-! ### The subscriptions that are triggered -/

/-- One of the sub-queries finds the subscription. -/
def Hit (env : RegisterEnv) (cr : ContextRegistration) (s : AvailabilitySubscription) : Prop :=
  HitPlain cr s ∨ ∃ enId enType, env.jsArray (jsArrayText ((entitiesNoPattern cr).map EntityId.id)) = some enId ∧
    env.jsArray (jsArrayText ((entitiesNoPattern cr).map EntityId.type)) = some enType ∧ HitPattern env enId enType s

/-- The entry of a subscription. -/
def AvailabilitySubscription.triggered (s : AvailabilitySubscription) : TriggeredSubscription :=
  ⟨s.id, s.reference, s.attrs⟩

section Triggered

variable {env : RegisterEnv} {casubs : List AvailabilitySubscription}

/-- The entries are those of subscriptions. -/
def EntriesOf (casubs : List AvailabilitySubscription) (subs : List TriggeredSubscription) : Prop :=
  ∀ t ∈ subs, ∃ s ∈ casubs, t = s.triggered

/-- Different subscriptions have different ids. -/
private theorem eq_of_id (hids : (casubs.map AvailabilitySubscription.id).Nodup) {s s' : AvailabilitySubscription}
    (hs : s ∈ casubs) (hs' : s' ∈ casubs) (h : s.id = s'.id) : s = s' :=
  List.inj_on_of_nodup_map hids hs hs' h

private theorem mem_insertTriggered (hids : (casubs.map AvailabilitySubscription.id).Nodup)
    {subs : List TriggeredSubscription} (hsubs : EntriesOf casubs subs) {s : AvailabilitySubscription} (hs : s ∈ casubs)
    (t : TriggeredSubscription) : t ∈ insertTriggered subs s ↔ t ∈ subs ∨ t = s.triggered := by
  unfold insertTriggered
  split
  · rename_i hany
    obtain ⟨t', ht', hid⟩ := List.any_eq_true.1 hany
    obtain ⟨s', hs', rfl⟩ := hsubs t' ht'
    obtain rfl := eq_of_id hids hs' hs (of_decide_eq_true hid)
    refine (or_iff_left_of_imp ?_).symm
    rintro rfl
    exact ht'
  · rw [List.mem_append, List.mem_singleton]
    rfl

private theorem mem_foldl_insertTriggered (hids : (casubs.map AvailabilitySubscription.id).Nodup)
    {found : List AvailabilitySubscription} (hfound : ∀ s ∈ found, s ∈ casubs) {subs : List TriggeredSubscription}
    (hsubs : EntriesOf casubs subs) (t : TriggeredSubscription) :
    t ∈ found.foldl insertTriggered subs ↔ t ∈ subs ∨ ∃ s ∈ found, t = s.triggered := by
  induction found generalizing subs with
  | nil => simp
  | cons s found ih =>
    have hs := hfound s List.mem_cons_self
    have hstep := mem_insertTriggered hids hsubs hs
    have hsubs' : EntriesOf casubs (insertTriggered subs s) := by
      intro t' ht'
      rcases (hstep t').1 ht' with h | h
      · exact hsubs t' h
      · exact ⟨s, hs, h⟩
    rw [List.foldl_cons, ih (fun s' hs' => hfound s' (List.mem_cons_of_mem _ hs')) hsubs', hstep]
    simp only [List.mem_cons, exists_eq_or_imp, or_assoc]

/-- One context registration adds the entries of the subscriptions that it hits. -/
private theorem mem_addTriggered (hids : (casubs.map AvailabilitySubscription.id).Nodup) {cr : ContextRegistration}
    {subs subs' : List TriggeredSubscription} (hsubs : EntriesOf casubs subs)
    (h : addTriggeredSubscriptions env cr subs casubs = .ok subs') (t : TriggeredSubscription) :
    t ∈ subs' ↔ t ∈ subs ∨ ∃ s ∈ casubs, t = s.triggered ∧ env.getCurrentTime < s.expiration ∧ Hit env cr s := by
  unfold addTriggeredSubscriptions at h
  split at h
  · cases h
  · split at h
    · rename_i enId enType hid htype
      cases h
      have hfound : ∀ s : AvailabilitySubscription,
          (queryNoPattern env cr s.toBson || queryPattern env enId enType s.toBson) = true ↔
            env.getCurrentTime < s.expiration ∧ Hit env cr s := by
        intro s
        have hpattern : (∃ enId enType, env.jsArray (jsArrayText ((entitiesNoPattern cr).map EntityId.id)) = some enId ∧
            env.jsArray (jsArrayText ((entitiesNoPattern cr).map EntityId.type)) = some enType ∧
              HitPattern env enId enType s) ↔ HitPattern env enId enType s := by
          rw [hid, htype]
          simp
        rw [Bool.or_eq_true, queryNoPattern_iff, queryPattern_iff, Hit, hpattern]
        tauto
      rw [mem_foldl_insertTriggered hids (fun s hs => (List.mem_filter.1 hs).1) hsubs]
      refine or_congr_right (exists_congr fun s => ?_)
      rw [List.mem_filter, hfound]
      tauto
    · cases h

/-- All context registrations together. -/
theorem mem_triggeredByAll (hids : (casubs.map AvailabilitySubscription.id).Nodup) {crs : List ContextRegistration}
    {subs subs' : List TriggeredSubscription} (hsubs : EntriesOf casubs subs)
    (h : triggeredByAll env casubs subs crs = .ok subs') (t : TriggeredSubscription) :
    t ∈ subs' ↔ t ∈ subs ∨
      ∃ s ∈ casubs, t = s.triggered ∧ env.getCurrentTime < s.expiration ∧ ∃ cr ∈ crs, Hit env cr s := by
  induction crs generalizing subs with
  | nil =>
    cases h
    simp
  | cons cr crs ih =>
    unfold triggeredByAll at h
    split at h
    · cases h
    · rename_i subs₁ hadd
      have hstep := mem_addTriggered hids hsubs hadd
      have hsubs₁ : EntriesOf casubs subs₁ := by
        intro t' ht'
        rcases (hstep t').1 ht' with h | ⟨s, hs, he, -⟩
        · exact hsubs t' h
        · exact ⟨s, hs, he⟩
      rw [ih hsubs₁ h, hstep, or_assoc]
      refine or_congr_right ?_
      constructor
      · rintro (⟨s, hs, he, htime, hhit⟩ | ⟨s, hs, he, htime, cr', hcr', hhit⟩)
        · exact ⟨s, hs, he, htime, cr, List.mem_cons_self, hhit⟩
        · exact ⟨s, hs, he, htime, cr', List.mem_cons_of_mem _ hcr', hhit⟩
      · rintro ⟨s, hs, he, htime, cr', hcr', hhit⟩
        rcases List.mem_cons.1 hcr' with rfl | hcr'
        · exact Or.inl ⟨s, hs, he, htime, hhit⟩
        · exact Or.inr ⟨s, hs, he, htime, cr', hcr', hhit⟩

end Triggered

/-! ### The content of a notification -/

/-- The element of a registration is among those that a notification lists. -/
structure Answers (env : RegisterEnv) (triggerEntitiesV : List EntityId) (attrL : List String) (r : Registration)
    (cr : RegisteredElement) : Prop where
  unexpired : env.getCurrentTime < r.expiration
  path : r.InPath env.pcre "" [] = true
  selected : ∃ en ∈ triggerEntitiesV, Selects env.pcre en r
  element : cr ∈ r.contextRegistration
  kept : cr.Kept env.regexec triggerEntitiesV attrL

section Content

variable {env : RegisterEnv} {triggerEntitiesV : List EntityId} {attrL : List String}

/-- What the query for a notification returns, if the database compiles the pattern of the service paths. -/
theorem registrationsQuery_answers (hplain : ∀ en ∈ triggerEntitiesV, isTrue en.isPattern = false)
    (hcompiles : compiles env.pcre "^\\/.*" = true) (registrations : List (String × Registration)) :
    ∃ crrs, registrationsQuery env.regexec env.pcre env.getCurrentTime triggerEntitiesV attrL "" [] 0 0
        (registrationDocs registrations) = some crrs ∧
      ∀ crr, crr ∈ crrs ↔ ∃ r ∈ registrations, ∃ cr, Answers env triggerEntitiesV attrL r.2 cr ∧
        processContextRegistrationElement env.regexec triggerEntitiesV attrL cr.toBson = some crr := by
  have hdocs : registrationDocs registrations =
      ((registrations.insertionSort fun r r' => r.1 ≤ r'.1).map Prod.snd).map Registration.toBson := by
    rw [registrationDocs, List.map_map]
    rfl
  have hquery : queryCompiles env.pcre triggerEntitiesV "" [] = true := by
    have hall : (triggerEntitiesV.all fun en => !isTrue en.isPattern || compiles env.pcre en.id) = true := by
      rw [List.all_eq_true]
      intro en hen
      rw [hplain en hen]
      rfl
    rw [queryCompiles, hall, fillQueryServicePath, if_pos rfl]
    simp [InItem.wellFormed, hcompiles]
  refine ⟨_, by rw [hdocs, registrationsQuery_all, if_pos hquery], ?_⟩
  intro crr
  simp only [List.mem_flatMap, List.mem_filter, List.mem_map, accepts_registrationsFilter_iff, Registration.kept,
    List.mem_filterMap, (List.perm_insertionSort _ registrations).mem_iff]
  constructor
  · rintro ⟨r, ⟨⟨p, hp, rfl⟩, hselected, htime, -, hpath⟩, cr, hcr, hprocess⟩
    exact ⟨p, hp, cr, ⟨htime, hpath, hselected, hcr, (kept_iff cr).1 (Option.isSome_iff_exists.2 ⟨crr, hprocess⟩)⟩,
      hprocess⟩
  · rintro ⟨p, hp, cr, ha, hprocess⟩
    refine ⟨p.2, ⟨⟨p, hp, rfl⟩, ha.selected, ha.unexpired, ?_, ha.path⟩, cr, ha.element, hprocess⟩
    exact ha.kept.2.imp_right fun hattr => ⟨cr, ha.element, hattr⟩

/-- A notification lists the entities of an element that are in the request. -/
theorem entities_of_process {cr : RegisteredElement} {crr : ContextRegistrationResponse}
    (h : processContextRegistrationElement env.regexec triggerEntitiesV attrL cr.toBson = some crr) :
    crr.entityIdVector =
      (cr.entities.map RegisteredEntity.entityId).filter fun en => includedEntity env.regexec en triggerEntitiesV := by
  unfold processContextRegistrationElement at h
  rw [entities_of_element] at h
  dsimp only at h
  obtain ⟨-, h⟩ := Option.ite_none_left_eq_some.1 h
  obtain ⟨-, h⟩ := Option.ite_none_right_eq_some.1 h
  exact congrArg ContextRegistrationResponse.entityIdVector (Option.some.inj h).symm

private theorem registrations_processAvailability (enV : List EntityId) (attrL : List String) (subId notifyUrl : String)
    (db : AvailabilityDB) :
    (processAvailabilitySubscription env enV attrL subId notifyUrl db).1.registrations = db.registrations := by
  unfold processAvailabilitySubscription
  split <;> rfl

/-- The notification for an entry of the map, over the stored registrations. -/
def IsNotification (env : RegisterEnv) (triggerEntitiesV : List EntityId) (registrations : List (String × Registration))
    (t : TriggeredSubscription) (n : AvailabilityNotification) : Prop :=
  ∃ crrs, registrationsQuery env.regexec env.pcre env.getCurrentTime triggerEntitiesV t.attrL "" [] 0 0
    (registrationDocs registrations) = some crrs ∧ crrs ≠ [] ∧ n = ⟨t.subId, t.reference, crrs⟩

private theorem notification_iff (t : TriggeredSubscription) (db : AvailabilityDB) (n : AvailabilityNotification) :
    (processAvailabilitySubscription env triggerEntitiesV t.attrL t.subId t.reference db).2 = some n ↔
      IsNotification env triggerEntitiesV db.registrations t n := by
  unfold processAvailabilitySubscription IsNotification
  cases registrationsQuery env.regexec env.pcre env.getCurrentTime triggerEntitiesV t.attrL "" [] 0 0
      (registrationDocs db.registrations) with
  | none => simp
  | some crrs =>
    cases crrs with
    | nil => simp
    | cons crr crrs => simp [eq_comm]

theorem mem_processSubscriptions {subs : List TriggeredSubscription} {db : AvailabilityDB}
    (n : AvailabilityNotification) : n ∈ (processSubscriptions env triggerEntitiesV subs db).2 ↔
      ∃ t ∈ subs, IsNotification env triggerEntitiesV db.registrations t n := by
  induction subs generalizing db with
  | nil => simp [processSubscriptions]
  | cons t subs ih =>
    rw [processSubscriptions]
    dsimp only
    rw [List.mem_append, ih, registrations_processAvailability, Option.mem_toList, notification_iff]
    simp only [List.mem_cons, exists_eq_or_imp]

end Content

/-! ### What should be heard -/

/-- The entity is one of the subscription. -/
def AvailabilitySubscription.Owns (env : RegisterEnv) (s : AvailabilitySubscription) (en : EntityId) : Prop :=
  ∃ o ∈ s.entities, (if isTrue o.isPattern then env.jsMatch en.id o.id = true else o.id = en.id) ∧ o.type = en.type

/-- The context registration has one of the attributes of the subscription, which may be any. -/
def HasAttr (cr : ContextRegistration) (s : AvailabilitySubscription) : Prop :=
  s.attrs = [] ∨ ∃ cra ∈ cr.contextRegistrationAttributeVector, cra.name ∈ s.attrs

/-- A context registration of the request is about the subscription. -/
def Covers (env : RegisterEnv) (request : RegisterContextRequest) (s : AvailabilitySubscription) : Prop :=
  ∃ cr ∈ request.contextRegistrationVector, (∃ en ∈ cr.entityIdVector, s.Owns env en) ∧ HasAttr cr s

/-- The notifications are for the subscriptions that the request is about, and each lists entities of its own
subscription only. -/
structure Heard (env : RegisterEnv) (request : RegisterContextRequest) (casubs : List AvailabilitySubscription)
    (notifications : List AvailabilityNotification) : Prop where
  sent : ∀ s ∈ casubs, (∃ n ∈ notifications, n.subscriptionId = s.id) ↔
    env.getCurrentTime < s.expiration ∧ Covers env request s
  content : ∀ s ∈ casubs, ∀ n ∈ notifications, n.subscriptionId = s.id →
    ∀ crr ∈ n.contextRegistrationResponseVector, ∀ en ∈ crr.entityIdVector, s.Owns env en

def RegisterContextRequest.triggerEntities (request : RegisterContextRequest) : List EntityId :=
  request.contextRegistrationVector.flatMap ContextRegistration.entityIdVector

/-- The new registration is found as soon as it is stored. -/
def Live (env : RegisterEnv) (request : RegisterContextRequest) (servicePath : String) : Prop :=
  env.getCurrentTime < (newRegistration env request servicePath).expiration ∧
    (newRegistration env request servicePath).InPath env.pcre "" [] = true

/-- The condition for an unexpired subscription; `stored` are the registrations with other ids. -/
structure HearsItsOwn (env : RegisterEnv) (request : RegisterContextRequest) (servicePath : String)
    (stored : List Registration) (s : AvailabilitySubscription) : Prop where
  /-- Where the request has one of its attributes, it has entities of the subscription only. -/
  ownNew : (∃ cr ∈ request.contextRegistrationVector, Hit env cr s) → Live env request servicePath →
    ∀ cr ∈ request.contextRegistrationVector, HasAttr cr s → ∀ en ∈ cr.entityIdVector, s.Owns env en
  /-- A stored registration answers only if the request is about the subscription, and with its entities. -/
  ownStored : (∃ cr ∈ request.contextRegistrationVector, Hit env cr s) →
    ∀ r ∈ stored, ∀ cr, Answers env request.triggerEntities s.attrs r cr →
      Covers env request s ∧
        ∀ e ∈ cr.entities, includedEntity env.regexec e.entityId request.triggerEntities = true → s.Owns env e.entityId
  /-- If the request is about the subscription, a sub-query finds it and there is something to notify. -/
  found : Covers env request s → (∃ cr ∈ request.contextRegistrationVector, Hit env cr s) ∧
    (Live env request servicePath ∨ ∃ r ∈ stored, ∃ cr, Answers env request.triggerEntities s.attrs r cr)

section Heard

variable {env : RegisterEnv} {request : RegisterContextRequest} {servicePath : String}

private theorem mem_upsertRegistration {oid : String} {reg : Registration} {registrations : List (String × Registration)}
    {r : String × Registration} :
    r ∈ upsertRegistration oid reg registrations ↔ r = (oid, reg) ∨ r ∈ registrations ∧ r.1 ≠ oid := by
  unfold upsertRegistration
  split
  · rename_i hany
    obtain ⟨r', hr', hid⟩ := List.any_eq_true.1 hany
    rw [List.mem_map]
    constructor
    · rintro ⟨a, ha, rfl⟩
      split
      · exact Or.inl rfl
      · rename_i hne
        exact Or.inr ⟨ha, hne⟩
    · rintro (rfl | ⟨hr, hne⟩)
      · exact ⟨r', hr', if_pos (of_decide_eq_true hid)⟩
      · exact ⟨r, hr, if_neg hne⟩
  · rename_i hnone
    have hne : r ∈ registrations → r.1 ≠ oid := by
      intro hr he
      exact hnone (List.any_eq_true.2 ⟨r, hr, decide_eq_true he⟩)
    rw [List.mem_append, List.mem_singleton, or_comm, and_iff_left_of_imp hne]

/-- An entity of the request is included in the entities of the request. -/
private theorem includedEntity_of_mem {en : EntityId} (hen : en ∈ request.triggerEntities)
    (hplain : isTrue en.isPattern = false) {e : EntityId} (hid : e.id = en.id) (htype : e.type = en.type) :
    includedEntity env.regexec e request.triggerEntities = true := by
  refine List.any_eq_true.2 ⟨en, hen, ?_⟩
  simp [matchEntity, hplain, hid, htype]

private theorem entityId_registered (en : EntityId) :
    (RegisteredEntity.entityId { id := en.id, type := if en.type = "" then none else some en.type }).id = en.id ∧
      (RegisteredEntity.entityId { id := en.id, type := if en.type = "" then none else some en.type }).type = en.type := by
  refine ⟨rfl, ?_⟩
  unfold RegisteredEntity.entityId
  dsimp only
  split
  · rename_i h
    exact h.symm
  · rfl

/-- What the new registration answers: its elements with an entity and one of the attributes. -/
private theorem answers_new_iff
    (hentities : ∀ cr ∈ request.contextRegistrationVector, ∀ en ∈ cr.entityIdVector,
      en.type ≠ "" ∧ isTrue en.isPattern = false) {s : AvailabilitySubscription} {element : RegisteredElement} :
    Answers env request.triggerEntities s.attrs (newRegistration env request servicePath) element ↔
      Live env request servicePath ∧ ∃ cr ∈ request.contextRegistrationVector, registeredElement cr = element ∧
        cr.entityIdVector ≠ [] ∧ HasAttr cr s := by
  constructor
  · rintro ⟨htime, hpath, -, helement, ⟨e, he, -⟩, hattr⟩
    obtain ⟨cr, hcr, rfl⟩ := List.mem_map.1 helement
    obtain ⟨en, hen, -⟩ := List.mem_map.1 he
    exact ⟨⟨htime, hpath⟩, cr, hcr, rfl, List.ne_nil_of_mem hen, hattr⟩
  · rintro ⟨⟨htime, hpath⟩, cr, hcr, rfl, hne, hattr⟩
    obtain ⟨en, hen⟩ := List.exists_mem_of_ne_nil _ hne
    obtain ⟨htype, hplain⟩ := hentities cr hcr en hen
    have htrigger : en ∈ request.triggerEntities := List.mem_flatMap.2 ⟨cr, hcr, hen⟩
    have hregistered := List.mem_map_of_mem
      (f := fun en : EntityId =>
        ({ id := en.id, type := if en.type = "" then none else some en.type } : RegisteredEntity)) hen
    refine ⟨htime, hpath, ⟨en, htrigger, ?_⟩, List.mem_map_of_mem hcr, ⟨_, hregistered, ?_⟩, hattr⟩
    · rw [Selects, if_neg (by simp [hplain])]
      refine ⟨_, List.mem_flatMap.2 ⟨registeredElement cr, List.mem_map_of_mem hcr, hregistered⟩, rfl, Or.inr ?_⟩
      exact if_neg htype
    · obtain ⟨hid, htype'⟩ := entityId_registered en
      exact includedEntity_of_mem htrigger hplain hid htype'

/-- All that a notification for the subscription could list. -/
private def Told (env : RegisterEnv) (request : RegisterContextRequest) (servicePath : String) (stored : List Registration)
    (s : AvailabilitySubscription) (element : RegisteredElement) : Prop :=
  ∃ r, (r = newRegistration env request servicePath ∨ r ∈ stored) ∧
    Answers env request.triggerEntities s.attrs r element

/-- For one subscription: it is told of something exactly when it should be, and of its own entities only. -/
private theorem hearsItsOwn_iff {stored : List Registration}
    (hentities : ∀ cr ∈ request.contextRegistrationVector, ∀ en ∈ cr.entityIdVector,
      en.type ≠ "" ∧ isTrue en.isPattern = false) {s : AvailabilitySubscription} :
    HearsItsOwn env request servicePath stored s ↔
      ((((∃ cr ∈ request.contextRegistrationVector, Hit env cr s) ∧ ∃ element, Told env request servicePath stored s element) ↔
        Covers env request s) ∧
      ((∃ cr ∈ request.contextRegistrationVector, Hit env cr s) → ∀ element, Told env request servicePath stored s element →
        ∀ e ∈ element.entities, includedEntity env.regexec e.entityId request.triggerEntities = true →
          s.Owns env e.entityId)) := by
  have hnew := @answers_new_iff env request servicePath hentities s
  have howns : ∀ en : EntityId,
      s.Owns env (RegisteredEntity.entityId { id := en.id, type := if en.type = "" then none else some en.type }) ↔
        s.Owns env en := by
    intro en
    obtain ⟨hid, htype⟩ := entityId_registered en
    unfold AvailabilitySubscription.Owns
    rw [hid, htype]
  constructor
  · intro h
    refine ⟨⟨?_, ?_⟩, ?_⟩
    · rintro ⟨hhit, element, r, rfl | hr, ha⟩
      · obtain ⟨hlive, cr, hcr, rfl, hne, hattr⟩ := hnew.1 ha
        obtain ⟨en, hen⟩ := List.exists_mem_of_ne_nil _ hne
        exact ⟨cr, hcr, ⟨en, hen, h.ownNew hhit hlive cr hcr hattr en hen⟩, hattr⟩
      · exact (h.ownStored hhit r hr element ha).1
    · intro hcovers
      obtain ⟨hhit, hlive | ⟨r, hr, element, ha⟩⟩ := h.found hcovers
      · obtain ⟨cr, hcr, ⟨en, hen, -⟩, hattr⟩ := hcovers
        exact ⟨hhit, registeredElement cr, _, Or.inl rfl, hnew.2 ⟨hlive, cr, hcr, rfl, List.ne_nil_of_mem hen, hattr⟩⟩
      · exact ⟨hhit, element, r, Or.inr hr, ha⟩
    · rintro hhit element ⟨r, rfl | hr, ha⟩ e he hincluded
      · obtain ⟨hlive, cr, hcr, rfl, -, hattr⟩ := hnew.1 ha
        obtain ⟨en, hen, rfl⟩ := List.mem_map.1 he
        exact (howns en).2 (h.ownNew hhit hlive cr hcr hattr en hen)
      · exact (h.ownStored hhit r hr element ha).2 e he hincluded
  · rintro ⟨hiff, hown⟩
    refine ⟨?_, ?_, ?_⟩
    · intro hhit hlive cr hcr hattr en hen
      have ha := hnew.2 ⟨hlive, cr, hcr, rfl, List.ne_nil_of_mem hen, hattr⟩
      rw [← howns]
      refine hown hhit _ ⟨_, Or.inl rfl, ha⟩ _ (List.mem_map_of_mem hen) ?_
      obtain ⟨hid, htype⟩ := entityId_registered en
      exact includedEntity_of_mem (List.mem_flatMap.2 ⟨cr, hcr, hen⟩) (hentities cr hcr en hen).2 hid htype
    · intro hhit r hr element ha
      exact ⟨hiff.1 ⟨hhit, element, r, Or.inr hr, ha⟩, fun e he hincluded => hown hhit element ⟨r, Or.inr hr, ha⟩ e he
        hincluded⟩
    · intro hcovers
      obtain ⟨hhit, element, r, rfl | hr, ha⟩ := hiff.2 hcovers
      · exact ⟨hhit, Or.inl (hnew.1 ha).1⟩
      · exact ⟨hhit, Or.inr ⟨r, hr, element, ha⟩⟩

/-- The notifications that are sent: for the subscriptions that are hit, with what they are told of. -/
private theorem notifications_iff {id : Option String} {db : AvailabilityDB} {result : RegisterResult}
    (hids : (db.casubs.map AvailabilitySubscription.id).Nodup)
    (h : processRegisterContext env request id servicePath db = .ok result) (n : AvailabilityNotification) :
    n ∈ result.notifications ↔ ∃ s ∈ db.casubs, env.getCurrentTime < s.expiration ∧
      (∃ cr ∈ request.contextRegistrationVector, Hit env cr s) ∧
        IsNotification env request.triggerEntities (upsertRegistration (id.getD env.oidInit)
          (newRegistration env request servicePath) db.registrations) s.triggered n := by
  unfold processRegisterContext at h
  dsimp only at h
  split at h
  · cases h
  · rename_i subsToNotify htriggered
    split at h
    · cases h
    · cases h
      have hmem := mem_triggeredByAll hids (fun t ht => by cases ht) htriggered
      dsimp only
      rw [mem_processSubscriptions]
      simp only [(List.perm_insertionSort _ subsToNotify).mem_iff, hmem, List.not_mem_nil, false_or]
      constructor
      · rintro ⟨t, ⟨s, hs, rfl, htime, hhit⟩, hn⟩
        exact ⟨s, hs, htime, hhit, hn⟩
      · rintro ⟨s, hs, htime, hhit, hn⟩
        exact ⟨_, ⟨s, hs, rfl, htime, hhit⟩, hn⟩

/-- The content of the notification for a subscription is what it is told of. -/
private theorem content_iff (hcompiles : compiles env.pcre "^\\/.*" = true)
    (hentities : ∀ cr ∈ request.contextRegistrationVector, ∀ en ∈ cr.entityIdVector,
      en.type ≠ "" ∧ isTrue en.isPattern = false) (oid : String) (registrations : List (String × Registration))
    (s : AvailabilitySubscription) :
    ∃ crrs, registrationsQuery env.regexec env.pcre env.getCurrentTime request.triggerEntities s.attrs "" [] 0 0
        (registrationDocs (upsertRegistration oid (newRegistration env request servicePath) registrations)) = some crrs ∧
      ∀ crr, crr ∈ crrs ↔ ∃ element,
        Told env request servicePath ((registrations.filter fun r => r.1 ≠ oid).map Prod.snd) s element ∧
          processContextRegistrationElement env.regexec request.triggerEntities s.attrs element.toBson = some crr := by
  have hplain : ∀ en ∈ request.triggerEntities, isTrue en.isPattern = false := by
    intro en hen
    obtain ⟨cr, hcr, hen⟩ := List.mem_flatMap.1 hen
    exact (hentities cr hcr en hen).2
  obtain ⟨crrs, hquery, hmem⟩ := @registrationsQuery_answers env request.triggerEntities s.attrs hplain hcompiles
    (upsertRegistration oid (newRegistration env request servicePath) registrations)
  refine ⟨crrs, hquery, fun crr => (hmem crr).trans ?_⟩
  constructor
  · rintro ⟨r, hr, element, ha, hprocess⟩
    rcases mem_upsertRegistration.1 hr with rfl | ⟨hr, hne⟩
    · exact ⟨element, ⟨_, Or.inl rfl, ha⟩, hprocess⟩
    · have hstored : r.2 ∈ (registrations.filter fun r => r.1 ≠ oid).map Prod.snd :=
        List.mem_map_of_mem (List.mem_filter.2 ⟨hr, decide_eq_true hne⟩)
      exact ⟨element, ⟨r.2, Or.inr hstored, ha⟩, hprocess⟩
  · rintro ⟨element, ⟨r, rfl | hr, ha⟩, hprocess⟩
    · exact ⟨(oid, _), mem_upsertRegistration.2 (Or.inl rfl), element, ha, hprocess⟩
    · obtain ⟨p, hp, rfl⟩ := List.mem_map.1 hr
      obtain ⟨hp, hne⟩ := List.mem_filter.1 hp
      exact ⟨p, mem_upsertRegistration.2 (Or.inr ⟨hp, of_decide_eq_true hne⟩), element, ha, hprocess⟩

section Result

variable {id : Option String} {db : AvailabilityDB} {result : RegisterResult}

/-- The registrations that were stored before, under other ids. -/
def otherRegistrations (env : RegisterEnv) (id : Option String) (db : AvailabilityDB) : List Registration :=
  (db.registrations.filter fun r => r.1 ≠ id.getD env.oidInit).map Prod.snd

/-- The notification for a subscription, if there is one. -/
private theorem notification_of (hids : (db.casubs.map AvailabilitySubscription.id).Nodup)
    (h : processRegisterContext env request id servicePath db = .ok result) {s : AvailabilitySubscription}
    (hs : s ∈ db.casubs) {n : AvailabilityNotification} (hn : n ∈ result.notifications) (hid : n.subscriptionId = s.id) :
    env.getCurrentTime < s.expiration ∧ (∃ cr ∈ request.contextRegistrationVector, Hit env cr s) ∧
      IsNotification env request.triggerEntities (upsertRegistration (id.getD env.oidInit)
        (newRegistration env request servicePath) db.registrations) s.triggered n := by
  obtain ⟨s', hs', htime, hhit, hn'⟩ := (notifications_iff hids h n).1 hn
  have hsame : s' = s := by
    obtain ⟨crrs, -, -, rfl⟩ := hn'
    exact eq_of_id hids hs' hs hid
  rw [← hsame]
  exact ⟨htime, hhit, hn'⟩

/-- A subscription is notified exactly if it is unexpired and hit, and there is something to tell. -/
private theorem sent_iff (hcompiles : compiles env.pcre "^\\/.*" = true)
    (hids : (db.casubs.map AvailabilitySubscription.id).Nodup)
    (hentities : ∀ cr ∈ request.contextRegistrationVector, ∀ en ∈ cr.entityIdVector,
      en.type ≠ "" ∧ isTrue en.isPattern = false)
    (h : processRegisterContext env request id servicePath db = .ok result) {s : AvailabilitySubscription}
    (hs : s ∈ db.casubs) : (∃ n ∈ result.notifications, n.subscriptionId = s.id) ↔
      env.getCurrentTime < s.expiration ∧ (∃ cr ∈ request.contextRegistrationVector, Hit env cr s) ∧
        ∃ element, Told env request servicePath (otherRegistrations env id db) s element := by
  obtain ⟨crrs, hquery, hmem⟩ := @content_iff env request servicePath hcompiles hentities (id.getD env.oidInit)
    db.registrations s
  constructor
  · rintro ⟨n, hn, hid⟩
    obtain ⟨htime, hhit, crrs', hquery', hne, -⟩ := notification_of hids h hs hn hid
    obtain rfl := Option.some.inj (hquery.symm.trans hquery')
    obtain ⟨crr, hcrr⟩ := List.exists_mem_of_ne_nil _ hne
    obtain ⟨element, htold, -⟩ := (hmem crr).1 hcrr
    exact ⟨htime, hhit, element, htold⟩
  · rintro ⟨htime, hhit, element, r, hr, ha⟩
    obtain ⟨crr, hcrr⟩ := Option.isSome_iff_exists.1 ((kept_iff element).2 ha.kept)
    have hne : crrs ≠ [] := List.ne_nil_of_mem ((hmem crr).2 ⟨element, ⟨r, hr, ha⟩, hcrr⟩)
    exact ⟨⟨s.id, s.reference, crrs⟩, (notifications_iff hids h _).2 ⟨s, hs, htime, hhit, crrs, hquery, hne, rfl⟩, rfl⟩

/-- The entities in the notification for a subscription are its own exactly if those it is told of are. -/
private theorem own_iff (hcompiles : compiles env.pcre "^\\/.*" = true)
    (hids : (db.casubs.map AvailabilitySubscription.id).Nodup)
    (hentities : ∀ cr ∈ request.contextRegistrationVector, ∀ en ∈ cr.entityIdVector,
      en.type ≠ "" ∧ isTrue en.isPattern = false)
    (h : processRegisterContext env request id servicePath db = .ok result) {s : AvailabilitySubscription}
    (hs : s ∈ db.casubs) (htime : env.getCurrentTime < s.expiration) :
    (∀ n ∈ result.notifications, n.subscriptionId = s.id → ∀ crr ∈ n.contextRegistrationResponseVector,
        ∀ en ∈ crr.entityIdVector, s.Owns env en) ↔
      ((∃ cr ∈ request.contextRegistrationVector, Hit env cr s) → ∀ element,
        Told env request servicePath (otherRegistrations env id db) s element →
          ∀ e ∈ element.entities, includedEntity env.regexec e.entityId request.triggerEntities = true →
            s.Owns env e.entityId) := by
  obtain ⟨crrs, hquery, hmem⟩ := @content_iff env request servicePath hcompiles hentities (id.getD env.oidInit)
    db.registrations s
  constructor
  · rintro hall hhit element ⟨r, hr, ha⟩ e he hincluded
    obtain ⟨crr, hcrr⟩ := Option.isSome_iff_exists.1 ((kept_iff element).2 ha.kept)
    have hlisted := (hmem crr).2 ⟨element, ⟨r, hr, ha⟩, hcrr⟩
    refine hall ⟨s.id, s.reference, crrs⟩
      ((notifications_iff hids h _).2 ⟨s, hs, htime, hhit, crrs, hquery, List.ne_nil_of_mem hlisted, rfl⟩) rfl crr
      hlisted _ ?_
    rw [entities_of_process hcrr]
    exact List.mem_filter.2 ⟨List.mem_map_of_mem he, hincluded⟩
  · intro hall n hn hid crr hcrr en hen
    obtain ⟨-, hhit, crrs', hquery', -, rfl⟩ := notification_of hids h hs hn hid
    obtain rfl := Option.some.inj (hquery.symm.trans hquery')
    obtain ⟨element, htold, hprocess⟩ := (hmem crr).1 hcrr
    rw [entities_of_process hprocess] at hen
    obtain ⟨hmap, hincluded⟩ := List.mem_filter.1 hen
    obtain ⟨e, he, rfl⟩ := List.mem_map.1 hmap
    exact hall hhit element htold e he hincluded

/-- Availability subscriptions hear exactly of what they cover if and only if each unexpired one `HearsItsOwn`. -/
theorem availability_heard_iff (hcompiles : compiles env.pcre "^\\/.*" = true)
    (hids : (db.casubs.map AvailabilitySubscription.id).Nodup)
    (hentities : ∀ cr ∈ request.contextRegistrationVector, ∀ en ∈ cr.entityIdVector,
      en.type ≠ "" ∧ isTrue en.isPattern = false)
    (h : processRegisterContext env request id servicePath db = .ok result) :
    Heard env request db.casubs result.notifications ↔
      ∀ s ∈ db.casubs, env.getCurrentTime < s.expiration →
        HearsItsOwn env request servicePath (otherRegistrations env id db) s := by
  constructor
  · intro hheard s hs htime
    refine (hearsItsOwn_iff hentities).2 ⟨?_, (own_iff hcompiles hids hentities h hs htime).1 (hheard.content s hs)⟩
    have hiff := hheard.sent s hs
    rw [sent_iff hcompiles hids hentities h hs] at hiff
    simpa only [htime, true_and] using hiff
  · intro hall
    constructor
    · intro s hs
      rw [sent_iff hcompiles hids hentities h hs]
      exact and_congr_right fun htime => ((hearsItsOwn_iff hentities).1 (hall s hs htime)).1
    · intro s hs n hn hid
      have htime := (notification_of hids h hs hn hid).1
      exact (own_iff hcompiles hids hentities h hs htime).2 ((hearsItsOwn_iff hentities).1 (hall s hs htime)).2 n hn hid

end Result

end Heard

/-! ### What is found -/

/-- The sub-queries find what a request is about, if `isPattern` is written out and the engine reads the texts as they
are. -/
theorem hit_of_covers {env : RegisterEnv} {request : RegisterContextRequest} {s : AvailabilitySubscription}
    (hplain : ∀ cr ∈ request.contextRegistrationVector, ∀ en ∈ cr.entityIdVector,
      en.type ≠ "" ∧ en.isPattern = "false")
    (hspelled : ∀ o ∈ s.entities, o.isPattern = "true" ∨ o.isPattern = "false")
    (hjs : ∀ cr ∈ request.contextRegistrationVector, ∀ f ∈ [EntityId.id, EntityId.type],
      env.jsArray (jsArrayText ((entitiesNoPattern cr).map f)) = some ((entitiesNoPattern cr).map f))
    (hcovers : Covers env request s) : ∃ cr ∈ request.contextRegistrationVector, Hit env cr s := by
  obtain ⟨cr, hcr, ⟨en, hen, o, ho, hmatch, htype⟩, hattr⟩ := hcovers
  obtain ⟨hne, hfalse⟩ := hplain cr hcr en hen
  refine ⟨cr, hcr, ?_⟩
  rcases hspelled o ho with hpattern | hpattern
  · have hpos : isTrue o.isPattern = true := by
      rw [hpattern]
      decide
    rw [if_pos hpos] at hmatch
    refine Or.inr ⟨_, _, hjs cr hcr _ List.mem_cons_self, hjs cr hcr _ (List.mem_cons_of_mem _ List.mem_cons_self), o,
      ho, hpattern, ?_⟩
    have hmem : en ∈ entitiesNoPattern cr := List.mem_filter.2 ⟨hen, decide_eq_true hfalse⟩
    obtain ⟨i, hi, he⟩ := List.mem_iff_getElem.1 hmem
    refine ⟨(en.id, i), ?_, hmatch, ?_⟩
    · rw [List.mem_zipIdx_iff_getElem?, List.getElem?_map, List.getElem?_eq_getElem hi, he]
      rfl
    · rw [List.getElem?_map, List.getElem?_eq_getElem hi, he, htype, if_neg hne]
      rfl
  · have hneg : isTrue o.isPattern = false := by
      rw [hpattern]
      decide
    rw [hneg, if_neg Bool.false_ne_true] at hmatch
    exact Or.inl ⟨⟨en, hen, hfalse, hne, o, ho, hmatch, htype, hpattern⟩, hattr⟩

/-- A quiet surrounding at time 5; the engine reads arrays of one string, and a pattern is the string it matches. -/
def quietRegister : RegisterEnv where
  getCurrentTime := 5
  parse8601 := fun _ => 10
  oidInit := "r1"
  regexec := fun pattern s => pattern = s
  pcre := fun pattern => some fun s => if pattern = "^\\/.*" then s.toList.head? = some '/' else pattern = s
  jsArray := fun text => some [String.ofList ((text.toList.drop 3).take (text.length - 6))]
  jsMatch := fun s pattern => pattern = s

/-- The context registration of an attribute of an entity of type `T`. -/
def registrationOf (id : String) : ContextRegistration where
  entityIdVector := [{ id := id, type := "T", isPattern := "false" }]
  contextRegistrationAttributeVector := [{ name := "a", type := "t", isDomain := "false" }]
  providingApplication := "http://cr.com"

/-- A subscription for all attributes of `E1`. -/
def subscriptionOfE1 : AvailabilitySubscription where
  id := "s1"
  expiration := 20
  reference := "http://sub.com"
  entities := [{ id := "E1", type := "T", isPattern := "false" }]
  attrs := []

/-- The notification for `E1` with the context registrations of the given entities. -/
def notificationOfE1 (ids : List String) : AvailabilityNotification where
  subscriptionId := "s1"
  reference := "http://sub.com"
  contextRegistrationResponseVector := ids.map fun id =>
    { entityIdVector := [{ id := id, type := "T", isPattern := "false" }]
      contextRegistrationAttributeVector := [{ name := "a", type := "t", isDomain := "false" }]
      providingApplication := "http://cr.com" }

private theorem result_of_notifications {r : Except String RegisterResult} {ns : List AvailabilityNotification}
    (h : r.map RegisterResult.notifications = .ok ns) : ∃ result, r = .ok result ∧ result.notifications = ns := by
  cases r with
  | error e => cases h
  | ok result => exact ⟨result, rfl, Except.ok.inj h⟩

/-- A registration of `E1` alone is notified as it should be. -/
theorem availability_heard_alone : Heard quietRegister { contextRegistrationVector := [registrationOf "E1"] }
    [subscriptionOfE1] [notificationOfE1 ["E1"]] := by
  have hresult : (processRegisterContext quietRegister { contextRegistrationVector := [registrationOf "E1"] } none "/"
      { casubs := [subscriptionOfE1], registrations := [] }).map RegisterResult.notifications =
        .ok [notificationOfE1 ["E1"]] := by
    decide +kernel
  obtain ⟨result, hok, hnotifications⟩ := result_of_notifications hresult
  rw [← hnotifications]
  refine (availability_heard_iff (by decide) (by decide) ?_ hok).2 ?_
  · intro cr hcr en hen
    rw [List.mem_singleton.1 hcr] at hen
    rw [List.mem_singleton.1 hen]
    exact ⟨by decide, by decide⟩
  · intro s hs _
    rw [List.mem_singleton.1 hs]
    refine ⟨?_, ?_, ?_⟩
    · intro _ _ cr hcr _ en hen
      rw [List.mem_singleton.1 hcr] at hen
      rw [List.mem_singleton.1 hen]
      exact ⟨_, List.mem_singleton.2 rfl, by decide, rfl⟩
    · intro _ r hr
      cases hr
    · intro _
      refine ⟨⟨_, List.mem_singleton.2 rfl, Or.inl ⟨⟨_, List.mem_singleton.2 rfl, by decide, by decide, _,
        List.mem_singleton.2 rfl, rfl, rfl, rfl⟩, Or.inl rfl⟩⟩, Or.inl ⟨by decide, by decide +kernel⟩⟩

/-- A request for `E1` and `E2` notifies the subscription for `E1` of both. -/
theorem availability_tells_others :
    ∃ result, processRegisterContext quietRegister
        { contextRegistrationVector := [registrationOf "E1", registrationOf "E2"] } none "/"
        { casubs := [subscriptionOfE1], registrations := [] } = .ok result ∧
      ¬ Heard quietRegister { contextRegistrationVector := [registrationOf "E1", registrationOf "E2"] }
        [subscriptionOfE1] result.notifications := by
  have hresult : (processRegisterContext quietRegister
      { contextRegistrationVector := [registrationOf "E1", registrationOf "E2"] } none "/"
      { casubs := [subscriptionOfE1], registrations := [] }).map RegisterResult.notifications =
        .ok [notificationOfE1 ["E1", "E2"]] := by
    decide +kernel
  obtain ⟨result, hok, hnotifications⟩ := result_of_notifications hresult
  refine ⟨result, hok, fun hheard => ?_⟩
  rw [hnotifications] at hheard
  obtain ⟨o, ho, hmatch, -⟩ := hheard.content _ (List.mem_singleton.2 rfl) _ (List.mem_singleton.2 rfl) rfl _
    (List.mem_cons_of_mem _ List.mem_cons_self) _ List.mem_cons_self
  rw [List.mem_singleton.1 ho] at hmatch
  exact absurd hmatch (by decide)

end OrionBroker.Availability
