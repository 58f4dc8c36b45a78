import OrionBroker.ParseSubscription

/-!
# Subscriptions with a description (`mongoSubscribeContext.cpp`, `mongoUpdateContextSubscription.cpp`)

The operations on subscriptions of the second version, where a document also has the field `description`.  Without it
they are those on plain documents (`forget_mongoSubscribeContext`, `forget_mongoUpdateContextSubscription`).

The functions `given...` say what the members of a payload mean.  The entities that are parsed are the given ones in one
case only (`parsedEntities_eq_given_iff`): an id that is an empty text is taken for none, and an entity is not parsed
twice.
-/

namespace OrionBroker

/-! ### The operations -/

structure DescribedCsub extends Csub where
  description : Option String := none
deriving DecidableEq

structure DescribedState (Item : Type) where
  cache : List (CachedSubscription Item)
  csubs : String → List DescribedCsub

namespace Described

variable {Item : Type} (code : FilterCode Item) (call : Subscribing) (now : Int) (tenant servicePath : String)
  (request : DescribedRequest Item)

/-- The state without the descriptions. -/
def forget (st : DescribedState Item) : SubState Item where
  cache := st.cache
  csubs := fun t => (st.csubs t).map DescribedCsub.toCsub

/-- The document of a new subscription. -/
def newCsub (oid : String) : DescribedCsub :=
  { OrionBroker.newCsub call now servicePath oid request.toSubscribeContextRequest with
    description := if request.description ≠ "" then some request.description else none }

def mongoSubscribeContext (oid : String) (st : DescribedState Item) : DescribedState Item × Nat :=
  ({ csubs := Function.update st.csubs tenant (st.csubs tenant ++ [newCsub call now servicePath request oid])
     cache := st.cache ++ (newItem code call now tenant servicePath oid request.toSubscribeContextRequest).toList },
    (request.processed call).sent)

/-- The description of the new document; an empty one is removed. -/
def updatedDescription (sub : DescribedCsub) : Option String :=
  if request.descriptionProvided then (if request.description ≠ "" then some request.description else none)
  else sub.description

/-- The document of an updated subscription. -/
def updatedCsub (sub : DescribedCsub) (cSubP : Option (CachedSubscription Item)) : DescribedCsub :=
  { request.toSubscribeContextRequest.updatedCsub call now .v2 sub.toCsub servicePath cSubP with
    description := updatedDescription request sub }

def mongoUpdateContextSubscription (subscriptionId : String) (st : DescribedState Item) :
    Option (DescribedState Item × Nat) :=
  match safeGetSubId subscriptionId with
  | none => none
  | some id =>
    match KeyedList.get (fun sub : DescribedCsub => sub.id) id (st.csubs tenant) with
    | none => none
    | some sub =>
      let cSubP := subCacheItemLookup tenant subscriptionId st.cache
      let newSub := updatedCsub call now servicePath request sub cSubP
      let inserted := updatedItem code call now .v2 tenant servicePath subscriptionId request.toSubscribeContextRequest
        sub.toCsub cSubP
      some ({ csubs := Function.update st.csubs tenant
                (KeyedList.modify (fun sub : DescribedCsub => sub.id) id (fun _ => newSub) (st.csubs tenant))
              cache := subCacheItemRemove cSubP (st.cache ++ inserted.toOption.toList) },
        (request.toSubscribeContextRequest.updatedProcessed call sub.toCsub).sent)

variable {code call now tenant servicePath request} in
/-- A new subscription is stored like one without a description. -/
theorem forget_mongoSubscribeContext {oid : String} {st : DescribedState Item} :
    forget (mongoSubscribeContext code call now tenant servicePath request oid st).1 =
      (OrionBroker.mongoSubscribeContext code call now tenant servicePath oid request.toSubscribeContextRequest
        (forget st)).1 := by
  unfold forget mongoSubscribeContext OrionBroker.mongoSubscribeContext
  dsimp only
  congr 1
  funext t
  by_cases ht : t = tenant
  · subst ht
    rw [Function.update_self, Function.update_self, List.map_append]
    rfl
  · rw [Function.update_of_ne ht, Function.update_of_ne ht]

private theorem map_modify {id : String} {change : DescribedCsub → DescribedCsub} {sub : Csub}
    (h : ∀ x, (change x).toCsub = sub) (l : List DescribedCsub) :
    (KeyedList.modify (fun sub : DescribedCsub => sub.id) id change l).map DescribedCsub.toCsub =
      KeyedList.modify Csub.id id (fun _ => sub) (l.map DescribedCsub.toCsub) := by
  induction l with
  | nil => rfl
  | cons x l ih =>
    rw [List.map_cons]
    unfold KeyedList.modify
    by_cases hx : x.id = id
    · rw [if_pos hx, if_pos hx, List.map_cons, h]
    · rw [if_neg hx, if_neg hx, List.map_cons, ih]

variable {code call now tenant servicePath request} in
/-- A subscription is updated like one without a description. -/
theorem forget_mongoUpdateContextSubscription {subscriptionId : String} {st : DescribedState Item} :
    (mongoUpdateContextSubscription code call now tenant servicePath request subscriptionId st).map
        (fun result => (forget result.1, result.2)) =
      OrionBroker.mongoUpdateContextSubscription code call now .v2 tenant servicePath subscriptionId
        request.toSubscribeContextRequest (forget st) := by
  unfold mongoUpdateContextSubscription OrionBroker.mongoUpdateContextSubscription
  cases safeGetSubId subscriptionId with
  | none => rfl
  | some id =>
    have hget : KeyedList.get Csub.id id ((forget st).csubs tenant) =
        (KeyedList.get (fun sub : DescribedCsub => sub.id) id (st.csubs tenant)).map DescribedCsub.toCsub :=
      KeyedList.get_map _
    dsimp only
    rw [hget]
    cases KeyedList.get (fun sub : DescribedCsub => sub.id) id (st.csubs tenant) with
    | none => rfl
    | some sub =>
      simp only [Option.map_some]
      unfold forget
      dsimp only
      congr 3
      funext t
      by_cases ht : t = tenant
      · subst ht
        rw [Function.update_self, Function.update_self]
        exact map_modify (fun _ => rfl) _
      · rw [Function.update_of_ne ht, Function.update_of_ne ht]

end Described

/-! ### What a payload gives -/

/-- A text that is read to its end. -/
def Plain (s : String) : Prop := '\x00' ∉ s.toList

/-- The entity that an element of the array `entities` is about; without an id it is any. -/
def givenEntity (element : Json) : EntityId :=
  match element.member "idPattern", element.member "id" with
  | some idPattern, _ => { id := idPattern.text, type := element.textOf "type", isPattern := "true" }
  | none, some id => { id := id.text, type := element.textOf "type", isPattern := "false" }
  | none, none => { id := ".*", type := element.textOf "type", isPattern := "true" }

def givenExpression (v : Json) : SubscriptionExpression where
  q := v.textOf "q"
  geometry := v.textOf "geometry"
  coords := v.textOf "coords"
  georel := v.textOf "georel"

/-- An entity of a document; a field that is not there is empty. -/
def CsubEntity.toEntityId (entity : CsubEntity) : EntityId where
  id := entity.id.getD ""
  type := entity.type.getD ""
  isPattern := entity.isPattern.getD ""

/-- The element is parsed as it is given. -/
structure PlainElement (element : Json) : Prop where
  type : Plain (element.textOf "type")
  idPattern : ∀ v, element.member "idPattern" = some v → Plain v.text ∧ v.text ≠ ""
  id : element.member "idPattern" = none → ∀ v, element.member "id" = some v → Plain v.text ∧ v.text ≠ ""

structure PlainExpression (v : Json) : Prop where
  q : Plain (v.textOf "q")
  geometry : Plain (v.textOf "geometry")
  coords : Plain (v.textOf "coords")
  georel : Plain (v.textOf "georel")

/-- A text member that is read where it is, or else a stored text. -/
theorem text_getD_iff {member : Option Json} {stored : String} :
    (member.map fun v => cString v.text).getD stored = (member.map Json.text).getD stored ↔
      ∀ v, member = some v → Plain v.text := by
  cases member with
  | none => simp
  | some v =>
    simp only [Option.map_some, Option.getD_some, Option.some.injEq, forall_eq']
    exact cString_eq_self_iff

theorem parsedTexts_eq_texts_iff {v : Json} : parsedTexts v = v.texts ↔ ∀ s ∈ v.texts, Plain s := by
  unfold parsedTexts
  induction v.texts with
  | nil => simp
  | cons s l ih =>
    rw [List.map_cons, List.cons_eq_cons, ih, cString_eq_self_iff, List.forall_mem_cons]
    rfl

theorem parsedExpression_eq_given_iff {v : Json} : parsedExpression v = givenExpression v ↔ PlainExpression v := by
  unfold parsedExpression givenExpression
  rw [SubscriptionExpression.mk.injEq]
  simp only [cString_eq_self_iff]
  constructor
  · rintro ⟨hq, hgeometry, hcoords, hgeorel⟩
    exact ⟨hq, hgeometry, hcoords, hgeorel⟩
  · intro h
    exact ⟨h.q, h.geometry, h.coords, h.georel⟩

/-- The id that is used is the given one. -/
private theorem id_eq_iff {s : String} : (if cString s = "" then ".*" else cString s) = s ↔ Plain s ∧ s ≠ "" := by
  by_cases hempty : cString s = ""
  · rw [if_pos hempty]
    constructor
    · intro h
      rw [← h] at hempty
      exact absurd hempty (by decide)
    · rintro ⟨hplain, hne⟩
      rcases cString_eq_empty hempty with h | h
      · exact absurd h hne
      · exact absurd h hplain
  · rw [if_neg hempty, cString_eq_self_iff]
    constructor
    · intro hplain
      refine ⟨hplain, ?_⟩
      intro h
      rw [h] at hempty
      exact hempty rfl
    · exact fun h => h.1

private theorem type_eq_iff {element : Json} :
    (((element.member "type").map fun v => cString v.text).getD "") = element.textOf "type" ↔
      Plain (element.textOf "type") := by
  unfold Json.textOf
  cases element.member "type" with
  | none => simp [Plain]
  | some v => exact cString_eq_self_iff

theorem parsedEntity_eq_given_iff {element : Json} : parsedEntity element = givenEntity element ↔ PlainElement element := by
  have hplain : PlainElement element ↔ Plain (element.textOf "type") ∧
      (∀ v, element.member "idPattern" = some v → Plain v.text ∧ v.text ≠ "") ∧
      (element.member "idPattern" = none → ∀ v, element.member "id" = some v → Plain v.text ∧ v.text ≠ "") :=
    ⟨fun h => ⟨h.type, h.idPattern, h.id⟩, fun h => ⟨h.1, h.2.1, h.2.2⟩⟩
  rw [hplain, ← type_eq_iff]
  unfold parsedEntity givenEntity makeEntityId
  cases hp : element.member "idPattern" with
  | some p =>
    have hid := id_eq_iff (s := p.text)
    simp only [Option.map_some, Option.getD_some, Option.isSome_some, or_true, if_true, EntityId.mk.injEq, and_true, hid,
      Option.some.injEq, forall_eq', reduceCtorEq, false_implies]
    exact and_comm
  | none =>
    cases hi : element.member "id" with
    | some i =>
      have hid := id_eq_iff (s := i.text)
      simp only [Option.map_some, Option.map_none, Option.getD_some, Option.getD_none, Option.isSome_none,
        Bool.false_eq_true, or_false, EntityId.mk.injEq, and_true, hid, Option.some.injEq, forall_eq', reduceCtorEq,
        false_implies, forall_const]
      constructor
      · rintro ⟨hid, htype, -⟩
        exact ⟨htype, fun _ => trivial, hid⟩
      · rintro ⟨htype, -, hid⟩
        refine ⟨hid, htype, if_neg ?_⟩
        intro he
        rcases cString_eq_empty he with h | h
        · exact hid.2 h
        · exact hid.1 h
    | none => simp

/-! ### Entities that are given twice -/

private theorem foldl_pushEntityIfAbsent (l acc : List EntityId) :
    ∃ l', l'.Sublist l ∧ l.foldl (fun eivP eiP => pushEntityIfAbsent eiP eivP) acc = acc ++ l' := by
  induction l generalizing acc with
  | nil => exact ⟨[], List.Sublist.refl _, (List.append_nil acc).symm⟩
  | cons e l ih =>
    rw [List.foldl_cons]
    unfold pushEntityIfAbsent
    split
    · obtain ⟨l', hl', he⟩ := ih acc
      exact ⟨l', hl'.cons e, he⟩
    · obtain ⟨l', hl', he⟩ := ih (acc ++ [e])
      refine ⟨e :: l', hl'.cons_cons e, ?_⟩
      rw [List.append_assoc, List.singleton_append] at he
      exact he

private theorem keys_foldl_pushEntityIfAbsent {l acc : List EntityId} (h : (acc.map EntityId.listKey).Nodup) :
    ((l.foldl (fun eivP eiP => pushEntityIfAbsent eiP eivP) acc).map EntityId.listKey).Nodup := by
  induction l generalizing acc with
  | nil => exact h
  | cons e l ih =>
    rw [List.foldl_cons]
    apply ih
    unfold pushEntityIfAbsent
    split
    · exact h
    · rename_i hnew
      rw [List.map_append, List.nodup_append]
      refine ⟨h, by simp, ?_⟩
      intro k hk k' hk' he
      rw [List.mem_singleton.1 hk'] at he
      exact hnew (he ▸ hk)

private theorem foldl_pushEntityIfAbsent_of_nodup {l acc : List EntityId}
    (h : ((acc ++ l).map EntityId.listKey).Nodup) :
    l.foldl (fun eivP eiP => pushEntityIfAbsent eiP eivP) acc = acc ++ l := by
  induction l generalizing acc with
  | nil => exact (List.append_nil acc).symm
  | cons e l ih =>
    have hnew : e.listKey ∉ acc.map EntityId.listKey := by
      rw [List.map_append, List.nodup_append] at h
      intro hmem
      exact h.2.2 _ hmem _ (List.mem_map_of_mem List.mem_cons_self) rfl
    have hpush : pushEntityIfAbsent e acc = acc ++ [e] := if_neg hnew
    rw [List.foldl_cons, hpush, ih]
    · exact (List.append_cons acc e l).symm
    · rw [← List.append_cons]
      exact h

/-- Parsed entities are told apart by their keys. -/
private theorem eq_of_listKey_parsedEntity {x y : Json} (h : (parsedEntity x).listKey = (parsedEntity y).listKey) :
    parsedEntity x = parsedEntity y := by
  have hpattern : ∀ element, (parsedEntity element).isPattern ≠ "" := by
    intro element
    unfold parsedEntity makeEntityId
    dsimp only
    split <;> decide
  have hservicePath : (parsedEntity x).servicePath = (parsedEntity y).servicePath := rfl
  unfold EntityId.listKey at h
  rw [if_neg (hpattern x), if_neg (hpattern y), Prod.mk.injEq, Prod.mk.injEq] at h
  revert h hservicePath
  rcases parsedEntity x with ⟨id, type, isPattern, servicePath⟩
  rcases parsedEntity y with ⟨id', type', isPattern', servicePath'⟩
  rintro ⟨rfl, rfl, rfl⟩ rfl
  rfl

/-- The entities that are parsed are the given ones if no entity is given twice. -/
theorem parsedEntities_eq_given_iff {v : Json} :
    parsedEntities v = v.items.map givenEntity ↔
      (v.items.map givenEntity).Nodup ∧ ∀ element ∈ v.items, PlainElement element := by
  have hplain : v.items.map parsedEntity = v.items.map givenEntity ↔ ∀ element ∈ v.items, PlainElement element := by
    rw [List.map_inj_left]
    exact forall₂_congr fun _ _ => parsedEntity_eq_given_iff
  rw [← hplain]
  constructor
  · intro h
    obtain ⟨l, hsub, hl⟩ := foldl_pushEntityIfAbsent (v.items.map parsedEntity) []
    have hl' : parsedEntities v = l := hl
    have hlength : l.length = (v.items.map parsedEntity).length := by
      rw [← hl', h, List.length_map, List.length_map]
    have hkeys : ((parsedEntities v).map EntityId.listKey).Nodup := keys_foldl_pushEntityIfAbsent List.nodup_nil
    refine ⟨h ▸ hkeys.of_map _, ?_⟩
    rw [← hsub.eq_of_length hlength, ← hl', h]
  · rintro ⟨hnodup, he⟩
    rw [← he] at hnodup ⊢
    refine @foldl_pushEntityIfAbsent_of_nodup _ [] (hnodup.map_on ?_)
    intro x hx y hy hkey
    obtain ⟨element, -, rfl⟩ := List.mem_map.1 hx
    obtain ⟨element', -, rfl⟩ := List.mem_map.1 hy
    exact eq_of_listKey_parsedEntity hkey

theorem mem_parsedEntities {v : Json} {en : EntityId} (h : en ∈ parsedEntities v) :
    ∃ element ∈ v.items, parsedEntity element = en := by
  obtain ⟨l, hsub, hl⟩ := foldl_pushEntityIfAbsent (v.items.map parsedEntity) []
  have hl' : parsedEntities v = l := hl
  rw [hl'] at h
  exact List.mem_map.1 (hsub.subset h)

/-- The entities of a document that is made from the entities of a payload. -/
theorem toEntityId_entitiesOfRequest (v : Json) :
    (entitiesOfRequest (parsedEntities v)).map CsubEntity.toEntityId = parsedEntities v := by
  unfold entitiesOfRequest
  rw [List.map_map]
  refine (List.map_congr_left ?_).trans (List.map_id _)
  intro e he
  obtain ⟨element, -, rfl⟩ := mem_parsedEntities he
  have htype : ∀ type : String, (if type = "" then none else some type).getD "" = type := by
    intro type
    split
    · rename_i he
      exact he.symm
    · rfl
  unfold CsubEntity.toEntityId
  simp only [Function.comp_apply, Option.getD_some, htype]
  rfl

theorem parsedEntities_eq_nil_iff {v : Json} : parsedEntities v = [] ↔ v.items = [] := by
  constructor
  · intro h
    cases hitems : v.items with
    | nil => rfl
    | cons e l =>
      exfalso
      unfold parsedEntities at h
      rw [hitems, List.map_cons, List.foldl_cons] at h
      obtain ⟨l', -, hl'⟩ := foldl_pushEntityIfAbsent (l.map parsedEntity) (pushEntityIfAbsent (parsedEntity e) [])
      rw [hl'] at h
      simp [pushEntityIfAbsent] at h
  · intro h
    unfold parsedEntities
    rw [h]
    rfl

end OrionBroker
