import OrionBroker.SubscriptionPatch

/-!
# Reports of subscriptions (`mongoGetSubscriptions.cpp`)

`mongoGetSubscription` reads a subscription from its document; the count of notifications and the time of the last one
are put together from the document and from the item of the cache.

`reported_as_created_iff` is about a new subscription, after any number of notifications and flushes of the cache: it
says for which payloads the report is what the payload gives (`ReportedAsCreated`).
-/

namespace OrionBroker

/-! ### The report -/

structure EntID where
  id : String := ""
  idPattern : String := ""
  type : String
deriving DecidableEq

/-- `ngsiv2::Subscription`. -/
structure ReportedSubscription where
  id : String
  description : String
  entities : List EntID
  condAttributes : List String
  expression : SubscriptionExpression
  attributes : List String
  url : String
  timesSent : Int
  lastNotification : Int
  throttling : Int
  expires : Int
  status : String
deriving DecidableEq

def isFalse (s : String) : Bool := s = "false" || s = "0"

def EntityId.toEntID (en : EntityId) : EntID :=
  if isFalse en.isPattern then { id := en.id, type := en.type } else { idPattern := en.id, type := en.type }

/-- The number of notifications from a document and from the cache. -/
def timesSent (count : Option Int) (cached : Int) : Int :=
  if cached ≠ 0 then (if count.getD (-1) = -1 then 0 else count.getD (-1)) + cached else count.getD (-1)

section Report

variable {Item : Type} (tenant : String) (now : Int)

/-- What `setSubject`, `setNotification` and `setStatus` read. -/
def reportSubscription (r : DescribedCsub) (cache : List (CachedSubscription Item)) : ReportedSubscription where
  id := r.id
  description := r.description.getD ""
  entities := r.entities.map fun ent => ent.toEntityId.toEntID
  condAttributes := r.onChangeConditions.flatMap SubscriptionCondition.condValueList
  expression := r.expression.getD {}
  attributes := r.attrs
  url := r.reference.getD ""
  timesSent := timesSent r.count (((subCacheItemLookup tenant r.id cache).map CachedSubscription.count).getD 0)
  lastNotification :=
    ((subCacheItemLookup tenant r.id cache).map fun cSub =>
      max (r.lastNotification.getD (-1)) cSub.lastNotificationTime).getD (r.lastNotification.getD (-1))
  throttling := r.throttling.getD (-1)
  expires := r.expiration.getD (-1)
  status :=
    if r.expiration.getD (-1) > now ∨ r.expiration.getD (-1) = -1 then r.status.getD STATUS_ACTIVE else "expired"

/-- The report, or the status code of the error. -/
def mongoGetSubscription (idSub : String) (st : DescribedState Item) : Except HttpStatusCode ReportedSubscription :=
  match safeGetSubId idSub with
  | none => .error .SccContextElementNotFound
  | some oid =>
    match (st.csubs tenant).filter fun sub => sub.id = oid with
    | [] => .error (.other 470)
    | [r] => .ok (reportSubscription tenant now r st.cache)
    | _ :: _ :: _ => .error .SccConflict

end Report

/-! ### After the creation -/

/-- What happens to a subscription after it is created: a notification is counted in the cache, or the count of the
cache is moved to the document. -/
inductive SentLater where
  | notified (time : Int)
  | flushed

section Later

variable {Item : Type} (tenant oid : String)

def SentLater.apply (event : SentLater) (st : DescribedState Item) : DescribedState Item :=
  match event with
  | .notified time =>
    { st with
      cache := KeyedList.modify CachedSubscription.key (tenant, oid)
        (fun cSub => { cSub with count := cSub.count + 1, lastNotificationTime := time }) st.cache }
  | .flushed =>
    match subCacheItemLookup tenant oid st.cache with
    | none => st
    | some cSub =>
      { csubs := Function.update st.csubs tenant
          (KeyedList.modify (fun sub : DescribedCsub => sub.id) oid
            (fun sub => { sub with toCsub := sub.toCsub.flush cSub.count cSub.lastNotificationTime }) (st.csubs tenant))
        cache := KeyedList.modify CachedSubscription.key (tenant, oid) (fun cSub => { cSub with count := 0 }) st.cache }

/-- The number of notifications among these events. -/
def sentLater (events : List SentLater) : Nat :=
  events.countP fun event => match event with
    | .notified _ => true
    | .flushed => false

/-- The document of the subscription is as it was created, but for the notifications; their number is split between
the document and the cache. -/
structure StoredAsCreated (created : DescribedCsub) (total : Int) (st : DescribedState Item) : Prop where
  split : ∃ count lastNotification cSub,
    ((st.csubs tenant).filter fun sub => sub.id = oid) =
      [{ created with count := count, lastNotification := lastNotification }] ∧
    subCacheItemLookup tenant oid st.cache = some cSub ∧
    0 ≤ count.getD 0 ∧ 0 ≤ cSub.count ∧ count.getD 0 + cSub.count = total

variable {tenant oid} {created : DescribedCsub} {total : Int} {st : DescribedState Item}

theorem StoredAsCreated.step (h : StoredAsCreated tenant oid created total st) (hid : created.id = oid)
    (event : SentLater) : StoredAsCreated tenant oid created (total + sentLater [event]) (event.apply tenant oid st) := by
  obtain ⟨count, lastNotification, cSub, hdocs, hitem, hcount, hcached, htotal⟩ := h.split
  have hkey : cSub.key = (tenant, oid) := (KeyedList.mem_of_get hitem).2
  cases event with
  | notified time =>
    refine ⟨count, lastNotification, { cSub with count := cSub.count + 1, lastNotificationTime := time }, hdocs, ?_,
      hcount, ?_, ?_⟩
    · unfold SentLater.apply subCacheItemLookup
      dsimp only
      rw [KeyedList.get_modify, if_pos rfl]
      · have hget : KeyedList.get CachedSubscription.key (tenant, oid) st.cache = some cSub := hitem
        rw [hget, Option.map_some]
      · intro c hc
        exact hc
    · dsimp only
      omega
    · dsimp only
      change _ = total + ((1 : Nat) : Int)
      omega
  | flushed =>
    have happly : SentLater.apply tenant oid .flushed st =
        { csubs := Function.update st.csubs tenant
            (KeyedList.modify (fun sub : DescribedCsub => sub.id) oid
              (fun sub => { sub with toCsub := sub.toCsub.flush cSub.count cSub.lastNotificationTime }) (st.csubs tenant))
          cache := KeyedList.modify CachedSubscription.key (tenant, oid) (fun cSub => { cSub with count := 0 }) st.cache } := by
      unfold SentLater.apply
      dsimp only
      rw [hitem]
    rw [happly]
    let flushed := Csub.flush cSub.count cSub.lastNotificationTime
      { created.toCsub with count := count, lastNotification := lastNotification }
    have hflushed : flushed.count.getD 0 = count.getD 0 + cSub.count := by
      change (if cSub.count ≠ 0 then some (count.getD 0 + cSub.count) else count).getD 0 = _
      split
      · rfl
      · rename_i hzero
        rw [not_not.1 hzero, Int.add_zero]
    refine ⟨flushed.count, flushed.lastNotification, { cSub with count := 0 }, ?_, ?_, ?_, le_refl _, ?_⟩
    · dsimp only
      rw [Function.update_self, KeyedList.filter_modify]
      · rw [hdocs]
        unfold KeyedList.modify
        rw [if_pos hid]
        rfl
      · intro sub hsub
        exact hsub
    · unfold subCacheItemLookup
      dsimp only
      rw [KeyedList.get_modify, if_pos rfl]
      · have hget : KeyedList.get CachedSubscription.key (tenant, oid) st.cache = some cSub := hitem
        rw [hget, Option.map_some]
      · intro c hc
        exact hc
    · omega
    · change _ = total + ((0 : Nat) : Int)
      dsimp only
      omega

theorem StoredAsCreated.run (h : StoredAsCreated tenant oid created total st) (hid : created.id = oid)
    (events : List SentLater) :
    StoredAsCreated tenant oid created (total + sentLater events)
      (events.foldl (fun st event => event.apply tenant oid st) st) := by
  induction events generalizing st total with
  | nil =>
    change StoredAsCreated tenant oid created (total + ((0 : Nat) : Int)) st
    rw [Int.natCast_zero, Int.add_zero]
    exact h
  | cons event events ih =>
    have hsum : sentLater (event :: events) = sentLater [event] + sentLater events := by
      unfold sentLater
      rw [← List.countP_append, List.singleton_append]
    have hrun := ih (h.step hid event)
    rw [List.foldl_cons, hsum, Int.natCast_add, ← Int.add_assoc]
    exact hrun

end Later

/-! ### Agreement with the payload -/

/-- The date of a payload. -/
def givenExpires (parse8601Time : String → Int) (d : Json) : Int :=
  ((d.member "expires").map (parsedExpires parse8601Time)).getD PERMANENT_SUBS_DATETIME

/-- The report at a time has what the payload gives; `-1` for the count stands for none. -/
structure ReportedAsCreated (parse8601Time : String → Int) (d : Json) (time : Int) (sent : Nat)
    (report : ReportedSubscription) : Prop where
  description : report.description = ((d.member "description").map Json.text).getD ""
  entities : report.entities =
    ((d.follow ["subject", "entities"]).map fun v => v.items.map fun element => (givenEntity element).toEntID).getD []
  condAttributes : report.condAttributes = ((d.follow ["subject", "condition", "attrs"]).map Json.texts).getD []
  expression : report.expression = ((d.follow ["subject", "condition", "expression"]).map givenExpression).getD {}
  attributes : report.attributes = ((d.follow ["notification", "attrs"]).map Json.texts).getD []
  url : report.url = ((d.follow ["notification", "http", "url"]).map Json.text).getD ""
  throttling : report.throttling = ((d.member "throttling").map Json.integer).getD 0
  expires : report.expires = givenExpires parse8601Time d
  status : report.status =
    if givenExpires parse8601Time d ≤ time then "expired" else ((d.member "status").map Json.text).getD STATUS_ACTIVE
  timesSent : (if report.timesSent = -1 then 0 else report.timesSent) = sent

/-- The payload for which the report is as created. -/
structure ReportApplies {Item : Type} (call : Subscribing) (now : Int) (parse8601Time : String → Int) (d : Json)
    (request : DescribedRequest Item) (time : Int) : Prop where
  description : ∀ v, d.member "description" = some v → Plain v.text
  /-- No entity is given twice or with an empty id. -/
  entities : ∀ v, d.follow ["subject", "entities"] = some v →
    (v.items.map givenEntity).Nodup ∧ ∀ element ∈ v.items, PlainElement element
  condAttributes : ∀ v, d.follow ["subject", "condition", "attrs"] = some v → ∀ s ∈ v.texts, Plain s
  expression : ∀ v, d.follow ["subject", "condition", "expression"] = some v → PlainExpression v
  attributes : ∀ v, d.follow ["notification", "attrs"] = some v → ∀ s ∈ v.texts, Plain s
  url : ∀ v, d.follow ["notification", "http", "url"] = some v → Plain v.text
  /-- The date is after the epoch, or it is the one that is stored for the default duration. -/
  expires : 0 < givenExpires parse8601Time d ∨ givenExpires parse8601Time d = now + call.parse8601 DEFAULT_DURATION
  status : givenExpires parse8601Time d ≤ time ∨ ∀ v, d.member "status" = some v → Plain v.text
  /-- There is no initial notification. -/
  initial : (request.processed call).notificationDone = false

section Agreement

variable {Item : Type} {parser : SubscriptionParser Item} {d : Json} {request : DescribedRequest Item}

/-- A parsed entity and a given one that are reported in the same way are the same. -/
private theorem eq_of_toEntID {x y : Json} (h : (parsedEntity x).toEntID = (givenEntity y).toEntID) :
    parsedEntity x = givenEntity y := by
  have hid : (parsedEntity x).id ≠ "" := by
    unfold parsedEntity makeEntityId
    dsimp only
    split
    · decide
    · rename_i hne
      exact hne
  have hpattern : (parsedEntity x).isPattern = "true" ∨ (parsedEntity x).isPattern = "false" := by
    unfold parsedEntity makeEntityId
    dsimp only
    split
    · exact Or.inl rfl
    · exact Or.inr rfl
  have hpath : (parsedEntity x).servicePath = "" := rfl
  have hgiven : ((givenEntity y).isPattern = "true" ∨ (givenEntity y).isPattern = "false") ∧
      (givenEntity y).servicePath = "" := by
    unfold givenEntity
    split
    · exact ⟨Or.inl rfl, rfl⟩
    · exact ⟨Or.inr rfl, rfl⟩
    · exact ⟨Or.inl rfl, rfl⟩
  revert h hid hpattern hpath hgiven
  rcases parsedEntity x with ⟨id, type, isPattern, servicePath⟩
  rcases givenEntity y with ⟨id', type', isPattern', servicePath'⟩
  dsimp only
  rintro h hid (rfl | rfl) rfl ⟨rfl | rfl, rfl⟩
  · have he : ({ idPattern := id, type := type } : EntID) = { idPattern := id', type := type' } := h
    rw [EntID.mk.injEq] at he
    rw [he.2.1, he.2.2]
  · have he : ({ idPattern := id, type := type } : EntID) = { id := id', type := type' } := h
    rw [EntID.mk.injEq] at he
    exact absurd he.2.1 hid
  · have he : ({ id := id, type := type } : EntID) = { idPattern := id', type := type' } := h
    rw [EntID.mk.injEq] at he
    exact absurd he.1 hid
  · have he : ({ id := id, type := type } : EntID) = { id := id', type := type' } := h
    rw [EntID.mk.injEq] at he
    rw [he.1, he.2.2]

theorem toEntID_parsedEntities_iff {v : Json} :
    (parsedEntities v).map EntityId.toEntID = v.items.map (fun element => (givenEntity element).toEntID) ↔
      (v.items.map givenEntity).Nodup ∧ ∀ element ∈ v.items, PlainElement element := by
  rw [← parsedEntities_eq_given_iff]
  constructor
  · intro h
    have hmap : (parsedEntities v).map EntityId.toEntID = (v.items.map givenEntity).map EntityId.toEntID := by
      rw [h, List.map_map]
      rfl
    have hlength : (parsedEntities v).length = (v.items.map givenEntity).length := by
      have := congrArg List.length hmap
      rwa [List.length_map, List.length_map] at this
    refine List.ext_getElem hlength ?_
    intro i hi hi'
    have hget := List.getElem_of_eq hmap (by rwa [List.length_map])
    rw [List.getElem_map, List.getElem_map] at hget
    obtain ⟨x, -, hx⟩ := mem_parsedEntities (List.getElem_mem hi)
    obtain ⟨y, -, hy⟩ := List.mem_map.1 (List.getElem_mem hi')
    rw [← hx, ← hy] at hget ⊢
    exact eq_of_toEntID hget
  · intro h
    rw [h, List.map_map]
    rfl

private theorem texts_iff {member : Option Json} :
    (member.map parsedTexts).getD [] = (member.map Json.texts).getD [] ↔
      ∀ v, member = some v → ∀ s ∈ v.texts, Plain s := by
  cases member with
  | none => simp
  | some v =>
    simp only [Option.map_some, Option.getD_some, Option.some.injEq, forall_eq']
    exact parsedTexts_eq_texts_iff

/-- What is reported of a new subscription, but for the notifications. -/
structure ReportedFields (call : Subscribing) (now : Int) (parse8601Time : String → Int) (d : Json) (time : Int)
    (report : ReportedSubscription) : Prop where
  description : report.description = ((d.member "description").map fun v => cString v.text).getD ""
  entities : report.entities =
    ((d.follow ["subject", "entities"]).map fun v => (parsedEntities v).map EntityId.toEntID).getD []
  condAttributes : report.condAttributes = ((d.follow ["subject", "condition", "attrs"]).map parsedTexts).getD []
  expression : report.expression = ((d.follow ["subject", "condition", "expression"]).map parsedExpression).getD {}
  attributes : report.attributes = ((d.follow ["notification", "attrs"]).map parsedTexts).getD []
  url : report.url = ((d.follow ["notification", "http", "url"]).map fun v => cString v.text).getD ""
  throttling : report.throttling = ((d.member "throttling").map Json.integer).getD 0
  expires : report.expires = if 0 < givenExpires parse8601Time d then givenExpires parse8601Time d
    else now + call.parse8601 DEFAULT_DURATION
  status : report.status = if report.expires > time ∨ report.expires = -1 then
    ((d.member "status").map fun v => cString v.text).getD STATUS_ACTIVE else "expired"

variable {call : Subscribing} {now : Int} {servicePath oid : String}

private theorem reportedFields (hp : Parsed parser false d request) {tenant : String} {time : Int}
    {cache : List (CachedSubscription Item)} (count lastNotification : Option Int) :
    ReportedFields call now parser.parse8601Time d time (reportSubscription tenant time
      { Described.newCsub call now servicePath request oid with count := count, lastNotification := lastNotification }
      cache) where
  description := by
    change (if request.description ≠ "" then some request.description else none).getD "" = _
    rw [← hp.description]
    split
    · rfl
    · rename_i he
      exact (not_not.1 he).symm
  entities := by
    change (entitiesOfRequest request.entityIdVector).map (fun ent => ent.toEntityId.toEntID) = _
    rw [hp.entityIdVector]
    cases d.follow ["subject", "entities"] with
    | none => rfl
    | some v =>
      have hmap := toEntityId_entitiesOfRequest v
      simp only [Option.map_some, Option.getD_some]
      rw [← hmap, List.map_map, hmap]
      rfl
  condAttributes := by
    change ((processConditionVector call request.newStatus request.notifyConditionVector).conds.filter
      fun condition => condition.type = ON_CHANGE_CONDITION).flatMap SubscriptionCondition.condValueList = _
    rw [conds_processConditionVector, hp.notifyConditionVector]
    cases d.follow ["subject", "condition", "attrs"] with
    | none => rfl
    | some v => simp
  expression := by
    change request.expression = _
    exact hp.expression
  attributes := by
    change request.attributeList = _
    exact hp.attributeList
  url := by
    change request.reference = _
    exact hp.reference
  throttling := by
    change (request.storedThrottling call).getD (-1) = _
    have hthrottling := hp.throttling
    unfold SubscribeContextRequest.storedThrottling
    rw [hthrottling]
    simp only [Bool.false_eq_true, if_false, ne_eq, not_true_eq_false]
    split
    · rfl
    · rename_i he
      exact (not_not.1 he).symm
  expires := by
    change request.expiration call now = _
    have hexpires : request.expires = givenExpires parser.parse8601Time d := by
      rw [hp.expires]
      rfl
    unfold SubscribeContextRequest.expiration
    rw [hexpires, hp.duration]
    rfl
  status := by
    have hstatus : request.newStatus = ((d.member "status").map fun v => cString v.text).getD STATUS_ACTIVE := by
      have hgiven := hp.statusGiven
      unfold SubscribeContextRequest.newStatus
      rw [hp.status]
      revert hgiven
      cases d.member "status" with
      | none => simp
      | some v =>
        intro hgiven
        have hne := hgiven v rfl
        simp [hne]
    rw [← hstatus]
    rfl

private theorem givenExpires_ne (hp : Parsed parser false d request) : givenExpires parser.parse8601Time d ≠ -1 := by
  have hdate := hp.date
  unfold givenExpires
  revert hdate
  cases d.member "expires" with
  | none =>
    intro _
    show PERMANENT_SUBS_DATETIME ≠ -1
    decide
  | some v =>
    intro hdate
    exact hdate v rfl

/-- The report is as created but for the count. -/
private theorem reportedFields_iff (hp : Parsed parser false d request) {time : Int} {sent : Nat}
    {report : ReportedSubscription} (h : ReportedFields call now parser.parse8601Time d time report)
    (hsent : (if report.timesSent = -1 then 0 else report.timesSent) = sent ↔
      (request.processed call).notificationDone = false) :
    ReportedAsCreated parser.parse8601Time d time sent report ↔
      ReportApplies call now parser.parse8601Time d request time := by
  have hdescription := @text_getD_iff (d.member "description") ""
  have hentities : report.entities = ((d.follow ["subject", "entities"]).map fun v =>
        v.items.map fun element => (givenEntity element).toEntID).getD [] ↔
      ∀ v, d.follow ["subject", "entities"] = some v →
        (v.items.map givenEntity).Nodup ∧ ∀ element ∈ v.items, PlainElement element := by
    rw [h.entities]
    cases d.follow ["subject", "entities"] with
    | none => simp
    | some v =>
      simp only [Option.map_some, Option.getD_some, Option.some.injEq, forall_eq']
      exact toEntID_parsedEntities_iff
  have hexpression : report.expression =
        ((d.follow ["subject", "condition", "expression"]).map givenExpression).getD {} ↔
      ∀ v, d.follow ["subject", "condition", "expression"] = some v → PlainExpression v := by
    rw [h.expression]
    cases d.follow ["subject", "condition", "expression"] with
    | none => simp
    | some v =>
      simp only [Option.map_some, Option.getD_some, Option.some.injEq, forall_eq']
      exact parsedExpression_eq_given_iff
  have hexpires : report.expires = givenExpires parser.parse8601Time d ↔
      0 < givenExpires parser.parse8601Time d ∨
        givenExpires parser.parse8601Time d = now + call.parse8601 DEFAULT_DURATION := by
    rw [h.expires]
    split
    · rename_i hpos
      exact iff_of_true rfl (Or.inl hpos)
    · rename_i hpos
      exact eq_comm.trans (or_iff_right hpos).symm
  have hstatus : report.expires = givenExpires parser.parse8601Time d →
      (report.status = (if givenExpires parser.parse8601Time d ≤ time then "expired"
        else ((d.member "status").map Json.text).getD STATUS_ACTIVE) ↔
      (givenExpires parser.parse8601Time d ≤ time ∨ ∀ v, d.member "status" = some v → Plain v.text)) := by
    intro he
    have hne := givenExpires_ne hp
    rw [h.status, he]
    by_cases hle : givenExpires parser.parse8601Time d ≤ time
    · rw [if_pos hle, if_neg]
      · exact iff_of_true rfl (Or.inl hle)
      · omega
    · rw [if_neg hle, if_pos (Or.inl (by omega)), text_getD_iff]
      exact (or_iff_right hle).symm
  constructor
  · intro hr
    exact ⟨hdescription.1 (h.description ▸ hr.description), hentities.1 hr.entities,
      texts_iff.1 (h.condAttributes ▸ hr.condAttributes), hexpression.1 hr.expression,
      texts_iff.1 (h.attributes ▸ hr.attributes), text_getD_iff.1 (h.url ▸ hr.url), hexpires.1 hr.expires,
      (hstatus hr.expires).1 hr.status, hsent.1 hr.timesSent⟩
  · intro hr
    have he := hexpires.2 hr.expires
    exact ⟨h.description.trans (hdescription.2 hr.description), hentities.2 hr.entities,
      h.condAttributes.trans (texts_iff.2 hr.condAttributes), hexpression.2 hr.expression,
      h.attributes.trans (texts_iff.2 hr.attributes), h.url.trans (text_getD_iff.2 hr.url), h.throttling, he,
      (hstatus he).2 hr.status, hsent.2 hr.initial⟩

/-! ### New subscriptions -/

/-- A new subscription has one condition, so that it has one initial notification at most. -/
private theorem sent_of_parsed (hp : Parsed parser false d request) :
    (request.processed call).sent = if (request.processed call).notificationDone then 1 else 0 := by
  unfold SubscribeContextRequest.processed
  rw [hp.notifyConditionVector]
  cases d.follow ["subject", "condition", "attrs"] with
  | none => rfl
  | some v =>
    simp only [Option.map_some, Option.getD_some, processConditionVector, if_true]
    split <;> rfl

private theorem newItem_of_parsed (hp : Parsed parser false d request) (code : FilterCode Item) (tenant : String) :
    ∃ item, newItem code call now tenant servicePath oid request.toSubscribeContextRequest = some item ∧
      item.key = (tenant, oid) ∧ item.count = if (request.processed call).notificationDone then 1 else 0 := by
  obtain ⟨v, hv⟩ := Option.isSome_iff_exists.1 (hp.required rfl).2.1
  have hncv : request.notifyConditionVector = [⟨ON_CHANGE_CONDITION, parsedTexts v⟩] := by
    rw [hp.notifyConditionVector, hv]
    rfl
  have hany : (request.notifyConditionVector.any fun condition =>
      Text.strcasecmp condition.type ON_CHANGE_CONDITION) = true := by
    rw [hncv, List.any_cons, Bool.or_eq_true]
    left
    show Text.strcasecmp ON_CHANGE_CONDITION ON_CHANGE_CONDITION = true
    decide
  unfold newItem subCacheItemInsert
  rw [if_pos hany]
  exact ⟨_, rfl, rfl, rfl⟩

/-- What is counted for a new subscription; an initial notification is counted twice. -/
private theorem storedAsCreated_new (hp : Parsed parser false d request) (code : FilterCode Item) {tenant : String}
    {st : DescribedState Item} (hcsubs : ∀ sub ∈ st.csubs tenant, sub.id ≠ oid)
    (hcache : subCacheItemLookup tenant oid st.cache = none) :
    StoredAsCreated tenant oid (Described.newCsub call now servicePath request oid)
      (if (request.processed call).notificationDone then 2 else 0)
      (Described.mongoSubscribeContext code call now tenant servicePath request oid st).1 := by
  obtain ⟨item, hitem, hkey, hcount⟩ := @newItem_of_parsed _ _ _ _ call now servicePath oid hp code tenant
  have hdocs : ((st.csubs tenant).filter fun sub => sub.id = oid) = [] := by
    rw [List.filter_eq_nil_iff]
    intro sub hsub
    simpa using hcsubs sub hsub
  refine ⟨(Described.newCsub call now servicePath request oid).count,
    (Described.newCsub call now servicePath request oid).lastNotification, item, ?_, ?_, ?_, ?_, ?_⟩
  · unfold Described.mongoSubscribeContext
    dsimp only
    have hself : (Described.newCsub call now servicePath request oid).id = oid := rfl
    rw [Function.update_self, List.filter_append, hdocs, List.nil_append, List.filter_eq_self.2]
    intro sub hsub
    rw [List.mem_singleton.1 hsub]
    exact decide_eq_true hself
  · unfold Described.mongoSubscribeContext subCacheItemLookup
    dsimp only
    have hget : KeyedList.get CachedSubscription.key (tenant, oid) st.cache = none := hcache
    rw [hitem, Option.toList_some, KeyedList.get_append, hget, Option.none_or, KeyedList.get_cons, if_pos hkey]
  · change 0 ≤ (if (request.processed call).notificationDone then some 1 else none : Option Int).getD 0
    split <;> decide
  · rw [hcount]
    split <;> decide
  · rw [hcount]
    change (if (request.processed call).notificationDone then some 1 else none : Option Int).getD 0 + _ = _
    split <;> rfl

/-- The number that is reported, where `-1` stands for none. -/
private theorem timesSent_eq {count : Option Int} {cached : Int} (hcount : 0 ≤ count.getD 0) (hcached : 0 ≤ cached) :
    (if timesSent count cached = -1 then 0 else timesSent count cached) = count.getD 0 + cached := by
  unfold timesSent
  cases count with
  | none =>
    simp only [Option.getD_none, if_true]
    split <;> split <;> omega
  | some count =>
    simp only [Option.getD_some] at hcount ⊢
    rw [if_neg (show ¬ count = -1 by omega)]
    split <;> split <;> omega

variable (code : FilterCode Item) (call now servicePath oid) (tenant : String)

/-- A new subscription is reported, after any later notifications; the report is as created exactly for these
payloads. -/
theorem reported_as_created_iff {payload : Option Json} {st : DescribedState Item} {time : Int}
    (hparse : parseSubscription parser payload false = .ok request) (hoid : safeGetSubId oid = some oid)
    (hcsubs : ∀ sub ∈ st.csubs tenant, sub.id ≠ oid) (hcache : subCacheItemLookup tenant oid st.cache = none)
    (later : List SentLater) :
    ∃ d report, payload = some d ∧
      mongoGetSubscription tenant time oid (later.foldl (fun st event => event.apply tenant oid st)
        (Described.mongoSubscribeContext code call now tenant servicePath request oid st).1) = .ok report ∧
      (ReportedAsCreated parser.parse8601Time d time
          ((Described.mongoSubscribeContext code call now tenant servicePath request oid st).2 + sentLater later) report ↔
        ReportApplies call now parser.parse8601Time d request time) := by
  obtain ⟨d, rfl, hp⟩ := parseSubscription_ok hparse
  have hnew := @storedAsCreated_new _ _ _ _ call now servicePath oid hp code tenant st hcsubs hcache
  obtain ⟨count, lastNotification, cSub, hdocs, hitem, hcount, hcached, htotal⟩ := (hnew.run rfl later).split
  have hreport : mongoGetSubscription tenant time oid (later.foldl (fun st event => event.apply tenant oid st)
      (Described.mongoSubscribeContext code call now tenant servicePath request oid st).1) =
      .ok (reportSubscription tenant time
        { Described.newCsub call now servicePath request oid with count := count, lastNotification := lastNotification }
        (later.foldl (fun st event => event.apply tenant oid st)
          (Described.mongoSubscribeContext code call now tenant servicePath request oid st).1).cache) := by
    unfold mongoGetSubscription
    rw [hoid]
    dsimp only
    rw [hdocs]
  refine ⟨d, _, rfl, hreport, reportedFields_iff hp (reportedFields hp count lastNotification) ?_⟩
  have htimes : (reportSubscription tenant time
        { Described.newCsub call now servicePath request oid with count := count, lastNotification := lastNotification }
        (later.foldl (fun st event => event.apply tenant oid st)
          (Described.mongoSubscribeContext code call now tenant servicePath request oid st).1).cache).timesSent =
      timesSent count cSub.count := by
    unfold reportSubscription
    dsimp only
    have hid : (Described.newCsub call now servicePath request oid).id = oid := rfl
    rw [hid, hitem]
    rfl
  have hsent : (Described.mongoSubscribeContext code call now tenant servicePath request oid st).2 =
      if (request.processed call).notificationDone then 1 else 0 := sent_of_parsed hp
  rw [htimes, timesSent_eq hcount hcached, htotal, hsent]
  cases (request.processed call).notificationDone with
  | true => simp
  | false => simp

end Agreement

/-! ### A subscription on `Room1` -/

section Example

/-- There is an entity for every condition. -/
def anyEntity : Subscribing where
  parse8601 := fun _ => 86400
  processOnChangeConditionForSubscription := fun _ => true

def room1Payload : Json := .object
  [("subject", .object
      [("entities", .array [.object [("id", .string "Room1"), ("type", .string "Room")]]),
        ("condition", .object [("attrs", .array [.string "temperature"])])]),
    ("notification", .object [("http", .object [("url", .string "http://localhost:1028/accumulate")])])]

def room1Request : DescribedRequest Empty where
  entityIdVector := [{ id := "Room1", type := "Room", isPattern := "false" }]
  notifyConditionVector := [⟨ON_CHANGE_CONDITION, ["temperature"]⟩]
  reference := "http://localhost:1028/accumulate"
  throttling := { seconds := 0 }
  expires := PERMANENT_SUBS_DATETIME
  attrsFormat := .NGSI_V2_NORMALIZED

def noSubscriptions : DescribedState Empty where
  cache := []
  csubs := fun _ => []

/-- One initial notification is reported as two. -/
theorem reported_twice :
    ¬ ∀ (payload : Json) (request : DescribedRequest Empty) (report : ReportedSubscription),
      parseSubscription noTexts (some payload) false = .ok request →
      mongoGetSubscription "" 200 exampleId
        (Described.mongoSubscribeContext noFilters anyEntity 100 "" "/" request exampleId noSubscriptions).1 =
          .ok report →
      ReportedAsCreated noTexts.parse8601Time payload 200
        (Described.mongoSubscribeContext noFilters anyEntity 100 "" "/" request exampleId noSubscriptions).2 report := by
  intro h
  have hreported := h room1Payload room1Request _ rfl rfl
  have htimes := hreported.timesSent
  revert htimes
  decide

/-- Without an initial notification the report is as created, also after a notification and a flush. -/
theorem reported_as_created_room1 :
    ∃ d report, some room1Payload = some d ∧
      mongoGetSubscription "" 200 exampleId ([SentLater.notified 150, .flushed].foldl
        (fun st event => event.apply "" exampleId st)
        (Described.mongoSubscribeContext noFilters noEntities 100 "" "/" room1Request exampleId noSubscriptions).1) =
          .ok report ∧
      (ReportedAsCreated noTexts.parse8601Time d 200
          ((Described.mongoSubscribeContext noFilters noEntities 100 "" "/" room1Request exampleId noSubscriptions).2 +
            sentLater [.notified 150, .flushed]) report ↔
        ReportApplies noEntities 100 noTexts.parse8601Time d room1Request 200) :=
  reported_as_created_iff noEntities 100 "/" exampleId noFilters "" rfl rfl (by rintro sub ⟨⟩) rfl
    [.notified 150, .flushed]

end Example

end OrionBroker
