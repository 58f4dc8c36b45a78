import OrionBroker.SubscribeContext

/-!
# Updates of a subscription (`mongoUpdateContextSubscription.cpp`)

`mongoUpdateContextSubscription` writes a new document, with the fields of the request or else those of the old document,
and makes a new item of the cache from this document, from the old item and from the request.  Then it removes the old
item.  The document is found by the OID, which is the same for capital letters and small ones, but the cache is asked
with the text of the request.

`mongoUpdateContextSubscription_spec` says what is found after an update.  `update_agreement_iff` is about the agreement
of the new item with the new document.
-/

namespace OrionBroker

def isHexDigit (c : Char) : Bool := c.isDigit || ('a' ≤ c && c ≤ 'f') || ('A' ≤ c && c ≤ 'F')

/-- An OID is given by 24 hexadecimal digits; the result is its text with small letters, as the broker prints it. -/
def safeGetSubId (subId : String) : Option String :=
  if subId.length = 24 ∧ subId.toList.all isHexDigit = true then some (String.ofList (subId.toList.map Char.toLower))
  else none

/-! ### The new document -/

namespace SubscribeContextRequest

variable {Item : Type} (call : Subscribing) (now : Int) (version : ApiVersion)
  (request : SubscribeContextRequest Item) (sub : Csub)

/-- Entities, attributes and reference are not updatable in the first version. -/
def updatedEntities : List CsubEntity :=
  if version = .v2 ∧ request.entityIdVector ≠ [] then entitiesOfRequest request.entityIdVector else sub.entities

def updatedAttrs : List String :=
  if version = .v2 ∧ request.attributeList ≠ [] then request.attributeList else sub.attrs

def updatedReference : String :=
  if version = .v2 ∧ request.reference ≠ "" then request.reference else sub.reference.getD ""

def updatedExpiration : Int :=
  if version = .v1 then
    if request.duration ≠ "" then now + call.parse8601 request.duration else sub.expiration.getD (-1)
  else if request.expires > 0 then request.expires
  else sub.expiration.getD (-1)

/-- A throttling of 0 given as a text removes the field. -/
def updatedThrottling : Option Int :=
  if request.throttling.string ≠ "" then
    if call.parse8601 request.throttling.string ≠ 0 then some (call.parse8601 request.throttling.string) else none
  else if request.throttling.seconds > 0 then some request.throttling.seconds
  else sub.throttling

def updatedStatus : String := if request.status ≠ "" then request.status else sub.status.getD STATUS_ACTIVE

def updatedProcessed : ProcessedConditions :=
  processConditionVector call (request.updatedStatus sub) request.notifyConditionVector

def updatedConditions : List SubscriptionCondition :=
  if request.notifyConditionVector = [] then sub.conditions else (request.updatedProcessed call sub).conds

def updatedExpression : Option SubscriptionExpression :=
  if request.expressionIsSet then some request.expression else sub.expression

def updatedFormatString : String :=
  if request.attrsFormat ≠ .NO_FORMAT then renderFormatToString request.attrsFormat
  else sub.format.getD (renderFormatToString .NGSI_V1_LEGACY)

def updatedFormat : RenderFormat :=
  if request.attrsFormat ≠ .NO_FORMAT then request.attrsFormat
  else stringToRenderFormat (request.updatedFormatString sub)

/-- The notification time that is given to the new item: the current time after an initial notification, else that of
the old item. -/
def updatedTime (cSubP : Option (CachedSubscription Item)) : Int :=
  if (request.updatedProcessed call sub).notificationDone then now
  else (cSubP.map CachedSubscription.lastNotificationTime).getD 0

/-- The new document.  Without an initial notification it has a notification time and a count only if the old one has. -/
def updatedCsub (servicePath : String) (cSubP : Option (CachedSubscription Item)) : Csub where
  id := sub.id
  entities := request.updatedEntities version sub
  attrs := request.updatedAttrs version sub
  reference := some (request.updatedReference version sub)
  expiration := some (request.updatedExpiration call now version sub)
  servicePath := some (requestedServicePath servicePath)
  throttling := request.updatedThrottling call sub
  status := some (request.updatedStatus sub)
  conditions := request.updatedConditions call sub
  expression := request.updatedExpression sub
  lastNotification :=
    if (request.updatedProcessed call sub).notificationDone then some now
    else sub.lastNotification.map fun stored => max stored (request.updatedTime call now sub cSubP)
  count :=
    if (request.updatedProcessed call sub).notificationDone then
      some (sub.count.getD 0 + (cSubP.map CachedSubscription.count).getD 0 + 1)
    else sub.count.map fun count => count + (cSubP.map CachedSubscription.count).getD 0
  format := some (request.updatedFormatString sub)

end SubscribeContextRequest

/-! ### The update -/

section Update

variable {Item : Type} (code : FilterCode Item) (call : Subscribing) (now : Int) (version : ApiVersion)
  (tenant servicePath subscriptionId : String) (request : SubscribeContextRequest Item)

/-- The new item, or the number of the error; the service path is that of the old item. -/
def updatedItem (sub : Csub) (cSubP : Option (CachedSubscription Item)) : Except Int (CachedSubscription Item) :=
  Update.mongoSubCacheItemInsert code tenant (request.updatedCsub call now version sub servicePath cSubP) subscriptionId
    ((cSubP.map CachedSubscription.servicePath).getD "") (request.updatedTime call now sub cSubP)
    (request.updatedExpiration call now version sub) (request.updatedStatus sub) request.expression
    (scopeFilter request.scopeVector) (request.updatedFormat sub)

/-- The cache after the old item is removed. -/
def subCacheItemRemove (cSubP : Option (CachedSubscription Item)) (cache : List (CachedSubscription Item)) :
    List (CachedSubscription Item) :=
  match cSubP with
  | none => cache
  | some cSub => cache.eraseP fun item => item.key = cSub.key

/-- The state after an update and the number of initial notifications, if there is such a subscription.  What is done
to the old item before it is removed has no effect. -/
def mongoUpdateContextSubscription (st : SubState Item) : Option (SubState Item × Nat) :=
  match safeGetSubId subscriptionId with
  | none => none
  | some id =>
    match KeyedList.get Csub.id id (st.csubs tenant) with
    | none => none
    | some sub =>
      let cSubP := subCacheItemLookup tenant subscriptionId st.cache
      let newSub := request.updatedCsub call now version sub servicePath cSubP
      let inserted := updatedItem code call now version tenant servicePath subscriptionId request sub cSubP
      some ({ csubs := Function.update st.csubs tenant (KeyedList.modify Csub.id id (fun _ => newSub) (st.csubs tenant))
              cache := subCacheItemRemove cSubP (st.cache ++ inserted.toOption.toList) },
        (request.updatedProcessed call sub).sent)

/-- The fields of the new item: those that are read from the new document are as if it was loaded. -/
def updatedCached (sub : Csub) (cSub : CachedSubscription Item) : CachedSubscription Item :=
  let newSub := request.updatedCsub call now version sub servicePath (some cSub)
  { (newSub.cached tenant : CachedSubscription Item) with
    subscriptionId := subscriptionId
    servicePath := cSub.servicePath
    renderFormat := request.updatedFormat sub
    expirationTime := request.updatedExpiration call now version sub
    lastNotificationTime :=
      if toInt (request.updatedTime call now sub (some cSub)) = -1 then toInt (newSub.lastNotification.getD (-1))
      else toInt (request.updatedTime call now sub (some cSub))
    status := request.updatedStatus sub
    expression := request.expression
    stringFilter := code.fill ((scopeFilter request.scopeVector).getD []) }

/-- A new item is inserted exactly if there is an old one, with a service path, and the new document could be loaded. -/
theorem updatedItem_toOption (sub : Csub) (cSubP : Option (CachedSubscription Item)) :
    (updatedItem code call now version tenant servicePath subscriptionId request sub cSubP).toOption =
      cSubP.bind fun cSub =>
        if subscriptionId ≠ "" ∧ cSub.servicePath ≠ "" ∧
            (request.updatedCsub call now version sub servicePath (some cSub)).Loadable then
          some (updatedCached code call now version tenant servicePath subscriptionId request sub cSub) else none := by
  unfold updatedItem Update.mongoSubCacheItemInsert Csub.Loadable
  cases cSubP with
  | none =>
    by_cases hid : subscriptionId = ""
    · simp [hid, Except.toOption]
    · simp [hid, Except.toOption]
  | some cSub =>
    by_cases hid : subscriptionId = ""
    · simp [hid, Except.toOption]
    · by_cases hpath : cSub.servicePath = ""
      · simp [hid, hpath, Except.toOption]
      · by_cases he : (request.updatedCsub call now version sub servicePath (some cSub)).entityInfos = []
        · simp [hid, hpath, he, Except.toOption]
        · by_cases hc : (request.updatedCsub call now version sub servicePath (some cSub)).onChangeConditions = []
          · simp [hid, hpath, he, hc, Except.toOption]
          · simp [hid, hpath, he, hc, Except.toOption, updatedCached, Csub.cached]

/-- The cache after the new item is inserted and the old one removed, found by key. -/
private theorem lookup_subCacheItemRemove {cache : List (CachedSubscription Item)} {k : String × String}
    (hkeys : (cache.map CachedSubscription.key).Nodup) {inserted : Option (CachedSubscription Item)}
    (hkey : ∀ item, inserted = some item → item.key = k)
    (hnone : KeyedList.get CachedSubscription.key k cache = none → inserted = none) :
    ((subCacheItemRemove (KeyedList.get CachedSubscription.key k cache) (cache ++ inserted.toList)).map
        CachedSubscription.key).Nodup ∧
      ∀ j, KeyedList.get CachedSubscription.key j
          (subCacheItemRemove (KeyedList.get CachedSubscription.key k cache) (cache ++ inserted.toList)) =
        if j = k then inserted else KeyedList.get CachedSubscription.key j cache := by
  cases hg : KeyedList.get CachedSubscription.key k cache with
  | none =>
    rw [hnone hg]
    refine ⟨by simpa [subCacheItemRemove] using hkeys, ?_⟩
    intro j
    simp only [subCacheItemRemove, Option.toList_none, List.append_nil]
    split
    · rename_i hj
      rw [hj, hg]
    · rfl
  | some cSub =>
    obtain ⟨hmem, hk⟩ := KeyedList.mem_of_get hg
    have herase : subCacheItemRemove (some cSub) (cache ++ inserted.toList) =
        (cache.eraseP fun item => item.key = k) ++ inserted.toList := by
      unfold subCacheItemRemove
      dsimp only
      rw [hk, List.eraseP_append_left (by simpa using hk) _ hmem]
    have hget := KeyedList.get_eraseP (k := k) hkeys
    rw [herase]
    constructor
    · rw [List.map_append, List.nodup_append]
      refine ⟨hkeys.sublist ((List.eraseP_sublist).map _), ?_, ?_⟩
      · cases inserted <;> simp
      · intro a ha b hb he
        obtain ⟨item, hitem, rfl⟩ := List.mem_map.1 hb
        rw [he, hkey item (Option.mem_toList.1 hitem)] at ha
        exact KeyedList.get_eq_none_iff.1 ((hget k).trans (if_pos rfl)) ha
    · intro j
      rw [KeyedList.get_append, hget]
      cases hi : inserted with
      | none =>
        simp [KeyedList.get]
      | some item =>
        have hitem := hkey item hi
        rw [Option.toList_some, KeyedList.get_cons, hitem]
        by_cases hj : j = k
        · simp [hj]
        · have hkj : k ≠ j := fun h => hj h.symm
          simp [hj, hkj, KeyedList.get]

variable {code call now version tenant servicePath subscriptionId request} in
/-- What an update does: the document is replaced, and so is the item that is found with the text of the request. -/
theorem mongoUpdateContextSubscription_spec {st st' : SubState Item} {sent : Nat}
    (hkeys : (st.cache.map CachedSubscription.key).Nodup)
    (h : mongoUpdateContextSubscription code call now version tenant servicePath subscriptionId request st =
      some (st', sent)) :
    ∃ id sub, safeGetSubId subscriptionId = some id ∧ KeyedList.get Csub.id id (st.csubs tenant) = some sub ∧
      sent = (request.updatedProcessed call sub).sent ∧
      (st'.cache.map CachedSubscription.key).Nodup ∧
      (∀ t i, subCacheItemLookup t i st'.cache =
        if (t, i) = (tenant, subscriptionId) then
          (updatedItem code call now version tenant servicePath subscriptionId request sub
            (subCacheItemLookup tenant subscriptionId st.cache)).toOption
        else subCacheItemLookup t i st.cache) ∧
      (∀ t, (st'.csubs t).map Csub.id = (st.csubs t).map Csub.id) ∧
      ∀ t i, KeyedList.get Csub.id i (st'.csubs t) =
        if (t, i) = (tenant, id) then
          some (request.updatedCsub call now version sub servicePath
            (subCacheItemLookup tenant subscriptionId st.cache))
        else KeyedList.get Csub.id i (st.csubs t) := by
  unfold mongoUpdateContextSubscription at h
  cases hid : safeGetSubId subscriptionId with
  | none =>
    rw [hid] at h
    cases h
  | some id =>
    rw [hid] at h
    dsimp only at h
    cases hsub : KeyedList.get Csub.id id (st.csubs tenant) with
    | none =>
      rw [hsub] at h
      cases h
    | some sub =>
      rw [hsub] at h
      cases h
      have hitem : ∀ item, (updatedItem code call now version tenant servicePath subscriptionId request sub
          (subCacheItemLookup tenant subscriptionId st.cache)).toOption = some item →
            item.key = (tenant, subscriptionId) := by
        intro item hitem
        rw [updatedItem_toOption, Option.bind_eq_some_iff] at hitem
        obtain ⟨cSub, -, hitem⟩ := hitem
        split at hitem
        · cases hitem
          rfl
        · cases hitem
      have hnone : subCacheItemLookup tenant subscriptionId st.cache = none →
          (updatedItem code call now version tenant servicePath subscriptionId request sub
            (subCacheItemLookup tenant subscriptionId st.cache)).toOption = none := by
        intro hnone
        rw [updatedItem_toOption, hnone]
        rfl
      obtain ⟨hnodup, hlookup⟩ := lookup_subCacheItemRemove hkeys hitem hnone
      obtain ⟨-, hsubid⟩ := KeyedList.mem_of_get hsub
      have hchange : ∀ sub' : Csub, sub'.id = id →
          (request.updatedCsub call now version sub servicePath
            (subCacheItemLookup tenant subscriptionId st.cache)).id = id := fun _ _ => hsubid
      refine ⟨id, sub, rfl, hsub, rfl, hnodup, fun t i => hlookup (t, i), ?_, ?_⟩
      · intro t
        dsimp only
        by_cases ht : t = tenant
        · subst ht
          rw [Function.update_self, KeyedList.keys_modify hchange]
        · rw [Function.update_of_ne ht]
      · intro t i
        dsimp only
        by_cases ht : t = tenant
        · subst ht
          rw [Function.update_self, KeyedList.get_modify hchange, hsub]
          simp [Prod.ext_iff]
        · rw [Function.update_of_ne ht, if_neg fun h => ht (congrArg Prod.fst h)]

end Update

/-! ### Agreement of the item with the document -/

section Agreement

variable {Item : Type}

/-- The item agrees with the document.  If there is no notification time in the document, the item has none either,
which is 0 or `-1`. -/
structure CachedSubscription.AgreesWith (code : FilterCode Item) (item : CachedSubscription Item) (sub : Csub) : Prop where
  servicePath : item.servicePath = sub.servicePath.getD "/"
  reference : item.reference = sub.reference.getD "NO REF"
  entities : item.entityIdInfos = sub.entityInfos
  attributes : item.attributes = sub.attrs
  conditions : item.notifyConditionVector = sub.onChangeConditions
  expiration : item.expirationTime = sub.expiration.getD 0
  throttling : item.throttling = sub.throttling.getD (-1)
  status : item.status = sub.status.getD STATUS_ACTIVE
  renderFormat : item.renderFormat = stringToRenderFormat (sub.format.getD "legacy")
  expression : item.expression = sub.expression.getD {}
  stringFilter : (sub.stringFilter code).map (fun filter => filter.getD []) = some item.stringFilter
  lastNotificationTime : sub.lastNotification.elim (item.lastNotificationTime ≤ 0) fun stored =>
    item.lastNotificationTime = stored

/-- The cache has exactly one item for a stored subscription, and it agrees with the document. -/
def CachedAsStored (code : FilterCode Item) (tenant id : String) (st : SubState Item) : Prop :=
  ∃ item sub, (st.cache.filter fun cSub => cSub.key = (tenant, id)) = [item] ∧
    KeyedList.get Csub.id id (st.csubs tenant) = some sub ∧ item.AgreesWith code sub

variable (code : FilterCode Item) (call : Subscribing) (now : Int) (version : ApiVersion)
  (tenant servicePath subscriptionId : String) (request : SubscribeContextRequest Item) (sub : Csub)
  (cSub : CachedSubscription Item)

/-- The update sends an initial notification. -/
def SubscribeContextRequest.UpdateNotified : Prop :=
  request.updatedStatus sub = STATUS_ACTIVE ∧
    ∃ nc ∈ request.onChangeConditions, call.processOnChangeConditionForSubscription nc.condValueList = true

/-- The new item agrees with the new document if the request, the old document and the old item are as follows. -/
structure UpdatedAlike : Prop where
  /-- There is an entity with an id. -/
  entities : (version = .v2 ∧ request.entityIdVector ≠ []) ∨ sub.entityInfos ≠ []
  /-- There is a condition whose type is `ONCHANGE`. -/
  conditions : (request.notifyConditionVector = [] ∧ sub.onChangeConditions ≠ []) ∨ request.onChangeConditions ≠ []
  /-- The request has the service path of the old item. -/
  servicePath : cSub.servicePath = requestedServicePath servicePath
  /-- The request has an expression, or the old document has none. -/
  expression : request.expressionIsSet = true ∨ request.expression = sub.expression.getD {}
  /-- The string filter of the scopes is the one of `q`. -/
  stringFilter : (Csub.stringFilter code { sub with expression := request.updatedExpression sub }).map
    (fun filter => filter.getD []) = some (code.fill ((scopeFilter request.scopeVector).getD []))
  /-- The current time can be given as an `int`. -/
  newTime : request.UpdateNotified call sub → toInt now = now
  /-- The notification time of the old item can be given as an `int`, and it is not older than that of the document, or
  it is `-1`. -/
  oldTime : ¬ request.UpdateNotified call sub →
    sub.lastNotification.elim (toInt cSub.lastNotificationTime ≤ 0) fun stored =>
      (if toInt cSub.lastNotificationTime = -1 then toInt (max stored cSub.lastNotificationTime)
        else toInt cSub.lastNotificationTime) = max stored cSub.lastNotificationTime

private theorem updateNotified_iff :
    (request.updatedProcessed call sub).notificationDone = true ↔ request.UpdateNotified call sub :=
  notificationDone_processConditionVector call (request.updatedStatus sub) request.notifyConditionVector

private theorem loadable_updatedCsub_iff (cSubP : Option (CachedSubscription Item)) :
    (request.updatedCsub call now version sub servicePath cSubP).Loadable ↔
      ((version = .v2 ∧ request.entityIdVector ≠ []) ∨ sub.entityInfos ≠ []) ∧
        ((request.notifyConditionVector = [] ∧ sub.onChangeConditions ≠ []) ∨ request.onChangeConditions ≠ []) := by
  unfold Csub.Loadable
  refine and_congr ?_ ?_
  · by_cases hv : version = .v2 ∧ request.entityIdVector ≠ []
    · have hentities : (request.updatedCsub call now version sub servicePath cSubP).entities =
          entitiesOfRequest request.entityIdVector := if_pos hv
      rw [entityInfos_entitiesOfRequest hentities]
      simp [hv]
    · have hentities : (request.updatedCsub call now version sub servicePath cSubP).entities = sub.entities := if_neg hv
      unfold Csub.entityInfos
      rw [hentities, or_iff_right hv]
  · by_cases hncv : request.notifyConditionVector = []
    · have hconditions : (request.updatedCsub call now version sub servicePath cSubP).conditions = sub.conditions :=
        if_pos hncv
      have hnone : request.onChangeConditions = [] := by
        unfold SubscribeContextRequest.onChangeConditions
        rw [hncv]
        rfl
      unfold Csub.onChangeConditions
      rw [hconditions]
      simp [hncv, hnone]
    · have hconditions : (request.updatedCsub call now version sub servicePath cSubP).onChangeConditions =
          request.onChangeConditions := by
        have hconds : (request.updatedCsub call now version sub servicePath cSubP).conditions =
            (request.updatedProcessed call sub).conds := if_neg hncv
        unfold Csub.onChangeConditions SubscribeContextRequest.onChangeConditions
        rw [hconds]
        unfold SubscribeContextRequest.updatedProcessed
        rw [conds_processConditionVector, List.filter_filter]
        simp
      rw [hconditions]
      simp [hncv]

private theorem updatedFormat_eq : request.updatedFormat sub = stringToRenderFormat (request.updatedFormatString sub) := by
  unfold SubscribeContextRequest.updatedFormat
  split
  · rename_i hformat
    unfold SubscribeContextRequest.updatedFormatString
    rw [if_pos hformat, stringToRenderFormat_renderFormatToString hformat]
  · rfl

/-- The notification time of the new item. -/
private theorem time_agrees_iff :
    ((request.updatedCsub call now version sub servicePath (some cSub)).lastNotification.elim
        ((updatedCached code call now version tenant servicePath subscriptionId request sub cSub).lastNotificationTime ≤ 0)
        fun stored =>
          (updatedCached code call now version tenant servicePath subscriptionId request sub cSub).lastNotificationTime =
            stored) ↔
      (request.UpdateNotified call sub → toInt now = now) ∧
        (¬ request.UpdateNotified call sub →
          sub.lastNotification.elim (toInt cSub.lastNotificationTime ≤ 0) fun stored =>
            (if toInt cSub.lastNotificationTime = -1 then toInt (max stored cSub.lastNotificationTime)
              else toInt cSub.lastNotificationTime) = max stored cSub.lastNotificationTime) := by
  rw [← updateNotified_iff]
  unfold updatedCached SubscribeContextRequest.updatedCsub SubscribeContextRequest.updatedTime
  cases hdone : (request.updatedProcessed call sub).notificationDone with
  | true =>
    simp only [if_true, Option.elim_some, Option.getD_some, true_implies, not_true_eq_false, false_implies, and_true]
    split
    · rfl
    · rfl
  | false =>
    simp only [Bool.false_eq_true, if_false, false_implies, not_false_eq_true, true_implies, true_and, Option.map_some,
      Option.getD_some]
    cases sub.lastNotification with
    | none =>
      have hnone : toInt (-1) = -1 := by decide
      simp only [Option.map_none, Option.elim_none, Option.getD_none, hnone]
      split
      · rename_i hm
        rw [hm]
      · rfl
    | some stored => rfl

private theorem agreesWith_updatedCached_iff :
    (updatedCached code call now version tenant servicePath subscriptionId request sub cSub).AgreesWith code
        (request.updatedCsub call now version sub servicePath (some cSub)) ↔
      cSub.servicePath = requestedServicePath servicePath ∧
        (request.expressionIsSet = true ∨ request.expression = sub.expression.getD {}) ∧
        (Csub.stringFilter code { sub with expression := request.updatedExpression sub }).map
          (fun filter => filter.getD []) = some (code.fill ((scopeFilter request.scopeVector).getD [])) ∧
        (request.UpdateNotified call sub → toInt now = now) ∧
        (¬ request.UpdateNotified call sub →
          sub.lastNotification.elim (toInt cSub.lastNotificationTime ≤ 0) fun stored =>
            (if toInt cSub.lastNotificationTime = -1 then toInt (max stored cSub.lastNotificationTime)
              else toInt cSub.lastNotificationTime) = max stored cSub.lastNotificationTime) := by
  have hexpression : request.expression = (request.updatedExpression sub).getD {} ↔
      (request.expressionIsSet = true ∨ request.expression = sub.expression.getD {}) := by
    unfold SubscribeContextRequest.updatedExpression
    cases request.expressionIsSet with
    | true => simp
    | false => simp
  have hfilter : (request.updatedCsub call now version sub servicePath (some cSub)).stringFilter code =
      Csub.stringFilter code { sub with expression := request.updatedExpression sub } := rfl
  rw [← time_agrees_iff code call now version tenant servicePath subscriptionId request sub cSub, ← hexpression,
    ← hfilter]
  constructor
  · intro h
    exact ⟨h.servicePath, h.expression, h.stringFilter, h.lastNotificationTime⟩
  · rintro ⟨hpath, hexpr, hfilter, htime⟩
    exact ⟨hpath, rfl, rfl, rfl, rfl, rfl, rfl, rfl, updatedFormat_eq request sub, hexpr, hfilter, htime⟩

variable {subscriptionId} in
theorem ne_empty_of_safeGetSubId {id : String} (h : safeGetSubId subscriptionId = some id) : subscriptionId ≠ "" := by
  rintro rfl
  revert h
  decide +revert

private theorem requestedServicePath_ne_empty : requestedServicePath servicePath ≠ "" := by
  unfold requestedServicePath
  split
  · decide
  · assumption

variable {code call now version tenant servicePath subscriptionId request sub} in
/-- After an update of a subscription, the cache has exactly one item for it, which agrees with the document, exactly if
the subscription was cached and the request, the old document and the old item are as in `UpdatedAlike`.  If the id is
not written as the broker prints it, the cache is not changed, so that the old item has to agree with the new
document. -/
theorem update_agreement_iff {st st' : SubState Item} {sent : Nat} {id : String}
    (hkeys : (st.cache.map CachedSubscription.key).Nodup)
    (hids : ∀ cSub ∈ st.cache, safeGetSubId cSub.subscriptionId = some cSub.subscriptionId)
    (hid : safeGetSubId subscriptionId = some id) (hsub : KeyedList.get Csub.id id (st.csubs tenant) = some sub)
    (h : mongoUpdateContextSubscription code call now version tenant servicePath subscriptionId request st =
      some (st', sent)) :
    CachedAsStored code tenant id st' ↔
      ∃ cSub, subCacheItemLookup tenant id st.cache = some cSub ∧
        ((subscriptionId = id ∧ UpdatedAlike code call now version servicePath request sub cSub) ∨
          (subscriptionId ≠ id ∧
            cSub.AgreesWith code (request.updatedCsub call now version sub servicePath none))) := by
  obtain ⟨id', sub', hid', hsub', -, hnodup, hlookup, -, hdocs⟩ := mongoUpdateContextSubscription_spec hkeys h
  rw [hid, Option.some.injEq] at hid'
  subst hid'
  rw [hsub, Option.some.injEq] at hsub'
  subst hsub'
  have hnew := (hdocs tenant id).trans (if_pos rfl)
  have hstored : CachedAsStored code tenant id st' ↔
      ∃ item, subCacheItemLookup tenant id st'.cache = some item ∧ item.AgreesWith code
        (request.updatedCsub call now version sub servicePath (subCacheItemLookup tenant subscriptionId st.cache)) := by
    unfold CachedAsStored
    rw [KeyedList.filter_of_nodup hnodup, hnew]
    constructor
    · rintro ⟨item, _, hitem, ⟨⟩, hagrees⟩
      exact ⟨item, Option.toList_eq_singleton_iff.1 hitem, hagrees⟩
    · rintro ⟨item, hitem, hagrees⟩
      exact ⟨item, _, Option.toList_eq_singleton_iff.2 hitem, rfl, hagrees⟩
  rw [hstored, hlookup]
  by_cases he : subscriptionId = id
  · subst he
    rw [if_pos rfl, updatedItem_toOption]
    cases hc : subCacheItemLookup tenant subscriptionId st.cache with
    | none => simp
    | some cSub =>
      have hne := ne_empty_of_safeGetSubId hid
      rw [Option.bind_some]
      constructor
      · rintro ⟨item, hitem, hagrees⟩
        split at hitem
        · rename_i hins
          cases hitem
          obtain ⟨hentities, hconditions⟩ := (loadable_updatedCsub_iff call now version servicePath request sub _).1 hins.2.2
          obtain ⟨hpath, hexpr, hfilter, hnewTime, holdTime⟩ :=
            (agreesWith_updatedCached_iff code call now version tenant servicePath subscriptionId request sub cSub).1 hagrees
          exact ⟨cSub, rfl, Or.inl ⟨rfl, hentities, hconditions, hpath, hexpr, hfilter, hnewTime, holdTime⟩⟩
        · cases hitem
      · rintro ⟨_, ⟨⟩, ⟨-, halike⟩ | ⟨hne', -⟩⟩
        · have hpath : cSub.servicePath ≠ "" := by
            rw [halike.servicePath]
            exact requestedServicePath_ne_empty servicePath
          have hload := (loadable_updatedCsub_iff call now version servicePath request sub (some cSub)).2
            ⟨halike.entities, halike.conditions⟩
          have hagrees :=
            (agreesWith_updatedCached_iff code call now version tenant servicePath subscriptionId request sub cSub).2
              ⟨halike.servicePath, halike.expression, halike.stringFilter, halike.newTime, halike.oldTime⟩
          exact ⟨_, if_pos ⟨hne, hpath, hload⟩, hagrees⟩
        · exact absurd rfl hne'
  · -- no item has the id as it is written in the request
    have hnone : subCacheItemLookup tenant subscriptionId st.cache = none := by
      rcases hc : subCacheItemLookup tenant subscriptionId st.cache with _ | cSub
      · rfl
      · obtain ⟨hmem, hkey⟩ := KeyedList.mem_of_get hc
        have hcid : cSub.subscriptionId = subscriptionId := congrArg Prod.snd hkey
        have := hids cSub hmem
        rw [hcid, hid, Option.some.injEq] at this
        exact absurd this.symm he
    rw [if_neg fun hk => he (congrArg Prod.snd hk).symm, hnone]
    simp [he]

end Agreement

/-! ### An update of the status -/

/-- The id of a subscription. -/
abbrev exampleId : String := "51c0ac9ed714fb3b37d7d5a8"

/-- A subscription on the entity `E` that was notified at 10, stored and perhaps cached. -/
def notifiedAtTen (expression : Option SubscriptionExpression) (cached : Bool) : SubState Empty where
  cache := if cached then [cachedChangesOfE exampleId 10 0] else []
  csubs := onlyDocument { changesOfE exampleId (some 10) with expression := expression }

/-- There are no filters here. -/
def noFilters : FilterCode Empty where
  parse := fun _ => none
  compiles := fun item => nomatch item
  matchItem := fun item => nomatch item

def deactivate : SubscribeContextRequest Empty where
  status := STATUS_INACTIVE

theorem update_agreement_status :
    ∃ st' sent, mongoUpdateContextSubscription noFilters noEntities 100 .v2 "" "/" exampleId deactivate
        (notifiedAtTen none true) = some (st', sent) ∧ CachedAsStored noFilters "" exampleId st' := by
  have hkeys : ((notifiedAtTen none true).cache.map CachedSubscription.key).Nodup := by decide
  have hids : ∀ cSub ∈ (notifiedAtTen none true).cache, safeGetSubId cSub.subscriptionId = some cSub.subscriptionId := by
    intro cSub hc
    rw [List.mem_singleton.1 hc]
    decide
  have hsub : KeyedList.get Csub.id exampleId ((notifiedAtTen none true).csubs "") =
      some (changesOfE exampleId (some 10)) := rfl
  have hid : safeGetSubId exampleId = some exampleId := by decide
  refine ⟨_, _, rfl, (update_agreement_iff hkeys hids hid hsub rfl).2
    ⟨cachedChangesOfE exampleId 10 0, rfl, Or.inl ⟨rfl, ?_⟩⟩⟩
  refine ⟨by decide, by decide, by decide, by decide, rfl, ?_, ?_⟩
  · intro _
    decide
  · intro _
    change (if toInt 10 = -1 then toInt (max 10 10) else toInt 10) = max 10 10
    decide

/-- A subscription that was not cached is not cached after the update; and the expression that stays in the document is
not in the new item. -/
theorem update_disagreement :
    (∃ st' sent, mongoUpdateContextSubscription noFilters noEntities 100 .v2 "" "/" exampleId deactivate
        (notifiedAtTen none false) = some (st', sent) ∧ ¬ CachedAsStored noFilters "" exampleId st') ∧
      ∃ st' sent, mongoUpdateContextSubscription noFilters noEntities 100 .v2 "" "/" exampleId deactivate
        (notifiedAtTen (some { georel := "near" }) true) = some (st', sent) ∧
          ¬ CachedAsStored noFilters "" exampleId st' := by
  refine ⟨⟨_, _, rfl, ?_⟩, ⟨_, _, rfl, ?_⟩⟩
  · rintro ⟨item, sub, hitem, -⟩
    cases hitem
  · rintro ⟨item, sub, hitem, hsub, hagrees⟩
    cases hitem
    cases hsub
    have := hagrees.expression
    revert this
    decide

end OrionBroker
