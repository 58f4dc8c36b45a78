import OrionBroker.NotifiedSubscriptions

/-!
# New subscriptions (`mongoSubscribeContext.cpp`, `MongoGlobal.cpp`)

`mongoSubscribeContext` makes the document of a new subscription and the item of the cache from the same request, but
field by field and not one from the other.  For every condition of the request it may send an initial notification,
which depends on the stored entities; here `Subscribing` says whether it does.  It also has the function `parse8601` for
durations.

`loaded_like_created_iff` compares the item with the one that a refresh later makes from the document.
-/

namespace OrionBroker

abbrev SCOPE_TYPE_SIMPLE_QUERY : String := "FIWARE::StringQuery"
abbrev DEFAULT_DURATION : String := "PT24H"

structure Throttling where
  string : String := ""
  seconds : Int := -1

structure Scope (Item : Type) where
  type : String
  stringFilterP : Option (List Item) := none

/-- The request for a new subscription; the one for an update of a subscription has the same fields. -/
structure SubscribeContextRequest (Item : Type) where
  entityIdVector : List EntityId := []
  attributeList : List String := []
  reference : String := ""
  duration : String := ""
  /-- The scopes of the field `restriction`. -/
  scopeVector : List (Scope Item) := []
  notifyConditionVector : List SubscriptionCondition := []
  throttling : Throttling := {}
  expires : Int := -1
  expression : SubscriptionExpression := {}
  /-- The field `isSet` of `expression`. -/
  expressionIsSet : Bool := false
  status : String := ""
  attrsFormat : RenderFormat := .NO_FORMAT

/-- What the code about new subscriptions obtains from elsewhere: the value of a duration, or `-1`, and whether an
initial notification is sent for a condition with the given values. -/
structure Subscribing where
  parse8601 : String → Int
  processOnChangeConditionForSubscription : List String → Bool

/-! ### The parts of a request -/

/-- The service path that is stored. -/
def requestedServicePath (servicePath : String) : String :=
  if servicePath = "" then DEFAULT_SERVICE_PATH_QUERIES else servicePath

/-- The array `entities` of the document; an empty type is left out. -/
def entitiesOfRequest (entityIdVector : List EntityId) : List CsubEntity :=
  entityIdVector.map fun en =>
    { id := some en.id, type := if en.type = "" then none else some en.type, isPattern := some en.isPattern }

/-- The string filter of the last scope that can have one. -/
def scopeFilter {Item : Type} (scopeVector : List (Scope Item)) : Option (List Item) :=
  scopeVector.foldl (fun stringFilterP scope =>
    if scope.type = SCOPE_TYPE_SIMPLE_QUERY then scope.stringFilterP else stringFilterP) none

/-- What `processConditionVector` returns, and the number of notifications it sends. -/
structure ProcessedConditions where
  conds : List SubscriptionCondition := []
  notificationDone : Bool := false
  sent : Nat := 0

def processConditionVector (call : Subscribing) (status : String) : List SubscriptionCondition → ProcessedConditions
  | [] => {}
  | nc :: ncv =>
    let rest := processConditionVector call status ncv
    if nc.type = ON_CHANGE_CONDITION then
      if status = STATUS_ACTIVE ∧ call.processOnChangeConditionForSubscription nc.condValueList = true then
        { conds := nc :: rest.conds, notificationDone := true, sent := rest.sent + 1 }
      else { rest with conds := nc :: rest.conds }
    -- a condition of an unknown type is left out
    else rest

namespace SubscribeContextRequest

variable {Item : Type} (call : Subscribing) (request : SubscribeContextRequest Item)

/-- The throttling that is stored, if any. -/
def storedThrottling : Option Int :=
  if request.throttling.seconds ≠ -1 then some request.throttling.seconds
  else if request.throttling.string ≠ "" then some (call.parse8601 request.throttling.string)
  else none

def expiration (now : Int) : Int :=
  if request.expires > 0 then request.expires
  else now + call.parse8601 (if request.duration = "" then DEFAULT_DURATION else request.duration)

def newStatus : String := if request.status = "" then STATUS_ACTIVE else request.status

def processed : ProcessedConditions := processConditionVector call request.newStatus request.notifyConditionVector

end SubscribeContextRequest

/-! ### A new subscription -/

section Subscribe

variable {Item : Type} (code : FilterCode Item) (call : Subscribing) (now : Int) (tenant servicePath oid : String)
  (request : SubscribeContextRequest Item)

/-- The document of a new subscription. -/
def newCsub : Csub where
  id := oid
  expiration := some (request.expiration call now)
  reference := some request.reference
  throttling := request.storedThrottling call
  servicePath := some (requestedServicePath servicePath)
  entities := entitiesOfRequest request.entityIdVector
  attrs := request.attributeList
  status := some request.newStatus
  conditions := (request.processed call).conds
  expression := some request.expression
  lastNotification := if (request.processed call).notificationDone then some now else none
  count := if (request.processed call).notificationDone then some 1 else none
  format := some (renderFormatToString request.attrsFormat)

/-- The item of the cache for a new subscription. -/
def newItem : Option (CachedSubscription Item) :=
  subCacheItemInsert code tenant (requestedServicePath servicePath) request.reference request.entityIdVector
    request.attributeList request.notifyConditionVector oid (request.expiration call now)
    ((request.storedThrottling call).getD 0) request.attrsFormat (request.processed call).notificationDone
    (if (request.processed call).notificationDone then now else 0) (scopeFilter request.scopeVector) request.newStatus
    request.expression

/-- The state after a new subscription, and the number of initial notifications. -/
def mongoSubscribeContext (st : SubState Item) : SubState Item × Nat :=
  ({ csubs := Function.update st.csubs tenant (st.csubs tenant ++ [newCsub call now servicePath oid request])
     cache := st.cache ++ (newItem code call now tenant servicePath oid request).toList },
    (request.processed call).sent)

end Subscribe

/-! ### Facts about the parts -/

theorem conds_processConditionVector (call : Subscribing) (status : String) (ncv : List SubscriptionCondition) :
    (processConditionVector call status ncv).conds = ncv.filter fun nc => nc.type = ON_CHANGE_CONDITION := by
  induction ncv with
  | nil => rfl
  | cons nc ncv ih =>
    unfold processConditionVector
    by_cases ht : nc.type = ON_CHANGE_CONDITION
    · rw [List.filter_cons_of_pos (by simpa using ht), ← ih]
      simp only [ht, if_true]
      split <;> rfl
    · rw [List.filter_cons_of_neg (by simpa using ht), ← ih]
      simp only [ht, if_false]

theorem notificationDone_iff_sent (call : Subscribing) (status : String) (ncv : List SubscriptionCondition) :
    (processConditionVector call status ncv).notificationDone = true ↔ (processConditionVector call status ncv).sent ≠ 0 := by
  induction ncv with
  | nil => simp [processConditionVector]
  | cons nc ncv ih =>
    unfold processConditionVector
    dsimp only
    split
    · split
      · simp
      · exact ih
    · exact ih

theorem notificationDone_processConditionVector (call : Subscribing) (status : String) (ncv : List SubscriptionCondition) :
    (processConditionVector call status ncv).notificationDone = true ↔
      status = STATUS_ACTIVE ∧ ∃ nc ∈ ncv.filter fun nc => nc.type = ON_CHANGE_CONDITION,
        call.processOnChangeConditionForSubscription nc.condValueList = true := by
  induction ncv with
  | nil => simp [processConditionVector]
  | cons nc ncv ih =>
    unfold processConditionVector
    by_cases ht : nc.type = ON_CHANGE_CONDITION
    · by_cases hs : status = STATUS_ACTIVE ∧ call.processOnChangeConditionForSubscription nc.condValueList = true
      · simp [ht, hs.1, hs.2]
      · simp only [ht, hs, if_true, if_false, decide_true, List.filter_cons_of_pos, ih, List.exists_mem_cons_iff]
        tauto
    · simp only [ht, if_false, ih]
      rw [List.filter_cons_of_neg (by simpa using ht)]

theorem entityInfos_entitiesOfRequest {sub : Csub} {entityIdVector : List EntityId}
    (h : sub.entities = entitiesOfRequest entityIdVector) :
    sub.entityInfos = entityIdVector.map fun eP => EntityInfo.ofStrings eP.id eP.type eP.isPattern := by
  have htype : ∀ type : String, (if type = "" then none else some type).getD "" = type := by
    intro type
    split
    · rename_i he
      exact he.symm
    · rfl
  unfold Csub.entityInfos
  rw [h]
  unfold entitiesOfRequest
  simp [htype]

theorem stringToRenderFormat_renderFormatToString {format : RenderFormat} (h : format ≠ .NO_FORMAT) :
    stringToRenderFormat (renderFormatToString format) = format := by
  cases format with
  | NO_FORMAT => exact absurd rfl h
  | NGSI_V1_LEGACY => decide
  | NGSI_V2_NORMALIZED => decide
  | NGSI_V2_KEYVALUES => decide
  | NGSI_V2_VALUES => decide
  | NGSI_V2_UNIQUE_VALUES => decide

/-! ### Loading a new subscription -/

section Loading

variable {Item : Type} (env : SubEnv Item) (t : Int) (u : EntityUpdate) (cer : ContextElementResponse)

/-- The notifications of an update if the cache has only the given item. -/
def notificationsOf (item : Option (CachedSubscription Item)) : List Notification :=
  (notifyUpdate env t u false cer { cache := item.toList, csubs := fun _ => [] }).2

/-- The notification for an item of the cache. -/
def CachedSubscription.notification (item : CachedSubscription Item) : Notification where
  tenant := u.tenant
  subscriptionId := item.subscriptionId
  reference := item.reference
  renderFormat := item.renderFormat
  attrsOrder := item.attributes
  attributes := notifiedAttributes item.attributes cer.contextElement.contextAttributeVector

open Classical in
private theorem notificationsOf_some {item : CachedSubscription Item}
    (hclone : (env.clone item.stringFilter).isSome = true) :
    notificationsOf env t u cer (some item) =
      if item.triggers env t u = true ∧
          (item.triggered item.stringFilter).notifies t env.toFilterCode cer = true then
        [item.notification u cer] else [] := by
  have hadd : addTriggeredSubscriptions env t u false { cache := [item], csubs := fun _ => [] } =
      some (([item].filter (CachedSubscription.triggers env t u)).map fun cSub =>
        (cSub.subscriptionId, cSub.triggered cSub.stringFilter)) := by
    unfold addTriggeredSubscriptions
    rw [if_neg (by decide), withCache_eq env t u [item] []]
    · rw [if_pos]
      · rfl
      · rw [List.all_eq_true]
        intro cSub hc
        rw [List.mem_singleton.1 (List.mem_filter.1 hc).1]
        exact hclone
    · by_cases ht : item.triggers env t u = true
      · simp [ht]
      · simp [ht]
  unfold notificationsOf notifyUpdate
  simp only [Option.toList_some, hadd, processSubscriptions_eq]
  by_cases ht : item.triggers env t u = true
  · by_cases hn : (item.triggered item.stringFilter).notifies t env.toFilterCode cer = true
    · simp only [List.filter_cons, ht, hn, if_true, List.filter_nil, List.map_cons, List.map_nil, and_self]
      rfl
    · simp [ht, hn]
  · simp [ht]

variable (call : Subscribing) (now : Int) (tenant servicePath oid : String) (request : SubscribeContextRequest Item)

namespace SubscribeContextRequest

/-- The decisions on an update that are the same for the new item and for the loaded one. -/
structure About : Prop where
  tenant : env.subCacheMultitenant = false ∨ tenant = u.tenant
  servicePath : servicePathMatch (requestedServicePath servicePath) u.servicePath = some true
  entity : ∃ eP ∈ request.entityIdVector,
    (EntityInfo.ofStrings eP.id eP.type eP.isPattern).matches env.regexec u.entityId u.entityType = true
  unexpired : t ≤ request.expiration call now
  active : request.newStatus ≠ STATUS_INACTIVE
  attributes : notifiedAttributes request.attributeList cer.contextElement.contextAttributeVector ≠ []

/-- The conditions whose type is written as the database has it. -/
def onChangeConditions : List SubscriptionCondition :=
  request.notifyConditionVector.filter fun nc => nc.type = ON_CHANGE_CONDITION

def InitiallyNotified : Prop :=
  request.newStatus = STATUS_ACTIVE ∧
    ∃ nc ∈ request.onChangeConditions, call.processOnChangeConditionForSubscription nc.condValueList = true

/-- The throttling of the request lets a notification pass, after the initial one if there was one. -/
def Unthrottled : Prop :=
  ∀ throttling, request.storedThrottling call = some throttling →
    (request.InitiallyNotified call → throttling ≤ t - now) ∧ (¬ request.InitiallyNotified call → throttling ≤ t)

/-- The string filter of the request, as far as it can be copied, accepts the entity. -/
def FilterAccepts : Prop := env.matchFilter (env.fill ((scopeFilter request.scopeVector).getD [])) cer = true

/-- What the two items decide differently makes no difference. -/
structure LoadedAlike : Prop where
  /-- A condition that is not stored, because its type is written in another way, is not needed. -/
  conditions : attributeMatch request.notifyConditionVector u.modifiedAttrs = true → request.Unthrottled t call now →
    request.FilterAccepts env cer → attributeMatch request.onChangeConditions u.modifiedAttrs = true
  /-- The time of the first update is not the one that only passes for a notification time of `-1`. -/
  throttling : attributeMatch request.onChangeConditions u.modifiedAttrs = true → ¬ request.InitiallyNotified call →
    request.storedThrottling call ≠ some (t + 1)
  /-- The filter, which is not loaded, accepts the entity. -/
  filter : attributeMatch request.onChangeConditions u.modifiedAttrs = true → request.Unthrottled t call now →
    request.FilterAccepts env cer

end SubscribeContextRequest

private theorem notificationDone_iff :
    (request.processed call).notificationDone = true ↔ request.InitiallyNotified call :=
  notificationDone_processConditionVector call request.newStatus request.notifyConditionVector

private theorem passes_iff {item : CachedSubscription Item} (htenant : item.tenant = tenant)
    (hpath : item.servicePath = requestedServicePath servicePath)
    (hentities : item.entityIdInfos = request.entityIdVector.map fun eP =>
      EntityInfo.ofStrings eP.id eP.type eP.isPattern)
    (hexpiration : item.expirationTime = request.expiration call now) (hstatus : item.status = request.newStatus)
    (hattributes : item.attributes = request.attributeList) :
    (item.triggers env t u = true ∧ (item.triggered item.stringFilter).notifies t env.toFilterCode cer = true) ↔
      request.About env t u cer call now tenant servicePath ∧
        attributeMatch item.notifyConditionVector u.modifiedAttrs = true ∧
        (item.throttled t = false ∧ (item.triggered item.stringFilter).blocked t = false) ∧
        env.matchFilter item.stringFilter cer = true := by
  rw [CachedSubscription.triggers_iff, TriggeredSubscription.notifies_iff, subMatch_iff, htenant, hpath, hentities,
    hexpiration, hstatus]
  have hattrL : (item.triggered item.stringFilter).attrL = request.attributeList := hattributes
  have hfilterP : (item.triggered item.stringFilter).stringFilterP = some item.stringFilter := rfl
  rw [hattrL, hfilterP, Option.all_some]
  simp only [List.mem_map, exists_exists_and_eq_and]
  constructor
  · rintro ⟨⟨⟨h1, h2, h3, h4⟩, h5, h6, h7⟩, h8, h9, h10⟩
    exact ⟨⟨h1, h2, h4, h5, h6, h10⟩, h3, ⟨h7, h8⟩, h9⟩
  · rintro ⟨⟨h1, h2, h4, h5, h6, h10⟩, h3, ⟨h7, h8⟩, h9⟩
    exact ⟨⟨⟨h1, h2, h3, h4⟩, h5, h6, h7⟩, h8, h9, h10⟩

variable {t now} in
/-- Both throttling tests, for an item that was never notified or at the given time. -/
private theorem tests_iff {item : CachedSubscription Item} {last : Int} (hlast : item.lastNotificationTime = last) :
    (item.throttled t = false ∧ (item.triggered item.stringFilter).blocked t = false) ↔
      (item.throttling = -1 ∨ last = 0 ∨ item.throttling ≤ t - last) ∧
        (item.throttling = 1 ∨ last = 1 ∨ item.throttling ≤ t - last) := by
  unfold CachedSubscription.throttled TriggeredSubscription.blocked
  simp only [CachedSubscription.triggered, hlast, Bool.and_eq_false_iff, decide_eq_false_iff_not, not_not, not_lt,
    or_assoc, gt_iff_lt, ne_eq]

variable {t now} in
private theorem tests_new (hnow : 1 < now) (ht : now ≤ t) {item : CachedSubscription Item}
    (hthrottling : item.throttling = (request.storedThrottling call).getD 0)
    (hlast : item.lastNotificationTime = if (request.processed call).notificationDone then now else 0) :
    (item.throttled t = false ∧ (item.triggered item.stringFilter).blocked t = false) ↔
      request.Unthrottled t call now := by
  rw [tests_iff hlast, hthrottling]
  unfold SubscribeContextRequest.Unthrottled
  simp only [← notificationDone_iff]
  cases request.storedThrottling call with
  | none =>
    cases (request.processed call).notificationDone with
    | true => simp; omega
    | false => simp; omega
  | some throttling =>
    cases (request.processed call).notificationDone with
    | true => simp; omega
    | false => simp; omega

variable {t now} in
private theorem tests_loaded (hnow : 1 < now) (ht : now ≤ t) {item : CachedSubscription Item}
    (hthrottling : item.throttling = (request.storedThrottling call).getD (-1))
    (hlast : item.lastNotificationTime = if (request.processed call).notificationDone then now else -1) :
    (item.throttled t = false ∧ (item.triggered item.stringFilter).blocked t = false) ↔
      request.Unthrottled t call now ∨
        (¬ request.InitiallyNotified call ∧ request.storedThrottling call = some (t + 1)) := by
  rw [tests_iff hlast, hthrottling]
  unfold SubscribeContextRequest.Unthrottled
  simp only [← notificationDone_iff]
  cases request.storedThrottling call with
  | none =>
    cases (request.processed call).notificationDone with
    | true => simp; omega
    | false => simp; omega
  | some throttling =>
    cases (request.processed call).notificationDone with
    | true => simp; omega
    | false => simp; omega

/-- The notification for the subscription of a request. -/
private def requestNotification : Notification where
  tenant := u.tenant
  subscriptionId := oid
  reference := request.reference
  renderFormat := request.attrsFormat
  attrsOrder := request.attributeList
  attributes := notifiedAttributes request.attributeList cer.contextElement.contextAttributeVector

open Classical in
private theorem notificationsOf_newItem (hnow : 1 < now) (ht : now ≤ t)
    (hchecked : ∀ nc ∈ request.notifyConditionVector, Text.strcasecmp nc.type ON_CHANGE_CONDITION = true) :
    notificationsOf env t u cer (newItem env.toFilterCode call now tenant servicePath oid request) =
      if request.About env t u cer call now tenant servicePath ∧
          attributeMatch request.notifyConditionVector u.modifiedAttrs = true ∧ request.Unthrottled t call now ∧
          request.FilterAccepts env cer then
        [requestNotification u cer oid request] else [] := by
  unfold newItem subCacheItemInsert
  split
  · have hclone : ∀ filters : List Item, (env.clone (env.fill filters)).isSome = true := by
      intro filters
      unfold FilterCode.clone FilterCode.fill
      rw [if_pos (List.all_takeWhile), Option.isSome_some]
    rw [notificationsOf_some env t u cer (hclone _)]
    refine if_congr ?_ rfl rfl
    rw [passes_iff env t u cer call now tenant servicePath request rfl rfl rfl rfl rfl rfl,
      tests_new call request hnow ht rfl rfl]
    rfl
  · rename_i hno
    -- then there is no condition at all
    have hnil : request.notifyConditionVector = [] := by
      cases hncv : request.notifyConditionVector with
      | nil => rfl
      | cons nc ncv =>
        refine absurd ?_ hno
        rw [hncv] at hchecked ⊢
        exact List.any_eq_true.2 ⟨nc, List.mem_cons_self, hchecked nc List.mem_cons_self⟩
    rw [if_neg]
    · rfl
    · rintro ⟨-, ha, -⟩
      rw [hnil] at ha
      cases ha

open Classical in
private theorem notificationsOf_loaded (hnow : 1 < now) (ht : now ≤ t) (hformat : request.attrsFormat ≠ .NO_FORMAT) :
    notificationsOf env t u cer ((newCsub call now servicePath oid request).load tenant) =
      if request.About env t u cer call now tenant servicePath ∧
          attributeMatch request.onChangeConditions u.modifiedAttrs = true ∧
          (request.Unthrottled t call now ∨
            (¬ request.InitiallyNotified call ∧ request.storedThrottling call = some (t + 1))) then
        [requestNotification u cer oid request] else [] := by
  have hentities : (newCsub call now servicePath oid request).entityInfos =
      request.entityIdVector.map fun eP => EntityInfo.ofStrings eP.id eP.type eP.isPattern :=
    entityInfos_entitiesOfRequest rfl
  have hconditions : (newCsub call now servicePath oid request).onChangeConditions = request.onChangeConditions := by
    unfold Csub.onChangeConditions newCsub SubscribeContextRequest.onChangeConditions SubscribeContextRequest.processed
    rw [conds_processConditionVector, List.filter_filter]
    simp
  rw [load_eq]
  split
  · rw [notificationsOf_some env t u cer rfl]
    refine if_congr ?_ ?_ rfl
    · have hlast : ((newCsub call now servicePath oid request).cached tenant : CachedSubscription Item).lastNotificationTime =
          if (request.processed call).notificationDone then now else -1 := by
        unfold Csub.cached newCsub
        dsimp only
        split <;> rfl
      rw [passes_iff env t u cer call now tenant servicePath request rfl rfl hentities rfl rfl rfl,
        tests_loaded call request hnow ht rfl hlast]
      refine and_congr_right fun _ => and_congr ?_ (and_iff_left rfl)
      rw [← hconditions]
      rfl
    · unfold CachedSubscription.notification requestNotification
      congr 2
      exact stringToRenderFormat_renderFormatToString hformat
  · rename_i hload
    rw [if_neg]
    · rfl
    · rintro ⟨habout, ha, -⟩
      refine hload ⟨?_, ?_⟩
      · rw [hentities]
        obtain ⟨eP, heP, -⟩ := habout.entity
        exact List.ne_nil_of_mem (List.mem_map_of_mem heP)
      · rw [hconditions]
        intro hnil
        rw [hnil] at ha
        cases ha

/-- For a later update, the item that is loaded from the document of a new subscription leads to the same notifications
as the one that was put in the cache exactly if the decisions that only one of them makes make no difference.  The
callers always set a format, and the check of a request compares the types of its conditions with `strcasecmp`. -/
theorem loaded_like_created_iff (hnow : 1 < now) (ht : now ≤ t) (hformat : request.attrsFormat ≠ .NO_FORMAT)
    (hchecked : ∀ nc ∈ request.notifyConditionVector, Text.strcasecmp nc.type ON_CHANGE_CONDITION = true) :
    notificationsOf env t u cer (newItem env.toFilterCode call now tenant servicePath oid request) =
        notificationsOf env t u cer ((newCsub call now servicePath oid request).load tenant) ↔
      (request.About env t u cer call now tenant servicePath → request.LoadedAlike env t u cer call now) := by
  rw [notificationsOf_newItem env t u cer call now tenant servicePath oid request hnow ht hchecked,
    notificationsOf_loaded env t u cer call now tenant servicePath oid request hnow ht hformat]
  have hboth : ∀ (p q : Prop) [Decidable p] [Decidable q] (n : Notification),
      (if p then [n] else []) = (if q then [n] else []) ↔ (p ↔ q) := by
    intro p q _ _ n
    by_cases hp : p <;> by_cases hq : q <;> simp [hp, hq]
  rw [hboth]
  constructor
  · intro h habout
    refine ⟨?_, ?_, ?_⟩
    · intro ha hthrottling hfilter
      exact (h.1 ⟨habout, ha, hthrottling, hfilter⟩).2.1
    · intro ha hinitial hequal
      obtain ⟨-, -, hthrottling, -⟩ := h.2 ⟨habout, ha, Or.inr ⟨hinitial, hequal⟩⟩
      have := (hthrottling (t + 1) hequal).2 hinitial
      omega
    · intro ha hthrottling
      exact (h.2 ⟨habout, ha, Or.inl hthrottling⟩).2.2.2
  · intro h
    constructor
    · rintro ⟨habout, ha, hthrottling, hfilter⟩
      exact ⟨habout, (h habout).conditions ha hthrottling hfilter, Or.inl hthrottling⟩
    · rintro ⟨habout, ha, hthrottling⟩
      rcases hthrottling with hthrottling | ⟨hinitial, hequal⟩
      · refine ⟨habout, ?_, hthrottling, (h habout).filter ha hthrottling⟩
        exact attributeMatch_of_filter ha
      · exact absurd hequal ((h habout).throttling ha hinitial)

/-- A subscription on the attribute `A` of the entity `E`, which may have a filter. -/
def subscribeToA (filter : Option (List Unit)) : SubscribeContextRequest Unit where
  entityIdVector := [{ id := "E", type := "", isPattern := "false" }]
  notifyConditionVector := [⟨ON_CHANGE_CONDITION, ["A"]⟩]
  reference := "http://localhost/notify"
  expires := 1000
  scopeVector := filter.toList.map fun filter => { type := SCOPE_TYPE_SIMPLE_QUERY, stringFilterP := some filter }
  expression := { q := if filter.isSome then "A==1" else "" }
  expressionIsSet := filter.isSome
  attrsFormat := .NGSI_V2_NORMALIZED

/-- No entity is stored yet, so that there is no initial notification. -/
def noEntities : Subscribing where
  parse8601 := fun duration => if duration = DEFAULT_DURATION then 86400 else -1
  processOnChangeConditionForSubscription := fun _ => false

theorem loaded_like_created_unfiltered :
    notificationsOf refusingEnv 200 changeOfA entityWithA
        (newItem refusingEnv.toFilterCode noEntities 100 "" "/" "s" (subscribeToA none)) =
      notificationsOf refusingEnv 200 changeOfA entityWithA
        ((newCsub noEntities 100 "/" "s" (subscribeToA none)).load "") := by
  refine (loaded_like_created_iff refusingEnv 200 changeOfA entityWithA noEntities 100 "" "/" "s" (subscribeToA none)
    (by decide) (by decide) (by decide) (by decide)).2 fun _ => ⟨?_, ?_, ?_⟩
  · intro _ _ _
    decide
  · intro _ _
    decide
  · intro _ _
    rfl

/-- A filter that refuses the update is applied only until the cache is loaded again. -/
theorem loaded_unlike_created :
    notificationsOf refusingEnv 200 changeOfA entityWithA
        (newItem refusingEnv.toFilterCode noEntities 100 "" "/" "s" (subscribeToA (some [()]))) ≠
      notificationsOf refusingEnv 200 changeOfA entityWithA
        ((newCsub noEntities 100 "/" "s" (subscribeToA (some [()]))).load "") := by
  intro h
  have hlength := congrArg List.length h
  revert hlength
  decide

end Loading

end OrionBroker
