import OrionBroker.SubCacheMatch

/-!
# Notifications of an update (`MongoCommonUpdate.cpp`, `TriggeredSubscription.cpp`)

An update of an entity first collects the subscriptions it triggers, from the cache or from the database
(`addTriggeredSubscriptions`), and then sends a notification for those that also pass the tests on the time since the
last notification, on the filter and on the attributes (`processSubscriptions`).  A notification is recorded in the
cache, or in the document if the broker runs without it.

The map of triggered subscriptions is a list with keys here, in the order in which they are found.  The operations on
the database succeed.
-/

namespace OrionBroker

/-- What the code about subscriptions obtains from elsewhere. -/
structure SubEnv (Item : Type) extends FilterCode Item where
  regexec : String → String → Bool
  subCacheMultitenant : Bool

/-- The cache, and the collection `csubs` of each tenant. -/
structure SubState (Item : Type) where
  cache : List (CachedSubscription Item)
  csubs : String → List Csub

structure TriggeredSubscription (Item : Type) where
  throttling : Int
  lastNotification : Int
  renderFormat : RenderFormat
  reference : String
  attrL : List String
  cacheSubId : String
  tenant : String
  expression : SubscriptionExpression := {}
  stringFilterP : Option (List Item) := none

/-- An update of an entity, with the names of the attributes it modifies. -/
structure EntityUpdate where
  tenant : String
  servicePath : String
  entityId : String
  entityType : String
  modifiedAttrs : List String

/-- A notification that is sent. -/
structure Notification where
  tenant : String
  subscriptionId : String
  reference : String
  renderFormat : RenderFormat
  attributes : List ContextAttribute
  attrsOrder : List String

variable {Item : Type} (env : SubEnv Item) (now : Int) (u : EntityUpdate)

abbrev TriggeredMap (Item : Type) := List (String × TriggeredSubscription Item)

/-- `std::map::insert`: a key that is present keeps its value. -/
def TriggeredMap.insert (id : String) (trigs : TriggeredSubscription Item) (subs : TriggeredMap Item) :
    TriggeredMap Item :=
  KeyedList.upsert Prod.fst id (fun x => x) (id, trigs) subs

/-! ### With the cache -/

/-- The first throttling test, on the item of the cache. -/
def CachedSubscription.throttled (cSub : CachedSubscription Item) : Bool :=
  cSub.throttling ≠ -1 && cSub.lastNotificationTime ≠ 0 && now - cSub.lastNotificationTime < cSub.throttling

/-- The arguments of `fillExpression` are not in the order of its parameters. -/
def CachedSubscription.triggered (cSub : CachedSubscription Item) (filter : List Item) : TriggeredSubscription Item where
  throttling := cSub.throttling
  lastNotification := cSub.lastNotificationTime
  renderFormat := cSub.renderFormat
  reference := cSub.reference
  attrL := cSub.attributes
  cacheSubId := cSub.subscriptionId
  tenant := cSub.tenant
  expression := { georel := cSub.expression.geometry, geometry := cSub.expression.coords,
                  coords := cSub.expression.georel }
  stringFilterP := some filter

def addTriggeredSubscriptions_withCache : List (CachedSubscription Item) → TriggeredMap Item → Option (TriggeredMap Item)
  | [], subs => some subs
  | cSub :: cache, subs =>
    if subMatch env.subCacheMultitenant env.regexec cSub u.tenant u.servicePath u.entityId u.entityType
        u.modifiedAttrs = false then
      addTriggeredSubscriptions_withCache cache subs
    -- outdated subscriptions are skipped
    else if cSub.expirationTime < now then addTriggeredSubscriptions_withCache cache subs
    else if cSub.status = STATUS_INACTIVE then addTriggeredSubscriptions_withCache cache subs
    else if cSub.throttled now then addTriggeredSubscriptions_withCache cache subs
    else
      match env.clone cSub.stringFilter with
      | none => none
      | some filter =>
        addTriggeredSubscriptions_withCache cache (subs.insert cSub.subscriptionId (cSub.triggered filter))

/-! ### Without the cache -/

def someEmptyCondValue (sub : Csub) : Bool := sub.conditions.any fun cond => cond.condValueList = []

def condValueAttrMatch (sub : Csub) (modifiedAttrs : List String) : Bool :=
  sub.conditions.any fun cond => cond.condValueList.any fun condValue => condValue ∈ modifiedAttrs

/-- The query for the documents.  A missing expiration is not greater than the time, a missing status is not inactive,
and a missing service path is matched as `null`. -/
def csubsQuery (sub : Csub) : Bool :=
  queryEntities env.regexec u.entityId u.entityType sub.entities &&
    (sub.conditions.any fun condition => condition.type = ON_CHANGE_CONDITION) &&
    (sub.expiration.any fun expiration => now < expiration) && sub.status ≠ some STATUS_INACTIVE &&
    sub.servicePath.all fun servicePath =>
      AnchoredPattern.accepts (servicePathSubscriptionRegex u.servicePath) servicePath

/-- The filter of a document: nothing if it has no `q`; the whole function fails if `q` cannot be parsed. -/
def Csub.stringFilter (code : FilterCode Item) (sub : Csub) : Option (Option (List Item)) :=
  match sub.expression with
  | none => some none
  | some expr =>
    if expr.q = "" then some none
    else ((code.parse expr.q).bind code.clone).map some

def Csub.triggered (sub : Csub) (filter : Option (List Item)) : TriggeredSubscription Item where
  throttling := sub.throttling.getD (-1)
  lastNotification := sub.lastNotification.getD (-1)
  renderFormat := stringToRenderFormat (sub.format.getD "")
  reference := sub.reference.getD ""
  attrL := sub.attrs
  cacheSubId := ""
  tenant := ""
  expression := { georel := (sub.expression.getD {}).georel, geometry := (sub.expression.getD {}).geometry,
                  coords := (sub.expression.getD {}).coords }
  stringFilterP := filter

def addTriggeredSubscriptions_noCache : List Csub → TriggeredMap Item → Option (TriggeredMap Item)
  | [], subs => some subs
  | sub :: csubs, subs =>
    if csubsQuery env now u sub = false then addTriggeredSubscriptions_noCache csubs subs
    else if sub.id ∈ subs.map Prod.fst then addTriggeredSubscriptions_noCache csubs subs
    else if !someEmptyCondValue sub && !condValueAttrMatch sub u.modifiedAttrs then
      addTriggeredSubscriptions_noCache csubs subs
    else
      match sub.stringFilter env.toFilterCode with
      | none => none
      | some filter => addTriggeredSubscriptions_noCache csubs (subs.insert sub.id (sub.triggered filter))

def addTriggeredSubscriptions (noCache : Bool) (st : SubState Item) : Option (TriggeredMap Item) :=
  if noCache then addTriggeredSubscriptions_noCache env now u (st.csubs u.tenant) []
  else addTriggeredSubscriptions_withCache env now u st.cache []

/-! ### Sending -/

/-- The attributes of a notification; a deleted one is left out if the subscription names its attributes. -/
def notifiedAttributes (attrL : List String) (caV : List ContextAttribute) : List ContextAttribute :=
  if attrL = [] then caV
  else caV.flatMap fun ca => attrL.filterMap fun name => if ca.name = name ∧ ca.skip = false then some ca else none

/-- The second throttling test, of `processSubscriptions`. -/
def TriggeredSubscription.blocked (trigs : TriggeredSubscription Item) : Bool :=
  trigs.throttling ≠ 1 && trigs.lastNotification ≠ 1 && trigs.throttling > now - trigs.lastNotification

/-- A triggered subscription is notified. -/
def TriggeredSubscription.notifies (code : FilterCode Item) (cer : ContextElementResponse)
    (trigs : TriggeredSubscription Item) : Bool :=
  !trigs.blocked now && (trigs.stringFilterP.all fun filter => code.matchFilter filter cer) &&
    notifiedAttributes trigs.attrL cer.contextElement.contextAttributeVector ≠ []

/-- A notification is recorded in the document (without the cache) or in the item of the cache. -/
def recordNotification (subCacheActive : Bool) (tenant id : String) (trigs : TriggeredSubscription Item)
    (st : SubState Item) : SubState Item where
  csubs :=
    if subCacheActive then st.csubs
    else Function.update st.csubs tenant (KeyedList.modify Csub.id id
      (fun sub => { sub with lastNotification := some now, count := some (sub.count.getD 0 + 1) }) (st.csubs tenant))
  cache :=
    if trigs.cacheSubId = "" then st.cache
    else KeyedList.modify CachedSubscription.key (trigs.tenant, trigs.cacheSubId)
      (fun cSub => { cSub with lastNotificationTime := now, count := cSub.count + 1 }) st.cache

def processSubscriptions (subCacheActive : Bool) (tenant : String) (cer : ContextElementResponse) :
    TriggeredMap Item → SubState Item → SubState Item × List Notification
  | [], st => (st, [])
  | (id, trigs) :: subs, st =>
    if trigs.notifies now env.toFilterCode cer then
      let rest := processSubscriptions subCacheActive tenant cer subs
        (recordNotification now subCacheActive tenant id trigs st)
      (rest.1, { tenant := tenant, subscriptionId := id, reference := trigs.reference,
                 renderFormat := trigs.renderFormat, attrsOrder := trigs.attrL,
                 attributes := notifiedAttributes trigs.attrL cer.contextElement.contextAttributeVector } :: rest.2)
    else processSubscriptions subCacheActive tenant cer subs st

/-- The notifications of an update, and the state after it; nothing is sent if the triggered subscriptions cannot be
collected. -/
def notifyUpdate (noCache : Bool) (cer : ContextElementResponse) (st : SubState Item) :
    SubState Item × List Notification :=
  match addTriggeredSubscriptions env now u noCache st with
  | none => (st, [])
  | some subs => processSubscriptions env now (!noCache) u.tenant cer subs st

end OrionBroker
