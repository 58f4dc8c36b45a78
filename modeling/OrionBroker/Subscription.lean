import OrionBroker.ContextElement
import OrionBroker.ServicePath
import OrionBroker.KeyedList

/-!
# Subscriptions (`subCache.cpp`, `mongoSubCache.cpp`, `RenderFormat.cpp`)

A subscription lives in two places: as a document of the collection `csubs` of its tenant (`Csub`) and as an item of
the subscription cache (`CachedSubscription`).  The fields of a document that the code asks for with `hasField` are
optional.  A tenant that is a null pointer in the source is the empty string here; the two are the same for every
function that compares tenants.

There are three ways to make an item of the cache.  `subCacheItemInsert` takes the fields of a new subscription;
`Refresh.mongoSubCacheItemInsert` reads a document when the cache is loaded; `Update.mongoSubCacheItemInsert` reads the
document of an updated subscription and takes the rest as arguments.  In each case the item is put at the end of the
cache.
-/

namespace OrionBroker

abbrev ON_CHANGE_CONDITION : String := "ONCHANGE"
abbrev STATUS_ACTIVE : String := "active"
abbrev STATUS_INACTIVE : String := "inactive"
abbrev DEFAULT_SERVICE_PATH_QUERIES : String := "/#"

inductive RenderFormat where
  | NO_FORMAT
  | NGSI_V1_LEGACY
  | NGSI_V2_NORMALIZED
  | NGSI_V2_KEYVALUES
  | NGSI_V2_VALUES
  | NGSI_V2_UNIQUE_VALUES
deriving DecidableEq

abbrev DEFAULT_RENDER_FORMAT : RenderFormat := .NGSI_V2_NORMALIZED

def renderFormatToString : RenderFormat → String
  | .NGSI_V1_LEGACY => "JSON"
  | .NGSI_V2_NORMALIZED => "normalized"
  | .NGSI_V2_KEYVALUES => "keyValues"
  | .NGSI_V2_VALUES => "values"
  | .NGSI_V2_UNIQUE_VALUES => "uniqueValues"
  | .NO_FORMAT => "no render format"

def stringToRenderFormat (s : String) : RenderFormat :=
  if s = "JSON" then .NGSI_V1_LEGACY
  else if s = "legacy" then .NGSI_V1_LEGACY
  else if s = "normalized" then .NGSI_V2_NORMALIZED
  else if s = "keyValues" then .NGSI_V2_KEYVALUES
  else if s = "values" then .NGSI_V2_VALUES
  else if s = "uniqueValues" then .NGSI_V2_UNIQUE_VALUES
  else DEFAULT_RENDER_FORMAT

/-! ### String filters -/

/-- The code of a filter expression `q`.  An item of a filter is copied field by field, and its regular expression is
compiled once more, which may fail.  `matchItem` is a turn of the loop over the items: the value that is returned, or
nothing if the loop goes on. -/
structure FilterCode (Item : Type) where
  parse : String → Option (List Item)
  compiles : Item → Bool
  matchItem : Item → ContextElementResponse → Option Bool

namespace FilterCode

variable {Item : Type} (code : FilterCode Item)

/-- `StringFilter::match`. -/
def matchFilter : List Item → ContextElementResponse → Bool
  | [], _ => true
  | item :: filters, cer => (code.matchItem item cer).getD (matchFilter filters cer)

/-- `StringFilter::clone`. -/
def clone (filters : List Item) : Option (List Item) := if filters.all code.compiles then some filters else none

/-- `StringFilter::fill` for a filter that is empty before; it stops at the first item that cannot be copied. -/
def fill (filters : List Item) : List Item := filters.takeWhile code.compiles

end FilterCode

/-! ### Documents and items of the cache -/

/-- `NotifyCondition`: the element of `notifyConditionVector` and of the array `conditions` of a document. -/
structure SubscriptionCondition where
  type : String
  condValueList : List String
deriving DecidableEq

structure SubscriptionExpression where
  q : String := ""
  geometry : String := ""
  coords : String := ""
  georel : String := ""
deriving DecidableEq

/-- An element of the array `entities` of a document. -/
structure CsubEntity where
  id : Option String
  type : Option String
  isPattern : Option String
deriving DecidableEq

/-- A document of the collection `csubs`. -/
structure Csub where
  id : String
  entities : List CsubEntity
  attrs : List String
  conditions : List SubscriptionCondition
  reference : Option String := none
  servicePath : Option String := none
  expiration : Option Int := none
  throttling : Option Int := none
  lastNotification : Option Int := none
  count : Option Int := none
  status : Option String := none
  format : Option String := none
  expression : Option SubscriptionExpression := none
deriving DecidableEq

structure EntityInfo where
  entityId : String
  entityType : String
  isPattern : Bool
deriving DecidableEq

/-- The constructor `EntityInfo::EntityInfo`. -/
def EntityInfo.ofStrings (entityId entityType isPattern : String) : EntityInfo where
  entityId := entityId
  entityType := entityType
  isPattern := isPattern = "true" || isPattern = "TRUE" || isPattern = "True"

structure CachedSubscription (Item : Type) where
  tenant : String
  servicePath : String
  subscriptionId : String
  reference : String
  entityIdInfos : List EntityInfo
  attributes : List String
  notifyConditionVector : List SubscriptionCondition
  throttling : Int
  expirationTime : Int
  lastNotificationTime : Int
  status : String
  count : Int
  renderFormat : RenderFormat
  expression : SubscriptionExpression := {}
  stringFilter : List Item := []
deriving DecidableEq

variable {Item : Type}

/-- What `subCacheItemLookup` finds an item by. -/
def CachedSubscription.key (cSub : CachedSubscription Item) : String × String := (cSub.tenant, cSub.subscriptionId)

def subCacheItemLookup (tenant subscriptionId : String) (cache : List (CachedSubscription Item)) :
    Option (CachedSubscription Item) :=
  KeyedList.get CachedSubscription.key (tenant, subscriptionId) cache

/-! ### Making an item -/

/-- The entities of a document as the cache takes them; one without an id is left out. -/
def Csub.entityInfos (sub : Csub) : List EntityInfo :=
  sub.entities.filterMap fun entity => entity.id.map fun id =>
    EntityInfo.ofStrings id (entity.type.getD "") (entity.isPattern.getD "false")

def Csub.onChangeConditions (sub : Csub) : List SubscriptionCondition :=
  sub.conditions.filter fun condition => condition.type = ON_CHANGE_CONDITION

/-- The item made from a document when the cache is loaded, or the number of the error. -/
def Refresh.mongoSubCacheItemInsert (tenant : String) (sub : Csub) : Except Int (CachedSubscription Item) :=
  if sub.entityInfos = [] then .error (-3)
  else if sub.onChangeConditions = [] then .error (-4)
  else .ok {
    tenant := tenant
    subscriptionId := sub.id
    servicePath := sub.servicePath.getD "/"
    reference := sub.reference.getD "NO REF"
    renderFormat := stringToRenderFormat (sub.format.getD "legacy")
    throttling := sub.throttling.getD (-1)
    expirationTime := sub.expiration.getD 0
    lastNotificationTime := sub.lastNotification.getD (-1)
    status := sub.status.getD STATUS_ACTIVE
    count := 0
    entityIdInfos := sub.entityInfos
    attributes := sub.attrs
    notifyConditionVector := sub.onChangeConditions }

/-- The conversion of a number to the type `int` of a parameter. -/
def toInt (n : Int) : Int := n.bmod (2 ^ 32)

/-- The item made from the document of an updated subscription, or the number of the error. -/
def Update.mongoSubCacheItemInsert (code : FilterCode Item) (tenant : String) (sub : Csub)
    (subscriptionId servicePath : String) (lastNotificationTime expirationTime : Int) (status : String)
    (expression : SubscriptionExpression) (stringFilterP : Option (List Item)) (renderFormat : RenderFormat) :
    Except Int (CachedSubscription Item) :=
  if subscriptionId = "" then .error (-1)
  else if servicePath = "" then .error (-2)
  else if sub.entityInfos = [] then .error (-4)
  else if sub.onChangeConditions = [] then .error (-5)
  else .ok {
    tenant := tenant
    subscriptionId := subscriptionId
    servicePath := servicePath
    renderFormat := renderFormat
    reference := sub.reference.getD "NO REF"
    throttling := sub.throttling.getD (-1)
    expirationTime := expirationTime
    lastNotificationTime :=
      if toInt lastNotificationTime = -1 then toInt (sub.lastNotification.getD (-1)) else toInt lastNotificationTime
    count := 0
    status := status
    expression := expression
    stringFilter := code.fill (stringFilterP.getD [])
    entityIdInfos := sub.entityInfos
    attributes := sub.attrs
    notifyConditionVector := sub.onChangeConditions }

/-- The item made for a new subscription, if it has a condition of type `ONCHANGE` (in any case). -/
def subCacheItemInsert (code : FilterCode Item) (tenant servicePath url : String) (entityIdVector : List EntityId)
    (attributeList : List String) (notifyConditionVector : List SubscriptionCondition) (subscriptionId : String)
    (expirationTime throttling : Int) (renderFormat : RenderFormat) (notificationDone : Bool)
    (lastNotificationTime : Int) (stringFilterP : Option (List Item)) (status : String)
    (expression : SubscriptionExpression) : Option (CachedSubscription Item) :=
  if notifyConditionVector.any fun condition => Text.strcasecmp condition.type ON_CHANGE_CONDITION then
    some {
      tenant := tenant
      servicePath := servicePath
      subscriptionId := subscriptionId
      reference := url
      expirationTime := expirationTime
      throttling := throttling
      lastNotificationTime := lastNotificationTime
      renderFormat := renderFormat
      count := if notificationDone then 1 else 0
      status := status
      expression := expression
      stringFilter := code.fill (stringFilterP.getD [])
      notifyConditionVector := notifyConditionVector
      entityIdInfos := entityIdVector.map fun eP => EntityInfo.ofStrings eP.id eP.type eP.isPattern
      attributes := attributeList }
  else none

end OrionBroker
