import OrionBroker.Semaphores

/-!
# The operations that take semaphores

The operations of the broker on context subscriptions, its updates of entities and the synchronization of its
subscription cache, as far as they take and give back the semaphores and the connections to the database: each early
exit of the source is one here.  Reading a document, and all that is done on data in between, takes no semaphore and
is left out, but for the decisions it leads to.
-/

namespace OrionBroker.Locks

open Threads

/-- What is set at the start of the broker. -/
structure Settings where
  reqPolicy : SemOpType
  noCache : Bool
  subCacheActive : Bool
  multitenant : Bool

/-! ### The semaphores -/

def semWait (s : Semaphore) : Thread Unit := Prog.call (Action.semWait s)

def semPost (s : Semaphore) : Thread Unit := Prog.call (Action.semPost s)

def outcome : Thread Bool := Prog.call Action.outcome

def amount : Thread Nat := Prog.call Action.amount

/-- `reqSemTake`, with what it answers in `taken`. -/
def reqSemTake (reqPolicy reqType : SemOpType) : Thread Bool := do
  if reqPolicy = .noneOp then
    return false
  if reqPolicy = .writeOp ∧ reqType = .readOp then
    return false
  if reqPolicy = .readOp ∧ reqType = .writeOp then
    return false
  semWait .reqSem
  return true

def reqSemGive (semTaken : Bool) : Thread Unit := do
  if semTaken = false then
    return
  semPost .reqSem

def cacheSemTake : Thread Unit := semWait .cacheSem

def cacheSemGive : Thread Unit := semPost .cacheSem

def mongoPoolConnectionGet : Thread (Option Nat) := do
  semWait .connectionSem
  semWait .connectionPoolSem
  let connection : Option Nat ← Prog.call Action.takeSlot
  semPost .connectionPoolSem
  return connection

def mongoPoolConnectionRelease (connection : Option Nat) : Thread Unit := do
  semWait .connectionPoolSem
  let found : Bool ← Prog.call (Action.freeSlot connection)
  Prog.onlyIf found (semPost .connectionSem)
  semPost .connectionPoolSem

def getMongoConnection : Thread (Option Nat) := mongoPoolConnectionGet

def releaseMongoConnection (connection : Option Nat) : Thread Unit := mongoPoolConnectionRelease connection

/-! ### The operations of the database -/

/-- A query with the connection of the caller. -/
def collectionQuery (connection : Option Nat) : Thread Bool := do
  if connection = none then
    return false
  outcome

def collectionRangedQuery (connection : Option Nat) : Thread Bool := collectionQuery connection

/-- An operation that gets a connection, and gives it back both after a success and after an exception; but not if the
connection is NULL. -/
def connectionOperation : Thread Bool := do
  let connection ← getMongoConnection
  if connection = none then
    return false
  let ok ← outcome
  releaseMongoConnection connection
  return ok

def collectionCount : Thread Bool := connectionOperation

def collectionFindOne : Thread Bool := connectionOperation

def collectionInsert : Thread Bool := connectionOperation

def collectionUpdate : Thread Bool := connectionOperation

def collectionRemove : Thread Bool := connectionOperation

def runCollectionCommand : Thread Bool := connectionOperation

/-- A query whose documents are read with the connection still in hand, as `entitiesQuery`, `registrationsQuery` and
`mongoSubCacheRefresh` do: reading a document takes no semaphore, and raises no exception. -/
def documentsQuery : Thread Bool := do
  let connection ← getMongoConnection
  let ok ← collectionRangedQuery connection
  if !ok then
    releaseMongoConnection connection
    return false
  releaseMongoConnection connection
  return true

def entitiesQuery : Thread Bool := documentsQuery

def registrationsQuery : Thread Bool := documentsQuery

/-! ### Subscriptions -/

/-- `processOnChangeConditionForSubscription`: whether the initial notification is sent. -/
def processOnChangeConditionForSubscription : Thread Bool := do
  let ok ← entitiesQuery
  if !ok then
    return false
  let found ← outcome
  if !found then
    return false
  let ok ← entitiesQuery
  if !ok then
    return false
  outcome

/-- The conditions of type `ONCHANGE` of an active subscription are processed. -/
def processConditionVector : Thread Unit := do
  let conditions ← amount
  Prog.times (do
    let active ← outcome
    Prog.onlyIf active (do
      let _ ← processOnChangeConditionForSubscription)) conditions

def mongoSubscribeContext (reqPolicy : SemOpType) : Thread Unit := do
  let reqSemTaken ← reqSemTake reqPolicy .writeOp
  processConditionVector
  let inserted ← collectionInsert
  if !inserted then
    return ← reqSemGive reqSemTaken
  cacheSemTake
  cacheSemGive
  reqSemGive reqSemTaken

def mongoUpdateContextSubscription (reqPolicy : SemOpType) : Thread Unit := do
  let reqSemTaken ← reqSemTake reqPolicy .writeOp
  let safeGetSubId ← outcome
  if !safeGetSubId then
    return ← reqSemGive reqSemTaken
  let found ← collectionFindOne
  if !found then
    return ← reqSemGive reqSemTaken
  let isEmpty ← outcome
  if isEmpty then
    return ← reqSemGive reqSemTaken
  let conditions ← outcome
  Prog.onlyIf conditions processConditionVector
  let updated ← collectionUpdate
  if !updated then
    return ← reqSemGive reqSemTaken
  cacheSemTake
  cacheSemGive
  reqSemGive reqSemTaken

def mongoUnsubscribeContext (reqPolicy : SemOpType) : Thread Unit := do
  let reqSemTaken ← reqSemTake reqPolicy .writeOp
  let noSubscriptionId ← outcome
  if noSubscriptionId then
    return ← reqSemGive reqSemTaken
  let safeGetSubId ← outcome
  if !safeGetSubId then
    return ← reqSemGive reqSemTaken
  let found ← collectionFindOne
  if !found then
    return ← reqSemGive reqSemTaken
  let isEmpty ← outcome
  if isEmpty then
    return ← reqSemGive reqSemTaken
  let removed ← collectionRemove
  if !removed then
    return ← reqSemGive reqSemTaken
  cacheSemTake
  cacheSemGive
  reqSemGive reqSemTaken

/-- The subscriptions are read, and looked up in the cache, with the connection in hand and without the cache
semaphore. -/
def mongoListSubscriptions (reqPolicy : SemOpType) : Thread Unit := do
  let reqSemTaken ← reqSemTake reqPolicy .readOp
  let connection ← getMongoConnection
  let ok ← collectionRangedQuery connection
  if !ok then
    releaseMongoConnection connection
    return ← reqSemGive reqSemTaken
  releaseMongoConnection connection
  reqSemGive reqSemTaken

def mongoGetSubscription (reqPolicy : SemOpType) : Thread Unit := do
  let safeGetSubId ← outcome
  if !safeGetSubId then
    return
  let reqSemTaken ← reqSemTake reqPolicy .readOp
  let connection ← getMongoConnection
  let ok ← collectionQuery connection
  if !ok then
    releaseMongoConnection connection
    return ← reqSemGive reqSemTaken
  let more ← outcome
  if !more then
    releaseMongoConnection connection
    return ← reqSemGive reqSemTaken
  let nextSafe ← outcome
  if !nextSafe then
    releaseMongoConnection connection
    return ← reqSemGive reqSemTaken
  let oneMore ← outcome
  if oneMore then
    releaseMongoConnection connection
    return ← reqSemGive reqSemTaken
  releaseMongoConnection connection
  reqSemGive reqSemTaken

/-! ### Updates of entities -/

/-- The subscriptions of the cache that match are gone through until the string filter of one cannot be set. -/
def addTriggeredSubscriptions_withCache : Thread Bool := do
  cacheSemTake
  let subVec ← amount
  let left ← Prog.timesUntil (do
    let stringFilterSet ← outcome
    if !stringFilterSet then
      cacheSemGive
      return some false
    return none) subVec
  if let some result := left then
    return result
  cacheSemGive
  return true

/-- The documents are gone through, with the connection in hand, until the string filter of one cannot be parsed or
set. -/
def addTriggeredSubscriptions_noCache : Thread Bool := do
  let connection ← getMongoConnection
  let ok ← collectionQuery connection
  if !ok then
    releaseMongoConnection connection
    return false
  let docs ← amount
  let left ← Prog.timesUntil (do
    let parse ← outcome
    if !parse then
      releaseMongoConnection connection
      return some false
    let stringFilterSet ← outcome
    if !stringFilterSet then
      releaseMongoConnection connection
      return some false
    return none) docs
  if let some result := left then
    return result
  releaseMongoConnection connection
  return true

def addTriggeredSubscriptions (noCache : Bool) : Thread Bool := do
  if noCache then
    return ← addTriggeredSubscriptions_noCache
  addTriggeredSubscriptions_withCache

/-- A subscription whose notification is sent is updated in the database if there is no cache, and in the cache if it
comes from there. -/
def processSubscriptions (subCacheActive : Bool) : Thread Unit := do
  let subs ← amount
  Prog.times (do
    let notificationSent ← outcome
    Prog.onlyIf notificationSent (do
      Prog.onlyIf (!subCacheActive) (do
        let _ ← collectionUpdate)
      let cacheSubId ← outcome
      Prog.onlyIf cacheSubId (do
        cacheSemTake
        cacheSemGive))) subs

/-- The registrations of the attributes, and then those of the whole entity, are searched as long as something has not
been found. -/
def searchContextProviders : Thread Unit := do
  let someNotFound ← outcome
  Prog.onlyIf someNotFound (do
    let _ ← registrationsQuery)
  let someNotFound ← outcome
  Prog.onlyIf someNotFound (do
    let _ ← registrationsQuery)

/-- The attributes are processed, and the subscriptions they trigger are collected. -/
def processContextAttributeVector (noCache : Bool) : Thread Bool := do
  let attributes ← outcome
  if !attributes then
    return false
  let added ← addTriggeredSubscriptions noCache
  if !added then
    return false
  outcome

def removeEntity : Thread Bool := collectionRemove

def createEntity : Thread Bool := do
  let valid ← outcome
  if !valid then
    return false
  collectionInsert

def updateEntity (settings : Settings) : Thread Unit := do
  let delete ← outcome
  if delete then
    let _ ← removeEntity
    return
  let modified ← processContextAttributeVector settings.noCache
  if !modified then
    return ← searchContextProviders
  let updated ← collectionUpdate
  if !updated then
    return
  processSubscriptions settings.subCacheActive
  searchContextProviders

/-- The checks of NGSIv2 at the start of `processContextElement`: with an error the element is done. -/
def ngsiv2Checks : Thread Bool := do
  let apiVersion2 ← outcome
  if !apiVersion2 then
    return true
  let counted ← collectionCount
  if !counted then
    return false
  outcome

/-- What `processContextElement` does if no entity has been found. -/
def processNewEntity (settings : Settings) : Thread Unit := do
  let update ← outcome
  if update then
    return ← searchContextProviders
  let delete ← outcome
  if delete then
    return
  let created ← createEntity
  if !created then
    return
  let added ← addTriggeredSubscriptions settings.noCache
  if !added then
    return
  processSubscriptions settings.subCacheActive

def processContextElement (settings : Settings) : Thread Unit := do
  let preconditions ← outcome
  if !preconditions then
    return
  let checked ← ngsiv2Checks
  if !checked then
    return
  let connection ← getMongoConnection
  let ok ← collectionQuery connection
  if !ok then
    return ← releaseMongoConnection connection
  releaseMongoConnection connection
  let results ← amount
  if results = 0 then
    return ← processNewEntity settings
  Prog.times (updateEntity settings) results

def mongoUpdateContext (settings : Settings) : Thread Unit := do
  let reqSemTaken ← reqSemTake settings.reqPolicy .writeOp
  let servicePathV ← outcome
  Prog.onlyIf servicePathV (do
    let contextElementVector ← amount
    Prog.times (processContextElement settings) contextElementVector)
  reqSemGive reqSemTaken

/-! ### Synchronization of the cache -/

/-- The databases of the broker, as many as the command has listed. -/
def getOrionDatabases : Thread Nat := do
  let ok ← runCollectionCommand
  if !ok then
    return 0
  amount

def mongoSubCacheRefresh : Thread Unit := do
  let _ ← documentsQuery

def mongoSubCacheUpdate : Thread Unit := do
  let count ← outcome
  Prog.onlyIf count (do
    let _ ← collectionUpdate)
  let lastNotificationTime ← outcome
  Prog.onlyIf lastNotificationTime (do
    let _ ← collectionUpdate)

/-- The databases, and that of the default tenant, are read. -/
def subCacheRefresh (multitenant : Bool) : Thread Unit := do
  let databases ← if multitenant then getOrionDatabases else pure 0
  Prog.times mongoSubCacheRefresh (databases + 1)

/-- The cache is read again, and what it had counted is written to the database. -/
def subCacheSync (multitenant : Bool) : Thread Unit := do
  cacheSemTake
  subCacheRefresh multitenant
  let items ← amount
  Prog.times mongoSubCacheUpdate items
  cacheSemGive

inductive Operation
  | mongoSubscribeContext
  | mongoUpdateContextSubscription
  | mongoUnsubscribeContext
  | mongoListSubscriptions
  | mongoGetSubscription
  | mongoUpdateContext
  | subCacheSync

def Operation.program (settings : Settings) : Operation → Thread Unit
  | .mongoSubscribeContext => Locks.mongoSubscribeContext settings.reqPolicy
  | .mongoUpdateContextSubscription => Locks.mongoUpdateContextSubscription settings.reqPolicy
  | .mongoUnsubscribeContext => Locks.mongoUnsubscribeContext settings.reqPolicy
  | .mongoListSubscriptions => Locks.mongoListSubscriptions settings.reqPolicy
  | .mongoGetSubscription => Locks.mongoGetSubscription settings.reqPolicy
  | .mongoUpdateContext => Locks.mongoUpdateContext settings
  | .subCacheSync => Locks.subCacheSync settings.multitenant

end OrionBroker.Locks
