import OrionBroker.Registrations
import OrionBroker.UpdateEntity

/-!
# Availability subscriptions (`MongoCommonRegister.cpp`, `mongoSubscribeContextAvailability.cpp`)

An availability subscription asks to hear of registrations.  `processRegisterContext` looks for the subscriptions that a
new registration is about, one context registration after the other, stores the registration, and then queries the
registrations again for what each notification lists.

The subscriptions are selected by two sub-queries.  The second one runs JavaScript in the database: two arrays are
spliced into its text, and `jsArray` is what the engine reads from such a text, `none` when it is not an array of
strings.  `jsMatch` is the function `match` of its strings, with the pattern last; an exception of the engine is a
failure of the database.
-/

namespace OrionBroker.Availability

open Bson

abbrev DEFAULT_DURATION : String := "PT24H"

/-- A document of the collection `casubs`; an empty type is not stored. -/
structure AvailabilitySubscription where
  id : String
  expiration : Int
  reference : String
  entities : List EntityId
  attrs : List String
  lastNotification : Option Int := none
  count : Option Int := none
deriving DecidableEq

/-- An entity in such a document. -/
def casubEntity (en : EntityId) : List (String × String) :=
  if en.type = "" then [("id", en.id), ("isPattern", en.isPattern)]
  else [("id", en.id), ("type", en.type), ("isPattern", en.isPattern)]

def AvailabilitySubscription.toBson (s : AvailabilitySubscription) : BSONObj :=
  [("_id", .string s.id), ("expiration", .int s.expiration), ("reference", .string s.reference),
    ("entities", .array (s.entities.map fun en => .object (stringFields (casubEntity en)))),
    ("attrs", .array (s.attrs.map .string))] ++
    (s.lastNotification.toList.map fun t => ("lastNotification", .int t)) ++
    s.count.toList.map fun n => ("count", .int n)

/-- A context registration of a request. -/
structure ContextRegistration where
  entityIdVector : List EntityId
  contextRegistrationAttributeVector : List ContextRegistrationAttribute
  providingApplication : String

structure RegisterContextRequest where
  contextRegistrationVector : List ContextRegistration
  duration : String := ""

structure SubscribeContextAvailabilityRequest where
  entityIdVector : List EntityId
  attributeList : List String
  reference : String
  duration : String := ""

structure AvailabilityNotification where
  subscriptionId : String
  reference : String
  contextRegistrationResponseVector : List ContextRegistrationResponse
deriving DecidableEq

/-- What is stored: the availability subscriptions, and the registrations under their ids. -/
structure AvailabilityDB where
  casubs : List AvailabilitySubscription
  registrations : List (String × Registration)

/-- What a call finds around it. -/
structure RegisterEnv where
  getCurrentTime : Int
  parse8601 : String → Int
  oidInit : String
  regexec : String → String → Bool
  pcre : String → Option (String → Bool)
  jsArray : String → Option (List String)
  jsMatch : String → String → Bool
  /-- The error of the operation on a collection, if it fails. -/
  casubsQuery : Option String := none
  casubsInsert : Option String := none
  registrationsUpdate : Option String := none

section Register

variable (env : RegisterEnv)

/-! ### Notifications -/

/-- The documents of the collection of registrations, in the order of their ids. -/
def registrationDocs (registrations : List (String × Registration)) : List BSONObj :=
  (registrations.insertionSort fun r r' => r.1 ≤ r'.1).map fun r => r.2.toBson

/-- `$set` of the time and `$inc` of the counter. -/
def mongoUpdateCasubNewNotification (subId : String) (casubs : List AvailabilitySubscription) :
    List AvailabilitySubscription :=
  casubs.map fun s =>
    if s.id = subId then { s with lastNotification := some env.getCurrentTime, count := some (s.count.getD 0 + 1) }
    else s

def processAvailabilitySubscription (enV : List EntityId) (attrL : List String) (subId notifyUrl : String)
    (db : AvailabilityDB) : AvailabilityDB × Option AvailabilityNotification :=
  match registrationsQuery env.regexec env.pcre env.getCurrentTime enV attrL "" [] 0 0
      (registrationDocs db.registrations) with
  | none => (db, none)
  | some [] => (db, none)
  | some (crr :: crrs) =>
    ({ db with casubs := mongoUpdateCasubNewNotification env subId db.casubs }, some ⟨subId, notifyUrl, crr :: crrs⟩)

/-- The document of a new subscription. -/
def newCasub (request : SubscribeContextAvailabilityRequest) : AvailabilitySubscription :=
  { id := env.oidInit
    expiration := env.getCurrentTime +
      env.parse8601 (if request.duration = "" then DEFAULT_DURATION else request.duration)
    reference := request.reference
    entities := request.entityIdVector
    attrs := request.attributeList }

/-- What is stored, and the initial notification or the text of an error. -/
def mongoSubscribeContextAvailability (request : SubscribeContextAvailabilityRequest) (db : AvailabilityDB) :
    AvailabilityDB × Except String (Option AvailabilityNotification) :=
  match env.casubsInsert with
  | some err => (db, .error err)
  | none =>
    let (db, notification) := processAvailabilitySubscription env request.entityIdVector request.attributeList env.oidInit
      request.reference { db with casubs := db.casubs ++ [newCasub env request] }
    (db, .ok notification)

/-! ### The subscriptions that are triggered -/

/-- The items of an array in the text of the function. -/
def jsItems : List String → String
  | [] => ""
  | [s] => "\"" ++ s ++ "\""
  | s :: rest => "\"" ++ s ++ "\" ," ++ jsItems rest

def jsArrayText (items : List String) : String := "[ " ++ jsItems items ++ " ]"

/-- The entities of a context registration that take part. -/
def entitiesNoPattern (cr : ContextRegistration) : List EntityId :=
  cr.entityIdVector.filter fun en => en.isPattern = "false"

/-- The body of the JavaScript function, for the arrays `enId` and `enType`. -/
def whereFunction (enId enType : List String) (doc : BSONObj) : Bool :=
  (arrayItems doc "entities").any fun v =>
    let entity := embeddedObject v
    entity.lookup "isPattern" = some (.string "true") &&
      enId.zipIdx.any fun p =>
        env.jsMatch p.1 (getStringFieldF entity "id") && entity.lookup "type" = (enType[p.2]?).map .string

/-- `{attrs: {$size: 0}}`. -/
def sizeZero (doc : BSONObj) : Bool :=
  match doc.lookup "attrs" with
  | some (.array items) => items.length = 0
  | _ => false

def notExpired (doc : BSONObj) : Bool :=
  (Filter.field "expiration" (.compare .gt (.int env.getCurrentTime))).accepts env.pcre doc

def queryNoPattern (cr : ContextRegistration) (doc : BSONObj) : Bool :=
  (Filter.field "entities" (.isIn ((entitiesNoPattern cr).map fun en =>
      .value (.object (stringFields [("id", en.id), ("type", en.type), ("isPattern", "false")]))))).accepts env.pcre doc &&
    (if cr.contextRegistrationAttributeVector.length > 0 then
      (Filter.field "attrs" (.isIn (cr.contextRegistrationAttributeVector.map fun cra =>
        .value (.string cra.name)))).accepts env.pcre doc || sizeZero doc
    else sizeZero doc) && notExpired env doc

def queryPattern (enId enType : List String) (doc : BSONObj) : Bool :=
  (Filter.field "entities.isPattern" (.compare .eq (.string "true"))).accepts env.pcre doc && notExpired env doc &&
    whereFunction env enId enType doc

/-- An entry of the map, under its key. -/
structure TriggeredSubscription where
  subId : String
  reference : String
  attrL : List String

/-- The entry for a document that was found, if there is none yet. -/
def insertTriggered (subs : List TriggeredSubscription) (s : AvailabilitySubscription) : List TriggeredSubscription :=
  if subs.any fun t => t.subId = s.id then subs else subs ++ [⟨s.id, s.reference, s.attrs⟩]

def addTriggeredSubscriptions (cr : ContextRegistration) (subs : List TriggeredSubscription)
    (casubs : List AvailabilitySubscription) : Except String (List TriggeredSubscription) :=
  match env.casubsQuery with
  | some err => .error err
  | none =>
    match env.jsArray (jsArrayText ((entitiesNoPattern cr).map EntityId.id)),
        env.jsArray (jsArrayText ((entitiesNoPattern cr).map EntityId.type)) with
    | some enId, some enType =>
      .ok ((casubs.filter fun s => queryNoPattern env cr s.toBson || queryPattern env enId enType s.toBson).foldl
        insertTriggered subs)
    | _, _ => .error "$where compile error"

/-- The loop over the context registrations. -/
def triggeredByAll (casubs : List AvailabilitySubscription) :
    List TriggeredSubscription → List ContextRegistration → Except String (List TriggeredSubscription)
  | subs, [] => .ok subs
  | subs, cr :: rest =>
    match addTriggeredSubscriptions env cr subs casubs with
    | .error err => .error err
    | .ok subs' => triggeredByAll casubs subs' rest

/-- One notification for each entry, in the order of the keys. -/
def processSubscriptions (triggerEntitiesV : List EntityId) :
    List TriggeredSubscription → AvailabilityDB → AvailabilityDB × List AvailabilityNotification
  | [], db => (db, [])
  | t :: subs, db =>
    let (db', notification) := processAvailabilitySubscription env triggerEntitiesV t.attrL t.subId t.reference db
    let (db'', notifications) := processSubscriptions triggerEntitiesV subs db'
    (db'', notification.toList ++ notifications)

/-! ### The registration -/

def registeredElement (cr : ContextRegistration) : RegisteredElement :=
  { entities := cr.entityIdVector.map fun en => { id := en.id, type := if en.type = "" then none else some en.type }
    attrs := some cr.contextRegistrationAttributeVector
    providingApplication := cr.providingApplication }

/-- The document of a registration. -/
def newRegistration (request : RegisterContextRequest) (servicePath : String) : Registration :=
  { expiration := env.getCurrentTime +
      env.parse8601 (if request.duration = "" then DEFAULT_DURATION else request.duration)
    servicePath := some (if servicePath = "" then DEFAULT_SERVICE_PATH_UPDATES else servicePath)
    contextRegistration := request.contextRegistrationVector.map registeredElement }

/-- An update with `upsert`. -/
def upsertRegistration (oid : String) (reg : Registration) (registrations : List (String × Registration)) :
    List (String × Registration) :=
  if registrations.any fun r => r.1 = oid then registrations.map fun r => if r.1 = oid then (oid, reg) else r
  else registrations ++ [(oid, reg)]

/-- What is stored after a registration, its id and the notifications that are sent. -/
structure RegisterResult where
  db : AvailabilityDB
  registrationId : String
  duration : String
  notifications : List AvailabilityNotification

def processRegisterContext (request : RegisterContextRequest) (id : Option String) (servicePath : String)
    (db : AvailabilityDB) : Except String RegisterResult :=
  let oid := id.getD env.oidInit
  match triggeredByAll env db.casubs [] request.contextRegistrationVector with
  | .error err => .error err
  | .ok subsToNotify =>
    match env.registrationsUpdate with
    | some err => .error err
    | none =>
      let (db', notifications) := processSubscriptions env
        (request.contextRegistrationVector.flatMap ContextRegistration.entityIdVector)
        (subsToNotify.insertionSort fun t t' => t.subId ≤ t'.subId)
        { db with registrations := upsertRegistration oid (newRegistration env request servicePath) db.registrations }
      .ok
        { db := db'
          registrationId := oid
          duration := if request.duration = "" then DEFAULT_DURATION else request.duration
          notifications := notifications }

end Register

end OrionBroker.Availability
