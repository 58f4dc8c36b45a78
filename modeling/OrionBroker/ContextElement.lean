import OrionBroker.EntityDoc
import OrionBroker.Location

/-!
# Requests, responses and the world around the update functions

The structures that an update reads and fills: entities with their attributes, responses with a status, the context
registrations.  `Env` collects what the update functions obtain from elsewhere during one call: the clock, the
conversion of numbers, the registrations, and whether an operation on the database fails and with which text.
-/

namespace OrionBroker

open Bson

/-- The status codes that the functions here name, and the others that a context provider may answer with. -/
inductive HttpStatusCode where
  | SccNone
  | SccOk
  | SccBadRequest
  | SccContextElementNotFound
  | SccConflict
  | SccInvalidModification
  | SccInvalidParameter
  | SccReceiverInternalError
  | SccNotImplemented
  | other (code : Int)
deriving DecidableEq

structure StatusCode where
  code : HttpStatusCode := .SccNone
  details : String := ""
deriving DecidableEq

structure EntityId where
  id : String
  type : String
  isPattern : String := ""
  servicePath : String := ""
deriving DecidableEq

def EntityId.toString (eP : EntityId) (useIsPattern : Bool) : String :=
  eP.id ++ ", " ++ eP.type ++ if useIsPattern then ", " ++ eP.isPattern else ""

structure ContextElement where
  entityId : EntityId
  contextAttributeVector : List ContextAttribute := []
  /-- Context providers of the whole entity. -/
  providingApplicationList : List String := []
  creDate : Int := 0
  modDate : Int := 0

structure ContextElementResponse where
  contextElement : ContextElement
  statusCode : StatusCode := {}

structure ContextRegistration where
  entityIdVector : List EntityId
  contextRegistrationAttributeVector : List String
  providingApplication : String

/-- The update action, as the text of the request gives it. -/
inductive ActionType where
  | update
  | append
  | appendStrict
  | delete
  | replace
  | unknown
deriving DecidableEq

def ActionType.ofString (action : String) : ActionType :=
  if Text.strcasecmp action "update" then .update
  else if Text.strcasecmp action "replace" then .replace
  else if Text.strcasecmp action "append" then .append
  else if Text.strcasecmp action "append_strict" then .appendStrict
  else if Text.strcasecmp action "delete" then .delete
  else .unknown

/-- What one call obtains from outside.  An operation on the database returns the text of its error, if it fails;
`updateRefused` is the text for an update document that the server does not accept, and `registrationsQuery` returns
nothing when it fails. -/
structure Env where
  strtod : String → Strtod
  getCurrentTime : Int
  servicePathV : List String
  registrationsQuery : EntityId → List String → Option (List ContextRegistration)
  addTriggeredSubscriptions : String → String → List String → Option String
  collectionUpdate : EntityDoc → Update → Option String
  updateRefused : EntityDoc → Update → String
  collectionRemove : EntityDoc → Option String
  collectionInsert : EntityDoc → Option String
  collectionCount : Option String
  collectionQuery : Option String

/-- The conversion of an unsigned decimal integer at the beginning of a string. -/
def strtodDigits (s : String) : Strtod :=
  let digits := s.toList.takeWhile Char.isDigit
  { value := .fin (digits.foldl (fun n c => 10 * n + (c.toNat - 48)) 0 : Nat)
    rest := String.ofList (s.toList.dropWhile Char.isDigit)
    erange := false }

/-- A quiet surrounding: no operation fails and there are no registrations. -/
def Env.quiet (now : Int) : Env where
  strtod := strtodDigits
  getCurrentTime := now
  servicePathV := ["/"]
  registrationsQuery := fun _ _ => some []
  addTriggeredSubscriptions := fun _ _ _ => none
  collectionUpdate := fun _ _ => none
  updateRefused := fun _ _ => ""
  collectionRemove := fun _ => none
  collectionInsert := fun _ => none
  collectionCount := none
  collectionQuery := none

/-! ### Attributes of a response and of a notification -/

/-- The constructor from a name, a type and a string value. -/
def ContextAttribute.ofString (name type value : String) (found : Bool) : ContextAttribute :=
  { name := name, type := type, stringValue := value, found := found }

/-- The metadata of a response attribute: those with a meaning first, then the custom ones. -/
def setResponseMetadata (caReq : ContextAttribute) : List Metadata :=
  (if caReq.getId ≠ "" then [{ name := NGSI_MD_ID, type := "string", stringValue := caReq.getId }] else []) ++
    (if caReq.getLocation .v1 ≠ "" ∧ caReq.type ≠ GEO_POINT then
      [{ name := NGSI_MD_LOCATION, type := "string", stringValue := caReq.getLocation .v1 }]
    else []) ++
    (caReq.metadataVector.filter fun md => !isNotCustomMetadata md.name).map fun md => md.copy false

/-- The attribute that the response lists for an attribute of the request. -/
def responseAttribute (caReq : ContextAttribute) (found : Bool) : ContextAttribute :=
  { ContextAttribute.ofString caReq.name caReq.type "" found with metadataVector := setResponseMetadata caReq }

/-- The value of an attribute read from the database. -/
def attributeOfBson (name type : String) (value : Option BSONValue) : ContextAttribute :=
  match value with
  | none => .ofString name type "" true
  | some (.string s) => .ofString name type s true
  | some (.double d) => { name := name, type := type, valueType := .number, numberValue := d }
  | some (.int n) => { name := name, type := type, valueType := .number, numberValue := .fin n }
  | some (.bool b) => { name := name, type := type, valueType := .boolean, boolValue := b }
  | some .null => { ContextAttribute.ofString name type "" true with valueType := .none }
  | some (.object o) =>
    { ContextAttribute.ofString name type "" true with
      compoundValueP := some (.object "toplevel" "/" (compoundObjectResponse o)) }
  | some (.array items) =>
    { ContextAttribute.ofString name type "" true with
      compoundValueP := some (.vector "toplevel" (compoundVectorResponse 0 items)) }

/-- One attribute of the entity, read from its key and its sub-document. -/
def notifyAttribute (locAttr : String) (attrs : BSONObj) (attrName : String) : ContextAttribute :=
  let attr := embeddedObject ((attrs.lookup attrName).getD .null)
  let name := dbDotDecode (basePart attrName)
  let mdId := idPart attrName
  let type := getStringFieldF attr "type"
  { attributeOfBson name type (attr.lookup "value") with
    metadataVector :=
      (if mdId ≠ "" then [{ name := NGSI_MD_ID, type := "string", stringValue := mdId }] else []) ++
        (if locAttr = name ∧ type ≠ GEO_POINT then
          [{ name := NGSI_MD_LOCATION, type := "string", stringValue := LOCATION_WGS84 }]
        else []) ++
        (arrayItems attr "md").map fun v => Metadata.ofBson (embeddedObject v) }

/-- The constructor from an entity document, for all its attributes and the default API version. -/
def ContextElementResponse.ofDoc (entityDoc : EntityDoc) : ContextElementResponse where
  contextElement :=
    { entityId :=
        { id := entityDoc.id, type := entityDoc.type, isPattern := "false", servicePath := entityDoc.servicePath }
      contextAttributeVector :=
        (getFieldNames entityDoc.attrs).map
          (notifyAttribute ((entityDoc.location.map Location.attrName).getD "") entityDoc.attrs) }

theorem fields_attributeOfBson (name type : String) (v : Option BSONValue) :
    (attributeOfBson name type v).name = name ∧ (attributeOfBson name type v).type = type ∧
      (attributeOfBson name type v).skip = false := by
  rcases v with _ | v
  · exact ⟨rfl, rfl, rfl⟩
  · cases v <;> exact ⟨rfl, rfl, rfl⟩

theorem name_notifyAttribute (locAttr : String) (attrs : BSONObj) (k : String) :
    (notifyAttribute locAttr attrs k).name = dbDotDecode (basePart k) :=
  (fields_attributeOfBson _ _ _).1

theorem skip_notifyAttribute (locAttr : String) (attrs : BSONObj) (k : String) :
    (notifyAttribute locAttr attrs k).skip = false :=
  (fields_attributeOfBson _ _ _).2.2

end OrionBroker
