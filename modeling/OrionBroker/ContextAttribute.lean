import OrionBroker.CompoundValue

/-!
# Attributes and their metadata (`ContextAttribute.cpp`, `Metadata.cpp`)

The attribute of a request, of a response and of a notification is the same structure.  Its value is given by
`valueType` and the field of that type, unless a compound value is attached, which then takes precedence.  Two kinds
of metadata are not custom: `ID`, which becomes part of the attribute key, and `location`, which marks the attribute
that holds the position of the entity in the first version of the API.

`copy` is the copying constructor.  It moves the compound value out of the attribute it copies, so it returns that
attribute as well.
-/

namespace OrionBroker

open Bson

inductive ValueType where
  | unknown
  | string
  | number
  | boolean
  | vector
  | object
  | none
deriving DecidableEq

/-- The type of the request being checked; only the one that carries a bare attribute value is told apart. -/
inductive RequestType where
  | entityAttributeValueRequest
  | other
deriving DecidableEq

abbrev DEFAULT_TYPE : String := "none"
abbrev NGSI_MD_ID : String := "ID"
abbrev NGSI_MD_LOCATION : String := "location"
abbrev NGSI_MD_CREDATE : String := "creDate"
abbrev NGSI_MD_MODDATE : String := "modDate"
abbrev GEO_POINT : String := "geo:point"
abbrev GEO_LINE : String := "geo:line"
abbrev GEO_BOX : String := "geo:box"
abbrev GEO_POLYGON : String := "geo:polygon"
abbrev GEO_JSON : String := "geo:json"
abbrev LOCATION_WGS84 : String := "WGS84"
abbrev LOCATION_WGS84_LEGACY : String := "WSG84"
abbrev MAX_ID_LEN : Nat := 256
abbrev MIN_ID_LEN : Nat := 1

structure Metadata where
  name : String
  type : String
  valueType : ValueType := .string
  stringValue : String := ""
  numberValue : Double := .fin 0
  boolValue : Bool := false
  typeGiven : Bool := false

structure ContextAttribute where
  name : String
  type : String
  metadataVector : List Metadata := []
  valueType : ValueType := .string
  stringValue : String := ""
  numberValue : Double := .fin 0
  boolValue : Bool := false
  /-- Not part of NGSI, used for forwarding to context providers. -/
  providingApplication : String := ""
  /-- Attribute found either locally or remotely in a providing application. -/
  found : Bool := true
  skip : Bool := false
  compoundValueP : Option CompoundValueNode := none
  /-- Was `type` part of the incoming payload? -/
  typeGiven : Bool := false

/-! ### Metadata -/

/-- A metadata with a special semantic, interpreted by the broker itself. -/
def isNotCustomMetadata (md : String) : Bool :=
  md = NGSI_MD_ID || md = NGSI_MD_LOCATION || md = NGSI_MD_CREDATE || md = NGSI_MD_MODDATE

/-- The text of an error about a length. -/
def lengthError (what : String) (len : Nat) (bound : String) (limit : Nat) : String :=
  what ++ " length: " ++ Nat.repr len ++ ", " ++ bound ++ " length supported: " ++ Nat.repr limit

namespace Metadata

/-- The copying constructor. -/
def copy (md : Metadata) (useDefaultType : Bool) : Metadata :=
  if useDefaultType && !md.typeGiven then { md with type := DEFAULT_TYPE } else md

def check (checkIdv1 : Bool) (api : ApiVersion) (md : Metadata) : String :=
  if md.name = "" then "missing metadata name"
  else if md.name.utf8ByteSize > MAX_ID_LEN then lengthError "metadata name" md.name.utf8ByteSize "max" MAX_ID_LEN
  else if forbiddenIdChars checkIdv1 api md.name [] then "Invalid characters in metadata name"
  else if md.type.utf8ByteSize > MAX_ID_LEN then lengthError "metadata type" md.type.utf8ByteSize "max" MAX_ID_LEN
  else if api = .v2 ∧ md.type.utf8ByteSize < MIN_ID_LEN then
    lengthError "metadata type" md.type.utf8ByteSize "min" MIN_ID_LEN
  else if forbiddenIdChars checkIdv1 api md.type [] then "Invalid characters in metadata type"
  else if md.valueType = .string then
    if forbiddenChars md.stringValue [] then "Invalid characters in metadata value"
    else if md.stringValue = "" then "missing metadata value"
    else "OK"
  else "OK"

end Metadata

/-- `MetadataVector::check`. -/
def metadataVectorCheck (checkIdv1 : Bool) (api : ApiVersion) : List Metadata → String
  | [] => "OK"
  | md :: mds => if md.check checkIdv1 api ≠ "OK" then md.check checkIdv1 api else metadataVectorCheck checkIdv1 api mds

/-! ### Attributes -/

namespace ContextAttribute

def getId (ca : ContextAttribute) : String :=
  match ca.metadataVector.find? fun md => md.name = NGSI_MD_ID with
  | some md => md.stringValue
  | none => ""

def getLocation (ca : ContextAttribute) (api : ApiVersion) : String :=
  match api with
  | .v1 =>
    match ca.metadataVector.find? fun md => md.name = NGSI_MD_LOCATION with
    | some md => md.stringValue
    | none => if ca.type = GEO_POINT then LOCATION_WGS84 else ""
  | .v2 =>
    if ca.type ∈ [GEO_POINT, GEO_LINE, GEO_BOX, GEO_POLYGON, GEO_JSON] then LOCATION_WGS84 else ""

/-- The key of the attribute in the `attrs` sub-document. -/
def key (ca : ContextAttribute) : String := effectiveName ca.name ca.getId

def bsonAppendAttrValue (ca : ContextAttribute) : BSONObj :=
  match ca.valueType with
  | .string => [("value", .string ca.stringValue)]
  | .number => [("value", .double ca.numberValue)]
  | .boolean => [("value", .bool ca.boolValue)]
  | .none => [("value", .null)]
  | _ => []

/-- The attribute value as a BSON field, to be appended to the attribute. -/
def valueBson (ca : ContextAttribute) : BSONObj :=
  match ca.compoundValueP with
  | none => ca.bsonAppendAttrValue
  | some compoundValue => [("value", childBson compoundValue)]

/-- The copying constructor: the copy and the attribute copied from, which loses its compound value. -/
def copy (ca : ContextAttribute) (useDefaultType : Bool) : ContextAttribute × ContextAttribute :=
  ({ ca with
      type := if useDefaultType && !ca.typeGiven then DEFAULT_TYPE else ca.type
      skip := false
      metadataVector := ca.metadataVector.map fun md => md.copy useDefaultType },
    { ca with compoundValueP := none })

def check (checkIdv1 : Bool) (api : ApiVersion) (requestType : RequestType) (ca : ContextAttribute) : String :=
  if ca.name = "" ∧ requestType ≠ .entityAttributeValueRequest then "missing attribute name"
  else if ca.name.utf8ByteSize > MAX_ID_LEN then lengthError "attribute name" ca.name.utf8ByteSize "max" MAX_ID_LEN
  else if forbiddenIdChars checkIdv1 api ca.name [] then "Invalid characters in attribute name"
  else if ca.type.utf8ByteSize > MAX_ID_LEN then lengthError "attribute type" ca.type.utf8ByteSize "max" MAX_ID_LEN
  else if api = .v2 ∧ requestType ≠ .entityAttributeValueRequest ∧ ca.type.utf8ByteSize < MIN_ID_LEN then
    lengthError "attribute type" ca.type.utf8ByteSize "min" MIN_ID_LEN
  else if requestType ≠ .entityAttributeValueRequest ∧ forbiddenIdChars checkIdv1 api ca.type [] then
    "Invalid characters in attribute type"
  else
    match ca.compoundValueP with
    | some (.vector n (c :: cs)) => (CompoundValueNode.vector n (c :: cs)).check
    | some (.object n path (c :: cs)) => (CompoundValueNode.object n path (c :: cs)).check
    | _ =>
      if ca.valueType = .string ∧ forbiddenChars ca.stringValue [] then "Invalid characters in attribute value"
      else metadataVectorCheck checkIdv1 api ca.metadataVector

/-- The parsers fill `stringValue` for a plain string only. -/
def PlainString (ca : ContextAttribute) : Prop :=
  (ca.valueType ≠ .string ∨ ca.compoundValueP.isSome) → ca.stringValue = ""

instance (ca : ContextAttribute) : Decidable ca.PlainString := by unfold PlainString; infer_instance

end ContextAttribute

/-! ### What a check promises -/

theorem lengthError_ne_OK (what : String) (len : Nat) (bound : String) (limit : Nat) :
    lengthError what len bound limit ≠ "OK" := by
  intro h
  have := congrArg (fun s => s.toList.length) h
  simp [lengthError] at this
  omega

/-- A test of a check that is accepted did not find its error. -/
theorem ok_of_ite {p : Prop} [Decidable p] {error rest : String} (he : error ≠ "OK")
    (h : (if p then error else rest) = "OK") : ¬ p ∧ rest = "OK" := by
  by_cases hp : p
  · rw [if_pos hp] at h
    exact absurd h he
  · rw [if_neg hp] at h
    exact ⟨hp, h⟩

namespace ContextAttribute

theorem forbiddenIdChars_of_check {checkIdv1 : Bool} {api : ApiVersion} {requestType : RequestType}
    {ca : ContextAttribute} (h : ca.check checkIdv1 api requestType = "OK") :
    forbiddenIdChars checkIdv1 api ca.name [] = false := by
  unfold check at h
  obtain ⟨-, h⟩ := ok_of_ite (by decide) h
  obtain ⟨-, h⟩ := ok_of_ite (lengthError_ne_OK _ _ _ _) h
  obtain ⟨hname, -⟩ := ok_of_ite (by decide) h
  simpa using hname

/-- An accepted attribute name has no `=`. -/
theorem no_equals_of_check {checkIdv1 : Bool} {api : ApiVersion} {requestType : RequestType} {ca : ContextAttribute}
    (h : ca.check checkIdv1 api requestType = "OK") : '=' ∉ ca.name.toList :=
  no_equals_of_forbiddenIdChars (forbiddenIdChars_of_check h)

/-- An attribute that is not sent as a bare value has a name. -/
theorem name_ne_of_check {checkIdv1 : Bool} {api : ApiVersion} {ca : ContextAttribute}
    (h : ca.check checkIdv1 api .other = "OK") : ca.name ≠ "" := by
  intro hn
  unfold check at h
  rw [if_pos ⟨hn, by decide⟩] at h
  exact absurd h (by decide)

end ContextAttribute

end OrionBroker
