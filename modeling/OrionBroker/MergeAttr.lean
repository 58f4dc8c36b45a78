import OrionBroker.ContextAttribute

/-!
# Merging an attribute (`MongoCommonUpdate.cpp`, `Metadata.cpp`)

The functions that build the stored form of an attribute.  `newAttribute` is the form of an attribute that was not in
the document; `mergeAttrInfo` merges the attribute of a request into the stored one: the value and the type are kept
when the request has none, the metadata of the request come first and the stored ones that the request does not
mention follow.  It also decides whether the request changes the attribute at all; when it does not, nothing is
written.
-/

namespace OrionBroker

open Bson

/-! ### Access to fields (`safeMongo.cpp`) -/

/-- A string field, `""` when it is missing or of another type. -/
def getStringFieldF (o : BSONObj) (k : String) : String :=
  match o.lookup k with
  | some (.string s) => s
  | _ => ""

/-- An integer field, `-1` when it is missing or of another type. -/
def getIntFieldF (o : BSONObj) (k : String) : Int :=
  match o.lookup k with
  | some (.int n) => n
  | _ => -1

/-- `BSONElement::embeddedObject`; every value it is applied to is an object. -/
def embeddedObject : BSONValue → BSONObj
  | .object o => o
  | _ => []

/-- The elements of an array field, none when it is missing. -/
def arrayItems (o : BSONObj) (k : String) : List BSONValue :=
  match o.lookup k with
  | some (.array items) => items
  | _ => []

/-! ### Metadata -/

/-- The constructor from BSON. -/
def Metadata.ofBson (mdB : BSONObj) : Metadata :=
  let md : Metadata :=
    { name := getStringFieldF mdB "name"
      type := getStringFieldF mdB "type"
      typeGiven := getStringFieldF mdB "type" ≠ "" }
  match mdB.lookup "value" with
  | some (.string s) => { md with valueType := .string, stringValue := s }
  | some (.double d) => { md with valueType := .number, numberValue := d }
  | some (.bool b) => { md with valueType := .boolean, boolValue := b }
  | some .null => { md with valueType := .none }
  | _ => { md with valueType := .unknown }

/-- The value of a metadata; metadata are not compound. -/
def Metadata.valueBson (md : Metadata) : Option BSONValue :=
  match md.valueType with
  | .string => some (.string md.stringValue)
  | .number => some (.double md.numberValue)
  | .boolean => some (.bool md.boolValue)
  | .none => some .null
  | _ => none

/-- What `appendMetadata` adds to the metadata vector. -/
def appendMetadata (md : Metadata) (useDefaultType : Bool) : List BSONValue :=
  let type := if !md.typeGiven && useDefaultType then DEFAULT_TYPE else md.type
  match md.valueBson with
  | none => []
  | some v =>
    if type ≠ "" then [.object [("name", .string md.name), ("type", .string type), ("value", v)]]
    else [.object [("name", .string md.name), ("value", v)]]

/-- The custom metadata of an attribute, as `appendMetadata` adds them. -/
def customMetadata (mds : List Metadata) (useDefaultType : Bool) : List BSONValue :=
  (mds.filter fun md => !isNotCustomMetadata md.name).flatMap fun md => appendMetadata md useDefaultType

/-- Nothing is returned when there is no custom metadata. -/
def contextAttributeCustomMetadataToBson (ca : ContextAttribute) (useDefaultType : Bool) : Option (List BSONValue) :=
  let mdToAdd := customMetadata ca.metadataVector useDefaultType
  if mdToAdd.length > 0 then some mdToAdd else none

/-- Is a metadata included in a request attribute? -/
def hasMetadata (name : String) (caP : ContextAttribute) : Bool := caP.metadataVector.any fun md => md.name = name

def matchMetadata (md1 md2 : BSONObj) : Bool := getStringFieldF md1 "name" = getStringFieldF md2 "name"

/-- Two fields of the same scalar type with the same value. -/
def sameScalar : Option BSONValue → Option BSONValue → Bool
  | some (.double d), some (.double e) => d.eq e
  | some (.bool b), some (.bool c) => b = c
  | some (.string s), some (.string t) => s = t
  | some .null, some .null => true
  | _, _ => false

def equalMetadataValues (md1 md2 : BSONObj) : Bool :=
  if hasField md1 "type" ≠ hasField md2 "type" then false
  else if hasField md1 "type" ∧ sameScalar (md1.lookup "type") (md2.lookup "type") = false then false
  else sameScalar (md1.lookup "value") (md2.lookup "value")

/-- Every metadata of the first vector has the value of the first match in the second one, if there is one. -/
def equalMetadataVectors (mdV1 mdV2 : List BSONObj) : Bool :=
  mdV1.all fun md1 =>
    match mdV2.find? fun md2 => matchMetadata md1 md2 with
    | some md2 => equalMetadataValues md1 md2
    | none => true

/-! ### Attributes -/

/-- In v2 an absent value means null, which is a value. -/
def attributeValueAbsent (caP : ContextAttribute) (apiVersion : ApiVersion) : Bool :=
  caP.valueType = .none && apiVersion = .v1

def attributeTypeAbsent (caP : ContextAttribute) : Bool := caP.type = ""

def attrValueChanges (attr : BSONObj) (caP : ContextAttribute) (apiVersion : ApiVersion) : Bool :=
  match attr.lookup "value" with
  | none => caP.valueType ≠ .string || caP.stringValue ≠ ""
  | some v =>
    if caP.valueType = .none ∧ apiVersion ≠ .v2 then false
    else
      match v with
      | .object _ | .array _ => true
      | .double d => caP.valueType ≠ .number || !(caP.numberValue.eq d)
      | .bool b => caP.valueType ≠ .boolean || caP.boolValue ≠ b
      | .string s => caP.valueType ≠ .string || caP.stringValue ≠ s
      | .null => caP.valueType ≠ .none
      | .int _ => false

/-- The value of the merged attribute; a stored value of a type unknown to the broker is not copied. -/
def mergedValue (attr : BSONObj) (caP : ContextAttribute) (apiVersion : ApiVersion) : BSONObj :=
  if attributeValueAbsent caP apiVersion then
    match attr.lookup "value" with
    | none | some (.int _) => []
    | some v => [("value", v)]
  else caP.valueBson

def mergedType (attr : BSONObj) (caP : ContextAttribute) : BSONObj :=
  if caP.type ≠ "" then [("type", .string caP.type)]
  else if hasField attr "type" then [("type", .string (getStringFieldF attr "type"))]
  else []

/-- The metadata of the request, then the stored ones that are not included in the request. -/
def mergedMetadata (attr : BSONObj) (caP : ContextAttribute) (apiVersion : ApiVersion) : List BSONValue :=
  customMetadata caP.metadataVector (apiVersion = .v2) ++
    ((arrayItems attr "md").map fun v => Metadata.ofBson (embeddedObject v)).flatMap fun md =>
      if hasMetadata md.name caP then [] else appendMetadata md (apiVersion = .v2)

/-- Was it an actual update?  A compound value always counts as a change. -/
def actualUpdate (attr : BSONObj) (caP : ContextAttribute) (apiVersion : ApiVersion) : Bool :=
  if caP.compoundValueP.isSome then true
  else
    attrValueChanges attr caP apiVersion ||
      (caP.type ≠ "" && (!hasField attr "type" || getStringFieldF attr "type" ≠ caP.type)) ||
      (mergedMetadata attr caP apiVersion).length ≠ (arrayItems attr "md").length ||
      !equalMetadataVectors ((arrayItems attr "md").map embeddedObject)
        ((mergedMetadata attr caP apiVersion).map embeddedObject)

/-- A date field, copied when it exists. -/
def keptDate (attr : BSONObj) (k : String) : BSONObj :=
  if hasField attr k then [(k, .int (getIntFieldF attr k))] else []

/-- The merged attribute and whether it was an actual update. -/
def mergeAttrInfo (now : Int) (attr : BSONObj) (caP : ContextAttribute) (apiVersion : ApiVersion) : BSONObj × Bool :=
  let mdNewV := mergedMetadata attr caP apiVersion
  (mergedValue attr caP apiVersion ++ mergedType attr caP ++ (if mdNewV.length > 0 then [("md", .array mdNewV)] else []) ++
      keptDate attr "creDate" ++
      if actualUpdate attr caP apiVersion then [("modDate", .int now)] else keptDate attr "modDate",
    actualUpdate attr caP apiVersion)

/-- The type of an attribute that is written for the first time. -/
def newAttributeType (caP : ContextAttribute) (apiVersion : ApiVersion) : String :=
  if !caP.typeGiven && apiVersion = .v2 then DEFAULT_TYPE else caP.type

end OrionBroker
