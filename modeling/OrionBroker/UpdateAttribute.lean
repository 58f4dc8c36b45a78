import OrionBroker.ContextElement

/-!
# One attribute of a request against the stored ones (`MongoCommonUpdate.cpp`)

What an attribute of a request adds to the update document, for each of the actions.  The stored attributes `attrs`
are those read at the beginning and do not change while the request is processed, so an attribute adds the same
whatever was processed before it.
-/

namespace OrionBroker

open Bson

/-- What `updateAttribute` and `appendAttribute` add to the update document, and what they return. -/
structure AttributeUpdate where
  found : Bool
  actualUpdate : Bool
  toSet : List (String × BSONValue) := []
  toPush : List String := []

/-- The attribute as a replacement writes it: the metadata vector is always there, empty when there is no custom
metadata. -/
def replacedAttribute (now : Int) (caP : ContextAttribute) (apiVersion : ApiVersion) : BSONObj :=
  [("type", .string (newAttributeType caP apiVersion)), ("creDate", .int now), ("modDate", .int now)] ++ caP.valueBson ++
    -- the test is followed by a stray semicolon in the source, so its result is not used
    [("md", .array ((contextAttributeCustomMetadataToBson caP (apiVersion = .v2)).getD []))]

def updateAttribute (now : Int) (attrs : BSONObj) (caP : ContextAttribute) (isReplace : Bool) (apiVersion : ApiVersion) :
    AttributeUpdate :=
  let effectiveName := caP.key
  if isReplace then
    { found := true, actualUpdate := true
      toSet := [(effectiveName, .object (replacedAttribute now caP apiVersion))]
      toPush := [caP.name] }
  else
    match attrs.lookup effectiveName with
    | none => { found := false, actualUpdate := false }
    | some attr =>
      let merged := mergeAttrInfo now (embeddedObject attr) caP apiVersion
      { found := true, actualUpdate := merged.2
        toSet := if merged.2 then [(composedName effectiveName, .object merged.1)] else [] }

/-- An attribute that is appended. -/
def appendedAttribute (now : Int) (caP : ContextAttribute) (apiVersion : ApiVersion) : BSONObj :=
  caP.valueBson ++ [("type", .string (newAttributeType caP apiVersion))] ++
    (match contextAttributeCustomMetadataToBson caP (apiVersion = .v2) with
      | some mdV => [("md", .array mdV)]
      | none => []) ++
    [("creDate", .int now), ("modDate", .int now)]

/-- In the result, `found` is false for an actual append and true for an append as update. -/
def appendAttribute (now : Int) (attrs : BSONObj) (caP : ContextAttribute) (apiVersion : ApiVersion) :
    AttributeUpdate :=
  if hasField attrs caP.key then updateAttribute now attrs caP false apiVersion
  else
    { found := false, actualUpdate := true
      toSet := [(composedName caP.key, .object (appendedAttribute now caP apiVersion))]
      toPush := [caP.name] }

/-- The client does not mix ID and no ID for the same name: the test against the stored attributes. -/
def legalIdUsage (attrs : BSONObj) (caP : ContextAttribute) : Bool :=
  let pre := caP.name ++ "__"
  if caP.getId = "" then
    (getFieldNames attrs).all fun attrName =>
      !(Text.strncmp caP.name attrName caP.name.toList.length && Text.strncmp pre attrName pre.toList.length)
  else
    (getFieldNames attrs).all fun attrName =>
      !(Text.strncmp caP.name attrName caP.name.toList.length && !Text.strncmp pre attrName pre.toList.length)

/-- The same test inside a request that creates an entity. -/
def legalIdUsageInVector (caV : List ContextAttribute) : Bool :=
  caV.all fun c => c.getId ≠ "" || !caV.any fun ca => c.name = ca.name && c.type = ca.type && ca.getId ≠ ""

/-- The path to remove, if the attribute is there. -/
def deleteAttribute (attrs : BSONObj) (caP : ContextAttribute) : Option String :=
  if hasField attrs caP.key then some (composedName caP.key) else none

/-- The number of stored attributes with a given name; it is 1 except in the case of using ID. -/
def howManyAttrs (attrs : BSONObj) (attrName : String) : Nat :=
  ((getFieldNames attrs).filter fun k => basePart k = attrName).length

/-! ### The entity to notify -/

/-- A metadata of a request in the metadata vector of a notified attribute. -/
def updateNotifyMetadata (targetMd : Metadata) (useDefaultType : Bool) : List Metadata → List Metadata
  | [] => [targetMd.copy useDefaultType]
  | md :: mds =>
    if md.name = targetMd.name then
      { md with
        valueType := targetMd.valueType, stringValue := targetMd.stringValue, boolValue := targetMd.boolValue
        numberValue := targetMd.numberValue, type := if targetMd.type ≠ "" then targetMd.type else md.type } :: mds
    else md :: updateNotifyMetadata targetMd useDefaultType mds

/-- An attribute of a request in the notified attribute of the same name. -/
def updateNotifyAttribute (targetAttr : ContextAttribute) (useDefaultType : Bool) (caP : ContextAttribute) :
    ContextAttribute :=
  let caV :=
    if targetAttr.valueType ≠ .none then
      { caP with
        valueType := targetAttr.valueType, stringValue := targetAttr.stringValue, boolValue := targetAttr.boolValue
        numberValue := targetAttr.numberValue, compoundValueP := targetAttr.compoundValueP }
    else caP
  { caV with
    type := if targetAttr.type ≠ "" then targetAttr.type else caP.type
    metadataVector :=
      targetAttr.metadataVector.foldl (fun mds md => updateNotifyMetadata md useDefaultType mds) caP.metadataVector }

/-- The notified attributes, and the attribute of the request: when it is a new one, its compound value is moved to
the notification. -/
def updateAttrInNotifyCer (targetAttr : ContextAttribute) (useDefaultType : Bool) :
    List ContextAttribute → List ContextAttribute × ContextAttribute
  | [] => ([(targetAttr.copy useDefaultType).1], (targetAttr.copy useDefaultType).2)
  | caP :: caV =>
    if caP.name = targetAttr.name then (updateNotifyAttribute targetAttr useDefaultType caP :: caV, targetAttr)
    else
      let rest := updateAttrInNotifyCer targetAttr useDefaultType caV
      (caP :: rest.1, rest.2)

/-- A deleted attribute is marked so that it is not rendered. -/
def deleteAttrInNotifyCer (targetAttr : ContextAttribute) (caV : List ContextAttribute) : List ContextAttribute :=
  caV.map fun caP => if caP.name = targetAttr.name then { caP with skip := true } else caP

end OrionBroker
