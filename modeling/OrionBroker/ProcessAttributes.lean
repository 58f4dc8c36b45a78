import OrionBroker.UpdateAttribute

/-!
# The attributes of a request (`processContextAttributeVector`)

The loop over the attribute vector of a request.  `Processing` holds the variables that it fills: the pieces of the
update document, the response attributes and status, the entity to notify and the location.  One turn is done by one
of three functions, by action; a turn that fails ends the loop and the attributes after it are not looked at.  A
missing attribute does not fail an update: it only sets an error status, and the loop goes on.
-/

namespace OrionBroker

open Bson

structure Processing where
  /-- The attributes of the entity to notify. -/
  notifyAttrs : List ContextAttribute
  currentLocAttrName : String
  geoJson : BSONObj := []
  toSet : List (String × BSONValue) := []
  toUnset : List String := []
  toPush : List String := []
  /-- The attributes of the response. -/
  responseAttrs : List ContextAttribute := []
  statusCode : StatusCode := {}
  entityModified : Bool := false
  deletedAttributesCounter : List (String × Nat) := []
  modifiedAttrs : List String := []

/-- A turn of the loop: whether it goes on, the variables, and the attribute of the request. -/
structure Turn where
  ok : Bool
  processing : Processing
  targetAttr : ContextAttribute

/-- The details of an error about an attribute. -/
def offendingAttribute (action : String) (eP : EntityId) (targetAttr : ContextAttribute) : String :=
  "action: " ++ action ++ " - entity: [" ++ eP.toString false ++ "] - offending attribute: " ++ targetAttr.name

namespace Processing

def fail (p : Processing) (details : String) : Processing := { p with statusCode := ⟨.SccInvalidParameter, details⟩ }

def addUpdate (p : Processing) (u : AttributeUpdate) (ca : ContextAttribute) : Processing :=
  { p with
    toSet := p.toSet ++ u.toSet, toPush := p.toPush ++ u.toPush
    entityModified := u.actualUpdate || p.entityModified, responseAttrs := p.responseAttrs ++ [ca] }

/-- The end of a turn that updates or appends: the location is the new one, and the attribute is put in the entity to
notify, which may take its compound value away. -/
def finish (p : Processing) (l : LocationStep) (actualUpdate : Bool) (targetAttr : ContextAttribute)
    (useDefaultType : Bool) : Turn :=
  let n := updateAttrInNotifyCer targetAttr useDefaultType p.notifyAttrs
  ⟨true,
    { p with
      currentLocAttrName := l.currentLocAttrName, geoJson := p.geoJson ++ l.geoJson, notifyAttrs := n.1
      modifiedAttrs := if actualUpdate then p.modifiedAttrs ++ [targetAttr.name] else p.modifiedAttrs },
    n.2⟩

end Processing

section Turns

variable (env : Env) (eP : EntityId) (attrs : BSONObj) (apiVersion : ApiVersion)

def updateContextAttributeItem (isReplace : Bool) (p : Processing) (targetAttr : ContextAttribute) : Turn :=
  let u := updateAttribute env.getCurrentTime attrs targetAttr isReplace apiVersion
  let p₁ := p.addUpdate u (responseAttribute targetAttr u.found)
  let p₂ := if u.found then p₁ else p₁.fail (offendingAttribute "UPDATE" eP targetAttr)
  match processLocationAtUpdateAttribute env.strtod p.currentLocAttrName targetAttr apiVersion with
  | .error err => ⟨false, p₂.fail (offendingAttribute "UPDATE" eP targetAttr ++ " - " ++ err), targetAttr⟩
  | .ok l => p₂.finish l u.actualUpdate targetAttr (apiVersion = .v2)

def appendContextAttributeItem (p : Processing) (targetAttr : ContextAttribute) : Turn :=
  let ca := responseAttribute targetAttr true
  if legalIdUsage attrs targetAttr then
    let u := appendAttribute env.getCurrentTime attrs targetAttr apiVersion
    let p₁ := p.addUpdate u ca
    match processLocationAtAppendAttribute env.strtod p.currentLocAttrName targetAttr (!u.found) apiVersion with
    | .error err => ⟨false, p₁.fail (offendingAttribute "APPEND" eP targetAttr ++ " - " ++ err), targetAttr⟩
    | .ok l => p₁.finish l u.actualUpdate targetAttr (apiVersion = .v2)
  else
    ⟨false,
      { p with responseAttrs := p.responseAttrs ++ [ca] }.fail
        (offendingAttribute "APPEND" eP targetAttr ++ " - attribute cannot be appended"),
      targetAttr⟩

def deleteContextAttributeItem (p : Processing) (targetAttr : ContextAttribute) : Turn :=
  match deleteAttribute attrs targetAttr with
  | none =>
    ⟨false,
      { p with responseAttrs := p.responseAttrs ++ [responseAttribute targetAttr false] }.fail
        (offendingAttribute "DELETE" eP targetAttr ++ " - attribute not found"),
      targetAttr⟩
  | some path =>
    let p₁ : Processing :=
      { p with
        toUnset := p.toUnset ++ [path]
        deletedAttributesCounter :=
          setField targetAttr.name ((p.deletedAttributesCounter.lookup targetAttr.name).getD 0 + 1)
            p.deletedAttributesCounter
        notifyAttrs := deleteAttrInNotifyCer targetAttr p.notifyAttrs
        entityModified := true
        responseAttrs := p.responseAttrs ++ [responseAttribute targetAttr true] }
    if targetAttr.getLocation apiVersion ≠ "" then
      ⟨false,
        p₁.fail (offendingAttribute "DELETE" eP targetAttr ++
          " - location attribute has to be defined at creation time, with APPEND"),
        targetAttr⟩
    else
      ⟨true,
        { p₁ with
          currentLocAttrName := if p.currentLocAttrName = targetAttr.name then "" else p.currentLocAttrName
          modifiedAttrs := p.modifiedAttrs ++ [targetAttr.name] },
        targetAttr⟩

/-- One turn of the loop. -/
def contextAttributeItem (action : String) (p : Processing) (targetAttr : ContextAttribute) : Turn :=
  match ActionType.ofString action with
  | .update => updateContextAttributeItem env eP attrs apiVersion false p targetAttr
  | .replace => updateContextAttributeItem env eP attrs apiVersion true p targetAttr
  | .append | .appendStrict => appendContextAttributeItem env eP attrs apiVersion p targetAttr
  | .delete => deleteContextAttributeItem eP attrs apiVersion p targetAttr
  | .unknown =>
    ⟨false,
      { p with
        responseAttrs := p.responseAttrs ++ [responseAttribute targetAttr true]
        statusCode := ⟨.SccInvalidParameter, "unknown actionType: '" ++ action ++ "'"⟩ },
      targetAttr⟩

/-- The result of the loop: whether it came to its end, the variables, and the attributes of the request. -/
structure LoopResult where
  ok : Bool
  processing : Processing
  attributes : List ContextAttribute

def attributeLoop (action : String) (p : Processing) : List ContextAttribute → LoopResult
  | [] => ⟨true, p, []⟩
  | targetAttr :: caV =>
    if targetAttr.skip then
      let r := attributeLoop action p caV
      { r with attributes := targetAttr :: r.attributes }
    else
      let t := contextAttributeItem env eP attrs apiVersion action p targetAttr
      if t.ok then
        let r := attributeLoop action t.processing caV
        { r with attributes := t.targetAttr :: r.attributes }
      else ⟨false, t.processing, t.targetAttr :: caV⟩

/-- The names to remove from `attrNames`, so as not to delete too much in the case of using metadata ID. -/
def toPull (deletedAttributesCounter : List (String × Nat)) : List String :=
  (getFieldNames deletedAttributesCounter).filter fun attrName =>
    howManyAttrs attrs attrName ≤ (deletedAttributesCounter.lookup attrName).getD 0

/-- The result of `processContextAttributeVector`: whether the entity was modified, the variables, the names to pull
and the attributes of the request. -/
structure VectorResult where
  modified : Bool
  processing : Processing
  toPull : List String
  attributes : List ContextAttribute

def processContextAttributeVector (action : String) (p : Processing) (caV : List ContextAttribute) : VectorResult :=
  let r := attributeLoop env eP attrs apiVersion action p caV
  if r.ok then
    let pull := if ActionType.ofString action = .delete then toPull attrs r.processing.deletedAttributesCounter else []
    match env.addTriggeredSubscriptions eP.id eP.type r.processing.modifiedAttrs with
    | some err => ⟨false, { r.processing with statusCode := ⟨.SccReceiverInternalError, err⟩ }, pull, r.attributes⟩
    | none =>
      ⟨r.processing.entityModified,
        { r.processing with
          statusCode := if r.processing.statusCode.code = .SccNone then ⟨.SccOk, ""⟩ else r.processing.statusCode },
        pull, r.attributes⟩
  else ⟨false, r.processing, [], r.attributes⟩

end Turns

end OrionBroker
