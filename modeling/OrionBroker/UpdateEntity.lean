import OrionBroker.ProcessAttributes

/-!
# Updating, creating and removing an entity (`MongoCommonUpdate.cpp`)

`updateEntity` works on one document that matches a request.  Its result has everything that the source function
changes: the document after the call (none when it was removed), the request with its attributes as they are left,
the responses it adds, the two variables about attributes that exist already, and the entity handed to the
notifications when the database was written.
-/

namespace OrionBroker

open Bson

/-! ### Context providers -/

def someContextElementNotFound (caV : List ContextAttribute) : Bool := caV.any fun ca => !ca.found

/-- Does a registered entity match?  A registration without type matches every type. -/
def EntityId.registrationMatches (regEn en : EntityId) : Bool :=
  regEn.id = en.id && (regEn.type = en.type || regEn.type = "")

/-- The provider for the entity and the provider for the attribute. -/
def cprLookupByAttribute (en : EntityId) (attrName : String) (perEntPa : String) :
    List ContextRegistration → String × String
  | [] => (perEntPa, "")
  | crr :: crrV =>
    if crr.entityIdVector.any fun regEn => regEn.registrationMatches en then
      if crr.contextRegistrationAttributeVector = [] then
        cprLookupByAttribute en attrName crr.providingApplication crrV
      else if attrName ∈ crr.contextRegistrationAttributeVector then (perEntPa, crr.providingApplication)
      else cprLookupByAttribute en attrName perEntPa crrV
    else cprLookupByAttribute en attrName perEntPa crrV

def fillContextProviders (en : EntityId) (crrV : List ContextRegistration) (caV : List ContextAttribute) :
    List ContextAttribute :=
  caV.map fun ca =>
    if ca.found then ca
    else
      let pa := cprLookupByAttribute en ca.name "" crrV
      let providingApplication := if pa.2 = "" then pa.1 else pa.2
      { ca with providingApplication := providingApplication, found := providingApplication ≠ "" }

/-- One lookup in the registrations, if some attribute is not found; a failure is not critical. -/
def registrationsLookup (env : Env) (en cerEn : EntityId) (attrL : List String) (caV : List ContextAttribute) :
    List ContextAttribute :=
  if someContextElementNotFound caV then
    match env.registrationsQuery en attrL with
    | some (crr :: crrV) => fillContextProviders cerEn (crr :: crrV) caV
    | _ => caV
  else caV

/-- First the registrations of the attributes, then those of the whole entity. -/
def searchContextProviders (env : Env) (en : EntityId) (caV : List ContextAttribute) (cer : ContextElementResponse) :
    ContextElementResponse :=
  let cerEn := cer.contextElement.entityId
  let attrs := registrationsLookup env en cerEn (caV.map ContextAttribute.name) cer.contextElement.contextAttributeVector
  { cer with contextElement := { cer.contextElement with contextAttributeVector := registrationsLookup env en cerEn [] attrs } }

/-! ### Creation and removal -/

/-- An attribute as `createEntity` writes it. -/
def createdAttribute (now : Int) (caP : ContextAttribute) (apiVersion : ApiVersion) : BSONObj :=
  [("type", .string (newAttributeType caP apiVersion)), ("creDate", .int now), ("modDate", .int now)] ++ caP.valueBson ++
    match contextAttributeCustomMetadataToBson caP (apiVersion = .v2) with
    | some mdV => [("md", .array mdV)]
    | none => []

abbrev DEFAULT_SERVICE_PATH_UPDATES : String := "/"

/-- The document that is inserted, or the details of the error. -/
def createEntity (env : Env) (eP : EntityId) (attrsV : List ContextAttribute) (apiVersion : ApiVersion) :
    Except String EntityDoc :=
  if legalIdUsageInVector attrsV then
    match processLocationAtEntityCreation env.strtod attrsV apiVersion with
    | .error errDetail => .error errDetail
    | .ok l =>
      let now := env.getCurrentTime
      let insertedDoc : EntityDoc :=
        { id := eP.id
          type := if eP.type = "" ∧ apiVersion = .v2 then DEFAULT_TYPE else eP.type
          servicePath :=
            if (env.servicePathV.head?.getD "") = "" then DEFAULT_SERVICE_PATH_UPDATES else env.servicePathV.head?.getD ""
          attrNames := attrsV.map ContextAttribute.name
          attrs := attrsV.map fun ca => (ca.key, .object (createdAttribute now ca apiVersion))
          creDate := some now
          modDate := some now
          location := if l.currentLocAttrName ≠ "" then some ⟨l.currentLocAttrName, l.geoJson⟩ else none }
      match env.collectionInsert insertedDoc with
      | some errDetail => .error errDetail
      | none => .ok insertedDoc
  else
    .error ("Attributes with same name with ID and not ID at the same time in the same entity are forbidden: entity: [" ++
      eP.toString false ++ "]")

/-- The status of the removal and the document that is left. -/
def removeEntity (env : Env) (r : EntityDoc) : StatusCode × Option EntityDoc :=
  match env.collectionRemove r with
  | some err => (⟨.SccReceiverInternalError, err⟩, some r)
  | none => (⟨.SccOk, ""⟩, none)

/-! ### Update -/

/-- The location after the update, as it is composed: the old coordinates are kept when no new ones were computed. -/
def finalLocation (r : EntityDoc) (p : Processing) : Option Location :=
  if p.currentLocAttrName ≠ "" then
    some ⟨p.currentLocAttrName, if p.geoJson.length > 0 then p.geoJson else ((r.location.map Location.coords).getD [])⟩
  else none

/-- The update document that `updateEntity` composes. -/
def updatedEntity (now : Int) (action : String) (r : EntityDoc) (v : VectorResult) : Update :=
  let locSet := (finalLocation r v.processing).toList.map fun l => ("location", l.toBson)
  let locUnset := if (finalLocation r v.processing).isSome then [] else ["location"]
  if ActionType.ofString action = .replace then
    { set := [("attrs", .object (v.processing.toSet ++ locSet)),
        ("attrNames", .array (v.processing.toPush.map .string)), ("modDate", .int now)] }
  else
    { set := v.processing.toSet ++ ("modDate", .int now) :: locSet
      unset := v.processing.toUnset ++ locUnset
      addToSet := v.processing.toPush
      pullAll := v.toPull }

structure UpdateResult where
  doc : Option EntityDoc
  attributes : List ContextAttribute
  responses : List ContextElementResponse
  attributeAlreadyExistsError : Bool
  attributeAlreadyExistsList : String
  notified : Option ContextElementResponse := none

/-- The attributes of the request after the check for existing ones. -/
def markExisting (attrs : BSONObj) (caV : List ContextAttribute) : List ContextAttribute :=
  caV.map fun ca => if howManyAttrs attrs ca.name ≠ 0 then { ca with skip := true } else ca

/-- The names of the request that exist already; only APPEND_STRICT looks for them. -/
def existingNames (action : String) (attrs : BSONObj) (caV : List ContextAttribute) : List String :=
  if ActionType.ofString action = .appendStrict then
    (caV.filter fun ca => howManyAttrs attrs ca.name ≠ 0).map ContextAttribute.name
  else []

/-- The list of existing attributes in the error response. -/
def attributeAlreadyExistsList (action : String) (attrs : BSONObj) (caV : List ContextAttribute) : String :=
  if ActionType.ofString action = .appendStrict then
    (existingNames action attrs caV).foldl (fun l n => (if l ≠ "[ " then l ++ ", " else l) ++ n) "[ " ++ " ]"
  else "[ "

/-- What is known when the attributes of a request start being processed. -/
def initialProcessing (r : EntityDoc) : Processing where
  notifyAttrs := (ContextElementResponse.ofDoc r).contextElement.contextAttributeVector
  currentLocAttrName := (r.location.map Location.attrName).getD ""

/-- The entity of a response about a document. -/
def responseEntity (r : EntityDoc) : EntityId := { id := r.id, type := r.type, isPattern := "false" }

/-- The request attributes that are processed. -/
def requestAttributes (action : String) (r : EntityDoc) (caV : List ContextAttribute) : List ContextAttribute :=
  if ActionType.ofString action = .appendStrict then markExisting r.attrs caV else caV

/-- The processing of the attributes of a request against a document. -/
def processAttributes (env : Env) (apiVersion : ApiVersion) (action : String) (r : EntityDoc)
    (caV : List ContextAttribute) : VectorResult :=
  processContextAttributeVector env (responseEntity r) r.attrs apiVersion action (initialProcessing r)
    (requestAttributes action r caV)

/-- The response about the document: its attributes and status are those of the processing. -/
def processedCer (r : EntityDoc) (p : Processing) : ContextElementResponse :=
  { contextElement := { entityId := responseEntity r, contextAttributeVector := p.responseAttrs }
    statusCode := p.statusCode }

/-- The entity to notify after the update. -/
def notifyCer (env : Env) (r : EntityDoc) (p : Processing) : ContextElementResponse :=
  { contextElement :=
      { (ContextElementResponse.ofDoc r).contextElement with
        contextAttributeVector := p.notifyAttrs
        creDate := r.creDate.getD (-1)
        modDate := env.getCurrentTime } }

/-- An error in the update is one of the database, or a refusal of the update document. -/
def collectionUpdate (env : Env) (r : EntityDoc) (u : Update) : Except String EntityDoc :=
  match env.collectionUpdate r u, applyUpdate r u with
  | some err, _ => .error err
  | none, none => .error (env.updateRefused r u)
  | none, some d => .ok d

/-- A DELETE without attributes. -/
def removedEntity (env : Env) (r : EntityDoc) : UpdateResult where
  doc := (removeEntity env r).2
  attributes := []
  responses := [{ contextElement := { entityId := responseEntity r }, statusCode := (removeEntity env r).1 }]
  attributeAlreadyExistsError := false
  attributeAlreadyExistsList := "[ "

def updateEntity (env : Env) (apiVersion : ApiVersion) (action : String) (ceP : ContextElement) (r : EntityDoc) :
    UpdateResult :=
  if ActionType.ofString action = .delete ∧ ceP.contextAttributeVector = [] then removedEntity env r
  else
    let v := processAttributes env apiVersion action r ceP.contextAttributeVector
    let cer := processedCer r v.processing
    let result : UpdateResult :=
      { doc := some r
        attributes := v.attributes
        responses := [searchContextProviders env ceP.entityId v.attributes cer]
        attributeAlreadyExistsError := existingNames action r.attrs ceP.contextAttributeVector ≠ []
        attributeAlreadyExistsList := attributeAlreadyExistsList action r.attrs ceP.contextAttributeVector }
    if v.modified then
      match collectionUpdate env r (updatedEntity env.getCurrentTime action r v) with
      | .error err => { result with responses := [{ cer with statusCode := ⟨.SccReceiverInternalError, err⟩ }] }
      | .ok d => { result with doc := some d, notified := some (notifyCer env r v.processing) }
    -- the source tests the address of the flag, so for APPEND_STRICT the response is always dropped
    else if ActionType.ofString action = .appendStrict then { result with responses := [] }
    else result

end OrionBroker
