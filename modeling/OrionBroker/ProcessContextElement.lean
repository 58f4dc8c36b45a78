import OrionBroker.UpdateEntity

/-!
# One element of an update request (`processContextElement`, `postUpdateContext.cpp`)

The preconditions, the loop over the matching documents, the creation of an entity when there is none, and the
separation of found and missing attributes that the service routine makes in the responses afterwards.  The request
is shared by all the turns of the loop: what `updateEntity` leaves in its attributes is what the next turn works on.
-/

namespace OrionBroker

open Bson

inductive Ngsiv2Flavour where
  | noFlavour
  | onCreate
  | onUpdate
  | onAppendOrUpdate
deriving DecidableEq

abbrev MORE_MATCHING_ENT : String := "More than one matching entity. Please refine your query"

def isTrue (s : String) : Bool := s = "true" || s = "1"

def generalErrorResponse (ceP : ContextElement) (caV : List ContextAttribute) (code : HttpStatusCode) (details : String) :
    ContextElementResponse :=
  { contextElement := { entityId := ceP.entityId, contextAttributeVector := caV }, statusCode := ⟨code, details⟩ }

/-! ### Preconditions -/

/-- The first attribute that occurs again, with the same ID, further on. -/
def duplicatedAttribute : List ContextAttribute → Option ContextAttribute
  | [] => none
  | ca :: caV =>
    if caV.any fun cb => ca.name = cb.name && ca.getId = cb.getId then some ca else duplicatedAttribute caV

/-- An attribute with no value, no type and no metadata. -/
def emptyAttribute (apiVersion : ApiVersion) (aP : ContextAttribute) : Bool :=
  attributeValueAbsent aP apiVersion && attributeTypeAbsent aP && aP.metadataVector.isEmpty

/-- The response of a request that does not meet the preconditions. -/
def contextElementPreconditionsCheck (ceP : ContextElement) (action : String) (apiVersion : ApiVersion) :
    Option ContextElementResponse :=
  match duplicatedAttribute ceP.contextAttributeVector with
  | some ca =>
    some (generalErrorResponse ceP [(ca.copy false).1] .SccInvalidModification ("duplicated attribute /" ++ ca.name ++ "/"))
  | none =>
    if isTrue ceP.entityId.isPattern then some (generalErrorResponse ceP [] .SccNotImplemented "")
    else if ActionType.ofString action ∈ [.update, .append, .appendStrict, .replace] ∧ apiVersion = .v1 then
      match ceP.contextAttributeVector.find? (emptyAttribute apiVersion) with
      | some aP =>
        some (generalErrorResponse ceP [(aP.copy false).1] .SccInvalidModification
          ("action: " ++ action ++ " - entity: [" ++ ceP.entityId.toString true ++ "] - offending attribute: " ++ aP.name ++
            " - empty attribute not allowed in APPEND or UPDATE"))
      | none => none
    else none

/-! ### The matching documents -/

/-- The state of the loop over the matching documents. -/
structure EntitiesResult where
  docs : List (Option EntityDoc)
  attributes : List ContextAttribute
  responses : List ContextElementResponse
  attributeAlreadyExistsError : Bool
  attributeAlreadyExistsList : String

def updateEntities (env : Env) (apiVersion : ApiVersion) (action : String) (ceP : ContextElement) (err : Bool)
    (list : String) : List EntityDoc → EntitiesResult
  | [] => ⟨[], ceP.contextAttributeVector, [], err, list⟩
  | r :: results =>
    let u := updateEntity env apiVersion action ceP r
    let rest := updateEntities env apiVersion action { ceP with contextAttributeVector := u.attributes }
      u.attributeAlreadyExistsError u.attributeAlreadyExistsList results
    { rest with docs := u.doc :: rest.docs, responses := u.responses ++ rest.responses }

/-- Attributes to be forwarded to a context provider. -/
def forwardsPending (responses : List ContextElementResponse) : Bool :=
  responses.any fun cer => cer.contextElement.contextAttributeVector.any fun ca => ca.providingApplication ≠ ""

/-- The responses that an element adds, the matching documents after it and the document it creates. -/
structure ElementResult where
  responses : List ContextElementResponse
  docs : List (Option EntityDoc)
  created : Option EntityDoc := none

/-- No document matches: an entity is created by APPEND and APPEND_STRICT.  `old` are the responses of the elements
before this one. -/
def processMissingEntity (env : Env) (apiVersion : ApiVersion) (action : String) (ceP : ContextElement)
    (old : List ContextElementResponse) : ElementResult :=
  let foundValue := ActionType.ofString action = .append ∨ ActionType.ofString action = .appendStrict
  let cer : ContextElementResponse :=
    { contextElement :=
        { entityId := { id := ceP.entityId.id, type := ceP.entityId.type, isPattern := "false" }
          contextAttributeVector := ceP.contextAttributeVector.map fun caP => responseAttribute caP foundValue } }
  match ActionType.ofString action with
  | .update | .replace =>
    let cer := { searchContextProviders env ceP.entityId ceP.contextAttributeVector cer with statusCode := ⟨.SccOk, ""⟩ }
    let statusCode := if forwardsPending (old ++ [cer]) then ⟨.SccOk, ""⟩ else ⟨.SccContextElementNotFound, ""⟩
    { responses := [{ cer with statusCode := statusCode }], docs := [] }
  | .delete => { responses := [{ cer with statusCode := ⟨.SccContextElementNotFound, ""⟩ }], docs := [] }
  | _ =>
    match createEntity env ceP.entityId ceP.contextAttributeVector apiVersion with
    | .error errDetail => { responses := [{ cer with statusCode := ⟨.SccInvalidParameter, errDetail⟩ }], docs := [] }
    | .ok d =>
      match env.addTriggeredSubscriptions ceP.entityId.id ceP.entityId.type
          (ceP.contextAttributeVector.map ContextAttribute.name) with
      | some err =>
        { responses := [{ cer with statusCode := ⟨.SccReceiverInternalError, err⟩ }], docs := [], created := some d }
      | none => { responses := [{ cer with statusCode := ⟨.SccOk, ""⟩ }], docs := [], created := some d }

/-- The checks related with NGSIv2, on the number of matching documents. -/
def ngsiv2Check (env : Env) (flavour : Ngsiv2Flavour) (ceP : ContextElement) (entitiesNumber : Nat) :
    Option ContextElementResponse :=
  match env.collectionCount with
  | some err => some (generalErrorResponse ceP [] .SccReceiverInternalError err)
  | none =>
    if entitiesNumber > 0 ∧ flavour = .onCreate then
      some (generalErrorResponse ceP [] .SccInvalidModification "Already Exists")
    else if entitiesNumber = 0 ∧ flavour = .onAppendOrUpdate then
      some (generalErrorResponse ceP [] .SccContextElementNotFound "Entity does not exist")
    else if entitiesNumber > 1 then some (generalErrorResponse ceP [] .SccConflict MORE_MATCHING_ENT)
    else none

/-- The response about existing attributes, which APPEND_STRICT does not touch. -/
def alreadyExistsResponse (ceP : ContextElement) (u : EntitiesResult) : List ContextElementResponse :=
  if u.attributeAlreadyExistsError then
    [generalErrorResponse ceP [] .SccBadRequest
      ("one or more of the attributes in the request already exist: " ++ u.attributeAlreadyExistsList)]
  else []

/-- `results` are the documents that match the element, in the order of the cursor. -/
def processContextElement (env : Env) (apiVersion : ApiVersion) (flavour : Ngsiv2Flavour) (action : String)
    (ceP : ContextElement) (old : List ContextElementResponse) (results : List EntityDoc) : ElementResult :=
  let unchanged := results.map some
  match contextElementPreconditionsCheck ceP action apiVersion with
  | some cer => { responses := [cer], docs := unchanged }
  | none =>
    match if apiVersion = .v2 then ngsiv2Check env flavour ceP results.length else none with
    | some cer => { responses := [cer], docs := unchanged }
    | none =>
      match env.collectionQuery with
      | some err => { responses := [generalErrorResponse ceP [] .SccReceiverInternalError err], docs := unchanged }
      | none =>
        match results with
        | [] => processMissingEntity env apiVersion action ceP old
        | _ :: _ =>
          let u := updateEntities env apiVersion action ceP false "[ " results
          { responses := u.responses ++ alreadyExistsResponse ceP u, docs := u.docs }

/-! ### Found and missing attributes -/

/-- The 404 of a response gets the entity as its details, if it has none. -/
def fillDetails (cer : ContextElementResponse) : ContextElementResponse :=
  if cer.statusCode.code = .SccContextElementNotFound ∧ cer.statusCode.details = "" then
    { cer with statusCode := { cer.statusCode with details := cer.contextElement.entityId.id } }
  else cer

theorem code_fillDetails (cer : ContextElementResponse) : (fillDetails cer).statusCode.code = cer.statusCode.code := by
  unfold fillDetails
  split <;> rfl

theorem contextElement_fillDetails (cer : ContextElementResponse) : (fillDetails cer).contextElement = cer.contextElement := by
  unfold fillDetails
  split <;> rfl

/-- The response with the attributes that were found, and the one for those that were not, if it is needed. -/
def separate (cer : ContextElementResponse) : ContextElementResponse × Option ContextElementResponse :=
  let founds := cer.contextElement.contextAttributeVector.filter fun ca => ca.found
  let notFounds := cer.contextElement.contextAttributeVector.filter fun ca => !ca.found
  let notFound : StatusCode := ⟨.SccContextElementNotFound, cer.contextElement.entityId.id⟩
  if founds = [] ∧ notFounds ≠ [] then
    (fillDetails
        (if cer.statusCode.code = .SccOk ∨ cer.statusCode.code = .SccNone then { cer with statusCode := notFound } else cer),
      none)
  else if founds ≠ [] ∧ notFounds ≠ [] then
    (fillDetails
        { contextElement := { cer.contextElement with contextAttributeVector := founds }, statusCode := ⟨.SccOk, ""⟩ },
      some { contextElement := { entityId := cer.contextElement.entityId, contextAttributeVector := notFounds }
             statusCode := notFound })
  else (fillDetails cer, none)

def foundAndNotFoundAttributeSeparation (responses : List ContextElementResponse) : List ContextElementResponse :=
  responses.map (fun cer => (separate cer).1) ++ responses.filterMap fun cer => (separate cer).2

end OrionBroker
