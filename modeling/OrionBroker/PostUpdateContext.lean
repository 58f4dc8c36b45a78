import OrionBroker.MongoUpdateContext
import OrionBroker.UpdateContextResponse

/-!
# Forwarding an update (`postUpdateContext.cpp`)

The attributes of the answer to an update are sorted: what was not found and what was found locally goes to the
response, and what has a context provider goes to the request that is sent to the provider, into the element of its
entity.  The answer has no values, so they are looked up in the request that mongo has processed, by entity and name.

Mongo may have moved a compound value out of the request, and it may have found an entity under another type than the
request has; `update_forwarding_iff` says when all attributes are forwarded with the values that were given.
-/

namespace OrionBroker

open Bson Buckets

/-! ### The values -/

/-- `UpdateContextRequest::attributeLookup`. -/
def attributeLookup (contextElementVector : List ContextElement) (eP : EntityId) (attributeName : String) :
    Option ContextAttribute :=
  match contextElementVector with
  | [] => none
  | ceP :: rest =>
    if ceP.entityId.id ≠ eP.id ∨ ceP.entityId.type ≠ eP.type then attributeLookup rest eP attributeName
    else
      match ceP.contextAttributeVector.find? fun aP => aP.name = attributeName with
      | some aP => some aP
      | none => attributeLookup rest eP attributeName

def ContextAttribute.withValueOf (aP ca : ContextAttribute) : ContextAttribute :=
  { aP with
    stringValue := ca.stringValue, numberValue := ca.numberValue, boolValue := ca.boolValue, valueType := ca.valueType
    compoundValueP := ca.compoundValueP }

/-- An attribute that is not found in the request stays without a value. -/
def fillValue (upcr : List ContextElement) (eP : EntityId) (aP : ContextAttribute) : ContextAttribute :=
  match attributeLookup upcr eP aP.name with
  | none => aP
  | some ca => aP.withValueOf ca

/-- Step 04: the values are searched for in the initial request. -/
def fillValues (upcr : List ContextElement) (cers : List ContextElementResponse) : List ContextElementResponse :=
  cers.map fun cer =>
    { cer with contextElement :=
        { cer.contextElement with
          contextAttributeVector :=
            cer.contextElement.contextAttributeVector.map (fillValue upcr cer.contextElement.entityId) } }

/-! ### The requests -/

structure UpdateContextRequest where
  contextProvider : String
  updateActionType : String
  contextElementVector : List ContextElement

def EntityId.idType (e : EntityId) : String × String := (e.id, e.type)

def ContextElement.pushAttribute (aP : ContextAttribute) (ceP : ContextElement) : ContextElement :=
  { ceP with contextAttributeVector := ceP.contextAttributeVector ++ [(aP.copy false).1] }

/-- The constructor from a provider and an entity, and an action. -/
def UpdateContextRequest.ofEntity (contextProvider : String) (eP : EntityId) : UpdateContextRequest :=
  { contextProvider := contextProvider, updateActionType := "UPDATE", contextElementVector := [{ entityId := eP }] }

/-- The element is looked up by its entity, or added. -/
def UpdateContextRequest.push (eP : EntityId) (aP : ContextAttribute) (reqP : UpdateContextRequest) :
    UpdateContextRequest :=
  { reqP with
    contextElementVector :=
      place (fun ceP => ceP.entityId.idType = eP.idType) (ContextElement.pushAttribute aP)
        (ContextElement.pushAttribute aP { entityId := eP }) reqP.contextElementVector }

/-- The outgoing response and the outgoing requests. -/
structure SortedUpdate where
  response : List ContextElementResponse := []
  requestV : List UpdateContextRequest := []

/-- The request is looked up by its provider, or added. -/
def pushForward (eP : EntityId) (aP : ContextAttribute) (requestV : List UpdateContextRequest) :
    List UpdateContextRequest :=
  place (fun reqP => reqP.contextProvider = aP.providingApplication) (UpdateContextRequest.push eP aP)
    (UpdateContextRequest.push eP aP (UpdateContextRequest.ofEntity aP.providingApplication eP)) requestV

/-- A turn of the loop over the attributes of an entry. -/
def sortUpdateAttribute (eP : EntityId) (sorted : SortedUpdate) (aP : ContextAttribute) : SortedUpdate :=
  if aP.found = false then
    { sorted with response := UpdateContextResponse.notFoundPush eP (aP.copy false).1 none sorted.response }
  else if aP.providingApplication = "" then
    { sorted with response := UpdateContextResponse.foundPush eP (aP.copy false).1 sorted.response }
  else { sorted with requestV := pushForward eP aP sorted.requestV }

/-- Step 05, for all entries. -/
def sortUpdate (cers : List ContextElementResponse) : SortedUpdate :=
  cers.foldl (fun sorted cer =>
    cer.contextElement.contextAttributeVector.foldl (sortUpdateAttribute cer.contextElement.entityId) sorted) {}

/-- The requests that are sent; their number is limited. -/
def sent (cprForwardLimit : Nat) (requestV : List UpdateContextRequest) : List UpdateContextRequest :=
  (requestV.take cprForwardLimit).filter fun reqP => reqP.contextProvider ≠ ""

/-! ### The service routine -/

section Routine

variable (apiVersion : ApiVersion) (flavour : Ngsiv2Flavour) (action : String) (calls : List ElementCall)

/-- The request after mongo. -/
def leftRequest : List ContextElement :=
  (mongoUpdateContext apiVersion flavour action [] (attributesToNotFound calls)).left

/-- The steps of `postUpdateContext` up to the forwarding. -/
def sortedUpdate : SortedUpdate :=
  let upcrs := foundAndNotFoundAttributeSeparation
    (mongoUpdateContext apiVersion flavour action [] (attributesToNotFound calls)).responses
  sortUpdate (fillValues (leftRequest apiVersion flavour action calls) upcrs)

end Routine

/-! ### What is sorted -/

/-- To be forwarded. -/
def isForwarded (aP : ContextAttribute) : Bool := aP.found && aP.providingApplication ≠ ""

def UpdateContextRequest.contents (reqP : UpdateContextRequest) :
    List (String × (String × String) × ContextAttribute) :=
  reqP.contextElementVector.flatMap fun ceP =>
    ceP.contextAttributeVector.map fun ca => (reqP.contextProvider, ceP.entityId.idType, ca)

/-- What an attribute adds to the response. -/
def responseItem (p : EntityId × ContextAttribute) : (String × String × Bool) × HttpStatusCode × ContextAttribute :=
  (p.1.identity, if p.2.found then .SccOk else .SccContextElementNotFound, (p.2.copy false).1)

/-- What an attribute adds to the requests. -/
def requestItem (p : EntityId × ContextAttribute) : String × (String × String) × ContextAttribute :=
  (p.2.providingApplication, p.1.idType, (p.2.copy false).1)

section Sorting

variable {eP : EntityId} {aP : ContextAttribute} {cers : List ContextElementResponse}
  {requestV : List UpdateContextRequest} {sorted : SortedUpdate} {items : List (EntityId × ContextAttribute)}

private theorem listed_push (eP : EntityId) (aP : ContextAttribute) (cers : List ContextElementResponse) :
    ((UpdateContextResponse.notFoundPush eP (aP.copy false).1 none cers).flatMap ContextElementResponse.listed).Perm
        (cers.flatMap ContextElementResponse.listed ++
          [(eP.identity, HttpStatusCode.SccContextElementNotFound, (aP.copy false).1)]) ∧
      ((UpdateContextResponse.foundPush eP (aP.copy false).1 cers).flatMap ContextElementResponse.listed).Perm
        (cers.flatMap ContextElementResponse.listed ++ [(eP.identity, HttpStatusCode.SccOk, (aP.copy false).1)]) := by
  constructor
  · have hlisted := @listed_mergeAttribute eP (aP.copy false).1 ⟨.SccContextElementNotFound, eP.id⟩ cers
    have hcode : landingCode cers eP .SccContextElementNotFound = .SccContextElementNotFound := by
      unfold landingCode
      simp
    rw [hcode, copy_copy] at hlisted
    exact hlisted
  · have hlisted := @listed_mergeAttribute eP (aP.copy false).1 ⟨.SccOk, ""⟩ cers
    rw [copy_copy] at hlisted
    exact hlisted

private theorem contents_push (eP : EntityId) (aP : ContextAttribute) (reqP : UpdateContextRequest) :
    (reqP.push eP aP).contents.Perm
      (reqP.contents ++ [(reqP.contextProvider, eP.idType, (aP.copy false).1)]) := by
  unfold UpdateContextRequest.contents UpdateContextRequest.push
  refine perm_contents_place (fun ceP _ hfits => ?_) fun _ => List.Perm.refl _
  have hid : ceP.entityId.idType = eP.idType := of_decide_eq_true hfits
  unfold ContextElement.pushAttribute
  rw [List.map_append, hid]
  rfl

theorem contents_pushForward (eP : EntityId) (aP : ContextAttribute) (requestV : List UpdateContextRequest) :
    ((pushForward eP aP requestV).flatMap UpdateContextRequest.contents).Perm
      (requestV.flatMap UpdateContextRequest.contents ++ [requestItem (eP, aP)]) := by
  refine perm_contents_place (fun reqP _ hfits => ?_) fun _ => contents_push _ _ _
  have hprovider : reqP.contextProvider = aP.providingApplication := of_decide_eq_true hfits
  have hpush := contents_push eP aP reqP
  rw [hprovider] at hpush
  exact hpush

/-- The loop over all attributes with their entities. -/
def sortItem (sorted : SortedUpdate) (p : EntityId × ContextAttribute) : SortedUpdate :=
  sortUpdateAttribute p.1 sorted p.2

theorem sortUpdate_eq (cers : List ContextElementResponse) :
    sortUpdate cers = (cers.flatMap ContextElementResponse.items).foldl sortItem {} := by
  unfold sortUpdate ContextElementResponse.items
  rw [List.foldl_flatMap]
  simp only [List.foldl_map]
  rfl

/-- Every attribute is in the response or in the requests, in exactly one place. -/
theorem sortItems_spec (items : List (EntityId × ContextAttribute)) (sorted : SortedUpdate) :
    ((items.foldl sortItem sorted).response.flatMap ContextElementResponse.listed).Perm
        (sorted.response.flatMap ContextElementResponse.listed ++
          (items.filter fun p => !isForwarded p.2).map responseItem) ∧
      (items.foldl sortItem sorted).requestV =
        (items.filter fun p => isForwarded p.2).foldl (fun requestV p => pushForward p.1 p.2 requestV)
          sorted.requestV := by
  induction items generalizing sorted with
  | nil => simp
  | cons p items ih =>
    obtain ⟨hresponse, hrequestV⟩ := ih (sortItem sorted p)
    rw [List.foldl_cons, hrequestV, List.filter_cons, List.filter_cons]
    refine ⟨hresponse.trans ?_, ?_⟩
    · unfold sortItem sortUpdateAttribute isForwarded
      by_cases hfound : p.2.found = true
      · by_cases hpa : p.2.providingApplication = ""
        · have hpush := (listed_push p.1 p.2 sorted.response).2.append_right
            ((items.filter fun p => !isForwarded p.2).map responseItem)
          rw [List.append_assoc] at hpush
          simpa [hfound, hpa, responseItem, isForwarded] using hpush
        · simp [hfound, hpa]
      · simp only [Bool.not_eq_true] at hfound
        have hpush := (listed_push p.1 p.2 sorted.response).1.append_right
          ((items.filter fun p => !isForwarded p.2).map responseItem)
        rw [List.append_assoc] at hpush
        simpa [hfound, responseItem, isForwarded] using hpush
    · unfold sortItem sortUpdateAttribute isForwarded
      by_cases hfound : p.2.found = true
      · by_cases hpa : p.2.providingApplication = "" <;> simp [hfound, hpa]
      · simp [hfound]

theorem providers_pushForward (eP : EntityId) (aP : ContextAttribute) (requestV : List UpdateContextRequest) :
    (pushForward eP aP requestV).map UpdateContextRequest.contextProvider =
      if aP.providingApplication ∈ requestV.map UpdateContextRequest.contextProvider then
        requestV.map UpdateContextRequest.contextProvider
      else requestV.map UpdateContextRequest.contextProvider ++ [aP.providingApplication] := by
  have hkeep : ∀ reqP : UpdateContextRequest, (reqP.push eP aP).contextProvider = reqP.contextProvider := fun _ => rfl
  unfold pushForward
  rw [map_place fun reqP _ => hkeep reqP]
  refine if_congr ?_ rfl rfl
  rw [List.any_eq_true, List.mem_map]
  simp only [decide_eq_true_eq]

/-- The requests for what is to be forwarded. -/
def forwards (items : List (EntityId × ContextAttribute)) : List UpdateContextRequest :=
  items.foldl (fun requestV p => pushForward p.1 p.2 requestV) []

theorem contents_forwards (items : List (EntityId × ContextAttribute)) :
    ((forwards items).flatMap UpdateContextRequest.contents).Perm (items.map requestItem) := by
  unfold forwards
  induction items using List.reverseRecOn with
  | nil => exact .nil
  | append_singleton items p ih =>
    rw [List.foldl_append, List.map_append]
    exact (contents_pushForward _ _ _).trans (ih.append_right _)

/-- There is one request for each provider. -/
theorem providers_forwards (items : List (EntityId × ContextAttribute)) :
    ((forwards items).map UpdateContextRequest.contextProvider).Nodup ∧
      ∀ pa, pa ∈ (forwards items).map UpdateContextRequest.contextProvider ↔
        pa ∈ items.map fun p => p.2.providingApplication := by
  unfold forwards
  induction items using List.reverseRecOn with
  | nil => exact ⟨List.nodup_nil, fun pa => Iff.rfl⟩
  | append_singleton items p ih =>
    obtain ⟨hnodup, hmem⟩ := ih
    rw [List.foldl_append, List.foldl_cons, List.foldl_nil, providers_pushForward]
    split
    · rename_i hin
      refine ⟨hnodup, fun pa => ?_⟩
      rw [List.map_append, List.mem_append, ← hmem, List.map_cons, List.map_nil, List.mem_singleton]
      refine (or_iff_left_of_imp fun hpa => ?_).symm
      rw [hpa]
      exact hin
    · rename_i hnot
      refine ⟨List.nodup_append.2 ⟨hnodup, List.nodup_singleton _, fun x hx y hy hxy => ?_⟩, fun pa => ?_⟩
      · rw [List.mem_singleton] at hy
        exact hnot (hy ▸ hxy ▸ hx)
      · rw [List.map_append, List.mem_append, List.mem_append, hmem]
        rfl

theorem contents_ne_nil (items : List (EntityId × ContextAttribute)) : ∀ reqP ∈ forwards items, reqP.contents ≠ [] := by
  have hpush : ∀ (p : EntityId × ContextAttribute) (reqP : UpdateContextRequest), (reqP.push p.1 p.2).contents ≠ [] := by
    intro p reqP hnil
    have hlength := (contents_push p.1 p.2 reqP).length_eq
    rw [hnil, List.length_append] at hlength
    simp at hlength
  unfold forwards
  induction items using List.reverseRecOn with
  | nil => exact nofun
  | append_singleton items p ih =>
    rw [List.foldl_append]
    exact forall_mem_place ih (fun reqP _ _ => hpush p reqP) (hpush p _)

/-- What is sent is as expected exactly if there are not too many providers and the requests are as expected. -/
theorem sent_forwards_iff {cprForwardLimit : Nat} {expected : List (String × (String × String) × ContextAttribute)}
    (hpa : ∀ p ∈ items, p.2.providingApplication ≠ "") (hexpected : expected.length = items.length) :
    ((sent cprForwardLimit (forwards items)).flatMap UpdateContextRequest.contents).Perm expected ↔
      (items.map fun p => p.2.providingApplication).dedup.length ≤ cprForwardLimit ∧
        (items.map requestItem).Perm expected := by
  obtain ⟨hnodup, hmem⟩ := providers_forwards items
  have hcount : (items.map fun p => p.2.providingApplication).dedup.length = (forwards items).length := by
    have hlength : ((forwards items).map UpdateContextRequest.contextProvider).length = (forwards items).length :=
      List.length_map _
    rw [← hlength]
    refine List.Perm.length_eq ((List.perm_ext_iff_of_nodup (List.nodup_dedup _) hnodup).2 fun pa => ?_)
    rw [List.mem_dedup, hmem]
  have hsent : sent cprForwardLimit (forwards items) = (forwards items).take cprForwardLimit := by
    refine List.filter_eq_self.2 fun reqP hreqP => ?_
    obtain ⟨p, hp, heq⟩ := List.mem_map.1 ((hmem _).1 (List.mem_map_of_mem (List.mem_of_mem_take hreqP)))
    rw [← heq]
    simpa using hpa p hp
  rw [hcount, hsent]
  constructor
  · intro hperm
    have hle : (forwards items).length ≤ cprForwardLimit := by
      by_contra hlong
      have hall := (contents_forwards items).length_eq
      rw [List.length_map, ← hexpected, ← hperm.length_eq] at hall
      obtain ⟨reqP, hreqP⟩ := List.exists_mem_of_ne_nil ((forwards items).drop cprForwardLimit) fun hnil => by
        rw [List.drop_eq_nil_iff] at hnil
        exact hlong hnil
      have hdrop : 0 < (((forwards items).drop cprForwardLimit).flatMap UpdateContextRequest.contents).length := by
        have hne := contents_ne_nil items reqP (List.mem_of_mem_drop hreqP)
        obtain ⟨x, hx⟩ := List.exists_mem_of_ne_nil _ hne
        exact List.length_pos_of_mem (List.mem_flatMap.2 ⟨reqP, hreqP, hx⟩)
      have hsplit : ((forwards items).flatMap UpdateContextRequest.contents).length =
          (((forwards items).take cprForwardLimit).flatMap UpdateContextRequest.contents).length +
            (((forwards items).drop cprForwardLimit).flatMap UpdateContextRequest.contents).length := by
        rw [← List.length_append, ← List.flatMap_append, List.take_append_drop]
      omega
    refine ⟨hle, ?_⟩
    rw [List.take_of_length_le hle] at hperm
    exact (contents_forwards items).symm.trans hperm
  · rintro ⟨hle, hperm⟩
    rw [List.take_of_length_le hle]
    exact (contents_forwards items).trans hperm

end Sorting


/-! ### The values that are found again -/

section Values

variable {request request' : List ContextElement} {eP : EntityId} {name : String} {caV caV' : List ContextAttribute}

/-- The attributes that a request has for exactly this entity. -/
def givenFor (request : List ContextElement) (eP : EntityId) : List ContextAttribute :=
  (request.filter fun ceP => ceP.entityId.idType = eP.idType).flatMap ContextElement.contextAttributeVector

theorem attributeLookup_eq (request : List ContextElement) (eP : EntityId) (name : String) :
    attributeLookup request eP name = (givenFor request eP).find? fun aP => aP.name = name := by
  unfold givenFor
  induction request with
  | nil => rfl
  | cons ceP request ih =>
    unfold attributeLookup
    rw [List.filter_cons]
    by_cases hid : ceP.entityId.id ≠ eP.id ∨ ceP.entityId.type ≠ eP.type
    · have hne : ceP.entityId.idType ≠ eP.idType := by
        intro heq
        unfold EntityId.idType at heq
        rw [Prod.mk.injEq] at heq
        rcases hid with h | h
        · exact h heq.1
        · exact h heq.2
      rw [if_pos hid, if_neg (by simpa using hne), ih]
    · have heq : ceP.entityId.idType = eP.idType := by
        push Not at hid
        unfold EntityId.idType
        rw [hid.1, hid.2]
      rw [if_neg hid, if_pos (by simpa using heq), List.flatMap_cons, List.find?_append, ih]
      cases ceP.contextAttributeVector.find? fun aP => aP.name = name <;> rfl

/-- The same elements with their attributes, perhaps without compound values. -/
def LeavesRequest (request request' : List ContextElement) : Prop :=
  List.Forall₂ (fun ceP ceP' : ContextElement => ceP'.entityId = ceP.entityId ∧
    LeavesAttributes ceP.contextAttributeVector ceP'.contextAttributeVector) request request'

theorem leaves_givenFor (h : LeavesRequest request request') (eP : EntityId) :
    LeavesAttributes (givenFor request eP) (givenFor request' eP) := by
  unfold givenFor
  induction h with
  | nil => exact .nil
  | @cons ceP ceP' request request' hce _ ih =>
    rw [List.filter_cons, List.filter_cons, hce.1]
    split
    · rw [List.flatMap_cons, List.flatMap_cons]
      exact List.rel_append hce.2 ih
    · exact ih

/-- The same attribute is found, perhaps without its compound value. -/
theorem find_leaves (h : LeavesAttributes caV caV') (name : String) :
    (caV.find? (fun aP => aP.name = name) = none ∧ caV'.find? (fun aP => aP.name = name) = none) ∨
      ∃ ca ca', caV.find? (fun aP => aP.name = name) = some ca ∧ caV'.find? (fun aP => aP.name = name) = some ca' ∧
        LeavesAttribute ca ca' := by
  induction h with
  | nil => exact Or.inl ⟨rfl, rfl⟩
  | @cons ca ca' caV caV' hca _ ih =>
    rw [List.find?_cons, List.find?_cons, hca.name]
    by_cases hname : ca.name = name
    · simp only [hname, decide_true]
      exact Or.inr ⟨ca, ca', rfl, rfl, hca⟩
    · simp only [hname, decide_false]
      exact ih

/-- The value of an attribute. -/
def ContextAttribute.value (ca : ContextAttribute) : (ValueType × String × Double × Bool) × Option CompoundValueNode :=
  (ca.simpleValue, ca.compoundValueP)

/-- The value of an attribute to which none was given: the empty text. -/
def blankValue : (ValueType × String × Double × Bool) × Option CompoundValueNode :=
  (ContextAttribute.ofString "" "" "" true).value

theorem value_withValueOf (aP ca : ContextAttribute) : (aP.withValueOf ca).value = ca.value := rfl

theorem withValueOf_congr {aP ca cb : ContextAttribute} (h : ca.value = cb.value) :
    aP.withValueOf ca = aP.withValueOf cb := by
  unfold ContextAttribute.value ContextAttribute.simpleValue at h
  simp only [Prod.mk.injEq] at h
  unfold ContextAttribute.withValueOf
  rw [h.1.1, h.1.2.1, h.1.2.2.1, h.1.2.2.2, h.2]

theorem withValueOf_self {aP ca : ContextAttribute} (h : ca.value = aP.value) : aP.withValueOf ca = aP := by
  rw [withValueOf_congr h]
  rfl

end Values

/-! ### What mongo found has no value -/

section Valueless

variable {env : Env} {apiVersion : ApiVersion} {flavour : Ngsiv2Flavour} {action : String} {ceP : ContextElement}
  {old : List ContextElementResponse} {results : List EntityDoc}

/-- The attributes have no values. -/
def Valueless (caV : List ContextAttribute) : Prop := ∀ aP ∈ caV, aP.value = blankValue

private theorem valueless_map_responseAttribute (f : ContextAttribute → Bool) (caV : List ContextAttribute) :
    Valueless (caV.map fun ca => responseAttribute ca (f ca)) := by
  intro aP haP
  obtain ⟨ca, -, rfl⟩ := List.mem_map.1 haP
  rfl

private theorem valueless_searchContextProviders {cer : ContextElementResponse} (en : EntityId) (caV : List ContextAttribute)
    (h : Valueless cer.contextElement.contextAttributeVector) :
    Valueless (searchContextProviders env en caV cer).contextElement.contextAttributeVector := by
  have hlookup : ∀ en cerEn attrL caV, Valueless caV → Valueless (registrationsLookup env en cerEn attrL caV) := by
    intro en cerEn attrL caV hcaV
    unfold registrationsLookup
    split
    · split
      · intro aP haP
        obtain ⟨ca, hca, rfl⟩ := List.mem_map.1 haP
        split
        · exact hcaV ca hca
        · exact hcaV ca hca
      · exact hcaV
    · exact hcaV
  exact hlookup _ _ _ _ (hlookup _ _ _ _ h)

private theorem valueless_updateEntity (r : EntityDoc) :
    ∀ cer ∈ (updateEntity env apiVersion action ceP r).responses, Valueless cer.contextElement.contextAttributeVector := by
  have hloop : Valueless (attributeLoop env (responseEntity r) r.attrs apiVersion action (initialProcessing r)
      (requestAttributes action r ceP.contextAttributeVector)).processing.responseAttrs := by
    have hnil : (initialProcessing r).responseAttrs = [] := rfl
    rw [attributeLoop_listed, hnil, List.nil_append]
    exact valueless_map_responseAttribute _ _
  have hprocessed : Valueless
      (processAttributes env apiVersion action r ceP.contextAttributeVector).processing.responseAttrs := by
    unfold processAttributes processContextAttributeVector
    simp only
    split
    · split <;> exact hloop
    · exact hloop
  intro cer hcer
  unfold updateEntity at hcer
  split at hcer
  · rw [List.mem_singleton.1 hcer]
    intro ca hca
    cases hca
  · simp only at hcer
    split at hcer
    · split at hcer
      · rw [List.mem_singleton.1 hcer]
        exact hprocessed
      · rw [List.mem_singleton.1 hcer]
        exact valueless_searchContextProviders _ _ hprocessed
    · split at hcer
      · cases hcer
      · rw [List.mem_singleton.1 hcer]
        exact valueless_searchContextProviders _ _ hprocessed

private theorem valueless_missingEntity :
    ∀ cer ∈ (processMissingEntity env apiVersion action ceP old).responses,
      Valueless cer.contextElement.contextAttributeVector := by
  intro cer hcer
  unfold processMissingEntity at hcer
  simp only at hcer
  split at hcer
  · rw [List.mem_singleton.1 hcer]
    exact valueless_searchContextProviders _ _ (valueless_map_responseAttribute _ _)
  · rw [List.mem_singleton.1 hcer]
    exact valueless_searchContextProviders _ _ (valueless_map_responseAttribute _ _)
  · rw [List.mem_singleton.1 hcer]
    exact valueless_map_responseAttribute _ _
  · split at hcer
    · rw [List.mem_singleton.1 hcer]
      exact valueless_map_responseAttribute _ _
    · split at hcer
      · rw [List.mem_singleton.1 hcer]
        exact valueless_map_responseAttribute _ _
      · rw [List.mem_singleton.1 hcer]
        exact valueless_map_responseAttribute _ _

private theorem mem_of_duplicatedAttribute {caV : List ContextAttribute} {ca : ContextAttribute}
    (h : duplicatedAttribute caV = some ca) : ca ∈ caV := by
  induction caV with
  | nil => cases h
  | cons cb caV ih =>
    unfold duplicatedAttribute at h
    split at h
    · cases h
      exact List.mem_cons_self
    · exact List.mem_cons_of_mem _ (ih h)

private theorem found_preconditions {cer : ContextElementResponse}
    (hnot : ∀ ca ∈ ceP.contextAttributeVector, ca.found = false)
    (hpre : contextElementPreconditionsCheck ceP action apiVersion = some cer) :
    ∀ aP ∈ cer.contextElement.contextAttributeVector, aP.found = false := by
  intro aP haP
  unfold contextElementPreconditionsCheck at hpre
  split at hpre
  · rename_i ca hdup
    cases hpre
    rw [List.mem_singleton.1 haP]
    exact hnot ca (mem_of_duplicatedAttribute hdup)
  · split at hpre
    · cases hpre
      cases haP
    · split at hpre
      · split at hpre
        · rename_i ca hempty
          cases hpre
          rw [List.mem_singleton.1 haP]
          exact hnot ca (List.mem_of_find?_eq_some hempty)
        · cases hpre
      · cases hpre

private theorem attributes_ngsiv2Check {n : Nat} {cer : ContextElementResponse}
    (h : ngsiv2Check env flavour ceP n = some cer) : cer.contextElement.contextAttributeVector = [] := by
  unfold ngsiv2Check at h
  split at h
  · cases h
    rfl
  · split at h
    · cases h
      rfl
    · split at h
      · cases h
        rfl
      · split at h
        · cases h
          rfl
        · cases h

/-- An element that does not pass the checks has found nothing. -/
private theorem found_refused (hnot : ∀ ca ∈ ceP.contextAttributeVector, ca.found = false)
    (h : checksPass env apiVersion flavour action ceP results = false) :
    ∀ cer ∈ (processContextElement env apiVersion flavour action ceP old results).responses,
      ∀ aP ∈ cer.contextElement.contextAttributeVector, aP.found = false := by
  unfold processContextElement
  cases hpre : contextElementPreconditionsCheck ceP action apiVersion with
  | some cer =>
    simp only [List.mem_singleton, forall_eq]
    exact found_preconditions hnot hpre
  | none =>
    simp only
    cases hv2 : (if apiVersion = .v2 then ngsiv2Check env flavour ceP results.length else none) with
    | some cer =>
      have hnil : cer.contextElement.contextAttributeVector = [] := by
        split at hv2
        · exact attributes_ngsiv2Check hv2
        · cases hv2
      simp [hnil]
    | none =>
      simp only
      cases hq : env.collectionQuery with
      | some err => simp [generalErrorResponse]
      | none =>
        exfalso
        cases apiVersion with
        | v1 => simp [checksPass, hpre, hq] at h
        | v2 =>
          rw [if_pos rfl] at hv2
          simp [checksPass, hpre, hq, hv2] at h

/-- What is found has no value, if the request was marked as not found. -/
private theorem valueless_element (hnot : ∀ ca ∈ ceP.contextAttributeVector, ca.found = false) :
    ∀ cer ∈ (processContextElement env apiVersion flavour action ceP old results).responses,
      ∀ aP ∈ cer.contextElement.contextAttributeVector, aP.found = true → aP.value = blankValue := by
  intro cer hcer aP haP hfound
  cases hchecks : checksPass env apiVersion flavour action ceP results with
  | false =>
    rw [found_refused hnot hchecks cer hcer aP haP] at hfound
    cases hfound
  | true =>
    cases results with
    | nil =>
      rw [processContextElement_missing hchecks] at hcer
      exact valueless_missingEntity cer hcer aP haP
    | cons r results =>
      rw [(processContextElement_matched old hchecks (List.cons_ne_nil r results)).1, List.mem_append] at hcer
      rcases hcer with hcer | hcer
      · obtain ⟨t, -, hcer⟩ := List.mem_flatMap.1 hcer
        exact valueless_updateEntity _ cer hcer aP haP
      · unfold alreadyExistsResponse at hcer
        split at hcer
        · rw [List.mem_singleton.1 hcer] at haP
          cases haP
        · cases hcer

theorem valueless_found {calls : List ElementCall} :
    ∀ a ∈ answers apiVersion flavour action (attributesToNotFound calls), a.aP.found = true → a.aP.value = blankValue := by
  have hrun : ∀ (calls : List ElementCall) old,
      (∀ call ∈ calls, ∀ ca ∈ call.ceP.contextAttributeVector, ca.found = false) →
      (∀ cer ∈ old, ∀ aP ∈ cer.contextElement.contextAttributeVector, aP.found = true → aP.value = blankValue) →
      ∀ cer ∈ (mongoUpdateContext apiVersion flavour action old calls).responses,
        ∀ aP ∈ cer.contextElement.contextAttributeVector, aP.found = true → aP.value = blankValue := by
    intro calls
    induction calls with
    | nil => exact fun old _ hold => hold
    | cons call calls ih =>
      intro old hnot hold
      rw [List.forall_mem_cons] at hnot
      refine ih _ hnot.2 fun cer hcer => ?_
      rcases List.mem_append.1 hcer with hcer | hcer
      · exact hold cer hcer
      · exact valueless_element hnot.1 cer hcer
  have hmarked : ∀ call ∈ attributesToNotFound calls, ∀ ca ∈ call.ceP.contextAttributeVector, ca.found = false := by
    intro call hcall ca hca
    obtain ⟨call', -, rfl⟩ := List.mem_map.1 hcall
    obtain ⟨ca', -, rfl⟩ := List.mem_map.1 hca
    rfl
  intro a ha
  have hitem := List.mem_map_of_mem (f := fun a : Answer => (a.eP, a.aP)) ha
  rw [items_answers] at hitem
  obtain ⟨cer, hcer, hitem⟩ := List.mem_flatMap.1 hitem
  obtain ⟨aP, haP, heq⟩ := List.mem_map.1 hitem
  rw [Prod.mk.injEq] at heq
  rw [← heq.2]
  exact hrun _ [] hmarked nofun cer hcer aP haP

end Valueless

/-! ### Separation and values do not move attributes -/

section Items

variable {cers : List ContextElementResponse} {cer : ContextElementResponse}

private theorem items_fillDetails (cer : ContextElementResponse) : (fillDetails cer).items = cer.items := by
  unfold fillDetails
  split <;> rfl

private theorem items_separate (cer : ContextElementResponse) :
    ((separate cer).1.items ++ (separate cer).2.toList.flatMap ContextElementResponse.items).Perm cer.items := by
  unfold separate
  simp only
  split
  · have hkeep : ∀ status : StatusCode, ({ cer with statusCode := status } : ContextElementResponse).items = cer.items :=
      fun _ => rfl
    rw [items_fillDetails]
    split
    · rw [hkeep]
      simp
    · simp
  · split
    · rw [items_fillDetails]
      simp only [Option.toList_some, List.flatMap_singleton]
      unfold ContextElementResponse.items
      simp only
      rw [← List.map_append]
      refine List.Perm.map _ ?_
      exact List.filter_append_perm (fun ca : ContextAttribute => ca.found) cer.contextElement.contextAttributeVector
    · rw [items_fillDetails]
      simp

/-- The separation keeps all attributes with their entities. -/
theorem items_separation (cers : List ContextElementResponse) :
    ((foundAndNotFoundAttributeSeparation cers).flatMap ContextElementResponse.items).Perm
      (cers.flatMap ContextElementResponse.items) := by
  unfold foundAndNotFoundAttributeSeparation
  induction cers with
  | nil => exact .nil
  | cons cer cers ih =>
    have hsecond : (cer :: cers).filterMap (fun cer => (separate cer).2) =
        (separate cer).2.toList ++ cers.filterMap fun cer => (separate cer).2 := by
      rw [List.filterMap_cons]
      cases (separate cer).2 <;> rfl
    rw [hsecond, List.map_cons, List.cons_append, List.flatMap_cons, List.flatMap_cons, List.flatMap_append,
      List.flatMap_append]
    rw [List.flatMap_append] at ih
    have hfirst := items_separate cer
    -- the second part of the entry is moved to the first one
    have hmove : ∀ a b c d : List (EntityId × ContextAttribute), (a ++ (b ++ (c ++ d))).Perm ((a ++ c) ++ (b ++ d)) := by
      intro a b c d
      rw [List.append_assoc]
      refine List.Perm.append_left a ?_
      rw [← List.append_assoc, ← List.append_assoc]
      exact List.perm_append_comm.append_right d
    exact (hmove _ _ _ _).trans (hfirst.append ih)

theorem items_fillValues (upcr : List ContextElement) (cers : List ContextElementResponse) :
    (fillValues upcr cers).flatMap ContextElementResponse.items =
      (cers.flatMap ContextElementResponse.items).map fun p => (p.1, fillValue upcr p.1 p.2) := by
  unfold fillValues ContextElementResponse.items
  rw [List.flatMap_map, List.map_flatMap]
  refine List.flatMap_congr fun cer _ => ?_
  simp only [List.map_map]
  rfl

theorem isForwarded_fillValue (upcr : List ContextElement) (eP : EntityId) (aP : ContextAttribute) :
    isForwarded (fillValue upcr eP aP) = isForwarded aP := by
  unfold fillValue
  split <;> rfl

end Items

/-! ### All attributes are forwarded -/

section Forwarding

variable {apiVersion : ApiVersion} {flavour : Ngsiv2Flavour} {action : String} {calls : List ElementCall}
  {cprForwardLimit : Nat}

/-- The request as it was given. -/
def givenRequest (calls : List ElementCall) : List ContextElement := (attributesToNotFound calls).map ElementCall.ceP

theorem leaves_leftRequest : LeavesRequest (givenRequest calls) (leftRequest apiVersion flavour action calls) := by
  unfold LeavesRequest givenRequest leftRequest
  rw [mongoUpdateContext_left, List.forall₂_map_left_iff, List.forall₂_map_right_iff]
  exact List.forall₂_same.2 fun call _ => ⟨rfl, leaves_elementLeft _ _ _ _ _ _⟩

/-- All that mongo has answered, and for what. -/
def updateAnswers (apiVersion : ApiVersion) (flavour : Ngsiv2Flavour) (action : String) (calls : List ElementCall) :
    List Answer :=
  answers apiVersion flavour action (attributesToNotFound calls)

/-- Every attribute of the answer is in one place: in the response, with its entity, under the status that says whether
it was found; or in the request that is sent to its provider, in the element of its entity, with the value that it was
given. -/
structure ForwardsAll (cprForwardLimit : Nat) (apiVersion : ApiVersion) (flavour : Ngsiv2Flavour) (action : String)
    (calls : List ElementCall) : Prop where
  answered :
    ((sortedUpdate apiVersion flavour action calls).response.flatMap ContextElementResponse.listed).Perm
      (((updateAnswers apiVersion flavour action calls).filter fun a => !isForwarded a.aP).map fun a =>
        responseItem (a.eP, fillValue (leftRequest apiVersion flavour action calls) a.eP a.aP))
  forwarded :
    ((sent cprForwardLimit (sortedUpdate apiVersion flavour action calls).requestV).flatMap
        UpdateContextRequest.contents).Perm
      (((updateAnswers apiVersion flavour action calls).filter fun a => isForwarded a.aP).map fun a =>
        requestItem (a.eP, a.aP.withValueOf a.given))

/-- The value of an answer is found again: the first attribute of its name that the request has for exactly its entity
was given with the same value, and mongo has left the compound value there; or there is none, and no value either. -/
def FoundAgain (apiVersion : ApiVersion) (flavour : Ngsiv2Flavour) (action : String) (calls : List ElementCall)
    (a : Answer) : Prop :=
  match (givenFor (givenRequest calls) a.eP).find? fun ca => ca.name = a.aP.name with
  | some ca =>
    ca.simpleValue = a.given.simpleValue ∧
      ∃ ca' ∈ (givenFor (leftRequest apiVersion flavour action calls) a.eP).find? (fun ca => ca.name = a.aP.name),
        ca'.compoundValueP = a.given.compoundValueP
  | none => a.given.value = blankValue

private theorem foundAgain_iff {a : Answer} (ha : a.aP.value = blankValue) :
    FoundAgain apiVersion flavour action calls a ↔
      fillValue (leftRequest apiVersion flavour action calls) a.eP a.aP = a.aP.withValueOf a.given := by
  unfold FoundAgain fillValue
  rw [attributeLookup_eq]
  have hleft := leaves_givenFor (@leaves_leftRequest apiVersion flavour action calls) a.eP
  rcases find_leaves hleft a.aP.name with ⟨hnone, hnone'⟩ | ⟨ca, ca', hca, hca', hleaves⟩
  · rw [hnone, hnone']
    simp only
    constructor
    · intro hblank
      exact (withValueOf_self (hblank.trans ha.symm)).symm
    · intro heq
      rw [← value_withValueOf a.aP a.given, ← heq, ha]
  · rw [hca, hca']
    simp only [Option.mem_def, Option.some.injEq, exists_eq_left']
    constructor
    · rintro ⟨hsimple, hcompound⟩
      refine withValueOf_congr ?_
      unfold ContextAttribute.value
      rw [hleaves.simpleValue, hsimple, hcompound]
    · intro heq
      have hvalue : ca'.value = a.given.value := by
        rw [← value_withValueOf a.aP ca', heq, value_withValueOf]
      unfold ContextAttribute.value at hvalue
      rw [Prod.mk.injEq] at hvalue
      exact ⟨hleaves.simpleValue.symm.trans hvalue.1, hvalue.2⟩

/-- What is looked up depends on the entity's id and type and on the name only. -/
private theorem fillValue_value {upcr : List ContextElement} {a b : Answer} (hid : b.eP.idType = a.eP.idType)
    (hname : b.aP.name = a.aP.name) (hvalue : b.aP.value = a.aP.value) :
    (fillValue upcr b.eP b.aP).value = (fillValue upcr a.eP a.aP).value := by
  have hlookup : attributeLookup upcr b.eP b.aP.name = attributeLookup upcr a.eP a.aP.name := by
    rw [attributeLookup_eq, attributeLookup_eq, hname]
    unfold givenFor
    rw [hid]
  unfold fillValue
  rw [hlookup]
  split
  · exact hvalue
  · rfl

private theorem value_requestItem {p q : EntityId × ContextAttribute} (h : requestItem p = requestItem q) :
    p.1.idType = q.1.idType ∧ p.2.name = q.2.name ∧ p.2.value = q.2.value := by
  unfold requestItem at h
  rw [Prod.mk.injEq, Prod.mk.injEq] at h
  have hname : (p.2.copy false).1.name = (q.2.copy false).1.name := congrArg ContextAttribute.name h.2.2
  have hvalue : (p.2.copy false).1.value = (q.2.copy false).1.value := congrArg ContextAttribute.value h.2.2
  exact ⟨h.2.1, hname, hvalue⟩

private theorem name_fillValue (upcr : List ContextElement) (eP : EntityId) (aP : ContextAttribute) :
    (fillValue upcr eP aP).name = aP.name := by
  unfold fillValue
  split <;> rfl

/-- All attributes are forwarded with their values exactly if there are not too many providers and the values are found
again. -/
theorem update_forwarding_iff :
    ForwardsAll cprForwardLimit apiVersion flavour action calls ↔
      (((updateAnswers apiVersion flavour action calls).filter fun a => isForwarded a.aP).map fun a =>
          a.aP.providingApplication).dedup.length ≤ cprForwardLimit ∧
        ∀ a ∈ updateAnswers apiVersion flavour action calls, isForwarded a.aP = true →
          FoundAgain apiVersion flavour action calls a := by
  obtain ⟨upcr, hupcr⟩ : ∃ upcr, upcr = leftRequest apiVersion flavour action calls := ⟨_, rfl⟩
  obtain ⟨items, hitems⟩ : ∃ items, items = (fillValues upcr (foundAndNotFoundAttributeSeparation
    (mongoUpdateContext apiVersion flavour action [] (attributesToNotFound calls)).responses)).flatMap
      ContextElementResponse.items := ⟨_, rfl⟩
  have hsorted : sortedUpdate apiVersion flavour action calls = items.foldl sortItem {} := by
    rw [hitems, ← sortUpdate_eq, hupcr]
    rfl
  -- what is sorted are the answers with the values that were looked up
  have hperm : items.Perm ((updateAnswers apiVersion flavour action calls).map fun a =>
      (a.eP, fillValue upcr a.eP a.aP)) := by
    have hanswers := (items_separation
      (mongoUpdateContext apiVersion flavour action [] (attributesToNotFound calls)).responses).map
        fun p => (p.1, fillValue upcr p.1 p.2)
    rw [← items_answers, List.map_map] at hanswers
    rw [hitems, items_fillValues]
    exact hanswers
  have hfilter : ∀ b : Bool, (items.filter fun p => isForwarded p.2 == b).Perm
      (((updateAnswers apiVersion flavour action calls).filter fun a => isForwarded a.aP == b).map fun a =>
        (a.eP, fillValue upcr a.eP a.aP)) := by
    intro b
    have hfiltered := hperm.filter fun p => isForwarded p.2 == b
    rw [List.filter_map] at hfiltered
    refine hfiltered.trans (List.Perm.of_eq ?_)
    congr 1
    refine List.filter_congr fun a _ => ?_
    simp only [Function.comp_apply, isForwarded_fillValue]
  have hforwarded := hfilter true
  have hanswered := hfilter false
  simp only [beq_true] at hforwarded
  simp only [beq_false] at hanswered
  obtain ⟨hresponse, hrequestV⟩ := sortItems_spec items {}
  have hpa : ∀ p ∈ items.filter fun p => isForwarded p.2, p.2.providingApplication ≠ "" := by
    intro p hp
    have hfor := (List.mem_filter.1 hp).2
    unfold isForwarded at hfor
    simp only [Bool.and_eq_true, decide_eq_true_eq] at hfor
    exact hfor.2
  have hlength : (((updateAnswers apiVersion flavour action calls).filter fun a => isForwarded a.aP).map fun a =>
      requestItem (a.eP, a.aP.withValueOf a.given)).length = (items.filter fun p => isForwarded p.2).length := by
    rw [List.length_map, hforwarded.length_eq, List.length_map]
  have hsent := @sent_forwards_iff _ cprForwardLimit _ hpa hlength
  have hproviders : ((items.filter fun p => isForwarded p.2).map fun p => p.2.providingApplication).dedup.length =
      (((updateAnswers apiVersion flavour action calls).filter fun a => isForwarded a.aP).map fun a =>
        a.aP.providingApplication).dedup.length := by
    have hmap := hforwarded.map fun p => p.2.providingApplication
    rw [List.map_map] at hmap
    rw [hmap.dedup.length_eq]
    congr 2
    refine List.map_congr_left fun a _ => ?_
    simp only [Function.comp_apply, fillValue]
    split <;> rfl
  have hvalues : ((items.filter fun p => isForwarded p.2).map requestItem).Perm
      (((updateAnswers apiVersion flavour action calls).filter fun a => isForwarded a.aP).map fun a =>
        requestItem (a.eP, a.aP.withValueOf a.given)) ↔
      ∀ a ∈ updateAnswers apiVersion flavour action calls, isForwarded a.aP = true →
        FoundAgain apiVersion flavour action calls a := by
    have hrequests := hforwarded.map requestItem
    rw [List.map_map] at hrequests
    have hblank : ∀ a ∈ updateAnswers apiVersion flavour action calls, isForwarded a.aP = true →
        a.aP.value = blankValue := by
      intro a ha hfor
      unfold isForwarded at hfor
      rw [Bool.and_eq_true] at hfor
      exact valueless_found a ha hfor.1
    constructor
    · intro hperm' a ha hfor
      rw [foundAgain_iff (hblank a ha hfor), ← hupcr]
      -- the expected item is one of the items that are there, and the lookup of both is the same
      have hfiltered : a ∈ (updateAnswers apiVersion flavour action calls).filter fun a => isForwarded a.aP :=
        List.mem_filter.2 ⟨ha, hfor⟩
      have hmem := List.mem_map_of_mem (f := fun a : Answer => requestItem (a.eP, a.aP.withValueOf a.given)) hfiltered
      have hmem' := (hrequests.symm.trans hperm').symm.subset hmem
      obtain ⟨b, hb, heq⟩ := List.mem_map.1 hmem'
      obtain ⟨hb, hbfor⟩ := List.mem_filter.1 hb
      obtain ⟨hid, hname, hvalue⟩ := value_requestItem heq
      have hbname : b.aP.name = a.aP.name := (name_fillValue upcr b.eP b.aP).symm.trans hname
      have hsame : (fillValue upcr b.eP b.aP).value = (fillValue upcr a.eP a.aP).value :=
        fillValue_value hid hbname ((hblank b hb hbfor).trans (hblank a ha hfor).symm)
      have hgiven : (fillValue upcr a.eP a.aP).value = a.given.value := hsame.symm.trans hvalue
      have hself : fillValue upcr a.eP a.aP = a.aP.withValueOf (fillValue upcr a.eP a.aP) := by
        unfold fillValue
        split <;> rfl
      rw [hself]
      exact withValueOf_congr hgiven
    · intro hfound
      refine hrequests.trans (List.Perm.of_eq (List.map_congr_left fun a ha => ?_))
      obtain ⟨ha, hfor⟩ := List.mem_filter.1 ha
      have hfill := (foundAgain_iff (hblank a ha hfor)).1 (hfound a ha hfor)
      rw [← hupcr] at hfill
      rw [Function.comp_apply, hfill]
  have hresponse' : ((sortedUpdate apiVersion flavour action calls).response.flatMap
      ContextElementResponse.listed).Perm
        (((updateAnswers apiVersion flavour action calls).filter fun a => !isForwarded a.aP).map fun a =>
          responseItem (a.eP, fillValue (leftRequest apiVersion flavour action calls) a.eP a.aP)) := by
    have hmap := hanswered.map responseItem
    rw [List.map_map] at hmap
    rw [hsorted, ← hupcr]
    exact hresponse.trans hmap
  have hrequestV' : (sortedUpdate apiVersion flavour action calls).requestV =
      forwards (items.filter fun p => isForwarded p.2) := by
    rw [hsorted, hrequestV]
    rfl
  rw [← hproviders, ← hvalues, ← hsent, ← hrequestV']
  exact ⟨fun h => h.forwarded, fun h => ⟨hresponse', h⟩⟩

end Forwarding

/-! ### Two values that are not forwarded -/

/-- A quiet surrounding with a registration of the attribute "a" of the entity "E". -/
def registeredA : Env :=
  { Env.quiet 0 with
    registrationsQuery := fun _ _ => some
      [{ entityIdVector := [{ id := "E", type := "" }], contextRegistrationAttributeVector := ["a"]
         providingApplication := "http://cp.example/v1" }] }

/-- An update of the attribute "a" of the entity "E", which has only the attribute "b". -/
def updateOfA (type : String) (value : String) (compoundValueP : Option CompoundValueNode) : ElementCall where
  env := registeredA
  ceP :=
    { entityId := { id := "E", type := type }
      contextAttributeVector :=
        [{ name := "a", type := "T", stringValue := value, compoundValueP := compoundValueP }] }
  results := [createdWith "b" "1"]

/-- A vector is moved to the notification, and the value of a request without the entity's type is not found. -/
theorem forwarding_loses_values :
    ¬ ForwardsAll 1000 .v1 .noFlavour "UPDATE" [updateOfA "T" "" (some (.vector "toplevel" []))] ∧
      ¬ ForwardsAll 1000 .v1 .noFlavour "UPDATE" [updateOfA "" "1" none] := by
  constructor
  · intro h
    have hcompound := h.forwarded.map fun t => t.2.2.compoundValueP.isSome
    revert hcompound
    decide +kernel
  · intro h
    have hstring := h.forwarded.map fun t => t.2.2.stringValue
    revert hstring
    decide +kernel

end OrionBroker
