import OrionBroker.PostUpdateContext
import OrionBroker.ReportedOk

/-!
# Separation of attributes (`postUpdateContext.cpp`)

After an update each response is looked at once more: if it lists both attributes that were found and attributes that
were not, the latter are moved, one by one, to a response of their own.  Then the first response gets the status OK,
whatever its status was: `separation_iff` says that this is all that goes wrong.
-/

namespace OrionBroker.AttributeSeparation

/-! ### The source -/

/-- `noOfFounds` and `noOfNotFounds`. -/
def count (caV : List ContextAttribute) : Nat × Nat :=
  caV.foldl (fun n ca => if ca.found = true then (n.1 + 1, n.2) else (n.1, n.2 + 1)) (0, 0)

/-- The loop that erases what was not found: what stands in front of the iterator, what from it on, and what has been
pushed to the other response. -/
def moveNotFounds (front : List ContextAttribute) :
    List ContextAttribute → List ContextAttribute → List ContextAttribute × List ContextAttribute
  | [], moved => (front, moved)
  | ca :: caV, moved =>
    if ca.found = false then moveNotFounds front caV (moved ++ [ca]) else moveNotFounds (front ++ [ca]) caV moved

/-- A turn of the loop over the responses. -/
def separateEntry (cer : ContextElementResponse) : ContextElementResponse × Option ContextElementResponse :=
  let caV := cer.contextElement.contextAttributeVector
  let eP := cer.contextElement.entityId
  let n := count caV
  if n.1 = 0 ∧ n.2 > 0 then
    if cer.statusCode.code = .SccOk ∨ cer.statusCode.code = .SccNone then
      (fillDetails { cer with statusCode := ⟨.SccContextElementNotFound, eP.id⟩ }, none)
    else (fillDetails cer, none)
  else if n.1 > 0 ∧ n.2 > 0 then
    let separated := moveNotFounds [] caV []
    (fillDetails
        { contextElement := { cer.contextElement with contextAttributeVector := separated.1 }, statusCode := ⟨.SccOk, ""⟩ },
      some { contextElement := { entityId := eP, contextAttributeVector := separated.2 }
             statusCode := ⟨.SccContextElementNotFound, eP.id⟩ })
  else (fillDetails cer, none)

/-- The loop over the responses; the new ones are pushed after it. -/
def separateEntries (cers notFoundV : List ContextElementResponse) : List ContextElementResponse :=
  match cers with
  | [] => notFoundV
  | cer :: cers => (separateEntry cer).1 :: separateEntries cers (notFoundV ++ (separateEntry cer).2.toList)

/-- `requestId` is the id of the first entity of the request. -/
def attributeSeparation (method requestId : String) (upcrs : UpdateContextResponse) : UpdateContextResponse :=
  let cers := separateEntries upcrs.contextElementResponseVector []
  let errorCode : StatusCode :=
    if method ≠ "DELETE" ∧ cers.length = 0 ∧ upcrs.errorCode.code = .SccOk then ⟨.SccContextElementNotFound, requestId⟩
    else upcrs.errorCode
  let errorCode : StatusCode :=
    if errorCode.code = .SccContextElementNotFound then
      match cers with
      | [cer] => { errorCode with details := cer.contextElement.entityId.id }
      | [] => { errorCode with details := requestId }
      | _ => errorCode
    else errorCode
  { contextElementResponseVector := cers, errorCode := errorCode }

/-! ### The loops -/

section Loops

theorem count_eq (caV : List ContextAttribute) :
    count caV = ((caV.filter fun ca => ca.found).length, (caV.filter fun ca => !ca.found).length) := by
  have hrun : ∀ n : Nat × Nat, caV.foldl (fun n ca => if ca.found = true then (n.1 + 1, n.2) else (n.1, n.2 + 1)) n =
      (n.1 + (caV.filter fun ca => ca.found).length, n.2 + (caV.filter fun ca => !ca.found).length) := by
    induction caV with
    | nil => exact fun n => rfl
    | cons ca caV ih =>
      intro n
      rw [List.foldl_cons, ih]
      by_cases hfound : ca.found = true
      · simp [hfound, Nat.add_assoc, Nat.add_comm 1]
      · simp [hfound, Nat.add_assoc, Nat.add_comm 1]
  rw [count, hrun, Nat.zero_add, Nat.zero_add]

theorem moveNotFounds_eq (front caV moved : List ContextAttribute) :
    moveNotFounds front caV moved = (front ++ caV.filter fun ca => ca.found, moved ++ caV.filter fun ca => !ca.found) := by
  induction caV generalizing front moved with
  | nil => simp [moveNotFounds]
  | cons ca caV ih =>
    rw [moveNotFounds]
    split
    · rename_i hfound
      rw [ih]
      simp [hfound]
    · rename_i hfound
      rw [ih]
      simp [hfound]

/-- The loops sort the attributes. -/
theorem separateEntry_eq (cer : ContextElementResponse) : separateEntry cer = separate cer := by
  unfold separateEntry separate
  simp only [count_eq, moveNotFounds_eq, List.nil_append, List.length_eq_zero_iff, gt_iff_lt, List.length_pos_iff]
  split
  · split <;> rfl
  · rfl

theorem separateEntries_eq (cers notFoundV : List ContextElementResponse) :
    separateEntries cers notFoundV =
      cers.map (fun cer => (separate cer).1) ++ (notFoundV ++ cers.filterMap fun cer => (separate cer).2) := by
  induction cers generalizing notFoundV with
  | nil => simp [separateEntries]
  | cons cer cers ih =>
    rw [separateEntries, ih, separateEntry_eq, List.filterMap_cons]
    cases (separate cer).2 <;> simp

/-- The responses are those of the model of the whole routine. -/
theorem attributeSeparation_responses (method requestId : String) (upcrs : UpdateContextResponse) :
    (attributeSeparation method requestId upcrs).contextElementResponseVector =
      foundAndNotFoundAttributeSeparation upcrs.contextElementResponseVector := by
  show separateEntries upcrs.contextElementResponseVector [] = _
  rw [separateEntries_eq, List.nil_append]
  rfl

end Loops

/-! ### What a separation is -/

def isError (statusCode : StatusCode) : Prop := statusCode.code ≠ .SccOk ∧ statusCode.code ≠ .SccNone

/-- A response with both attributes that were found and attributes that were not. -/
def isMixed (cer : ContextElementResponse) : Bool :=
  (cer.contextElement.contextAttributeVector.any fun ca => ca.found) &&
    cer.contextElement.contextAttributeVector.any fun ca => !ca.found

/-- What becomes of a response itself. -/
structure KeptOf (cer kept : ContextElementResponse) : Prop where
  entity : kept.contextElement.entityId = cer.contextElement.entityId
  attributes : kept.contextElement.contextAttributeVector =
    if isMixed cer then cer.contextElement.contextAttributeVector.filter fun ca => ca.found
    else cer.contextElement.contextAttributeVector
  found : isMixed cer = true → kept.statusCode.code ≠ .SccContextElementNotFound
  error : isError cer.statusCode → kept.statusCode.code ≠ .SccOk

/-- The response about what was not found. -/
structure MissingOf (cer missing : ContextElementResponse) : Prop where
  entity : missing.contextElement.entityId = cer.contextElement.entityId
  attributes : missing.contextElement.contextAttributeVector =
    cer.contextElement.contextAttributeVector.filter fun ca => !ca.found
  code : missing.statusCode.code = .SccContextElementNotFound

/-- All attributes are in one response about their entity, those of the mixed responses are separated, and no error
becomes OK. -/
structure Separates (before after : UpdateContextResponse) : Prop where
  items : (after.contextElementResponseVector.flatMap ContextElementResponse.items).Perm
    (before.contextElementResponseVector.flatMap ContextElementResponse.items)
  responses : ∃ kept missing, after.contextElementResponseVector = kept ++ missing ∧
    List.Forall₂ KeptOf before.contextElementResponseVector kept ∧
      List.Forall₂ MissingOf (before.contextElementResponseVector.filter isMixed) missing
  errorCode : isError before.errorCode → after.errorCode.code ≠ .SccOk

section Separation

variable {cer : ContextElementResponse}

theorem isMixed_iff (cer : ContextElementResponse) :
    isMixed cer = true ↔ (cer.contextElement.contextAttributeVector.filter fun ca => ca.found) ≠ [] ∧
      (cer.contextElement.contextAttributeVector.filter fun ca => !ca.found) ≠ [] := by
  simp [isMixed]

/-- A mixed response. -/
theorem separate_of_mixed (h : isMixed cer = true) :
    (separate cer).1.statusCode.code = .SccOk ∧
      (separate cer).1.contextElement.entityId = cer.contextElement.entityId ∧
      (separate cer).1.contextElement.contextAttributeVector =
        (cer.contextElement.contextAttributeVector.filter fun ca => ca.found) ∧
      ∃ missing, (separate cer).2 = some missing ∧ MissingOf cer missing := by
  have hmixed := (isMixed_iff cer).1 h
  unfold separate
  simp only
  rw [if_neg fun hnone => hmixed.1 hnone.1, if_pos hmixed]
  refine ⟨code_fillDetails _, ?_, ?_, _, rfl, rfl, rfl, rfl⟩
  · rw [contextElement_fillDetails]
  · rw [contextElement_fillDetails]

/-- A response with attributes of one kind. -/
theorem separate_of_not_mixed (h : isMixed cer = false) :
    (separate cer).1.contextElement = cer.contextElement ∧ (separate cer).2 = none ∧
      (isError cer.statusCode → (separate cer).1.statusCode.code ≠ .SccOk) := by
  have hmixed : ¬((cer.contextElement.contextAttributeVector.filter fun ca => ca.found) ≠ [] ∧
      (cer.contextElement.contextAttributeVector.filter fun ca => !ca.found) ≠ []) := by
    rw [← isMixed_iff, h]
    decide
  unfold separate
  simp only
  split
  · refine ⟨?_, rfl, fun herror => ?_⟩
    · rw [contextElement_fillDetails]
      split <;> rfl
    · rw [code_fillDetails, if_neg (not_or.2 herror)]
      exact herror.1
  · refine ⟨contextElement_fillDetails cer, rfl, fun herror => ?_⟩
    rw [code_fillDetails]
    exact herror.1

theorem keptOf_separate_iff (cer : ContextElementResponse) :
    KeptOf cer (separate cer).1 ↔ (isMixed cer = true → ¬isError cer.statusCode) := by
  by_cases hmixed : isMixed cer = true
  · obtain ⟨hcode, hentity, hattributes, -⟩ := separate_of_mixed hmixed
    constructor
    · intro hkept _ herror
      exact hkept.error herror hcode
    · intro hok
      refine ⟨hentity, by rw [if_pos hmixed, hattributes], fun _ => ?_, fun herror => absurd herror (hok hmixed)⟩
      rw [hcode]
      decide
  · have hplain := Bool.eq_false_iff.2 hmixed
    obtain ⟨helement, -, herror⟩ := separate_of_not_mixed hplain
    refine iff_of_true ⟨by rw [helement], by rw [if_neg hmixed, helement], fun h => absurd h hmixed, herror⟩ ?_
    exact fun h => absurd h hmixed

/-- The new responses are those of the mixed ones, in their order. -/
theorem missingOf_separate (cers : List ContextElementResponse) :
    List.Forall₂ MissingOf (cers.filter isMixed) (cers.filterMap fun cer => (separate cer).2) := by
  induction cers with
  | nil => exact .nil
  | cons cer cers ih =>
    rw [List.filter_cons, List.filterMap_cons]
    by_cases hmixed : isMixed cer = true
    · obtain ⟨-, -, -, missing, hmissing, hof⟩ := separate_of_mixed hmixed
      rw [if_pos hmixed, hmissing]
      exact .cons hof ih
    · obtain ⟨-, hnone, -⟩ := separate_of_not_mixed (Bool.eq_false_iff.2 hmixed)
      rw [if_neg hmixed, hnone]
      exact ih

theorem errorCode_separation (method requestId : String) (upcrs : UpdateContextResponse) (h : isError upcrs.errorCode) :
    (attributeSeparation method requestId upcrs).errorCode.code ≠ .SccOk := by
  have hkeep : (if method ≠ "DELETE" ∧ (separateEntries upcrs.contextElementResponseVector []).length = 0 ∧
      upcrs.errorCode.code = .SccOk then (⟨.SccContextElementNotFound, requestId⟩ : StatusCode) else upcrs.errorCode) =
        upcrs.errorCode := if_neg fun hok => h.1 hok.2.2
  unfold attributeSeparation
  simp only [hkeep]
  split
  · split <;> exact h.1
  · exact h.1

/-- No response can be other than the one of the routine. -/
theorem not_isError_of_separates {method requestId : String} {upcrs : UpdateContextResponse}
    (h : Separates upcrs (attributeSeparation method requestId upcrs)) (hcer : cer ∈ upcrs.contextElementResponseVector)
    (hmixed : isMixed cer = true) : ¬isError cer.statusCode := by
  obtain ⟨kept, missing, heq, hkept, -⟩ := h.responses
  rw [attributeSeparation_responses, foundAndNotFoundAttributeSeparation] at heq
  have hlength : (upcrs.contextElementResponseVector.map fun cer => (separate cer).1).length = kept.length := by
    rw [List.length_map, hkept.length_eq]
  rw [← List.append_inj_left heq hlength, List.forall₂_map_right_iff, List.forall₂_same] at hkept
  exact (keptOf_separate_iff cer).1 (hkept cer hcer) hmixed

/-- The attributes are separated, and no error is lost, if and only if no mixed response has an error. -/
theorem separation_iff (method requestId : String) (upcrs : UpdateContextResponse) :
    Separates upcrs (attributeSeparation method requestId upcrs) ↔
      ∀ cer ∈ upcrs.contextElementResponseVector, isMixed cer = true → ¬isError cer.statusCode := by
  constructor
  · exact fun hseparates cer hcer hmixed => not_isError_of_separates hseparates hcer hmixed
  · intro hok
    have hresponses := attributeSeparation_responses method requestId upcrs
    refine ⟨?_, ?_, errorCode_separation method requestId upcrs⟩
    · rw [hresponses]
      exact items_separation _
    · refine ⟨_, _, hresponses, ?_, missingOf_separate _⟩
      rw [List.forall₂_map_right_iff, List.forall₂_same]
      exact fun cer hcer => (keptOf_separate_iff cer).2 (hok cer hcer)

/-- A response of a deletion that has stopped at an attribute that the entity does not have. -/
theorem error_becomes_ok :
    ¬Separates
      { contextElementResponseVector :=
          (processContextElement (.quiet 2) .v1 .noFlavour "DELETE" partlyMissing [] [dottedEntity]).responses }
      (attributeSeparation "POST" "E"
        { contextElementResponseVector :=
            (processContextElement (.quiet 2) .v1 .noFlavour "DELETE" partlyMissing [] [dottedEntity]).responses }) := by
  intro h
  have hresponse : ((processContextElement (.quiet 2) .v1 .noFlavour "DELETE" partlyMissing [] [dottedEntity]).responses.map
      fun cer => (cer.statusCode.code, isMixed cer)) = [(.SccInvalidParameter, true)] := by
    decide
  obtain ⟨cer, hcer, heq⟩ := List.mem_map.1 (hresponse ▸ List.mem_singleton.2 rfl)
  obtain ⟨hcode, hmixed⟩ := Prod.mk.inj heq
  refine not_isError_of_separates h hcer hmixed ⟨?_, ?_⟩ <;> simp [hcode]

end Separation

end OrionBroker.AttributeSeparation
