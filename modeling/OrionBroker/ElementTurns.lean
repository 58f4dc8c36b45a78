import OrionBroker.EntityTurn
import OrionBroker.ProcessContextElement

/-!
# The turns of the matching documents

`processContextElement` updates the matching documents one after the other, and the request is shared between them.
`entityTurns` lists the documents with the request that each of them meets; the responses and documents of the element
are those of the turns, with one more response when the last turn found attributes that exist already.
-/

namespace OrionBroker

/-- The matching documents, each with the request as the turns before it leave it. -/
def entityTurns (env : Env) (apiVersion : ApiVersion) (action : String) :
    ContextElement → List EntityDoc → List (ContextElement × EntityDoc)
  | _, [] => []
  | ceP, r :: results =>
    (ceP, r) :: entityTurns env apiVersion action
      { ceP with contextAttributeVector := (updateEntity env apiVersion action ceP r).attributes } results

/-- The checks that come before the matching documents are updated. -/
def checksPass (env : Env) (apiVersion : ApiVersion) (flavour : Ngsiv2Flavour) (action : String) (ceP : ContextElement)
    (results : List EntityDoc) : Bool :=
  (contextElementPreconditionsCheck ceP action apiVersion).isNone &&
    (apiVersion = .v1 || (ngsiv2Check env flavour ceP results.length).isNone) && env.collectionQuery.isNone

section Turns

variable {env : Env} {apiVersion : ApiVersion} {flavour : Ngsiv2Flavour} {action : String} {ceP : ContextElement}
  {old : List ContextElementResponse} {results : List EntityDoc}

/-- The flag that a turn leaves. -/
theorem updateEntity_alreadyExists (r : EntityDoc) :
    (updateEntity env apiVersion action ceP r).attributeAlreadyExistsError = true ↔
      existingNames action r.attrs ceP.contextAttributeVector ≠ [] := by
  unfold updateEntity
  split
  · rename_i hdel
    simp [removedEntity, existingNames, hdel.1]
  · simp only
    split
    · split <;> simp
    · split <;> simp

/-- The list of existing attributes that a turn leaves. -/
theorem updateEntity_alreadyExistsList (r : EntityDoc) :
    (updateEntity env apiVersion action ceP r).attributeAlreadyExistsList =
      attributeAlreadyExistsList action r.attrs ceP.contextAttributeVector := by
  unfold updateEntity
  split
  · rename_i hdel
    simp [removedEntity, attributeAlreadyExistsList, hdel.1]
  · simp only
    split
    · split <;> rfl
    · split <;> rfl

theorem updateEntities_responses (err : Bool) (list : String) :
    (updateEntities env apiVersion action ceP err list results).responses =
      (entityTurns env apiVersion action ceP results).flatMap fun t =>
        (updateEntity env apiVersion action t.1 t.2).responses := by
  induction results generalizing ceP err list with
  | nil => rfl
  | cons r results ih =>
    simp only [updateEntities, entityTurns, List.flatMap_cons, ih]

theorem updateEntities_docs (err : Bool) (list : String) :
    (updateEntities env apiVersion action ceP err list results).docs =
      (entityTurns env apiVersion action ceP results).map fun t => (updateEntity env apiVersion action t.1 t.2).doc := by
  induction results generalizing ceP err list with
  | nil => rfl
  | cons r results ih =>
    simp only [updateEntities, entityTurns, List.map_cons, ih]

variable (env apiVersion action ceP) in
/-- After the last turn the variables about existing attributes are those of this turn. -/
theorem updateEntities_last (err : Bool) (list : String) (hne : results ≠ []) :
    ∃ t, (entityTurns env apiVersion action ceP results).getLast? = some t ∧
      (updateEntities env apiVersion action ceP err list results).attributeAlreadyExistsError =
        (updateEntity env apiVersion action t.1 t.2).attributeAlreadyExistsError ∧
      (updateEntities env apiVersion action ceP err list results).attributeAlreadyExistsList =
        (updateEntity env apiVersion action t.1 t.2).attributeAlreadyExistsList := by
  induction results generalizing ceP err list with
  | nil => exact absurd rfl hne
  | cons r results ih =>
    cases results with
    | nil => exact ⟨(ceP, r), rfl, rfl, rfl⟩
    | cons r' results =>
      obtain ⟨t, hlast, herr, hlist⟩ := ih { ceP with
          contextAttributeVector := (updateEntity env apiVersion action ceP r).attributes }
        (updateEntity env apiVersion action ceP r).attributeAlreadyExistsError
        (updateEntity env apiVersion action ceP r).attributeAlreadyExistsList (by simp)
      refine ⟨t, ?_, ?_, ?_⟩
      · simp only [entityTurns, List.getLast?_cons_cons]
        exact hlast
      · rw [updateEntities]
        exact herr
      · rw [updateEntities]
        exact hlist

variable (env apiVersion action ceP) in
theorem updateEntities_alreadyExists (err : Bool) (list : String) (hne : results ≠ []) :
    (updateEntities env apiVersion action ceP err list results).attributeAlreadyExistsError = true ↔
      ∃ t, (entityTurns env apiVersion action ceP results).getLast? = some t ∧
        existingNames action t.2.attrs t.1.contextAttributeVector ≠ [] := by
  obtain ⟨t, hlast, herr, -⟩ := updateEntities_last env apiVersion action ceP err list hne
  rw [herr, updateEntity_alreadyExists, hlast]
  simp

variable (env apiVersion action ceP) in
theorem entityTurns_ne_nil (h : results ≠ []) : entityTurns env apiVersion action ceP results ≠ [] := by
  obtain ⟨r, results, rfl⟩ := List.exists_cons_of_ne_nil h
  exact List.cons_ne_nil _ _

/-! ### The result of an element -/

private theorem preconditions_status {cer : ContextElementResponse}
    (h : contextElementPreconditionsCheck ceP action apiVersion = some cer) : cer.statusCode.code ≠ .SccOk := by
  unfold contextElementPreconditionsCheck at h
  split at h
  · cases h
    exact fun h => nomatch h
  · split at h
    · cases h
      exact fun h => nomatch h
    · split at h
      · split at h
        · cases h
          exact fun h => nomatch h
        · cases h
      · cases h

private theorem ngsiv2Check_status {n : Nat} {cer : ContextElementResponse}
    (h : ngsiv2Check env flavour ceP n = some cer) : cer.statusCode.code ≠ .SccOk := by
  unfold ngsiv2Check at h
  split at h
  · cases h
    rintro ⟨⟩
  · split at h
    · cases h
      rintro ⟨⟩
    · split at h
      · cases h
        rintro ⟨⟩
      · split at h
        · cases h
          rintro ⟨⟩
        · cases h

variable (old) in
/-- An element that does not pass the checks gets one response, with an error, and changes nothing. -/
theorem processContextElement_refused (h : checksPass env apiVersion flavour action ceP results = false) :
    ∃ cer, (processContextElement env apiVersion flavour action ceP old results).responses = [cer] ∧
      cer.statusCode.code ≠ .SccOk ∧
      (processContextElement env apiVersion flavour action ceP old results).docs = results.map some := by
  unfold processContextElement
  cases hpre : contextElementPreconditionsCheck ceP action apiVersion with
  | some cer => exact ⟨cer, rfl, preconditions_status hpre, rfl⟩
  | none =>
    simp only
    cases hv2 : (if apiVersion = .v2 then ngsiv2Check env flavour ceP results.length else none) with
    | some cer =>
      refine ⟨cer, rfl, ?_, rfl⟩
      split at hv2
      · exact ngsiv2Check_status hv2
      · cases hv2
    | none =>
      cases hq : env.collectionQuery with
      | some err =>
        refine ⟨generalErrorResponse ceP [] .SccReceiverInternalError err, rfl, ?_, rfl⟩
        simp [generalErrorResponse]
      | none =>
        exfalso
        cases apiVersion with
        | v1 => simp [checksPass, hpre, hq] at h
        | v2 =>
          rw [if_pos rfl] at hv2
          simp [checksPass, hpre, hq, hv2] at h

private theorem checks_of_checksPass (h : checksPass env apiVersion flavour action ceP results = true) :
    contextElementPreconditionsCheck ceP action apiVersion = none ∧
      (if apiVersion = .v2 then ngsiv2Check env flavour ceP results.length else none) = none ∧
      env.collectionQuery = none := by
  simp only [checksPass, Bool.and_eq_true, Option.isNone_iff_eq_none, Bool.or_eq_true, decide_eq_true_eq] at h
  obtain ⟨⟨hpre, hv2⟩, hq⟩ := h
  refine ⟨hpre, ?_, hq⟩
  split
  · rcases hv2 with hv1 | hv2
    · simp_all
    · exact hv2
  · rfl

/-- An element that passes the checks and matches nothing. -/
theorem processContextElement_missing (h : checksPass env apiVersion flavour action ceP [] = true) :
    processContextElement env apiVersion flavour action ceP old [] =
      processMissingEntity env apiVersion action ceP old := by
  obtain ⟨hpre, hv2, hq⟩ := checks_of_checksPass h
  unfold processContextElement
  simp only [hpre, hv2, hq]

variable (old) in
/-- An element that passes the checks and matches some documents: they are updated, turn by turn. -/
theorem processContextElement_matched (h : checksPass env apiVersion flavour action ceP results = true)
    (hne : results ≠ []) :
    (processContextElement env apiVersion flavour action ceP old results).responses =
        ((entityTurns env apiVersion action ceP results).flatMap fun t =>
          (updateEntity env apiVersion action t.1 t.2).responses) ++
          alreadyExistsResponse ceP (updateEntities env apiVersion action ceP false "[ " results) ∧
      (processContextElement env apiVersion flavour action ceP old results).docs =
        (entityTurns env apiVersion action ceP results).map fun t =>
          (updateEntity env apiVersion action t.1 t.2).doc := by
  obtain ⟨hpre, hv2, hq⟩ := checks_of_checksPass h
  obtain ⟨r, results, rfl⟩ := List.exists_cons_of_ne_nil hne
  unfold processContextElement
  simp only [hpre, hv2, hq, updateEntities_responses, updateEntities_docs, and_self]

variable (env apiVersion action ceP old) in
/-- A request that matches nothing gets one response. -/
theorem processMissingEntity_responses :
    ∃ cer, (processMissingEntity env apiVersion action ceP old).responses = [cer] := by
  unfold processMissingEntity
  simp only
  split
  · exact ⟨_, rfl⟩
  · exact ⟨_, rfl⟩
  · exact ⟨_, rfl⟩
  · split
    · exact ⟨_, rfl⟩
    · split
      · exact ⟨_, rfl⟩
      · exact ⟨_, rfl⟩

end Turns

end OrionBroker
