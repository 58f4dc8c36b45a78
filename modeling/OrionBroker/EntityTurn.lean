import OrionBroker.WrittenUpdate

/-!
# The outcome of an update

What `updateEntity` answers, said in terms of the request and the document alone: whether all attributes are accepted,
which of them change, whether the entity is written and with which status.  `updateEntity_responses` gives the
responses by these predicates; the results about responses are derived from it.
-/

namespace OrionBroker

open Bson

section Outcome

variable (env : Env) (apiVersion : ApiVersion) (action : String) (r : EntityDoc) (ceP : ContextElement)

/-- No attribute is rejected. -/
def completes : Bool :=
  (processed action r ceP).all (accepts r.attrs (ActionType.ofString action)) &&
    (locationRun env.strtod r.attrs apiVersion (ActionType.ofString action)
      ((r.location.map Location.attrName).getD "") (processed action r ceP)).isOk

/-- The names of the attributes that change. -/
def changedNames : List String :=
  ((processed action r ceP).filter fun ca =>
    (attributeUpdate env.getCurrentTime r.attrs apiVersion (ActionType.ofString action) ca).actualUpdate).map
      ContextAttribute.name

/-- The subscriptions to the attributes that change can be read. -/
def subscriptionsRead : Bool := (env.addTriggeredSubscriptions r.id r.type (changedNames env apiVersion action r ceP)).isNone

/-- No attribute that has to be there is missing. -/
def allFound : Bool := (processed action r ceP).all fun ca => !missing r.attrs (ActionType.ofString action) ca

/-- The entity is written: the attributes are accepted, the subscriptions are read and something changes. -/
def modifies : Bool :=
  completes env apiVersion action r ceP && subscriptionsRead env apiVersion action r ceP &&
    changedNames env apiVersion action r ceP ≠ []

/-- The database accepts the update of the document. -/
def writeSucceeds : Bool :=
  (collectionUpdate env r (updatedEntity env.getCurrentTime action r
    (processAttributes env apiVersion action r ceP.contextAttributeVector))).isOk

end Outcome

section Spec

variable {env : Env} {apiVersion : ApiVersion} {action : String} {r : EntityDoc} {ceP : ContextElement}

theorem completes_iff :
    completes env apiVersion action r ceP = true ↔
      (attributeLoop env (responseEntity r) r.attrs apiVersion action (initialProcessing r)
        (requestAttributes action r ceP.contextAttributeVector)).ok = true := by
  rw [attributeLoop_ok_iff, completes, Bool.and_eq_true, List.all_eq_true]
  refine and_congr_right fun _ => ?_
  change _ ↔ ∃ l, locationRun env.strtod r.attrs apiVersion (ActionType.ofString action)
    ((r.location.map Location.attrName).getD "") (processed action r ceP) = .ok l
  rcases locationRun env.strtod r.attrs apiVersion (ActionType.ofString action)
    ((r.location.map Location.attrName).getD "") (processed action r ceP) with e | l <;>
    simp [Except.isOk, Except.toBool]

theorem changedNames_eq (h : completes env apiVersion action r ceP = true) :
    (attributeLoop env (responseEntity r) r.attrs apiVersion action (initialProcessing r)
      (requestAttributes action r ceP.contextAttributeVector)).processing.modifiedAttrs =
      changedNames env apiVersion action r ceP :=
  attributeLoop_modifiedAttrs (completes_iff.1 h)

theorem modifies_iff :
    modifies env apiVersion action r ceP = true ↔
      (processAttributes env apiVersion action r ceP.contextAttributeVector).modified = true := by
  rw [processAttributes_modified_iff, ← completes_iff, modifies, Bool.and_eq_true, Bool.and_eq_true, and_assoc]
  refine and_congr_right fun h => ?_
  rw [changedNames_eq h, subscriptionsRead, Option.isNone_iff_eq_none]
  refine and_congr_right fun _ => ?_
  simp [changedNames, List.filter_eq_nil_iff]

/-- The status of the processing is OK exactly if no attribute was rejected or missing and the subscriptions were
read. -/
theorem status_ok_iff :
    (processAttributes env apiVersion action r ceP.contextAttributeVector).processing.statusCode.code = .SccOk ↔
      completes env apiVersion action r ceP = true ∧ allFound action r ceP = true ∧
        subscriptionsRead env apiVersion action r ceP = true := by
  rw [processAttributes_status_iff, ← completes_iff]
  refine and_congr_right fun h => ?_
  rw [changedNames_eq h, subscriptionsRead, Option.isNone_iff_eq_none, allFound, List.all_eq_true]
  simp

/-- The response about a document whose attributes were processed. -/
def processedResponse (env : Env) (apiVersion : ApiVersion) (action : String) (r : EntityDoc) (ceP : ContextElement) :
    ContextElementResponse :=
  searchContextProviders env ceP.entityId
    (processAttributes env apiVersion action r ceP.contextAttributeVector).attributes
    (processedCer r (processAttributes env apiVersion action r ceP.contextAttributeVector).processing)

variable (env apiVersion r) in
/-- The responses of `updateEntity`: an error of the database if the entity was to be written and could not be, none
at all if APPEND_STRICT changes nothing, and the response of the processing otherwise. -/
theorem updateEntity_responses
    (h : ¬ (ActionType.ofString action = .delete ∧ ceP.contextAttributeVector = [])) :
    (modifies env apiVersion action r ceP = true ∧ writeSucceeds env apiVersion action r ceP = false ∧
      ∃ err, (updateEntity env apiVersion action ceP r).responses =
        [{ processedCer r (processAttributes env apiVersion action r ceP.contextAttributeVector).processing with
          statusCode := ⟨.SccReceiverInternalError, err⟩ }]) ∨
    (modifies env apiVersion action r ceP = false ∧ ActionType.ofString action = .appendStrict ∧
      (updateEntity env apiVersion action ceP r).responses = []) ∨
    ((modifies env apiVersion action r ceP = true ∧ writeSucceeds env apiVersion action r ceP = true ∨
        modifies env apiVersion action r ceP = false ∧ ActionType.ofString action ≠ .appendStrict) ∧
      (updateEntity env apiVersion action ceP r).responses = [processedResponse env apiVersion action r ceP]) := by
  unfold updateEntity
  rw [if_neg h]
  simp only
  rcases hm : modifies env apiVersion action r ceP with _ | _
  · have hmod : ¬ (processAttributes env apiVersion action r ceP.contextAttributeVector).modified = true := by
      rw [← modifies_iff, hm]
      exact Bool.false_ne_true
    rw [if_neg hmod]
    right
    by_cases ha : ActionType.ofString action = .appendStrict
    · exact Or.inl ⟨rfl, ha, by rw [if_pos ha]⟩
    · exact Or.inr ⟨Or.inr ⟨rfl, ha⟩, by rw [if_neg ha]; rfl⟩
  · rw [if_pos (modifies_iff.1 hm), writeSucceeds]
    rcases collectionUpdate env r _ with err | d
    · exact Or.inl ⟨rfl, rfl, err, rfl⟩
    · exact Or.inr (Or.inr ⟨Or.inl ⟨rfl, rfl⟩, rfl⟩)

/-- The document is written exactly if the entity is modified and the database accepts the update. -/
theorem updateEntity_notified_iff
    (h : ¬ (ActionType.ofString action = .delete ∧ ceP.contextAttributeVector = [])) :
    (updateEntity env apiVersion action ceP r).notified.isSome = true ↔
      modifies env apiVersion action r ceP = true ∧ writeSucceeds env apiVersion action r ceP = true := by
  unfold updateEntity
  rw [if_neg h, modifies_iff, writeSucceeds]
  simp only
  split
  · rename_i hm
    rcases collectionUpdate env r _ with err | d <;> simp [hm, Except.isOk, Except.toBool]
  · rename_i hm
    split <;> simp [hm]

/-- The document when nothing is written. -/
theorem updateEntity_doc_unmodified
    (h : ¬ (ActionType.ofString action = .delete ∧ ceP.contextAttributeVector = []))
    (hm : modifies env apiVersion action r ceP = false) : (updateEntity env apiVersion action ceP r).doc = some r := by
  have hmod : ¬ (processAttributes env apiVersion action r ceP.contextAttributeVector).modified = true := by
    rw [← modifies_iff, hm]
    exact Bool.false_ne_true
  unfold updateEntity
  rw [if_neg h]
  simp only [hmod, if_false, Bool.false_eq_true]
  split <;> rfl

/-- The document when the update is written. -/
theorem updateEntity_doc_written
    (h : ¬ (ActionType.ofString action = .delete ∧ ceP.contextAttributeVector = []))
    (hm : modifies env apiVersion action r ceP = true) (hw : writeSucceeds env apiVersion action r ceP = true) :
    ∃ d, (updateEntity env apiVersion action ceP r).doc = some d ∧
      applyUpdate r (updatedEntity env.getCurrentTime action r
        (processAttributes env apiVersion action r ceP.contextAttributeVector)) = some d := by
  have hsome := (updateEntity_notified_iff h).2 ⟨hm, hw⟩
  rcases updateEntity_cases env apiVersion action ceP r with ⟨hn, -⟩ | ⟨d, hd, -, -, -, happ⟩
  · rw [hn] at hsome
    cases hsome
  · exact ⟨d, hd, happ⟩

end Spec

end OrionBroker
