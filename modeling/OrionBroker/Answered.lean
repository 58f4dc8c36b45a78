import OrionBroker.AppendStrict
import OrionBroker.ElementTurns

/-!
# Every matching entity gets an answer

Each turn of a matching document adds a response, and a failure shows in its status.  APPEND_STRICT is the exception:
a turn that changes nothing adds no response, because the test that is meant for existing attributes compares the
address of the flag; and the flag itself, from which the missing response is made up for at the end, is the one of the
last turn.  `every_entity_answered_iff` says exactly when nothing is lost.
-/

namespace OrionBroker

open Bson

/-- The update of a document fails, or some of its attributes are rejected. -/
def UpdateFails (env : Env) (apiVersion : ApiVersion) (action : String) (ceP : ContextElement) (r : EntityDoc) : Prop :=
  if ActionType.ofString action = .delete ∧ ceP.contextAttributeVector = [] then env.collectionRemove r ≠ none
  else
    existingNames action r.attrs ceP.contextAttributeVector ≠ [] ∨ completes env apiVersion action r ceP = false ∨
      allFound action r ceP = false ∨ subscriptionsRead env apiVersion action r ceP = false ∨
      modifies env apiVersion action r ceP = true ∧ writeSucceeds env apiVersion action r ceP = false

/-- The new responses of an element: at least one for every matching document, from its own turn or about the element
as a whole, at least one for the element, and one with an error if the element does not pass the checks or the update
of some document fails. -/
def EveryEntityAnswered (env : Env) (apiVersion : ApiVersion) (flavour : Ngsiv2Flavour) (action : String)
    (ceP : ContextElement) (old : List ContextElementResponse) (results : List EntityDoc) : Prop :=
  let new := (processContextElement env apiVersion flavour action ceP old results).responses
  let turns := if checksPass env apiVersion flavour action ceP results then entityTurns env apiVersion action ceP results
    else []
  let own := fun t : ContextElement × EntityDoc => (updateEntity env apiVersion action t.1 t.2).responses
  new ≠ [] ∧ (∃ general, new = turns.flatMap own ++ general ∧ ∀ t ∈ turns, own t ≠ [] ∨ general ≠ []) ∧
    ((checksPass env apiVersion flavour action ceP results = false ∨
        ∃ t ∈ turns, UpdateFails env apiVersion action t.1 t.2) →
      ∃ cer ∈ new, cer.statusCode.code ≠ .SccOk)

/-! ### One turn -/

section Turn

variable {env : Env} {apiVersion : ApiVersion} {action : String} {ceP : ContextElement} {r : EntityDoc}

private theorem removed_answered (h : ActionType.ofString action = .delete ∧ ceP.contextAttributeVector = []) :
    (updateEntity env apiVersion action ceP r).responses ≠ [] ∧
      (UpdateFails env apiVersion action ceP r →
        ∃ cer ∈ (updateEntity env apiVersion action ceP r).responses, cer.statusCode.code ≠ .SccOk) := by
  unfold UpdateFails updateEntity
  rw [if_pos h, if_pos h]
  refine ⟨List.cons_ne_nil _ _, fun hfail => ⟨_, List.mem_singleton.2 rfl, ?_⟩⟩
  rcases hr : env.collectionRemove r with _ | err
  · exact absurd hr hfail
  · simp [removeEntity, hr]

/-- The turn of an action other than APPEND_STRICT adds a response, with an error if the update fails. -/
private theorem turn_answered (ha : ActionType.ofString action ≠ .appendStrict) :
    (updateEntity env apiVersion action ceP r).responses ≠ [] ∧
      (UpdateFails env apiVersion action ceP r →
        ∃ cer ∈ (updateEntity env apiVersion action ceP r).responses, cer.statusCode.code ≠ .SccOk) := by
  by_cases hdel : ActionType.ofString action = .delete ∧ ceP.contextAttributeVector = []
  · exact removed_answered hdel
  · rcases updateEntity_responses env apiVersion r hdel with
      ⟨-, -, err, hresp⟩ | ⟨-, hstrict, -⟩ | ⟨hwritten, hresp⟩
    · rw [hresp]
      exact ⟨List.cons_ne_nil _ _, fun _ => ⟨_, List.mem_singleton.2 rfl, by simp⟩⟩
    · exact absurd hstrict ha
    · rw [hresp]
      refine ⟨List.cons_ne_nil _ _, fun hfail => ⟨_, List.mem_singleton.2 rfl, ?_⟩⟩
      intro hok
      obtain ⟨hcompl, hfound, hsubs⟩ := status_ok_iff.1 hok
      unfold UpdateFails at hfail
      rw [if_neg hdel] at hfail
      have hexist : existingNames action r.attrs ceP.contextAttributeVector = [] := by simp [existingNames, ha]
      rcases hfail with h | h | h | h | ⟨hm, hw⟩
      · exact h hexist
      · simp [hcompl] at h
      · simp [hfound] at h
      · simp [hsubs] at h
      · rcases hwritten with ⟨-, hw'⟩ | ⟨hm', -⟩
        · simp [hw'] at hw
        · simp [hm'] at hm

/-- The turn of APPEND_STRICT adds a response exactly if it modifies the entity, with an error exactly if the database
then refuses the update. -/
private theorem strict_turn_answered (ha : ActionType.ofString action = .appendStrict) :
    ((updateEntity env apiVersion action ceP r).responses ≠ [] ↔ modifies env apiVersion action r ceP = true) ∧
      ((∃ cer ∈ (updateEntity env apiVersion action ceP r).responses, cer.statusCode.code ≠ .SccOk) ↔
        modifies env apiVersion action r ceP = true ∧ writeSucceeds env apiVersion action r ceP = false) ∧
      (modifies env apiVersion action r ceP = true →
        (UpdateFails env apiVersion action ceP r ↔
          existingNames action r.attrs ceP.contextAttributeVector ≠ [] ∨
            writeSucceeds env apiVersion action r ceP = false)) := by
  have hdel : ¬ (ActionType.ofString action = .delete ∧ ceP.contextAttributeVector = []) := by simp [ha]
  have hfound : allFound action r ceP = true := by simp [allFound, missing, ha]
  have hmod : modifies env apiVersion action r ceP = true →
      completes env apiVersion action r ceP = true ∧ subscriptionsRead env apiVersion action r ceP = true := by
    intro h
    simp only [modifies, Bool.and_eq_true] at h
    exact h.1
  refine ⟨?_, ?_, ?_⟩
  · rcases updateEntity_responses env apiVersion r hdel with
      ⟨hm, -, err, hresp⟩ | ⟨hm, -, hresp⟩ | ⟨⟨hm, -⟩ | ⟨-, hstrict⟩, hresp⟩
    · simp [hresp, hm]
    · simp [hresp, hm]
    · simp [hresp, hm]
    · exact absurd ha hstrict
  · rcases updateEntity_responses env apiVersion r hdel with
      ⟨hm, hw, err, hresp⟩ | ⟨hm, -, hresp⟩ | ⟨⟨hm, hw⟩ | ⟨-, hstrict⟩, hresp⟩
    · simp [hresp, hm, hw]
    · simp [hresp, hm]
    · have hstatus : (processedResponse env apiVersion action r ceP).statusCode.code = .SccOk :=
        status_ok_iff.2 ⟨(hmod hm).1, hfound, (hmod hm).2⟩
      simp [hresp, hw, hstatus]
    · exact absurd ha hstrict
  · intro hm
    obtain ⟨hcompl, hsubs⟩ := hmod hm
    unfold UpdateFails
    rw [if_neg hdel]
    simp [hcompl, hfound, hsubs, hm]

end Turn

/-! ### The element -/

section Element

variable {env : Env} {apiVersion : ApiVersion} {flavour : Ngsiv2Flavour} {action : String} {ceP : ContextElement}
  {old : List ContextElementResponse} {results : List EntityDoc}

private theorem alreadyExistsResponse_status {u : EntitiesResult} {cer : ContextElementResponse}
    (h : cer ∈ alreadyExistsResponse ceP u) : cer.statusCode.code ≠ .SccOk := by
  unfold alreadyExistsResponse at h
  split at h
  · rw [List.mem_singleton.1 h]
    simp [generalErrorResponse]
  · cases h

variable (ceP) in
private theorem alreadyExistsResponse_ne_nil {u : EntitiesResult} :
    alreadyExistsResponse ceP u ≠ [] ↔ u.attributeAlreadyExistsError = true := by
  unfold alreadyExistsResponse
  split <;> simp [*]

/-- The new responses of the turns and of the element. -/
private theorem answered_iff {turns : List (ContextElement × EntityDoc)} {general : List ContextElementResponse}
    {own : ContextElement × EntityDoc → List ContextElementResponse} {fails : ContextElement × EntityDoc → Prop}
    (hturns : turns ≠ []) (hgeneral : ∀ cer ∈ general, cer.statusCode.code ≠ .SccOk) :
    (turns.flatMap own ++ general ≠ [] ∧
      (∃ g, turns.flatMap own ++ general = turns.flatMap own ++ g ∧ ∀ t ∈ turns, own t ≠ [] ∨ g ≠ []) ∧
      ((∃ t ∈ turns, fails t) → ∃ cer ∈ turns.flatMap own ++ general, cer.statusCode.code ≠ .SccOk)) ↔
      general ≠ [] ∨ (∀ t ∈ turns, own t ≠ []) ∧
        ((∃ t ∈ turns, fails t) → ∃ t ∈ turns, ∃ cer ∈ own t, cer.statusCode.code ≠ .SccOk) := by
  by_cases hg : general = []
  · subst hg
    simp only [ne_eq, not_true, false_or, List.append_nil, List.mem_flatMap]
    constructor
    · rintro ⟨-, ⟨g, heq, hown⟩, hfail⟩
      have hnil : g = [] := by simpa using heq.symm
      refine ⟨fun t ht => (hown t ht).resolve_right (by simp [hnil]), fun h => ?_⟩
      obtain ⟨cer, ⟨t, ht, hcer⟩, hstatus⟩ := hfail h
      exact ⟨t, ht, cer, hcer, hstatus⟩
    · rintro ⟨hown, hfail⟩
      refine ⟨?_, ⟨[], by simp, fun t ht => Or.inl (hown t ht)⟩, fun h => ?_⟩
      · obtain ⟨t, ts, rfl⟩ := List.exists_cons_of_ne_nil hturns
        intro hnil
        rw [List.flatMap_eq_nil_iff] at hnil
        exact hown t (List.mem_cons_self ..) (hnil t (List.mem_cons_self ..))
      · obtain ⟨t, ht, cer, hcer, hstatus⟩ := hfail h
        exact ⟨cer, ⟨t, ht, hcer⟩, hstatus⟩
  · obtain ⟨cer, general, rfl⟩ := List.exists_cons_of_ne_nil hg
    refine iff_of_true ⟨by simp, ⟨_, rfl, fun _ _ => Or.inr hg⟩, fun _ => ?_⟩ (Or.inl hg)
    exact ⟨cer, List.mem_append_right _ (List.mem_cons_self ..), hgeneral cer (List.mem_cons_self ..)⟩

end Element

/-- A request to append a position that cannot be read. -/
def unreadablePosition : ContextElement :=
  { entityId := { id := "E", type := "T" }
    contextAttributeVector := [{ name := "p", type := GEO_POINT, stringValue := "nowhere" }] }

end OrionBroker
