import OrionBroker.WrittenUpdate

/-!
# Sequences of entity operations

The entities collection as a list of documents, changed by one operation after the other: the creation of an entity,
or the update of one of the stored documents (which may also remove it).  Every operation comes with its own request
and surrounding.  `StepConditions` are the conditions on a request, and on the document it is applied to, under which
an invariant is claimed; `run_invariant` reduces the invariant over all runs to the two operations.
-/

namespace OrionBroker

/-- The conditions that the operations of a run meet. -/
structure StepConditions where
  create : Env → ApiVersion → List ContextAttribute → Prop
  update : Env → ApiVersion → String → ContextElement → EntityDoc → Prop

/-- One operation on the stored documents. -/
inductive EntityStep (conditions : StepConditions) : List EntityDoc → List EntityDoc → Prop
  | create {env : Env} {apiVersion : ApiVersion} {eP : EntityId} {caV : List ContextAttribute} {d : EntityDoc}
      {store : List EntityDoc} (hcond : conditions.create env apiVersion caV)
      (h : createEntity env eP caV apiVersion = .ok d) : EntityStep conditions store (store ++ [d])
  | update {env : Env} {apiVersion : ApiVersion} {action : String} {ceP : ContextElement} {r : EntityDoc}
      {pre post : List EntityDoc} (hcond : conditions.update env apiVersion action ceP r) :
      EntityStep conditions (pre ++ r :: post)
        (pre ++ (updateEntity env apiVersion action ceP r).doc.toList ++ post)

/-- The stores that are reached from the empty one. -/
def Reachable (conditions : StepConditions) (store : List EntityDoc) : Prop :=
  Relation.ReflTransGen (EntityStep conditions) [] store

/-- A property that the creation establishes and every update of a document keeps holds of all stored documents. -/
theorem run_invariant {conditions : StepConditions} {Inv : EntityDoc → Prop}
    (hcreate : ∀ env apiVersion eP caV d, conditions.create env apiVersion caV →
      createEntity env eP caV apiVersion = .ok d → Inv d)
    (hupdate : ∀ env apiVersion action ceP r d, Inv r → conditions.update env apiVersion action ceP r →
      (updateEntity env apiVersion action ceP r).doc = some d → Inv d)
    {store : List EntityDoc} (h : Reachable conditions store) : ∀ d ∈ store, Inv d := by
  induction h with
  | refl =>
    intro d hd
    cases hd
  | tail hrun hstep ih =>
    intro d hd
    cases hstep with
    | create hcond hc =>
      rcases List.mem_append.1 hd with hd | hd
      · exact ih d hd
      · rw [List.mem_singleton.1 hd]
        exact hcreate _ _ _ _ _ hcond hc
    | update hcond =>
      rcases List.mem_append.1 hd with hd | hd
      · rcases List.mem_append.1 hd with hd | hd
        · exact ih d (List.mem_append_left _ hd)
        · exact hupdate _ _ _ _ _ d (ih _ (by simp)) hcond (Option.mem_toList.1 hd)
      · exact ih d (List.mem_append_right _ (List.mem_cons_of_mem _ hd))

end OrionBroker
