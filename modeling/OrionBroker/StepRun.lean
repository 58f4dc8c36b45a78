import Mathlib.Logic.Basic

/-!
# Runs of a machine

A machine is given by a partial function for its steps: an action and a state lead to a new state, or the machine stops.
An invariant of all states that are reached is proved step by step (`invariant_of_run`), also for runs whose steps all
meet a condition on the action and on the state before the step; so is the simulation of one machine by another
(`simulates_of_run`).
-/

namespace StepRun

variable {σ α : Type*} (step : α → σ → Option σ)

/-- The state after a sequence of actions. -/
def run : List α → σ → Option σ
  | [], s => some s
  | a :: actions, s => (step a s).bind (run actions)

/-- Every step of the run meets a condition. -/
def Along (P : α → σ → Prop) : List α → σ → Prop
  | [], _ => True
  | a :: actions, s => P a s ∧ ∀ s', step a s = some s' → Along P actions s'

variable {step}

/-- Whether the steps of a run meet a condition is decided by doing them. -/
instance decidableAlong {P : α → σ → Prop} [∀ a s, Decidable (P a s)] :
    ∀ (actions : List α) (s : σ), Decidable (Along step P actions s)
  | [], _ => .isTrue trivial
  | a :: actions, s =>
    match hs : step a s with
    | none => decidable_of_iff (P a s) ⟨fun h => ⟨h, fun _ hs' => nomatch hs.symm.trans hs'⟩, fun h => h.1⟩
    | some s' =>
      have := decidableAlong (P := P) actions s'
      decidable_of_iff (P a s ∧ Along step P actions s')
        ⟨fun h => ⟨h.1, fun _ hs'' => Option.some.inj (hs.symm.trans hs'') ▸ h.2⟩, fun h => ⟨h.1, h.2 s' hs⟩⟩

theorem run_append (before after : List α) (s : σ) :
    run step (before ++ after) s = (run step before s).bind (run step after) := by
  induction before generalizing s with
  | nil => rfl
  | cons a before ih =>
    rw [List.cons_append, run, run, Option.bind_assoc]
    congr 1
    funext s'
    exact ih s'

theorem invariant_of_run {P : α → σ → Prop} {I : σ → Prop}
    (hstep : ∀ a s s', P a s → I s → step a s = some s' → I s') {actions : List α} {s s' : σ}
    (hP : Along step P actions s) (hI : I s) (h : run step actions s = some s') : I s' := by
  induction actions generalizing s with
  | nil =>
    cases h
    exact hI
  | cons a actions ih =>
    obtain ⟨t, ht, hrun⟩ := Option.bind_eq_some_iff.1 h
    exact ih (hP.2 t ht) (hstep a s t hP.1 hI ht) hrun

theorem along_and {P Q : α → σ → Prop} {actions : List α} {s : σ} (hP : Along step P actions s)
    (hQ : Along step Q actions s) : Along step (fun a s => P a s ∧ Q a s) actions s := by
  induction actions generalizing s with
  | nil => trivial
  | cons a actions ih => exact ⟨⟨hP.1, hQ.1⟩, fun s' hs' => ih (hP.2 s' hs') (hQ.2 s' hs')⟩

/-- A machine that never stops is run to its end. -/
theorem run_total (f : α → σ → σ) (actions : List α) (s : σ) :
    run (fun a s => some (f a s)) actions s = some (actions.foldl (fun s a => f a s) s) := by
  induction actions generalizing s with
  | nil => rfl
  | cons a actions ih => exact ih (f a s)

/-- A condition that follows step by step from another one. -/
theorem along_mono {P Q : α → σ → Prop} {I : List α → σ → Prop} {actions : List α} {s : σ}
    (hQ : ∀ a rest s, I (a :: rest) s → P a s → Q a s)
    (hI : ∀ a rest s s', I (a :: rest) s → P a s → step a s = some s' → I rest s') (hs : I actions s)
    (hP : Along step P actions s) : Along step Q actions s := by
  induction actions generalizing s with
  | nil => trivial
  | cons a actions ih => exact ⟨hQ a actions s hs hP.1, fun s' hs' => ih (hI a actions s s' hs hP.1 hs') (hP.2 s' hs')⟩

/-- A machine simulates another one if each of its steps does, under a condition on the steps of the other machine. -/
theorem simulates_of_run {τ : Type*} {spec : α → τ → Option τ} {R : σ → τ → Prop} {P : α → τ → Prop}
    (hstep : ∀ a s t t', P a t → R s t → spec a t = some t' → ∃ s', step a s = some s' ∧ R s' t') {actions : List α}
    {s : σ} {t t' : τ} (hP : Along spec P actions t) (hR : R s t) (h : run spec actions t = some t') :
    ∃ s', run step actions s = some s' ∧ R s' t' := by
  induction actions generalizing s t with
  | nil =>
    cases h
    exact ⟨s, rfl, hR⟩
  | cons a actions ih =>
    obtain ⟨u, hu, hrun⟩ := Option.bind_eq_some_iff.1 h
    obtain ⟨s', hs', hR'⟩ := hstep a s t u hP.1 hR hu
    obtain ⟨s'', hs'', hR''⟩ := ih (hP.2 u hu) hR' hrun
    exact ⟨s'', Option.bind_eq_some_iff.2 ⟨s', hs', hs''⟩, hR''⟩

end StepRun
