import Mathlib.Data.Sum.Basic

/-!
# Loops

A turn of a loop either goes on in a new state or leaves the loop with a result.  `run` gives a loop a number of turns;
a loop returns a result if some number of turns leads to it (`Returns`), and then every larger number does
(`run_of_le`).  A turn that leaves the state as it is goes on for ever (`not_returns_of_stuck`).
-/

namespace WhileLoop

variable {σ ρ : Type*} {turn : σ → σ ⊕ ρ}

/-- The result, if the loop is left within the given number of turns. -/
def run (turn : σ → σ ⊕ ρ) : Nat → σ → Option ρ
  | 0, _ => none
  | turns + 1, s =>
    match turn s with
    | .inl s' => run turn turns s'
    | .inr r => some r

/-- The loop is left with this result. -/
def Returns (turn : σ → σ ⊕ ρ) (s : σ) (r : ρ) : Prop := ∃ turns, run turn turns s = some r

theorem run_of_leaves {s : σ} {r : ρ} (h : turn s = .inr r) (turns : Nat) : run turn (turns + 1) s = some r := by
  unfold run
  rw [h]

theorem run_of_goesOn {s s' : σ} (h : turn s = .inl s') (turns : Nat) :
    run turn (turns + 1) s = run turn turns s' := by
  conv => lhs; unfold run
  rw [h]

/-- More turns do not change a result. -/
theorem run_of_le {turns turns' : Nat} (hle : turns ≤ turns') {s : σ} {r : ρ} (h : run turn turns s = some r) :
    run turn turns' s = some r := by
  induction turns generalizing turns' s with
  | zero => cases h
  | succ turns ih =>
    obtain ⟨more, rfl⟩ : ∃ more, turns' = more + 1 := ⟨turns' - 1, by omega⟩
    cases hs : turn s with
    | inl s' =>
      rw [run_of_goesOn hs] at h ⊢
      exact ih (by omega) h
    | inr r' =>
      rw [run_of_leaves hs] at h ⊢
      exact h

theorem Returns.unique {s : σ} {r r' : ρ} (h : Returns turn s r) (h' : Returns turn s r') : r = r' := by
  obtain ⟨turns, h⟩ := h
  obtain ⟨turns', h'⟩ := h'
  have hmax := run_of_le (Nat.le_max_left turns turns') h
  rw [run_of_le (Nat.le_max_right turns turns') h'] at hmax
  exact (Option.some.inj hmax).symm

theorem returns_of_leaves {s : σ} {r : ρ} (h : turn s = .inr r) : Returns turn s r := ⟨1, run_of_leaves h 0⟩

theorem returns_iff_of_goesOn {s s' : σ} (h : turn s = .inl s') {r : ρ} : Returns turn s r ↔ Returns turn s' r := by
  constructor
  · rintro ⟨turns, hr⟩
    cases turns with
    | zero => cases hr
    | succ turns => exact ⟨turns, by rwa [run_of_goesOn h] at hr⟩
  · rintro ⟨turns, hr⟩
    exact ⟨turns + 1, by rwa [run_of_goesOn h]⟩

/-- A turn that changes nothing is repeated for ever. -/
theorem not_returns_of_stuck {s : σ} (h : turn s = .inl s) (r : ρ) : ¬ Returns turn s r := by
  rintro ⟨turns, hr⟩
  induction turns with
  | zero => cases hr
  | succ turns ih =>
    rw [run_of_goesOn h] at hr
    exact ih hr

end WhileLoop
