import Mathlib.Algebra.Order.BigOperators.Group.Multiset
import Mathlib.Algebra.Order.Group.Nat
import Mathlib.Data.Multiset.Bind
import Mathlib.Data.Multiset.Count
import OrionBroker.StepRun

/-!
# Threads with a state of their own

Any number of threads take turns in any order.  Each thread has a state of its own and works on a state that all share
(`turn`); two threads can also take a step together, as when one wakes the other (`meet`).

What is shared does not depend on the order in which the threads are listed.  So an invariant is stated for the shared
state and the multiset of the threads, and it is enough to look at the thread that takes its turn and at the others as a
rest (`invariant_of_run`).
-/

namespace Interleaving

variable {S L C : Type*}

/-- The shared state and the threads. -/
structure State (S L : Type*) where
  shared : S
  threads : List L
  deriving DecidableEq

/-- The thread at some place takes its turn, with a choice where it has several; or two threads take a step together. -/
inductive Move (C : Type*)
  | turn (i : Nat) (choice : C)
  | meet (i j : Nat)

variable (turn : C → L → S → Option (L × S)) (meet : L → L → S → Option ((L × L) × S))

/-- One move. -/
def step : Move C → State S L → Option (State S L)
  | .turn i choice, st =>
    st.threads[i]?.bind fun l =>
      (turn choice l st.shared).map fun (l', s) => { shared := s, threads := st.threads.set i l' }
  | .meet i j, st =>
    if i = j then
      none
    else
      st.threads[i]?.bind fun l => st.threads[j]?.bind fun k =>
        (meet l k st.shared).map fun ((l', k'), s) => { shared := s, threads := (st.threads.set i l').set j k' }

/-- Threads that never take a step together. -/
def alone : L → L → S → Option ((L × L) × S) := fun _ _ _ => none

/-- Whoever takes a turn meets a condition on its choice, on its own state and on the shared state before. -/
def Meets (cond : C → L → S → Prop) : Move C → State S L → Prop
  | .turn i choice, st => ∀ l, st.threads[i]? = some l → cond choice l st.shared
  | .meet _ _, _ => True

instance {cond : C → L → S → Prop} [∀ choice l s, Decidable (cond choice l s)] :
    ∀ (m : Move C) (st : State S L), Decidable (Meets cond m st)
  | .turn i choice, st =>
    decidable_of_iff (∀ l ∈ st.threads[i]?, cond choice l st.shared) Iff.rfl
  | .meet _ _, _ => .isTrue trivial

/-- The thread cannot take a turn. -/
def Blocked (s : S) (l : L) : Prop := ∀ choice, turn choice l s = none

/-! ### One among many -/

/-- A member of a list and the rest, and the list with the member replaced. -/
theorem coe_set {l : List L} {i : Nat} {a : L} (h : l[i]? = some a) :
    ∃ rest : Multiset L, (l : Multiset L) = a ::ₘ rest ∧ ∀ b, (l.set i b : Multiset L) = b ::ₘ rest := by
  induction l generalizing i with
  | nil => simp at h
  | cons x l ih =>
    cases i with
    | zero =>
      cases h
      exact ⟨l, rfl, fun b => rfl⟩
    | succ i =>
      obtain ⟨rest, hl, hset⟩ := ih h
      refine ⟨x ::ₘ rest, ?_, fun b => ?_⟩
      · rw [← Multiset.cons_coe, hl, Multiset.cons_swap]
      · rw [List.set_cons_succ, ← Multiset.cons_coe, hset b, Multiset.cons_swap]

/-- Two members of a list and the rest, and the list with both replaced. -/
theorem coe_set_set {l : List L} {i j : Nat} {a b : L} (hij : i ≠ j) (ha : l[i]? = some a) (hb : l[j]? = some b) :
    ∃ rest : Multiset L, (l : Multiset L) = a ::ₘ b ::ₘ rest ∧
      ∀ a' b', ((l.set i a').set j b' : Multiset L) = a' ::ₘ b' ::ₘ rest := by
  induction l generalizing i j with
  | nil => simp at ha
  | cons x l ih =>
    cases i with
    | zero =>
      cases ha
      cases j with
      | zero => exact absurd rfl hij
      | succ j =>
        obtain ⟨rest, hl, hset⟩ := coe_set (l := l) hb
        refine ⟨rest, ?_, fun a' b' => ?_⟩
        · rw [← Multiset.cons_coe, hl]
        · rw [List.set_cons_zero, List.set_cons_succ, ← Multiset.cons_coe, hset b']
    | succ i =>
      cases j with
      | zero =>
        cases hb
        obtain ⟨rest, hl, hset⟩ := coe_set (l := l) ha
        refine ⟨rest, ?_, fun a' b' => ?_⟩
        · rw [← Multiset.cons_coe, hl, Multiset.cons_swap]
        · rw [List.set_cons_succ, List.set_cons_zero, ← Multiset.cons_coe, hset a', Multiset.cons_swap]
      | succ j =>
        obtain ⟨rest, hl, hset⟩ := ih (fun h => hij (congrArg Nat.succ h)) ha hb
        refine ⟨x ::ₘ rest, ?_, fun a' b' => ?_⟩
        · rw [← Multiset.cons_coe, hl, Multiset.cons_swap x a, Multiset.cons_swap x b]
        · rw [List.set_cons_succ, List.set_cons_succ, ← Multiset.cons_coe, hset a' b', Multiset.cons_swap x a',
            Multiset.cons_swap x b']

/-- When one thread holds all that is held, no other thread holds any of it. -/
theorem rest_holds_nothing {holds : L → ℕ} {l : L} {rest : Multiset L}
    (h : ((l ::ₘ rest).map holds).sum ≤ holds l) : ∀ k ∈ rest, holds k = 0 := by
  intro k hk
  rw [Multiset.map_cons, Multiset.sum_cons] at h
  have hle : holds k ≤ (rest.map holds).sum := Multiset.le_sum_of_mem (Multiset.mem_map_of_mem holds hk)
  omega

variable {turn meet} {cond : C → L → S → Prop} {I : S → Multiset L → Prop}

theorem invariant_of_step
    (hturn : ∀ {choice l l' s s' rest}, cond choice l s → I s (l ::ₘ rest) → turn choice l s = some (l', s') →
      I s' (l' ::ₘ rest))
    (hmeet : ∀ {l l' k k' s s' rest}, I s (l ::ₘ k ::ₘ rest) → meet l k s = some ((l', k'), s') →
      I s' (l' ::ₘ k' ::ₘ rest))
    {m : Move C} {st st' : State S L} (hm : Meets cond m st) (hI : I st.shared st.threads)
    (h : step turn meet m st = some st') : I st'.shared st'.threads := by
  cases m with
  | turn i choice =>
    obtain ⟨l, hl, h⟩ := Option.bind_eq_some_iff.1 h
    obtain ⟨⟨l', s⟩, hs, rfl⟩ := Option.map_eq_some_iff.1 h
    obtain ⟨rest, hthreads, hset⟩ := coe_set hl
    rw [hthreads] at hI
    have hI' := hturn (hm l hl) hI hs
    rwa [← hset l'] at hI'
  | meet i j =>
    rw [step] at h
    split at h
    · cases h
    · rename_i hij
      obtain ⟨l, hl, h⟩ := Option.bind_eq_some_iff.1 h
      obtain ⟨k, hk, h⟩ := Option.bind_eq_some_iff.1 h
      obtain ⟨⟨⟨l', k'⟩, s⟩, hs, rfl⟩ := Option.map_eq_some_iff.1 h
      obtain ⟨rest, hthreads, hset⟩ := coe_set_set hij hl hk
      rw [hthreads] at hI
      have hI' := hmeet hI hs
      rwa [← hset l' k'] at hI'

/-- What the turn of any thread among any others preserves holds in every state that is reached, also when all turns of
the run meet a condition. -/
theorem invariant_of_run
    (hturn : ∀ {choice l l' s s' rest}, cond choice l s → I s (l ::ₘ rest) → turn choice l s = some (l', s') →
      I s' (l' ::ₘ rest))
    (hmeet : ∀ {l l' k k' s s' rest}, I s (l ::ₘ k ::ₘ rest) → meet l k s = some ((l', k'), s') →
      I s' (l' ::ₘ k' ::ₘ rest))
    {moves : List (Move C)} {st st' : State S L} (hmeets : StepRun.Along (step turn meet) (Meets cond) moves st)
    (hI : I st.shared st.threads) (h : StepRun.run (step turn meet) moves st = some st') :
    I st'.shared st'.threads :=
  StepRun.invariant_of_run (I := fun st => I st.shared st.threads)
    (fun _ _ _ hm hI hs => invariant_of_step hturn hmeet hm hI hs) hmeets hI h

/-- Any run meets the condition that always holds. -/
theorem meets_true {moves : List (Move C)} {st : State S L} :
    StepRun.Along (step turn meet) (Meets fun _ _ _ => True) moves st := by
  induction moves generalizing st with
  | nil => trivial
  | cons m moves ih =>
    refine ⟨?_, fun st' _ => ih⟩
    cases m with
    | turn i choice => exact fun _ _ => trivial
    | meet i j => trivial

theorem not_meet_alone {l k : L} {s : S} {r : (L × L) × S} : alone l k s ≠ some r := nofun

end Interleaving
