import Mathlib.Data.Fintype.EquivFin
import Mathlib.Data.Fintype.Lattice
import Mathlib.Data.List.Forall2
import OrionBroker.StepRun

/-!
# Threads over a shared state

A thread runs a program (`Prog`): it does one action of the shared state after the other and goes on with the answer of
each.  Any number of threads is started, and their turns are interleaved in any order (`step`).

A discipline says what a thread may do as long as it has something in hand, and what it has in hand afterwards; a
program that keeps the discipline is checked on its own (`Keeps`), by a rule for each construct.  If the shared state
accounts for what the threads have in hand (`Sound`), it does so in every state of every run of programs that keep the
discipline (`kept_of_run`).  Where locks are taken in the order of their ranks, not all threads are blocked
(`exists_unblocked`).
-/

namespace Threads

variable {A : Type} {Ans : A → Type}

/-- A program: it has ended with a value, or does an action and goes on with the answer. -/
inductive Prog (Ans : A → Type) (α : Type) : Type
  | ret (value : α)
  | act (a : A) (next : Ans a → Prog Ans α)

namespace Prog

variable {α β : Type}

/-- One program after the other. -/
def bind : Prog Ans α → (α → Prog Ans β) → Prog Ans β
  | .ret value, k => k value
  | .act a next, k => .act a fun r => (next r).bind k

instance : Monad (Prog Ans) where
  pure := .ret
  bind := bind

/-- A single action. -/
def call (a : A) : Prog Ans (Ans a) := .act a .ret

/-- A program that is left out unless the condition holds. -/
def onlyIf (c : Bool) (p : Prog Ans Unit) : Prog Ans Unit := if c then p else pure ()

/-- The same program a number of times. -/
def times (body : Prog Ans Unit) : Nat → Prog Ans Unit
  | 0 => pure ()
  | n + 1 => do
    body
    body.times n

/-- A program is repeated, at most a number of times, until it gives a result. -/
def timesUntil (body : Prog Ans (Option α)) : Nat → Prog Ans (Option α)
  | 0 => pure none
  | n + 1 => do
    match ← body with
    | some result => pure (some result)
    | none => body.timesUntil n

/-- The program has ended. -/
def Ended : Prog Ans α → Prop
  | .ret _ => True
  | .act _ _ => False

end Prog

/-! ### Disciplines -/

/-- What a thread may do with something in hand, the answers it counts on, and what it has in hand afterwards. -/
structure Discipline (Ans : A → Type) (H : Type) where
  idle : H
  may : H → A → Prop
  expects : H → (a : A) → Ans a → Prop
  after : H → (a : A) → Ans a → H

section Keeps

variable {H : Type} (D : Discipline Ans H) {α β : Type}

/-- Whoever runs the program with `h` in hand keeps the discipline, and ends with a value and a hand as in `Q`. -/
def Keeps : Prog Ans α → (α → H → Prop) → H → Prop
  | .ret value, Q, h => Q value h
  | .act a next, Q, h => D.may h a ∧ ∀ r, D.expects h a r → Keeps (next r) Q (D.after h a r)

/-- With any hand as in `P`, the program keeps the discipline and ends with the same in hand. -/
def Restores (P : H → Prop) (p : Prog Ans α) : Prop := ∀ h, P h → Keeps D p (fun _ h' => h' = h) h

variable {D} {p : Prog Ans α} {k : α → Prog Ans β} {P : H → Prop} {h : H}

theorem keeps_bind {Q : β → H → Prop} : Keeps D (p >>= k) Q h ↔ Keeps D p (fun value => Keeps D (k value) Q) h := by
  induction p generalizing h with
  | ret value => exact Iff.rfl
  | act a next ih =>
    have hnext : ∀ r h', Keeps D ((next r).bind k) Q h' ↔ Keeps D (next r) (fun value => Keeps D (k value) Q) h' :=
      fun r h' => ih r
    show (D.may h a ∧ ∀ r, D.expects h a r → Keeps D ((next r).bind k) Q (D.after h a r)) ↔ _
    simp only [hnext]
    exact Iff.rfl

theorem Keeps.mono {Q Q' : α → H → Prop} (hp : Keeps D p Q h) (hQ : ∀ value h', Q value h' → Q' value h') :
    Keeps D p Q' h := by
  induction p generalizing h with
  | ret value => exact hQ value h hp
  | act a next ih => exact ⟨hp.1, fun r hr => ih r (hp.2 r hr)⟩

/-- What follows a program that leaves the hand as it is runs with the same hand. -/
theorem Restores.bind_keeps {Q : β → H → Prop} (hp : Restores D P p) (hh : P h)
    (hk : ∀ value, Keeps D (k value) Q h) : Keeps D (p >>= k) Q h := by
  refine keeps_bind.2 ((hp h hh).mono ?_)
  rintro value h' rfl
  exact hk value

theorem restores_pure {value : α} : Restores D P (pure value) := fun _ _ => rfl

theorem Restores.bind (hp : Restores D P p) (hk : ∀ value, Restores D P (k value)) : Restores D P (p >>= k) :=
  fun h hh => hp.bind_keeps hh fun value => hk value h hh

theorem Restores.ite {c : Prop} [Decidable c] {q : Prog Ans α} (hp : Restores D P p) (hq : Restores D P q) :
    Restores D P (if c then p else q) := by
  split
  · exact hp
  · exact hq

theorem Restores.imp {P' : H → Prop} (hp : Restores D P p) (hP : ∀ h, P' h → P h) : Restores D P' p :=
  fun h hh => hp h (hP h hh)

theorem Restores.times {body : Prog Ans Unit} (hbody : Restores D P body) (n : Nat) :
    Restores D P (body.times n) := by
  induction n with
  | zero => exact restores_pure
  | succ n ih => exact hbody.bind fun _ => ih

theorem Restores.onlyIf {p : Prog Ans Unit} (hp : Restores D P p) (c : Bool) : Restores D P (p.onlyIf c) :=
  hp.ite restores_pure

/-- A program that leaves the hand as it is as long as it gives no result is repeated until it gives one. -/
theorem keeps_timesUntil {body : Prog Ans (Option α)} {Q : Option α → H → Prop}
    (hbody : Keeps D body (fun result h' => (result = none ∧ h' = h) ∨ (result ≠ none ∧ Q result h')) h)
    (hnone : Q none h) (n : Nat) : Keeps D (body.timesUntil n) Q h := by
  induction n with
  | zero => exact hnone
  | succ n ih =>
    refine keeps_bind.2 (hbody.mono ?_)
    rintro result h' (⟨rfl, rfl⟩ | ⟨hresult, hQ⟩)
    · exact ih
    · cases result with
      | none => exact absurd rfl hresult
      | some result => exact hQ

end Keeps

/-! ### Interleavings -/

/-- The shared state, and what each thread has still to do. -/
structure State (Ans : A → Type) (S : Type) where
  shared : S
  threads : List (Prog Ans Unit)

/-- A thread starts on an operation, or the thread at some place takes its turn.  An action that several answers are
possible to is given one of them by the number. -/
inductive Move (O : Type)
  | start (op : O)
  | turn (i : Nat) (choice : Nat)

section Interleavings

variable {S O H : Type} (perform : (a : A) → Nat → S → Option (Ans a × S)) (program : O → Prog Ans Unit)

/-- The turn of a thread: it does its next action, if this is possible. -/
def takeTurn (i choice : Nat) (st : State Ans S) : Prog Ans Unit → Option (State Ans S)
  | .ret _ => none
  | .act a next =>
    (perform a choice st.shared).map fun (r, s) => { shared := s, threads := st.threads.set i (next r) }

/-- One move. -/
def step : Move O → State Ans S → Option (State Ans S)
  | .start op, st => some { st with threads := st.threads ++ [program op] }
  | .turn i choice, st => st.threads[i]?.bind (takeTurn perform i choice st)

/-- Whoever takes a turn meets a condition on the action and on the shared state before it. -/
def Meets (cond : A → S → Prop) : Move O → State Ans S → Prop
  | .start _, _ => True
  | .turn i _, st => ∀ a next, st.threads[i]? = some (.act a next) → cond a st.shared

variable (D : Discipline Ans H) (cond : A → S → Prop) (I : S → List H → Prop)

/-- The shared state accounts for what the threads have in hand: it goes on to do so when a thread starts with nothing
and when a thread takes a turn that the discipline allows, and the answers are those the discipline counts on. -/
structure Sound : Prop where
  start : ∀ {s held}, I s held → I s (held ++ [D.idle])
  turn : ∀ {s s' before h after a choice r}, I s (before ++ h :: after) → D.may h a → cond a s →
    perform a choice s = some (r, s') → D.expects h a r ∧ I s' (before ++ D.after h a r :: after)

/-- Each thread keeps the discipline with what it has in hand, to end with nothing, and the shared state accounts for
it. -/
def Kept (st : State Ans S) : Prop :=
  ∃ held, List.Forall₂ (Keeps D · fun _ h => h = D.idle) st.threads held ∧ I st.shared held

variable {perform program D cond I}

/-- The hand of the thread at some place, among the hands of the others. -/
theorem forall₂_at {α β : Type} {R : α → β → Prop} {ts : List α} {hs : List β} (h : List.Forall₂ R ts hs) {i : Nat}
    {t : α} (ht : ts[i]? = some t) :
    ∃ before hand after, hs = before ++ hand :: after ∧ R t hand ∧
      ∀ t' hand', R t' hand' → List.Forall₂ R (ts.set i t') (before ++ hand' :: after) := by
  induction h generalizing i with
  | nil => simp at ht
  | @cons t₀ hand₀ ts hs h₀ hrest ih =>
    cases i with
    | zero =>
      cases ht
      exact ⟨[], hand₀, hs, rfl, h₀, fun t' hand' h' => .cons h' hrest⟩
    | succ i =>
      obtain ⟨before, hand, after, rfl, hR, hset⟩ := ih ht
      exact ⟨hand₀ :: before, hand, after, rfl, hR, fun t' hand' h' => .cons h₀ (hset t' hand' h')⟩

theorem kept_of_step (hsound : Sound perform D cond I)
    (hprogram : ∀ op, Keeps D (program op) (fun _ h => h = D.idle) D.idle) {m : Move O} {st st' : State Ans S}
    (hm : Meets cond m st) (hkept : Kept D I st) (h : step perform program m st = some st') : Kept D I st' := by
  obtain ⟨held, hthreads, hI⟩ := hkept
  cases m with
  | start op =>
    cases h
    exact ⟨held ++ [D.idle], List.rel_append hthreads (.cons (hprogram op) .nil), hsound.start hI⟩
  | turn i choice =>
    obtain ⟨t, ht, hturn⟩ := Option.bind_eq_some_iff.1 h
    cases t with
    | ret value => cases hturn
    | act a next =>
      obtain ⟨⟨r, s⟩, hr, rfl⟩ := Option.map_eq_some_iff.1 hturn
      obtain ⟨before, hand, after, rfl, hkeeps, hset⟩ := forall₂_at hthreads ht
      obtain ⟨hexpects, hI'⟩ := hsound.turn hI hkeeps.1 (hm a next ht) hr
      exact ⟨_, hset (next r) _ (hkeeps.2 r hexpects), hI'⟩

theorem kept_of_run (hsound : Sound perform D cond I)
    (hprogram : ∀ op, Keeps D (program op) (fun _ h => h = D.idle) D.idle) {moves : List (Move O)}
    {st st' : State Ans S} (hmeets : StepRun.Along (step perform program) (Meets cond) moves st) (hkept : Kept D I st)
    (h : StepRun.run (step perform program) moves st = some st') : Kept D I st' :=
  StepRun.invariant_of_run (fun _ _ _ hm hk hs => kept_of_step hsound hprogram hm hk hs) hmeets hkept h

end Interleavings

/-! ### The order of locks -/

/-- Threads that wait only for locks that an unfinished thread holds, and only for locks above all those they hold
themselves: one of the unfinished threads does not wait. -/
theorem exists_unblocked {T L : Type*} [Finite T] (rank : L → Nat) {unfinished : T → Prop} {holds waits : T → L → Prop}
    (hheld : ∀ t l, waits t l → ∃ t', unfinished t' ∧ holds t' l)
    (hrank : ∀ t l l', waits t l → holds t l' → rank l' < rank l) {t₀ : T} (ht₀ : unfinished t₀) :
    ∃ t, unfinished t ∧ ∀ l, ¬waits t l := by
  by_contra hall
  have hwaits : ∀ t : {t // unfinished t}, ∃ l, waits t l := by
    intro t
    by_contra hno
    exact hall ⟨t, t.2, fun l hl => hno ⟨l, hl⟩⟩
  choose lock hlock using hwaits
  have : Nonempty {t // unfinished t} := ⟨⟨t₀, ht₀⟩⟩
  -- a thread that waits for a lock of the highest rank: who holds this lock waits for a higher one
  obtain ⟨t, ht⟩ := Finite.exists_max fun t => rank (lock t)
  obtain ⟨t', hunfinished, hholds⟩ := hheld t (lock t) (hlock t)
  have hless : rank (lock t) < rank (lock ⟨t', hunfinished⟩) := hrank t' _ _ (hlock ⟨t', hunfinished⟩) hholds
  have hmax := ht ⟨t', hunfinished⟩
  omega

end Threads
