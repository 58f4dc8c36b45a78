import Mathlib.Data.List.Forall2
import Mathlib.Data.List.Induction
import Mathlib.Order.Monotone.Basic
import Mathlib.Tactic.Common

/-!
# Vectors that copy their elements when they grow

A vector that is full takes a larger storage, copies its elements to it and destroys the old ones.  A copy that shares
something with its original is left without it then: `destroyed` is what becomes of the copy, and nothing if an original
cannot be destroyed because what it had is gone already.  The vector grows over an element if the storage that is full
has room for the element and not for all that are added after it (`GrownOver`).

A run from an empty vector destroys an element once for each time that the vector grows over it (`pushAll_spec`).  Of two
vectors to which related elements are added, the one with the larger storage in the beginning grows only when the other
one does (`pushAll_simulates`).
-/

namespace GrowingVector

/-- The elements, and the size of the storage. -/
structure Growing (α : Type) where
  items : List α
  capacity : Nat

/-- A vector to which nothing was added. -/
def Growing.empty (α : Type) (capacity : Nat) : Growing α := { items := [], capacity }

section Push

variable {α : Type} (grow : Nat → Nat) (destroyed : α → Option α)

def push (v : Growing α) (x : α) : Option (Growing α) :=
  if v.items.length = v.capacity then
    (v.items.mapM destroyed).map fun items => { items := items ++ [x], capacity := grow v.capacity }
  else some { v with items := v.items ++ [x] }

def pushAll (v : Growing α) (xs : List α) : Option (Growing α) := xs.foldlM (push grow destroyed) v

/-- The capacities of a vector that grows from nothing. -/
def capacityAt (m : Nat) : Nat := grow^[m] 0

/-- The vector grows after the element at this index was added, when there are `n` elements in the end. -/
def GrownOver (i n : Nat) : Prop := ∃ m, i < capacityAt grow m ∧ capacityAt grow m < n

/-- An element whose original was destroyed this often. -/
def times : Nat → α → Option α
  | 0, x => some x
  | k + 1, x => (times k x).bind destroyed

end Push

theorem mapM_eq_some_iff {α β : Type} {f : α → Option β} {xs : List α} {ys : List β} :
    xs.mapM f = some ys ↔ List.Forall₂ (fun x y => f x = some y) xs ys := by
  induction xs generalizing ys with
  | nil => simp [eq_comm]
  | cons x xs ih =>
    rw [List.mapM_cons]
    constructor
    · intro h
      obtain ⟨y, hy, h⟩ := Option.bind_eq_some_iff.1 h
      obtain ⟨ys', hys', h⟩ := Option.bind_eq_some_iff.1 h
      cases h
      exact .cons hy (ih.1 hys')
    · intro h
      cases h with
      | cons hy hys =>
        rw [hy, ih.2 hys]
        rfl

/-! ### Capacities -/

section Capacity

variable {grow : Nat → Nat}

theorem capacityAt_succ (m : Nat) : capacityAt grow (m + 1) = grow (capacityAt grow m) :=
  Function.iterate_succ_apply' grow m 0

variable (hgrow : ∀ n, n < grow n)
include hgrow

theorem capacityAt_strictMono : StrictMono (capacityAt grow) :=
  strictMono_nat_of_lt_succ fun m => by
    rw [capacityAt_succ]
    exact hgrow (capacityAt grow m)

/-- A capacity is at most the next one behind a smaller capacity. -/
theorem grow_le_of_lt {a b : Nat} (h : capacityAt grow a < capacityAt grow b) : grow (capacityAt grow a) ≤ capacityAt grow b := by
  have hnext : capacityAt grow (a + 1) = grow (capacityAt grow a) := capacityAt_succ a
  rw [← hnext]
  exact (capacityAt_strictMono hgrow).monotone ((capacityAt_strictMono hgrow).lt_iff_lt.1 h)

end Capacity

/-- The storage has one of the capacities, and room for the elements. -/
def Fitting {α : Type} (grow : Nat → Nat) (v : Growing α) : Prop :=
  ∃ m, v.capacity = capacityAt grow m ∧ v.items.length ≤ v.capacity

/-! ### A run from an empty vector -/

section Run

variable {α : Type} {grow : Nat → Nat} {destroyed : α → Option α}

theorem times_succ {k : Nat} {x y : α} (h : times destroyed k x = some y) : times destroyed (k + 1) x = destroyed y := by
  rw [times, h]
  rfl

/-- The storage has the last capacity that was needed, and the originals of an element were destroyed once for each time
that the vector grew over it. -/
structure AfterRun (grow : Nat → Nat) (destroyed : α → Option α) (xs : List α) (v : Growing α) : Prop where
  length : v.items.length = xs.length
  fitting : ∃ m, v.capacity = capacityAt grow m ∧ xs.length ≤ v.capacity ∧ ∀ m' < m, capacityAt grow m' < xs.length
  items : ∀ i x, xs[i]? = some x →
    ∃ k y, v.items[i]? = some y ∧ times destroyed k x = some y ∧ (k = 0 ↔ ¬GrownOver grow i xs.length)

theorem AfterRun.push (hgrow : ∀ n, n < grow n) {xs : List α} {v v' : Growing α} (hv : AfterRun grow destroyed xs v) {x : α}
    (h : push grow destroyed v x = some v') : AfterRun grow destroyed (xs ++ [x]) v' := by
  obtain ⟨m, hm, hle, hbefore⟩ := hv.fitting
  have hlength := hv.length
  -- the vector does not grow over the new element
  have hnew : ¬GrownOver grow xs.length (xs ++ [x]).length := by
    rintro ⟨m', hlt, hlt'⟩
    rw [List.length_append, List.length_singleton] at hlt'
    omega
  unfold GrowingVector.push at h
  split at h
  · rename_i hfull
    obtain ⟨items, hitems, rfl⟩ := Option.map_eq_some_iff.1 h
    rw [mapM_eq_some_iff] at hitems
    have hlength' : items.length = xs.length := by rw [← hitems.length_eq, hlength]
    have hlt := hgrow v.capacity
    refine ⟨by simp [hlength'], ⟨m + 1, ?_, ?_, ?_⟩, ?_⟩
    · rw [capacityAt_succ, ← hm]
    · rw [List.length_append, List.length_singleton]
      show xs.length + 1 ≤ grow v.capacity
      omega
    · intro m' hm'
      have hmono := (capacityAt_strictMono hgrow).monotone (Nat.le_of_lt_succ hm')
      rw [List.length_append, List.length_singleton]
      omega
    · intro i y hy
      by_cases hi : i < xs.length
      · rw [List.getElem?_append_left hi] at hy
        obtain ⟨k, z, hz, htimes, -⟩ := hv.items i y hy
        obtain ⟨hiz, rfl⟩ := List.getElem?_eq_some_iff.1 hz
        have hdestroyed : destroyed v.items[i] = some items[i] := List.Forall₂.get hitems hiz (by omega)
        refine ⟨k + 1, items[i], ?_, ?_, ?_⟩
        · rw [List.getElem?_append_left (by omega), List.getElem?_eq_getElem]
        · rw [times_succ htimes, hdestroyed]
        · refine iff_of_false (Nat.succ_ne_zero k) (not_not.2 ⟨m, ?_, ?_⟩)
          · omega
          · rw [List.length_append, List.length_singleton]
            omega
      · obtain rfl : i = xs.length := by
          have hlt := (List.getElem?_eq_some_iff.1 hy).1
          rw [List.length_append, List.length_singleton] at hlt
          omega
        rw [List.getElem?_concat_length] at hy
        cases hy
        refine ⟨0, x, ?_, rfl, iff_of_true rfl hnew⟩
        rw [← hlength', List.getElem?_concat_length]
  · rename_i hroom
    cases h
    refine ⟨by simp [hlength], ⟨m, hm, ?_, fun m' hm' => ?_⟩, ?_⟩
    · rw [List.length_append, List.length_singleton]
      show xs.length + 1 ≤ v.capacity
      omega
    · have hlt := hbefore m' hm'
      rw [List.length_append, List.length_singleton]
      omega
    · intro i y hy
      by_cases hi : i < xs.length
      · rw [List.getElem?_append_left hi] at hy
        obtain ⟨k, z, hz, htimes, hk⟩ := hv.items i y hy
        refine ⟨k, z, ?_, htimes, ?_⟩
        · rw [List.getElem?_append_left (by omega), hz]
        · -- none of the capacities is the number of elements
          rw [hk, not_iff_not]
          refine exists_congr fun m' => and_congr_right fun _ => ?_
          have hne : capacityAt grow m' ≠ xs.length := by
            intro heq
            rcases Nat.lt_or_ge m' m with hlt | hge
            · have hlt := hbefore m' hlt
              omega
            · have hmono := (capacityAt_strictMono hgrow).monotone hge
              omega
          rw [List.length_append, List.length_singleton]
          omega
      · obtain rfl : i = xs.length := by
          have hlt := (List.getElem?_eq_some_iff.1 hy).1
          rw [List.length_append, List.length_singleton] at hlt
          omega
        rw [List.getElem?_concat_length] at hy
        cases hy
        refine ⟨0, x, ?_, rfl, iff_of_true rfl hnew⟩
        rw [← hlength, List.getElem?_concat_length]

theorem pushAll_spec (hgrow : ∀ n, n < grow n) {xs : List α} {v : Growing α}
    (h : pushAll grow destroyed (.empty α 0) xs = some v) : AfterRun grow destroyed xs v := by
  induction xs using List.reverseRecOn generalizing v with
  | nil =>
    cases h
    exact ⟨rfl, ⟨0, rfl, Nat.le_refl 0, fun m' hm' => absurd hm' (Nat.not_lt_zero m')⟩, by simp⟩
  | append_singleton xs x ih =>
    unfold pushAll at h
    rw [List.foldlM_append] at h
    obtain ⟨u, hu, h⟩ := Option.bind_eq_some_iff.1 h
    rw [List.foldlM_cons] at h
    obtain ⟨w, hw, h⟩ := Option.bind_eq_some_iff.1 h
    cases h
    exact (ih hu).push hgrow hw

end Run

section Simulation

variable {α β : Type} {grow : Nat → Nat} (hgrow : ∀ n, n < grow n) {destroyed : α → Option α} {destroyed' : β → Option β}
include hgrow

theorem Fitting.push {v v' : Growing α} (hv : Fitting grow v) {x : α} (h : push grow destroyed v x = some v') :
    Fitting grow v' ∧ v'.items.length = v.items.length + 1 := by
  obtain ⟨m, hm, hle⟩ := hv
  unfold GrowingVector.push at h
  split at h
  · rename_i hfull
    obtain ⟨items, hitems, h⟩ := Option.map_eq_some_iff.1 h
    subst h
    have hlength := (mapM_eq_some_iff.1 hitems).length_eq
    have hlt := hgrow v.capacity
    refine ⟨⟨m + 1, ?_, ?_⟩, ?_⟩
    · rw [capacityAt_succ, ← hm]
    · rw [List.length_append, List.length_singleton]
      show items.length + 1 ≤ grow v.capacity
      omega
    · rw [List.length_append, List.length_singleton, ← hlength]
  · rename_i hroom
    cases h
    refine ⟨⟨m, hm, ?_⟩, by simp⟩
    rw [List.length_append, List.length_singleton]
    show v.items.length + 1 ≤ v.capacity
    omega

/-- What holds between the elements when originals of both are destroyed, or only those of the first vector. -/
structure Simulates (R : α → β → Prop) (destroyed : α → Option α) (destroyed' : β → Option β) : Prop where
  both : ∀ x y x', R x y → destroyed x = some x' → ∃ y', destroyed' y = some y' ∧ R x' y'
  first : ∀ x y x', R x y → destroyed x = some x' → R x' y

omit hgrow in
theorem Simulates.mapM_both {R : α → β → Prop} (hR : Simulates R destroyed destroyed') {xs xs' : List α} {ys : List β}
    (h : List.Forall₂ R xs ys) (hxs : xs.mapM destroyed = some xs') :
    ∃ ys', ys.mapM destroyed' = some ys' ∧ List.Forall₂ R xs' ys' := by
  rw [mapM_eq_some_iff] at hxs
  simp only [mapM_eq_some_iff]
  induction h generalizing xs' with
  | nil =>
    cases hxs
    exact ⟨[], .nil, .nil⟩
  | cons hxy _ ih =>
    cases hxs with
    | cons hx hxs =>
      obtain ⟨y', hy', hR'⟩ := hR.both _ _ _ hxy hx
      obtain ⟨ys', hys', hall⟩ := ih hxs
      exact ⟨y' :: ys', .cons hy' hys', .cons hR' hall⟩

omit hgrow in
theorem Simulates.mapM_first {R : α → β → Prop} (hR : Simulates R destroyed destroyed') {xs xs' : List α} {ys : List β}
    (h : List.Forall₂ R xs ys) (hxs : xs.mapM destroyed = some xs') : List.Forall₂ R xs' ys := by
  rw [mapM_eq_some_iff] at hxs
  induction h generalizing xs' with
  | nil =>
    cases hxs
    exact .nil
  | cons hxy _ ih =>
    cases hxs with
    | cons hx hxs => exact .cons (hR.first _ _ _ hxy hx) (ih hxs)

/-- The second vector has the larger storage, and its elements are related to those of the first one. -/
structure Ahead (grow : Nat → Nat) (R : α → β → Prop) (v : Growing α) (w : Growing β) : Prop where
  fitting : Fitting grow v
  fitting' : Fitting grow w
  capacity : v.capacity ≤ w.capacity
  items : List.Forall₂ R v.items w.items

theorem Ahead.push {R : α → β → Prop} (hR : Simulates R destroyed destroyed') {v v' : Growing α} {w : Growing β}
    (hvw : Ahead grow R v w) {x : α} {y : β} (hxy : R x y) (h : push grow destroyed v x = some v') :
    ∃ w', push grow destroyed' w y = some w' ∧ Ahead grow R v' w' := by
  have hfitting := (hvw.fitting.push hgrow h).1
  have hlength := hvw.items.length_eq
  have hcapacity := hvw.capacity
  obtain ⟨a, ha, hle⟩ := hvw.fitting
  obtain ⟨b, hb, hle'⟩ := hvw.fitting'
  have hconcat : ∀ {xs : List α} {ys : List β}, List.Forall₂ R xs ys → List.Forall₂ R (xs ++ [x]) (ys ++ [y]) :=
    fun hxs => List.rel_append hxs (.cons hxy .nil)
  by_cases hfull' : w.items.length = w.capacity
  · -- both vectors are full
    have hfull : v.items.length = v.capacity := by omega
    unfold GrowingVector.push at h
    rw [if_pos hfull] at h
    obtain ⟨xs, hxs, rfl⟩ := Option.map_eq_some_iff.1 h
    obtain ⟨ys, hys, hall⟩ := hR.mapM_both hvw.items hxs
    have hpush : GrowingVector.push grow destroyed' w y = some { items := ys ++ [y], capacity := grow w.capacity } := by
      unfold GrowingVector.push
      rw [if_pos hfull', hys]
      rfl
    have heq : v.capacity = w.capacity := by omega
    exact ⟨_, hpush, hfitting, (hvw.fitting'.push hgrow hpush).1, by rw [heq], hconcat hall⟩
  · have hpush : GrowingVector.push grow destroyed' w y = some { w with items := w.items ++ [y] } := by
      unfold GrowingVector.push
      rw [if_neg hfull']
    refine ⟨_, hpush, ?_⟩
    unfold GrowingVector.push at h
    split at h
    · -- only the first one is full
      obtain ⟨xs, hxs, rfl⟩ := Option.map_eq_some_iff.1 h
      refine ⟨hfitting, (hvw.fitting'.push hgrow hpush).1, ?_, hconcat (hR.mapM_first hvw.items hxs)⟩
      show grow v.capacity ≤ w.capacity
      rw [ha, hb]
      refine grow_le_of_lt hgrow ?_
      rw [← ha, ← hb]
      omega
    · cases h
      exact ⟨hfitting, (hvw.fitting'.push hgrow hpush).1, hcapacity, hconcat hvw.items⟩

theorem Ahead.pushAll {R : α → β → Prop} (hR : Simulates R destroyed destroyed') {v v' : Growing α} {w : Growing β}
    (hvw : Ahead grow R v w) {xs : List α} {ys : List β} (hxs : List.Forall₂ R xs ys)
    (h : pushAll grow destroyed v xs = some v') : ∃ w', pushAll grow destroyed' w ys = some w' ∧ Ahead grow R v' w' := by
  induction hxs generalizing v w with
  | nil =>
    cases h
    exact ⟨w, rfl, hvw⟩
  | cons hxy _ ih =>
    obtain ⟨u, hu, h⟩ := Option.bind_eq_some_iff.1 h
    obtain ⟨u', hu', hnext⟩ := hvw.push hgrow hR hxy hu
    obtain ⟨w', hw', hlast⟩ := ih hnext h
    refine ⟨w', ?_, hlast⟩
    unfold GrowingVector.pushAll
    rw [List.foldlM_cons, hu']
    exact hw'

/-- What a run from an empty vector without a storage does, a run from one with a storage does as well. -/
theorem pushAll_simulates {R : α → β → Prop} (hR : Simulates R destroyed destroyed') (j : Nat) {v : Growing α}
    {xs : List α} {ys : List β} (hxs : List.Forall₂ R xs ys) (h : pushAll grow destroyed (.empty α 0) xs = some v) :
    ∃ w, pushAll grow destroyed' (.empty β (capacityAt grow j)) ys = some w ∧ List.Forall₂ R v.items w.items := by
  have hstart : Ahead grow R (.empty α 0) (.empty β (capacityAt grow j)) :=
    ⟨⟨0, rfl, Nat.le_refl 0⟩, ⟨j, rfl, Nat.zero_le _⟩, Nat.zero_le _, .nil⟩
  obtain ⟨w, hw, hahead⟩ := hstart.pushAll hgrow hR hxs h
  exact ⟨w, hw, hahead.items⟩

end Simulation

end GrowingVector
