import Mathlib.Data.List.Nodup

/-!
# Singly linked lists in a memory

The cells of a memory are linked by a partial function `next`.  `Segment next a l b` says that the links lead from `a`
through the cells `l` to `b`; with `b = none` the cells are a whole list.  The operations on a list change the link of
one cell, so each of them is an instance of `segment_congr` together with the new link: `segment_push` adds a cell
at the end, `segment_unlink` takes one out.
-/

namespace LinkedList

variable {Addr : Type*} {next next' : Addr → Option Addr} {a b : Option Addr} {l l' : List Addr} {p : Addr}

/-- From `a` the links lead through `l` to `b`. -/
def Segment (next : Addr → Option Addr) : Option Addr → List Addr → Option Addr → Prop
  | a, [], b => a = b
  | a, p :: l, b => a = some p ∧ Segment next (next p) l b

@[simp] theorem segment_nil : Segment next a [] b ↔ a = b := Iff.rfl

@[simp] theorem segment_cons : Segment next a (p :: l) b ↔ a = some p ∧ Segment next (next p) l b := Iff.rfl

theorem segment_append {c : Option Addr} :
    Segment next a (l ++ l') c ↔ ∃ b, Segment next a l b ∧ Segment next b l' c := by
  induction l generalizing a with
  | nil => simp
  | cons p l ih => simp [ih, and_assoc]

theorem segment_snoc : Segment next a (l ++ [p]) b ↔ Segment next a l (some p) ∧ next p = b := by
  rw [segment_append]
  constructor
  · rintro ⟨c, hl, hc, hb⟩
    rw [← hc]
    exact ⟨hl, hb⟩
  · rintro ⟨hl, hb⟩
    exact ⟨some p, hl, rfl, hb⟩

/-- Only the links of the cells on the way count. -/
theorem segment_congr (h : ∀ q ∈ l, next q = next' q) : Segment next a l b ↔ Segment next' a l b := by
  induction l generalizing a with
  | nil => rfl
  | cons p l ih =>
    rw [List.forall_mem_cons] at h
    rw [segment_cons, segment_cons, h.1, ih h.2]

/-- A list begins at its first cell. -/
theorem head_of_segment (h : Segment next a l none) : a = l.head? := by
  cases l with
  | nil => exact h
  | cons p l => exact h.1

/-- A cell is added behind the last one. -/
theorem segment_push {t : Addr} (h : Segment next a (l ++ [t]) none) (hl : ∀ q ∈ l, next' q = next q)
    (ht : next' t = some p) (hp : next' p = none) : Segment next' a (l ++ [t] ++ [p]) none := by
  rw [segment_snoc] at h
  rw [segment_snoc, segment_snoc]
  exact ⟨⟨(segment_congr hl).2 h.1, ht⟩, hp⟩

/-- The first cell is taken out. -/
theorem segment_unlink_head (h : Segment next a (p :: l) none) (hl : ∀ q ∈ l, next' q = next q) :
    Segment next' (next p) l none :=
  (segment_congr hl).2 h.2

/-- A cell behind another one is taken out. -/
theorem segment_unlink {t : Addr} (h : Segment next a (l ++ t :: p :: l') none) (hl : ∀ q ∈ l, next' q = next q)
    (hl' : ∀ q ∈ l', next' q = next q) (ht : next' t = next p) : Segment next' a (l ++ t :: l') none := by
  rw [segment_append] at h ⊢
  obtain ⟨b, hb, hbt, -, hrest⟩ := h
  refine ⟨b, (segment_congr hl).2 hb, hbt, ?_⟩
  rw [ht]
  exact (segment_congr hl').2 hrest

end LinkedList
