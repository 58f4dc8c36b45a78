import Mathlib.Algebra.Order.BigOperators.Group.List
import Mathlib.Algebra.Order.Ring.Nat
import Mathlib.Data.List.ReduceOption

/-!
# Separated pieces

A text of pieces with a separator between each two of them (`separated`), and the way to write one with a counter: the
total is known beforehand, each piece that is come across is counted, and the separator is written behind all pieces but
that whose number is the total (`counted`).  A piece that is counted but not written makes the counter run ahead, and
then the separators are right if and only if nothing is written after a piece that was left out (`counted_iff`).
-/

namespace Separators

variable {α β : Type}

/-- The pieces, `sep` after each of them but the last, which `last` follows. -/
def separated (sep last : List α) : List (List α) → List α
  | [] => []
  | [piece] => piece ++ last
  | piece :: next :: pieces => piece ++ sep ++ separated sep last (next :: pieces)

theorem separated_cons_of_ne {sep last : List α} (piece : List α) {pieces : List (List α)} (h : pieces ≠ []) :
    separated sep last (piece :: pieces) = piece ++ sep ++ separated sep last pieces := by
  cases pieces with
  | nil => exact absurd rfl h
  | cons next pieces => rfl

theorem separated_cons (sep last piece : List α) (pieces : List (List α)) :
    separated sep last (piece :: pieces) = piece ++ (if pieces = [] then last else sep) ++ separated sep last pieces := by
  cases pieces with
  | nil => simp [separated]
  | cons next pieces => rw [separated_cons_of_ne piece (by simp), if_neg (by simp)]

theorem separated_append_of_ne {sep last : List α} {front back : List (List α)} (hfront : front ≠ []) (hback : back ≠ []) :
    separated sep last (front ++ back) = separated sep [] front ++ sep ++ separated sep last back := by
  induction front with
  | nil => exact absurd rfl hfront
  | cons piece front ih =>
    cases front with
    | nil => simp [separated_cons_of_ne piece hback, separated]
    | cons next front =>
      rw [List.cons_append, separated_cons_of_ne piece (by simp), ih (by simp), separated_cons_of_ne piece (by simp)]
      simp only [List.append_assoc]

theorem separated_last (sep last : List α) {pieces : List (List α)} (h : pieces ≠ []) :
    separated sep last pieces = separated sep [] pieces ++ last := by
  induction pieces with
  | nil => exact absurd rfl h
  | cons piece pieces ih =>
    cases pieces with
    | nil => simp [separated]
    | cons next pieces =>
      rw [separated_cons_of_ne piece (by simp), separated_cons_of_ne piece (by simp), ih (by simp), List.append_assoc,
        List.append_assoc, List.append_assoc]

/-- All the pieces together, and a separator for each of them but the last. -/
theorem length_separated {sep last : List α} {pieces : List (List α)} (h : pieces ≠ []) :
    (separated sep last pieces).length =
      (pieces.map List.length).sum + (pieces.length - 1) * sep.length + last.length := by
  induction pieces with
  | nil => exact absurd rfl h
  | cons piece pieces ih =>
    cases pieces with
    | nil => simp [separated]
    | cons next pieces =>
      rw [separated_cons_of_ne piece (by simp), List.length_append, List.length_append, ih (by simp)]
      simp only [List.map_cons, List.sum_cons, List.length_cons, Nat.add_sub_cancel, Nat.add_mul]
      omega

/-- Pieces that are left out make the text shorter. -/
theorem length_separated_lt_of_sublist {sep : List α} (hsep : sep ≠ []) {pieces fewer : List (List α)}
    (hsublist : fewer.Sublist pieces) (hne : fewer ≠ pieces) (hfewer : fewer ≠ []) :
    (separated sep [] fewer).length < (separated sep [] pieces).length := by
  have hpieces : pieces ≠ [] := by
    rintro rfl
    exact hfewer (List.sublist_nil.1 hsublist)
  have hlength : fewer.length < pieces.length := by
    have hle := hsublist.length_le
    have hneq : fewer.length ≠ pieces.length := fun h => hne (hsublist.eq_of_length h)
    omega
  have hsum : (fewer.map List.length).sum ≤ (pieces.map List.length).sum := (hsublist.map _).sum_le_sum (by simp)
  have hpos : 0 < fewer.length := List.length_pos_iff.2 hfewer
  have hseps : (fewer.length - 1) * sep.length < (pieces.length - 1) * sep.length :=
    Nat.mul_lt_mul_of_pos_right (by omega) (List.length_pos_iff.2 hsep)
  rw [length_separated hfewer, length_separated hpieces]
  omega

/-! ### Pieces without separators at their ends -/

/-- The piece is not empty, and neither begins nor ends with the separator. -/
structure Unbroken (c : α) (piece : List α) : Prop where
  nonempty : piece ≠ []
  head : piece.head? ≠ some c
  last : piece.getLast? ≠ some c

theorem Unbroken.append {c : α} {piece more : List α} (h : Unbroken c piece) (hmore : Unbroken c more) :
    Unbroken c (piece ++ more) where
  nonempty := by simp [h.nonempty]
  head := by
    rw [List.head?_append_of_ne_nil _ h.nonempty]
    exact h.head
  last := by
    rw [List.getLast?_append_of_ne_nil _ hmore.nonempty]
    exact hmore.last

/-- The text consists of the pieces, with one separator between each two of them and none elsewhere at their ends. -/
structure IsSequence (c : α) (text : List α) (pieces : List (List α)) : Prop where
  eq : text = separated [c] [] pieces
  unbroken : ∀ piece ∈ pieces, Unbroken c piece

theorem getLast?_separated {c : α} {pieces : List (List α)} (h : ∀ piece ∈ pieces, Unbroken c piece) :
    (separated [c] [] pieces).getLast? ≠ some c := by
  induction pieces with
  | nil => simp [separated]
  | cons piece pieces ih =>
    cases pieces with
    | nil =>
      rw [separated, List.append_nil]
      exact (h piece (List.mem_cons_self ..)).last
    | cons next pieces =>
      have hnext : separated [c] [] (next :: pieces) ≠ [] := by
        have hne := (h next (by simp)).nonempty
        cases pieces with
        | nil => simpa [separated] using hne
        | cons _ _ => simp [separated]
      rw [separated_cons_of_ne piece (by simp), List.getLast?_append_of_ne_nil _ hnext]
      exact ih fun p hp => h p (List.mem_cons_of_mem _ hp)

theorem IsSequence.getLast? {c : α} {text : List α} {pieces : List (List α)} (h : IsSequence c text pieces) :
    text.getLast? ≠ some c := by
  rw [h.eq]
  exact getLast?_separated h.unbroken

/-- More pieces behind the first ones. -/
theorem isSequence_append_iff {c : α} {front : List (List α)} (hfront : ∀ piece ∈ front, Unbroken c piece)
    (hne : front ≠ []) {pieces : List (List α)} (hpieces : pieces ≠ []) (text : List α) :
    IsSequence c (separated [c] [] front ++ [c] ++ text) (front ++ pieces) ↔ IsSequence c text pieces := by
  constructor
  · rintro ⟨heq, hunbroken⟩
    rw [separated_append_of_ne hne hpieces] at heq
    exact ⟨List.append_cancel_left heq, fun p hp => hunbroken p (List.mem_append_right _ hp)⟩
  · rintro ⟨rfl, hunbroken⟩
    refine ⟨(separated_append_of_ne hne hpieces).symm, ?_⟩
    intro p hp
    exact (List.mem_append.1 hp).elim (hfront p) (hunbroken p)

/-! ### Counted pieces -/

/-- The pieces are counted from `n` on; those that are given are written, with the separator unless their number is the
total. -/
def counted (sep : List α) (total : ℕ) : ℕ → List (Option (List α)) → List α
  | _, [] => []
  | n, none :: pieces => counted sep total (n + 1) pieces
  | n, some piece :: pieces =>
    piece ++ (if n + 1 = total then [] else sep) ++ counted sep total (n + 1) pieces

theorem counted_append (sep : List α) (total n : ℕ) (front back : List (Option (List α))) :
    counted sep total n (front ++ back) = counted sep total n front ++ counted sep total (n + front.length) back := by
  induction front generalizing n with
  | nil => simp [counted]
  | cons piece front ih =>
    have hnumber : n + 1 + front.length = n + (front.length + 1) := by omega
    cases piece with
    | none => rw [List.cons_append, counted, ih, counted, List.length_cons, hnumber]
    | some piece =>
      rw [List.cons_append, counted, ih, counted, List.length_cons, hnumber]
      simp only [List.append_assoc]

theorem counted_of_none (sep : List α) (total n : ℕ) {pieces : List (Option (List α))} (h : ∀ p ∈ pieces, p = none) :
    counted sep total n pieces = [] := by
  induction pieces generalizing n with
  | nil => rfl
  | cons piece pieces ih =>
    rw [h piece (List.mem_cons_self ..), counted]
    exact ih (n + 1) fun p hp => h p (List.mem_cons_of_mem _ hp)

/-- The counter is right if all pieces are written. -/
theorem counted_map_some (sep : List α) (n : ℕ) (pieces : List (List α)) :
    counted sep (n + pieces.length) n (pieces.map some) = separated sep [] pieces := by
  induction pieces generalizing n with
  | nil => rfl
  | cons piece pieces ih =>
    have ih := ih (n + 1)
    rw [show n + 1 + pieces.length = n + (pieces.length + 1) by omega] at ih
    rw [List.map_cons, counted, List.length_cons, ih]
    cases pieces with
    | nil => simp [separated]
    | cons next pieces =>
      rw [if_neg (by simp), separated_cons_of_ne piece (by simp)]

/-- After the last piece that is written, if there is one, come only pieces that are left out. -/
theorem all_none_or_last_some (pieces : List (Option β)) :
    (∀ p ∈ pieces, p = none) ∨ ∃ front piece back, pieces = front ++ some piece :: back ∧ ∀ p ∈ back, p = none := by
  induction pieces with
  | nil => exact .inl (by simp)
  | cons p pieces ih =>
    rcases ih with hnone | ⟨front, piece, back, rfl, hback⟩
    · cases p with
      | none => exact .inl (by simpa using hnone)
      | some piece => exact .inr ⟨[], piece, pieces, rfl, hnone⟩
    · exact .inr ⟨p :: front, piece, back, rfl, hback⟩

theorem reduceOption_of_none {pieces : List (Option β)} (h : ∀ p ∈ pieces, p = none) : pieces.reduceOption = [] := by
  rw [List.reduceOption_eq_nil_iff]
  exact ⟨pieces.length, List.eq_replicate_of_mem h⟩

/-- If a piece is written after one that is left out, the separator also follows the last piece. -/
theorem getLast?_counted {c : α} {pieces : List (Option (List α))}
    (h : ¬pieces.Pairwise fun p p' => p = none → p' = none) :
    (counted [c] pieces.reduceOption.length 0 pieces).getLast? = some c := by
  rcases all_none_or_last_some pieces with hnone | ⟨front, piece, back, rfl, hback⟩
  · have hall : pieces.Pairwise fun p p' => p = none → p' = none :=
      List.pairwise_of_forall_mem_list fun p hp p' hp' _ => hnone p' hp'
    exact absurd hall h
  · have hreduce : (front ++ some piece :: back).reduceOption.length = front.reduceOption.length + 1 := by
      rw [List.reduceOption_append, List.reduceOption_cons_of_some, reduceOption_of_none hback]
      simp
    -- some piece of the front is left out, so the number of the last piece is beyond the total
    have hfront : front.reduceOption.length < front.length := by
      rw [List.reduceOption_length_lt_iff]
      by_contra hmem
      refine h (List.pairwise_append.2 ⟨?_, List.pairwise_cons.2 ⟨?_, ?_⟩, ?_⟩)
      · exact List.pairwise_of_forall_mem_list fun p hp p' _ hpnone => absurd (hpnone ▸ hp) hmem
      · intro p' _ hp
        cases hp
      · exact List.pairwise_of_forall_mem_list fun p hp p' hp' _ => hback p' hp'
      · exact fun p hp p' _ hpnone => absurd (hpnone ▸ hp) hmem
    rw [hreduce, counted_append, counted, counted_of_none _ _ _ hback, if_neg (by omega), List.append_nil,
      List.getLast?_append_of_ne_nil _ (by simp)]
    simp

/-- If nothing is written after a piece that is left out, the pieces that are left out are the last ones. -/
theorem written_append_left {pieces : List (Option β)} (h : pieces.Pairwise fun p p' => p = none → p' = none) :
    ∃ (written : List β) (left : List (Option β)), pieces = written.map some ++ left ∧ ∀ p ∈ left, p = none := by
  induction pieces with
  | nil => exact ⟨[], [], rfl, by simp⟩
  | cons p pieces ih =>
    obtain ⟨hfirst, hrest⟩ := List.pairwise_cons.1 h
    cases p with
    | none => exact ⟨[], none :: pieces, rfl, by simpa using fun p' hp' => hfirst p' hp' rfl⟩
    | some piece =>
      obtain ⟨written, left, rfl, hleft⟩ := ih hrest
      exact ⟨piece :: written, left, rfl, hleft⟩

/-- The text with a counter is right if and only if nothing is written after a piece that is left out. -/
theorem counted_iff {c : α} {pieces : List (Option (List α))} (h : ∀ piece ∈ pieces.reduceOption, Unbroken c piece) :
    counted [c] pieces.reduceOption.length 0 pieces = separated [c] [] pieces.reduceOption ↔
      pieces.Pairwise fun p p' => p = none → p' = none := by
  constructor
  · intro heq
    by_contra hpairwise
    have hlast := getLast?_counted (c := c) hpairwise
    rw [heq] at hlast
    exact getLast?_separated h hlast
  · intro hpairwise
    obtain ⟨written, left, rfl, hleft⟩ := written_append_left hpairwise
    have hreduce : (written.map some ++ left).reduceOption = written := by
      rw [List.reduceOption_append, reduceOption_of_none hleft, List.append_nil]
      simp [List.reduceOption]
    have hwritten := counted_map_some [c] 0 written
    rw [Nat.zero_add] at hwritten
    rw [hreduce, counted_append, counted_of_none _ _ _ hleft, List.append_nil, hwritten]

/-! ### Pieces with flags -/

/-- After each piece that says so a separator `c` stands in front of `last`. -/
def flagged (c : α) (last : List α) : List (List α × Bool) → List α
  | [] => []
  | (piece, comma) :: pieces => piece ++ (if comma then c :: last else last) ++ flagged c last pieces

theorem flagged_append (c : α) (last : List α) (front back : List (List α × Bool)) :
    flagged c last (front ++ back) = flagged c last front ++ flagged c last back := by
  induction front with
  | nil => rfl
  | cons piece front ih =>
    rw [List.cons_append, flagged, ih, flagged]
    simp only [List.append_assoc]

/-- All pieces but the last say that a separator follows. -/
theorem flagged_eq_separated (c : α) (last : List α) (front : List (List α)) (piece : List α) :
    flagged c last (front.map (fun p => (p, true)) ++ [(piece, false)]) =
      separated (c :: last) last (front ++ [piece]) := by
  induction front with
  | nil => simp [flagged, separated]
  | cons first front ih =>
    rw [List.map_cons, List.cons_append, flagged, ih, List.cons_append, separated_cons_of_ne first (by simp)]
    rfl

theorem length_flagged (c : α) (last : List α) (pieces : List (List α × Bool)) :
    (flagged c last pieces).length = (pieces.map fun p => p.1.length).sum + pieces.countP (fun p => p.2) +
      pieces.length * last.length := by
  induction pieces with
  | nil => simp [flagged]
  | cons piece pieces ih =>
    rw [flagged, List.length_append, List.length_append, ih, List.map_cons, List.sum_cons, List.countP_cons,
      List.length_cons, Nat.add_mul]
    split <;> simp <;> omega

theorem flagged_ne_separated (c : α) (last : List α) {pieces : List (List α × Bool)} (hne : pieces ≠ [])
    (hcount : pieces.countP (fun p => p.2) + 1 ≠ pieces.length) :
    flagged c last pieces ≠ separated (c :: last) last (pieces.map Prod.fst) := by
  intro heq
  have hlength := congrArg List.length heq
  have hpos := List.length_pos_iff.2 hne
  obtain ⟨n, hn⟩ : ∃ n, pieces.length = n + 1 := ⟨pieces.length - 1, by omega⟩
  rw [length_flagged, length_separated (by simpa using hne), List.map_map, List.length_map, hn, List.length_cons,
    Nat.add_sub_cancel, Nat.add_mul, Nat.mul_add] at hlength
  simp only [Function.comp_def] at hlength
  omega

/-! ### Blocks -/

/-- A text that consists of pieces, each of which may again consist of pieces. -/
inductive Block (α : Type) where
  | leaf (text : List α)
  | group (opening sep last : List α) (members : List (Block α)) (closing : List α)

namespace Block

mutual

/-- The text of a block, with the separators between the members of each group. -/
def text : Block α → List α
  | .leaf t => t
  | .group opening sep last members closing => opening ++ separated sep last (texts members) ++ closing

def texts : List (Block α) → List (List α)
  | [] => []
  | member :: members => member.text :: texts members

end

theorem texts_eq_map (members : List (Block α)) : texts members = members.map text := by
  induction members with
  | nil => rfl
  | cons member members ih => rw [texts, List.map_cons, ih]

end Block

end Separators
