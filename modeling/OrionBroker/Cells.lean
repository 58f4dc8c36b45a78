import Mathlib.Data.List.TakeWhile
import Mathlib.Data.Option.Basic

/-!
# Arrays with a terminator

An array of a C program is a list of cells, and a cell that has not been written holds nothing.  To write outside the
array is undefined, and so is to read outside of it or in a cell without anything; both give `none`.

`text` reads from the beginning of the array to the first terminator, and `text_eq_some_iff` says when it can.
-/

namespace Cells

variable {α : Type} {zero : α} {cells front back : List (Option α)} {cs : List α}

def write (cells : List (Option α)) (ix : Nat) (c : α) : Option (List (Option α)) :=
  if ix < cells.length then some (cells.set ix (some c)) else none

/-- Written one after the other, from a cell on. -/
def writeAll (cells : List (Option α)) (ix : Nat) : List α → Option (List (Option α))
  | [] => some cells
  | c :: cs =>
    match write cells ix c with
    | none => none
    | some cells => writeAll cells (ix + 1) cs

/-- What stands in front of the first terminator. -/
def text [DecidableEq α] (zero : α) : List (Option α) → Option (List α)
  | some c :: cells => if c = zero then some [] else (text zero cells).map (c :: ·)
  | _ => none

/-- A text that begins in a part of memory which is all written, without its terminator. -/
def upTo [DecidableEq α] (zero : α) (cs : List α) : List α := cs.takeWhile (· ≠ zero)

/-- As many characters of a text as are asked for, filled up with terminators. -/
def strncpy [DecidableEq α] (zero : α) (cells : List (Option α)) (cs : List α) (n : Nat) : Option (List (Option α)) :=
  writeAll cells 0 ((upTo zero cs).take n ++ List.replicate (n - (upTo zero cs).length) zero)

theorem write_append (front : List (Option α)) (cell : Option α) (back : List (Option α)) (c : α) :
    write (front ++ cell :: back) front.length c = some (front ++ some c :: back) := by
  unfold write
  rw [if_pos (by simp), List.set_append_right _ _ (Nat.le_refl _), Nat.sub_self, List.set_cons_zero]

theorem write_outside (cells : List (Option α)) (ix : Nat) (c : α) (h : cells.length ≤ ix) : write cells ix c = none := by
  unfold write
  exact if_neg (by omega)

theorem writeAll_append (front back : List (Option α)) (cs : List α) :
    writeAll (front ++ back) front.length cs =
      if cs.length ≤ back.length then some (front ++ cs.map some ++ back.drop cs.length) else none := by
  induction cs generalizing front back with
  | nil => simp [writeAll]
  | cons c cs ih =>
    cases back with
    | nil =>
      rw [writeAll, write_outside _ _ _ (by simp), if_neg (by simp)]
    | cons cell back =>
      have hnext : writeAll (front ++ some c :: back) (front.length + 1) cs =
          writeAll ((front ++ [some c]) ++ back) (front ++ [some c]).length cs := by
        simp
      rw [writeAll, write_append]
      dsimp only
      rw [hnext, ih (front ++ [some c]) back]
      simp

/-- From the beginning of the array. -/
theorem writeAll_zero (cells : List (Option α)) (cs : List α) :
    writeAll cells 0 cs = if cs.length ≤ cells.length then some (cs.map some ++ cells.drop cs.length) else none :=
  writeAll_append [] cells cs

theorem writeAll_eq {ix : Nat} (h : ix ≤ cells.length) (cs : List α) :
    writeAll cells ix cs =
      if ix + cs.length ≤ cells.length then some (cells.take ix ++ cs.map some ++ cells.drop (ix + cs.length)) else none := by
  have hlength : (cells.take ix).length = ix := by
    rw [List.length_take]
    omega
  have hwrite := writeAll_append (cells.take ix) (cells.drop ix) cs
  rw [List.take_append_drop, hlength, List.length_drop, List.drop_drop] at hwrite
  rw [hwrite]
  by_cases hfits : ix + cs.length ≤ cells.length
  · rw [if_pos hfits, if_pos (by omega)]
  · rw [if_neg hfits, if_neg (by omega)]

theorem writeAll_concat (cells : List (Option α)) (ix : Nat) (cs : List α) (c : α) :
    writeAll cells ix (cs ++ [c]) = (writeAll cells ix cs).bind fun cells => write cells (ix + cs.length) c := by
  induction cs generalizing cells ix with
  | nil =>
    simp only [List.nil_append, writeAll, Option.bind_some, List.length_nil, Nat.add_zero]
    cases write cells ix c <;> rfl
  | cons d cs ih =>
    rw [List.cons_append, writeAll, writeAll]
    cases write cells ix d with
    | none => rfl
    | some cells' =>
      dsimp only
      rw [ih, List.length_cons, Nat.add_assoc, Nat.add_comm 1]

variable [DecidableEq α]

theorem not_mem_upTo (zero : α) (cs : List α) : zero ∉ upTo zero cs := by
  intro hmem
  simpa using List.mem_takeWhile_imp hmem

theorem upTo_of_not_mem (h : zero ∉ cs) : upTo zero cs = cs := by
  refine List.takeWhile_eq_self_iff.2 fun c hc => ?_
  have hne : c ≠ zero := fun heq => h (heq ▸ hc)
  simpa using hne

theorem upTo_append {front : List α} (h : zero ∉ front) (back : List α) :
    upTo zero (front ++ back) = front ++ upTo zero back := by
  refine List.takeWhile_append_of_pos fun c hc => ?_
  have hne : c ≠ zero := fun heq => h (heq ▸ hc)
  simpa using hne

/-- Behind a terminator nothing is read. -/
theorem upTo_append_of_mem {front : List α} (h : zero ∈ front) (back : List α) :
    upTo zero (front ++ back) = upTo zero front := by
  induction front with
  | nil => cases h
  | cons c front ih =>
    unfold upTo at ih ⊢
    rw [List.cons_append, List.takeWhile_cons, List.takeWhile_cons]
    by_cases hc : c = zero
    · simp [hc]
    · rw [ih ((List.mem_cons.1 h).resolve_left (Ne.symm hc))]

theorem text_append (h : zero ∉ cs) (cells : List (Option α)) :
    text zero (cs.map some ++ cells) = (text zero cells).map (cs ++ ·) := by
  induction cs with
  | nil => simp
  | cons c cs ih =>
    rw [List.mem_cons, not_or] at h
    rw [List.map_cons, List.cons_append, text, if_neg (Ne.symm h.1), ih h.2, Option.map_map]
    rfl

/-- A text with its terminator. -/
theorem text_terminated (h : zero ∉ cs) (cells : List (Option α)) : text zero (cs.map some ++ some zero :: cells) = some cs := by
  rw [text_append h, text, if_pos rfl]
  simp

/-- The same without a condition: it is read up to the first terminator. -/
theorem text_upTo (cs : List α) (cells : List (Option α)) :
    text zero (cs.map some ++ some zero :: cells) = some (upTo zero cs) := by
  induction cs with
  | nil => exact if_pos rfl
  | cons c cs ih =>
    rw [List.map_cons, List.cons_append, text, ih]
    unfold upTo
    by_cases hc : c = zero
    · rw [if_pos hc, List.takeWhile_cons_of_neg (by simp [hc])]
    · rw [if_neg hc, List.takeWhile_cons_of_pos (by simp [hc])]
      rfl

theorem text_eq_some_iff : text zero cells = some cs ↔ zero ∉ cs ∧ ∃ rest, cells = cs.map some ++ some zero :: rest := by
  constructor
  · intro h
    induction cells generalizing cs with
    | nil => cases h
    | cons cell cells ih =>
      cases cell with
      | none => cases h
      | some c =>
        rw [text] at h
        split at h
        · rename_i hzero
          cases h
          exact ⟨List.not_mem_nil, cells, by rw [hzero]; rfl⟩
        · rename_i hzero
          obtain ⟨cs', hcs', rfl⟩ := Option.map_eq_some_iff.1 h
          obtain ⟨hnot, rest, rfl⟩ := ih hcs'
          refine ⟨?_, rest, rfl⟩
          rw [List.mem_cons, not_or]
          exact ⟨Ne.symm hzero, hnot⟩
  · rintro ⟨hnot, rest, rfl⟩
    exact text_terminated hnot rest

/-- Without a terminator the text does not end in the array. -/
theorem text_unterminated (h : zero ∉ cs) : text zero (cs.map some) = none := by
  have hnil := text_append h ([] : List (Option α))
  rw [List.append_nil] at hnil
  rw [hnil]
  rfl

/-- A copy as long as the array has a terminator if and only if there is one among the characters that are copied. -/
theorem text_strncpy {n : Nat} (h : cells.length = n) (cs : List α) :
    (strncpy zero cells cs n).bind (text zero) = if (upTo zero cs).length < n then some (upTo zero cs) else none := by
  have hzero := not_mem_upTo zero cs
  unfold strncpy
  rw [writeAll_zero, if_pos (by rw [List.length_append, List.length_take, List.length_replicate]; omega), Option.bind_some]
  by_cases hfits : (upTo zero cs).length < n
  · obtain ⟨k, hk⟩ : ∃ k, n - (upTo zero cs).length = k + 1 := ⟨n - (upTo zero cs).length - 1, by omega⟩
    rw [if_pos hfits, List.take_of_length_le (by omega), hk, List.replicate_succ, List.map_append, List.map_cons,
      List.append_assoc]
    exact text_terminated hzero _
  · have hnone : n - (upTo zero cs).length = 0 := by omega
    have hall : cells.drop ((upTo zero cs).take n).length = [] := by
      rw [List.drop_eq_nil_iff, List.length_take]
      omega
    rw [if_neg hfits, hnone, List.replicate_zero, List.append_nil, hall, List.append_nil]
    exact text_unterminated fun hmem => hzero (List.mem_of_mem_take hmem)

end Cells
