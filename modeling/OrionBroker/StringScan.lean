import OrionBroker.Cells
import OrionBroker.ServicePath

/-!
# The scan of `stringSplit` (`string.cpp`)

`stringSplit` works on a copy of the string in memory.  It skips the delimiters in front, goes over the copy once to
replace every delimiter by a zero, counting the components, and goes over it again to pick up what stands between the
zeros.  `scan_splits_iff` says when the result is the string without its leading delimiters, taken apart.

The copy ends at the first zero of the string, and the number of components is an `int`.
-/

namespace OrionBroker.Common

open Cells

/-! ### The source -/

/-- Step 1, from `s` on. -/
def skipDelimiters (delimiter : Char) : List (Option Char) → Option (List (Option Char))
  | some c :: s => if c = delimiter then skipDelimiters delimiter s else some (some c :: s)
  | _ => none

/-- Step 3: what the memory from `s` on becomes, and the number of components. -/
def replaceDelimiters (delimiter : Char) : List (Option Char) → Int → Option (List (Option Char) × Int)
  | some c :: s, components =>
    if c = '\x00' then some (some c :: s, components)
    else if c = delimiter then
      (replaceDelimiters delimiter s (Int.bmod (components + 1) (2 ^ 32))).map fun (s, components) =>
        (some '\x00' :: s, components)
    else (replaceDelimiters delimiter s components).map fun (s, components) => (some c :: s, components)
  | _, _ => none

/-- Step 4, from `start` on. -/
def pickUp : Nat → List (Option Char) → Option (List String)
  | 0, _ => some []
  | components + 1, start =>
    match text '\x00' start with
    | none => none
    | some component =>
      (pickUp components (start.drop (component.length + 1))).map (String.ofList component :: ·)

/-- The number that is returned and what is appended to `outV`; `none` if it reads outside the copy. -/
def stringSplit (s : String) (delimiter : Char) : Option (Int × List String) :=
  let copy := (upTo '\x00' s.toList).map some ++ [some '\x00']
  match skipDelimiters delimiter copy with
  | none => none
  | some start =>
    if start.head? = some (some '\x00') then some (0, [])
    else
      match replaceDelimiters delimiter start 1 with
      | none => none
      | some (start, components) => (pickUp components.toNat start).map fun outV => (components, outV)

/-! ### The steps -/

section Steps

variable {delimiter : Char} {cs : List Char}

theorem skipDelimiters_append (delimiter : Char) (cs : List Char) (back : List (Option Char)) :
    skipDelimiters delimiter (cs.map some ++ back) =
      if cs.dropWhile (· = delimiter) = [] then skipDelimiters delimiter back
      else some ((cs.dropWhile (· = delimiter)).map some ++ back) := by
  induction cs with
  | nil => rfl
  | cons c cs ih =>
    rw [List.map_cons, List.cons_append, skipDelimiters]
    by_cases hc : c = delimiter
    · rw [if_pos hc, ih, List.dropWhile_cons_of_pos (by simpa using hc)]
    · rw [if_neg hc, List.dropWhile_cons_of_neg (by simpa using hc), if_neg (List.cons_ne_nil _ _)]
      rfl

/-- The components one after the other, a zero behind each of them, and their number as an `int`. -/
theorem replaceDelimiters_eq (delimiter : Char) (h : '\x00' ∉ cs) (components : Int) :
    replaceDelimiters delimiter (cs.map some ++ [some '\x00']) (Int.bmod components (2 ^ 32)) =
      some (((cs.splitOn delimiter).flatMap (· ++ ['\x00'])).map some,
        Int.bmod (components + (cs.count delimiter : Nat)) (2 ^ 32)) := by
  induction cs generalizing components with
  | nil => simp [replaceDelimiters]
  | cons c cs ih =>
    rw [List.mem_cons, not_or] at h
    rw [List.map_cons, List.cons_append, replaceDelimiters, if_neg (Ne.symm h.1), List.splitOn_cons_eq_if_modifyHead,
      List.count_cons]
    by_cases hc : c = delimiter
    · rw [if_pos hc, Int.bmod_add_bmod, ih h.2, if_pos (beq_iff_eq.2 hc), if_pos (beq_iff_eq.2 hc)]
      have hsum : components + 1 + (cs.count delimiter : Nat) = components + ((cs.count delimiter + 1 : Nat) : Int) := by omega
      rw [hsum]
      rfl
    · obtain ⟨piece, pieces, hpieces⟩ := List.exists_cons_of_ne_nil (List.splitOn_ne_nil delimiter cs)
      rw [if_neg hc, ih h.2, if_neg (mt beq_iff_eq.1 hc), if_neg (mt beq_iff_eq.1 hc), hpieces, Nat.add_zero]
      rfl

theorem pickUp_eq {pieces : List (List Char)} (h : ∀ piece ∈ pieces, '\x00' ∉ piece) {components : Nat}
    (hle : components ≤ pieces.length) :
    pickUp components ((pieces.flatMap (· ++ ['\x00'])).map some) = some ((pieces.take components).map String.ofList) := by
  induction pieces generalizing components with
  | nil =>
    rw [Nat.le_zero.1 hle]
    rfl
  | cons piece pieces ih =>
    cases components with
    | zero => rfl
    | succ components =>
      have hmemory : ((piece :: pieces).flatMap (· ++ ['\x00'])).map some =
          piece.map some ++ some '\x00' :: (pieces.flatMap (· ++ ['\x00'])).map some := by
        simp
      have hdrop : (piece.map some ++ some '\x00' :: (pieces.flatMap (· ++ ['\x00'])).map some).drop (piece.length + 1) =
          (pieces.flatMap (· ++ ['\x00'])).map some := by
        rw [List.drop_append]
        simp
      rw [hmemory, pickUp, text_terminated (h piece List.mem_cons_self)]
      dsimp only
      rw [hdrop, ih (fun piece' hmem => h piece' (List.mem_cons_of_mem _ hmem)) (Nat.le_of_succ_le_succ hle)]
      rfl

theorem length_splitOn (delimiter : Char) (cs : List Char) : (cs.splitOn delimiter).length = cs.count delimiter + 1 := by
  induction cs with
  | nil => rfl
  | cons c cs ih =>
    rw [List.splitOn_cons_eq_if_modifyHead, List.count_cons]
    split
    · rw [List.length_cons, ih]
    · rw [List.length_modifyHead, ih, Nat.add_zero]

theorem mem_of_mem_dropWhile {c : Char} {p : Char → Bool} (h : c ∈ cs.dropWhile p) : c ∈ cs :=
  (List.dropWhile_sublist p).subset h

end Steps

/-- The number of components of a text, as the scan counts them. -/
def counted (delimiter : Char) (cs : List Char) : Int := Int.bmod (1 + (cs.count delimiter : Nat)) (2 ^ 32)

theorem counted_of_lt {delimiter : Char} {cs : List Char} (h : cs.count delimiter + 1 < 2 ^ 31) :
    counted delimiter cs = ((cs.splitOn delimiter).length : Nat) := by
  have hsame : Int.bmod (1 + (cs.count delimiter : Nat)) (2 ^ 32) = 1 + (cs.count delimiter : Nat) :=
    Int.bmod_eq_of_le (by omega) (by omega)
  have hlength : ((cs.splitOn delimiter).length : Int) = 1 + (cs.count delimiter : Nat) := by
    rw [length_splitOn]
    omega
  rw [hlength]
  exact hsame

theorem counted_lt (delimiter : Char) (cs : List Char) : counted delimiter cs < 2 ^ 31 := Int.bmod_lt (by decide)

theorem counted_toNat_le (delimiter : Char) (cs : List Char) :
    (counted delimiter cs).toNat ≤ (cs.splitOn delimiter).length := by
  by_cases hsmall : cs.count delimiter + 1 < 2 ^ 31
  · rw [counted_of_lt hsmall, Int.toNat_natCast]
  · have hlt := counted_lt delimiter cs
    rw [length_splitOn]
    omega

/-- What the scan gives, for the text up to the first zero. -/
theorem stringSplit_eq (s : String) (delimiter : Char) :
    stringSplit s delimiter =
      let rest := (upTo '\x00' s.toList).dropWhile (· = delimiter)
      if rest = [] then if delimiter = '\x00' then none else some (0, [])
      else some (counted delimiter rest,
        ((rest.splitOn delimiter).take (counted delimiter rest).toNat).map String.ofList) := by
  have hzero : '\x00' ∉ (upTo '\x00' s.toList).dropWhile (· = delimiter) := fun hmem =>
    not_mem_upTo '\x00' s.toList (mem_of_mem_dropWhile hmem)
  unfold stringSplit
  dsimp only
  rw [skipDelimiters_append]
  generalize (upTo '\x00' s.toList).dropWhile (· = delimiter) = rest at hzero ⊢
  by_cases hrest : rest = []
  · rw [if_pos hrest, if_pos hrest, skipDelimiters]
    by_cases hdelimiter : delimiter = '\x00'
    · rw [if_pos hdelimiter.symm, if_pos hdelimiter]
      rfl
    · rw [if_neg (Ne.symm hdelimiter), if_neg hdelimiter]
      rfl
  · rw [if_neg hrest, if_neg hrest]
    dsimp only
    have hhead : (rest.map some ++ [some '\x00']).head? ≠ some (some '\x00') := by
      obtain ⟨c, cs, rfl⟩ := List.exists_cons_of_ne_nil hrest
      rw [List.mem_cons, not_or] at hzero
      simpa using Ne.symm hzero.1
    have hcopy : replaceDelimiters delimiter (rest.map some ++ [some '\x00']) 1 =
        some (((rest.splitOn delimiter).flatMap (· ++ ['\x00'])).map some, counted delimiter rest) := by
      have hone : Int.bmod 1 (2 ^ 32) = 1 := Int.bmod_eq_of_le (by omega) (by omega)
      have hscan := replaceDelimiters_eq delimiter hzero 1
      rwa [hone] at hscan
    rw [if_neg hhead, hcopy]
    dsimp only
    have hpieces : ∀ piece ∈ rest.splitOn delimiter, '\x00' ∉ piece := by
      intro piece hpiece hmem
      rcases List.mem_cons.1 (Text.mem_of_mem_splitOn hpiece hmem) with hd | hmem
      · exact Text.not_mem_of_mem_splitOn hpiece (hd ▸ hmem)
      · exact hzero hmem
    rw [pickUp_eq hpieces (counted_toNat_le delimiter rest), Option.map_some]

/-! ### What a split is -/

/-- A number and the components of a string, without the delimiters in front of it. -/
structure Splits (s : String) (delimiter : Char) (components : Int) (outV : List String) : Prop where
  count : components = outV.length
  separate : ∀ component ∈ outV, delimiter ∉ component.toList
  joined : [delimiter].intercalate (outV.map String.toList) = s.toList.dropWhile (· = delimiter)
  empty : s.toList.dropWhile (· = delimiter) = [] → outV = []

theorem map_toList_ofList (pieces : List (List Char)) : (pieces.map String.ofList).map String.toList = pieces := by
  rw [List.map_map]
  exact List.map_congr_left (fun piece _ => String.toList_ofList) |>.trans (List.map_id _)

variable {s : String} {delimiter : Char}

/-- The scan finds the components that the model of the parsers takes. -/
theorem scan_refines (hzero : '\x00' ∉ s.toList) (hdelimiter : delimiter = '\x00' → s ≠ "")
    (hcount : (s.toList.dropWhile (· = delimiter)).count delimiter + 1 < 2 ^ 31) :
    stringSplit s delimiter =
      some (((OrionBroker.stringSplit s delimiter).length : Int), OrionBroker.stringSplit s delimiter) := by
  have hsplit := stringSplit_eq s delimiter
  rw [upTo_of_not_mem hzero] at hsplit
  dsimp only at hsplit
  rw [counted_of_lt hcount, Int.toNat_natCast, List.take_length] at hsplit
  unfold OrionBroker.stringSplit
  dsimp only
  by_cases hrest : s.toList.dropWhile (· = delimiter) = []
  · have hne : delimiter ≠ '\x00' := by
      rintro rfl
      have hnil : s.toList = [] := by
        cases hs : s.toList with
        | nil => rfl
        | cons c cs =>
          rw [hs] at hrest hzero
          rw [List.mem_cons, not_or] at hzero
          rw [List.dropWhile_cons_of_neg (by simpa using Ne.symm hzero.1)] at hrest
          cases hrest
      exact hdelimiter rfl (String.toList_eq_nil_iff.1 hnil)
    rw [if_pos hrest, if_neg hne] at hsplit
    rw [if_pos hrest]
    exact hsplit
  · rw [if_neg hrest] at hsplit
    rw [if_neg hrest, List.length_map]
    exact hsplit

theorem splits_stringSplit (s : String) (delimiter : Char) :
    Splits s delimiter (OrionBroker.stringSplit s delimiter).length (OrionBroker.stringSplit s delimiter) := by
  refine ⟨rfl, ?_, ?_, fun hrest => if_pos hrest⟩
  all_goals
    unfold OrionBroker.stringSplit
    dsimp only
    split
  · simp
  · intro component hcomponent
    obtain ⟨piece, hpiece, rfl⟩ := List.mem_map.1 hcomponent
    rw [String.toList_ofList]
    exact Text.not_mem_of_mem_splitOn hpiece
  · rename_i hrest
    rw [hrest]
    rfl
  · rw [map_toList_ofList]
    exact List.intercalate_splitOn delimiter

theorem mem_of_mem_intercalate {c d : Char} {pieces : List (List Char)} (h : c ∈ [d].intercalate pieces) :
    c = d ∨ ∃ piece ∈ pieces, c ∈ piece := by
  induction pieces with
  | nil => cases h
  | cons piece pieces ih =>
    cases pieces with
    | nil =>
      rw [List.intercalate_singleton] at h
      exact .inr ⟨piece, List.mem_cons_self, h⟩
    | cons next pieces =>
      rw [List.intercalate_cons_cons, List.mem_append, List.mem_append, List.mem_singleton] at h
      rcases h with (h | h) | h
      · exact .inr ⟨piece, List.mem_cons_self, h⟩
      · exact .inl h
      · rcases ih h with heq | ⟨piece', hmem, hc⟩
        · exact .inl heq
        · exact .inr ⟨piece', List.mem_cons_of_mem _ hmem, hc⟩

theorem mem_dropWhile_of_ne {c d : Char} {cs : List Char} (h : c ∈ cs) (hne : c ≠ d) : c ∈ cs.dropWhile (· = d) := by
  rw [← List.takeWhile_append_dropWhile (p := (· = d)) (l := cs), List.mem_append] at h
  refine h.resolve_left fun hmem => hne ?_
  simpa using List.mem_takeWhile_imp hmem

/-- What has been skipped and picked up. -/
theorem stringSplit_cases {components : Int} {outV : List String} {rest : List Char}
    (hrest : (upTo '\x00' s.toList).dropWhile (· = delimiter) = rest)
    (h : stringSplit s delimiter = some (components, outV)) :
    (rest = [] ∧ delimiter ≠ '\x00' ∧ outV = []) ∨
      (rest ≠ [] ∧ components = counted delimiter rest ∧
        outV = ((rest.splitOn delimiter).take (counted delimiter rest).toNat).map String.ofList) := by
  rw [stringSplit_eq] at h
  dsimp only at h
  rw [hrest] at h
  by_cases hnil : rest = []
  · rw [if_pos hnil] at h
    by_cases hdelimiter : delimiter = '\x00'
    · rw [if_pos hdelimiter] at h
      cases h
    · rw [if_neg hdelimiter, Option.some.injEq, Prod.mk.injEq] at h
      exact .inl ⟨hnil, hdelimiter, h.2.symm⟩
  · rw [if_neg hnil, Option.some.injEq, Prod.mk.injEq] at h
    exact .inr ⟨hnil, h.1.symm, h.2.symm⟩

/-- A zero as the delimiter divides nothing. -/
theorem splitOn_zero (s : String) :
    ((upTo '\x00' s.toList).dropWhile (· = '\x00')).splitOn '\x00' = [(upTo '\x00' s.toList).dropWhile (· = '\x00')] := by
  rw [List.splitOn_eq_splitOnP]
  refine List.splitOnP_eq_singleton fun c hc => ?_
  have hne : c ≠ '\x00' := fun heq => not_mem_upTo '\x00' s.toList (mem_of_mem_dropWhile (heq ▸ hc))
  simpa using hne

/-- The scan loses what stands behind a zero. -/
theorem not_mem_of_splits {components : Int} {outV : List String} (h : stringSplit s delimiter = some (components, outV))
    (hsplits : Splits s delimiter components outV) : '\x00' ∉ s.toList := by
  intro hmem
  have hzero : '\x00' ∉ (upTo '\x00' s.toList).dropWhile (· = delimiter) := fun hmem =>
    not_mem_upTo '\x00' s.toList (mem_of_mem_dropWhile hmem)
  have hcases := stringSplit_cases rfl h
  by_cases hdelimiter : delimiter = '\x00'
  · subst hdelimiter
    obtain ⟨-, hne, -⟩ | ⟨hne, -, houtV⟩ := hcases
    · exact hne rfl
    · rw [splitOn_zero] at houtV
      have hjoined := hsplits.joined
      have hskip : s.toList.dropWhile (· = '\x00') = s.toList := by
        cases hs : s.toList with
        | nil => rfl
        | cons c cs =>
          refine List.dropWhile_cons_of_neg fun hc => hne ?_
          rw [hs, upTo, List.takeWhile_cons_of_neg (by simpa using hc)]
          rfl
      rw [hskip, houtV, map_toList_ofList] at hjoined
      rw [← hjoined] at hmem
      cases htaken : (counted '\x00' ((upTo '\x00' s.toList).dropWhile (· = '\x00'))).toNat with
      | zero =>
        rw [htaken] at hmem
        cases hmem
      | succ n =>
        rw [htaken, List.take_succ_cons, List.take_nil, List.intercalate_singleton] at hmem
        exact hzero hmem
  · have hin := mem_dropWhile_of_ne hmem (Ne.symm hdelimiter)
    rw [← hsplits.joined] at hin
    rcases mem_of_mem_intercalate hin with heq | ⟨piece, hpiece, hc⟩
    · exact hdelimiter heq.symm
    · obtain ⟨component, hcomponent, rfl⟩ := List.mem_map.1 hpiece
      obtain ⟨-, -, houtV⟩ | ⟨-, -, houtV⟩ := hcases
      · rw [houtV] at hcomponent
        cases hcomponent
      · rw [houtV] at hcomponent
        obtain ⟨text, htext, rfl⟩ := List.mem_map.1 hcomponent
        rw [String.toList_ofList] at hc
        rcases List.mem_cons.1 (Text.mem_of_mem_splitOn (List.mem_of_mem_take htext) hc) with heq | hrest
        · exact hdelimiter heq.symm
        · exact hzero hrest

/-- The number of components is not too large for an `int`. -/
theorem count_lt_of_splits {components : Int} {outV : List String} (h : stringSplit s delimiter = some (components, outV))
    (hsplits : Splits s delimiter components outV) :
    (s.toList.dropWhile (· = delimiter)).count delimiter + 1 < 2 ^ 31 := by
  have hjoined := hsplits.joined
  have hcount := hsplits.count
  have hzero := not_mem_of_splits h hsplits
  have htext : (upTo '\x00' s.toList).dropWhile (· = delimiter) = s.toList.dropWhile (· = delimiter) := by
    rw [upTo_of_not_mem hzero]
  obtain ⟨hrest, -, -⟩ | ⟨hrest, hcomponents, houtV⟩ := stringSplit_cases htext h
  · rw [hrest, List.count_nil]
    decide
  · generalize s.toList.dropWhile (· = delimiter) = rest at hrest hcomponents houtV hjoined ⊢
    have hlt := counted_lt delimiter rest
    rw [houtV, map_toList_ofList] at hjoined
    have htaken : (rest.splitOn delimiter).take (counted delimiter rest).toNat ≠ [] := by
      intro hnil
      rw [hnil] at hjoined
      exact hrest hjoined.symm
    have hall := List.splitOn_intercalate delimiter
      (fun piece hpiece => Text.not_mem_of_mem_splitOn (List.mem_of_mem_take hpiece)) htaken
    rw [hjoined] at hall
    have hlength := congrArg List.length hall
    rw [List.length_take, length_splitOn] at hlength
    omega

/-- The result is the string taken apart if and only if the string has no zero and its components can be counted, and is
not empty if it is taken apart at zeros. -/
theorem scan_splits_iff (s : String) (delimiter : Char) :
    (∃ components outV, stringSplit s delimiter = some (components, outV) ∧ Splits s delimiter components outV) ↔
      '\x00' ∉ s.toList ∧ (delimiter = '\x00' → s ≠ "") ∧
        (s.toList.dropWhile (· = delimiter)).count delimiter + 1 < 2 ^ 31 := by
  constructor
  · rintro ⟨components, outV, h, hsplits⟩
    refine ⟨not_mem_of_splits h hsplits, ?_, count_lt_of_splits h hsplits⟩
    rintro rfl rfl
    cases h
  · rintro ⟨hzero, hdelimiter, hcount⟩
    exact ⟨_, _, scan_refines hzero hdelimiter hcount, splits_stringSplit s delimiter⟩

/-- Behind a zero nothing is read. -/
theorem zero_cuts : ¬∃ components outV, stringSplit "a\x00b" ',' = some (components, outV) ∧
    Splits "a\x00b" ',' components outV := by
  rintro ⟨components, outV, h, hsplits⟩
  exact not_mem_of_splits h hsplits (by decide)

end OrionBroker.Common
