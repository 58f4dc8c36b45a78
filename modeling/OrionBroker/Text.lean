import Mathlib

/-!
# Strings as lists of characters

The string operations of the C++ standard library that the broker uses, defined on the list of characters of a
string so that they compute: the search for the first occurrence of a pattern (`find`), substrings, the
replacement of one character by another, and the case-insensitive comparison.

The key fact is `findList_append_iff`: a pattern is first met right after `n` in `n ++ pat ++ t` exactly if no
occurrence starts inside `n`, not even one that overlaps the pattern itself.
-/

namespace Text

/-- The position of the first occurrence of `pat` (`std::string::find`). -/
def findList (pat : List Char) : List Char → Option Nat
  | [] => if pat.isPrefixOf [] then some 0 else none
  | c :: s => if pat.isPrefixOf (c :: s) then some 0 else (findList pat s).map (· + 1)

def find (s pat : String) : Option Nat := findList pat.toList s.toList

/-- `std::string::substr`. -/
def substr (s : String) (pos len : Nat) : String := String.ofList ((s.toList.drop pos).take len)

/-- `std::replace` over the whole string. -/
def replaceChar (old new : Char) (s : String) : String :=
  String.ofList (s.toList.map fun c => if c = old then new else c)

theorem replaceChar_of_not_mem {old : Char} (new : Char) {s : String} (h : old ∉ s.toList) : replaceChar old new s = s := by
  apply String.ext
  unfold replaceChar
  rw [String.toList_ofList]
  conv => rhs; rw [← List.map_id s.toList]
  exact List.map_congr_left fun c hc => if_neg fun he : c = old => h (he ▸ hc)

/-- `strcasecmp(a, b) == 0`. -/
def strcasecmp (a b : String) : Bool := a.toList.map Char.toLower == b.toList.map Char.toLower

/-- `strncmp(a, b, n) == 0` for `n` at most the length of `a`: the first `n` characters of `a` start `b`. -/
def strncmp (a b : String) (n : Nat) : Bool := (a.toList.take n).isPrefixOf b.toList

/-! ### The first occurrence of a pattern -/

theorem findList_eq_none {pat s : List Char} : findList pat s = none ↔ ¬ pat <:+: s := by
  induction s with
  | nil =>
    unfold findList
    simp [List.isPrefixOf_iff_prefix]
  | cons c s ih =>
    unfold findList
    split
    · rename_i h
      have : pat <:+: c :: s := (List.isPrefixOf_iff_prefix.1 h).isInfix
      simp [this]
    · rename_i h
      rw [List.isPrefixOf_iff_prefix] at h
      rw [Option.map_eq_none_iff, ih, List.infix_cons_iff]
      simp [h]

private theorem findList_append {pat n : List Char} (t : List Char) (h : ¬ pat <:+: n ++ pat.dropLast) (hp : pat ≠ []) :
    findList pat (n ++ pat ++ t) = some n.length := by
  induction n with
  | nil =>
    obtain ⟨c, p, rfl⟩ := List.exists_cons_of_ne_nil hp
    have : (c :: p).isPrefixOf (c :: (p ++ t)) = true :=
      List.isPrefixOf_iff_prefix.2 (List.prefix_append (c :: p) t)
    simp [findList, this]
  | cons c n ih =>
    have hlen : pat.length = pat.dropLast.length + 1 := by
      have := List.length_pos_iff.2 hp
      simp; omega
    have hno : ¬ pat <+: c :: (n ++ pat ++ t) := by
      -- an occurrence at the head would end before the last character of `pat`
      intro hpre
      have hlong : c :: n ++ pat.dropLast <+: c :: (n ++ pat ++ t) := by
        rw [List.cons_append, List.cons_prefix_cons, List.append_assoc, List.prefix_append_right_inj]
        exact ⟨rfl, (List.dropLast_prefix pat).trans (List.prefix_append pat t)⟩
      have hle : pat.length ≤ (c :: n ++ pat.dropLast).length := by
        rw [List.length_append, List.length_cons, hlen]; omega
      exact h (List.prefix_of_prefix_length_le hpre hlong hle).isInfix
    have htail : ¬ pat <:+: n ++ pat.dropLast := fun hi => h (hi.trans (List.suffix_cons c _).isInfix)
    show findList pat (c :: (n ++ pat ++ t)) = _
    unfold findList
    rw [if_neg (by rwa [List.isPrefixOf_iff_prefix]), ih htail]
    simp

/-- What a search finds is an occurrence. -/
theorem findList_some {pat s : List Char} {i : Nat} (h : findList pat s = some i) :
    pat <+: s.drop i ∧ i ≤ s.length := by
  induction s generalizing i with
  | nil =>
    unfold findList at h
    split at h
    · rename_i hp
      cases h
      exact ⟨List.isPrefixOf_iff_prefix.1 hp, Nat.le_refl _⟩
    · cases h
  | cons c s ih =>
    unfold findList at h
    split at h
    · rename_i hp
      cases h
      exact ⟨List.isPrefixOf_iff_prefix.1 hp, Nat.zero_le _⟩
    · obtain ⟨j, hj, rfl⟩ := Option.map_eq_some_iff.1 h
      obtain ⟨h1, h2⟩ := ih hj
      exact ⟨by simpa using h1, by simpa using h2⟩

/-- What is found in the beginning of a list is found in the list. -/
theorem findList_append_right {pat s : List Char} {i : Nat} (t : List Char) (h : findList pat s = some i) :
    findList pat (s ++ t) = some i := by
  induction s generalizing i with
  | nil =>
    unfold findList at h
    split at h
    · rename_i hp
      cases h
      have hnil : pat = [] := List.prefix_nil.1 (List.isPrefixOf_iff_prefix.1 hp)
      subst hnil
      cases t <;> simp [findList]
    · cases h
  | cons c s ih =>
    unfold findList at h
    rw [List.cons_append]
    unfold findList
    split at h
    · rename_i hp
      cases h
      have hpre : pat <+: c :: (s ++ t) :=
        (List.isPrefixOf_iff_prefix.1 hp).trans (List.prefix_append (c :: s) t)
      rw [if_pos (List.isPrefixOf_iff_prefix.2 hpre)]
    · rename_i hp
      obtain ⟨j, hj, rfl⟩ := Option.map_eq_some_iff.1 h
      split
      · rename_i hp'
        -- an occurrence at the head would lie inside `c :: s`
        exfalso
        apply hp
        have hlen := (findList_some hj).1.length_le
        have hle := (findList_some hj).2
        rw [List.length_drop] at hlen
        refine List.isPrefixOf_iff_prefix.2 (List.prefix_of_prefix_length_le
          (List.isPrefixOf_iff_prefix.1 hp') (List.prefix_append (c :: s) t) ?_)
        rw [List.length_cons]
        omega
      · rw [ih hj]
        rfl

/-- A search finds the first occurrence. -/
theorem findList_le {pat s : List Char} {i j : Nat} (h : findList pat s = some i) (hj : pat <+: s.drop j) :
    i ≤ j := by
  induction s generalizing i j with
  | nil =>
    unfold findList at h
    split at h <;> cases h
    exact Nat.zero_le _
  | cons c s ih =>
    unfold findList at h
    split at h
    · cases h; exact Nat.zero_le _
    · rename_i hp
      obtain ⟨k, hk, rfl⟩ := Option.map_eq_some_iff.1 h
      cases j with
      | zero => exact absurd (List.isPrefixOf_iff_prefix.2 hj) hp
      | succ j => exact Nat.succ_le_succ (ih hk (by simpa using hj))

theorem findList_append_iff {pat n : List Char} (t : List Char) (hp : pat ≠ []) :
    findList pat (n ++ pat ++ t) = some n.length ↔ ¬ pat <:+: n ++ pat.dropLast := by
  refine ⟨fun h hocc => ?_, fun h => findList_append t h hp⟩
  obtain ⟨u, v, huv⟩ := hocc
  have hlen : u.length < n.length := by
    have h1 := congrArg List.length huv
    have h2 := List.length_pos_iff.2 hp
    simp only [List.length_append, List.length_dropLast] at h1
    omega
  have hdrop : pat <+: (n ++ pat ++ t).drop u.length := by
    have hpre : u ++ pat <+: n ++ pat ++ t := by
      refine (List.prefix_append (u ++ pat) v).trans ?_
      rw [huv, List.append_assoc n pat t, List.prefix_append_right_inj]
      exact (List.dropLast_prefix pat).trans (List.prefix_append pat t)
    obtain ⟨w, hw⟩ := hpre
    rw [← hw, List.append_assoc, List.drop_left]
    exact List.prefix_append pat w
  have := findList_le h hdrop
  omega

/-! ### Components between delimiters -/

/-- The components put together again, each with the delimiter in front. -/
theorem flatMap_splitOn (x : Char) (l : List Char) : (l.splitOn x).flatMap (x :: ·) = x :: l := by
  induction l with
  | nil => simp
  | cons c l ih =>
    rw [List.splitOn_cons_eq_if_modifyHead]
    split
    · rename_i hc
      rw [List.flatMap_cons, ih, beq_iff_eq.1 hc]
      rfl
    · obtain ⟨d, ds, hd⟩ := List.exists_cons_of_ne_nil (List.splitOn_ne_nil x l)
      rw [hd] at ih ⊢
      simp only [List.flatMap_cons, List.cons_append, List.modifyHead_cons, List.cons.injEq, true_and] at ih ⊢
      exact ih

theorem not_mem_of_mem_splitOn {x : Char} {l c : List Char} (h : c ∈ l.splitOn x) : x ∉ c := by
  induction l generalizing c with
  | nil =>
    rw [List.splitOn_nil, List.mem_singleton] at h
    simp [h]
  | cons d l ih =>
    rw [List.splitOn_cons_eq_if_modifyHead] at h
    obtain ⟨e, es, he⟩ := List.exists_cons_of_ne_nil (List.splitOn_ne_nil x l)
    rw [he] at h ih
    split at h
    · rcases List.mem_cons.1 h with rfl | h
      · simp
      · exact ih h
    · rename_i hd
      rw [List.modifyHead_cons] at h
      rcases List.mem_cons.1 h with rfl | h
      · intro hx
        rcases List.mem_cons.1 hx with rfl | hx
        · exact hd (beq_self_eq_true x)
        · exact ih List.mem_cons_self hx
      · exact ih (List.mem_cons_of_mem _ h)

theorem mem_of_mem_splitOn {x d : Char} {l c : List Char} (h : c ∈ l.splitOn x) (hd : d ∈ c) : d ∈ x :: l := by
  rw [← flatMap_splitOn]
  exact List.mem_flatMap.2 ⟨c, h, List.mem_cons_of_mem x hd⟩

/-- A text ends where one of the components does exactly if it is made of the first ones. -/
theorem boundary_iff {x : Char} {cs : List (List Char)} (h : ∀ c ∈ cs, x ∉ c) {s : List Char} :
    (s = cs.flatMap (x :: ·) ∨ s ++ [x] <+: cs.flatMap (x :: ·)) ↔
      ∃ n ≤ cs.length, s = (cs.take n).flatMap (x :: ·) := by
  induction cs generalizing s with
  | nil => simp
  | cons c cs ih =>
    have ih := fun s => @ih (fun d hd => h d (List.mem_cons_of_mem _ hd)) s
    have hc := h c List.mem_cons_self
    cases s with
    | nil => exact ⟨fun _ => ⟨0, Nat.zero_le _, rfl⟩, fun _ => Or.inr (by simp)⟩
    | cons d s =>
      constructor
      · intro hb
        -- the first component is part of the text, as it has no delimiter
        obtain ⟨rest, hs, hb'⟩ : ∃ rest, d :: s = x :: c ++ rest ∧
            (rest = cs.flatMap (x :: ·) ∨ rest ++ [x] <+: cs.flatMap (x :: ·)) := by
          rcases hb with hb | ⟨t, ht⟩
          · exact ⟨_, hb, Or.inl rfl⟩
          · rw [List.flatMap_cons, List.append_assoc] at ht
            rcases List.append_eq_append_iff.1 ht with ⟨u, hu, hv⟩ | ⟨u, hu, hv⟩
            · cases u with
              | nil =>
                refine ⟨[], by simpa using hu.symm, Or.inr ⟨t, ?_⟩⟩
                simpa using hv
              | cons e u =>
                rw [List.cons_append, List.nil_append, List.cons_append, List.cons.injEq] at hv
                have : x ∈ s ++ e :: u := by rw [← hv.1]; simp
                rw [List.cons_append, List.cons.injEq] at hu
                exact absurd (hu.2 ▸ this) hc
            · exact ⟨u, hu, Or.inr ⟨t, by rw [List.append_assoc]; exact hv.symm⟩⟩
        obtain ⟨n, hn, hrest⟩ := (ih rest).1 hb'
        refine ⟨n + 1, Nat.succ_le_succ hn, ?_⟩
        rw [hs, List.take_succ_cons, List.flatMap_cons, hrest]
      · rintro ⟨n, hn, hs⟩
        cases n with
        | zero => simp at hs
        | succ n =>
          rw [List.take_succ_cons, List.flatMap_cons] at hs
          rw [hs, List.flatMap_cons]
          rcases (ih _).2 ⟨n, Nat.le_of_succ_le_succ hn, rfl⟩ with he | hp
          · exact Or.inl (by rw [← he])
          · refine Or.inr ?_
            rw [List.append_assoc, List.prefix_append_right_inj]
            exact hp

end Text
