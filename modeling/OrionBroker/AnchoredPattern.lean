import Mathlib

/-!
# Alternatives of anchored literals

The fragment of regular expressions in which a pattern is a list of alternatives separated by `|`, each of them a
literal between the anchors `^` and `$` with some characters escaped.  Such a pattern accepts a finite set of strings
(`language`); other patterns are outside the fragment.  The strings that are matched have no line break, so `$` stands
for their end.

`language_union` says that a pattern written from a list of literals accepts exactly these.
-/

namespace AnchoredPattern

/-- A character that stands for itself in a pattern. -/
def plain (c : Char) : Bool :=
  !(c ∈ ['\\', '^', '$', '.', '[', ']', '|', '(', ')', '?', '*', '+', '\x7b', '\x7d'])

/-- Put characters in front of the first alternative. -/
def prepend (p : List Char) : List (List Char) → List (List Char)
  | [] => [p]
  | a :: as => (p ++ a) :: as

/-- The alternatives of a pattern: it is split at the bars that are not escaped. -/
def alternatives : List Char → List (List Char)
  | [] => [[]]
  | [c] => if c = '|' then [[], []] else [[c]]
  | c :: d :: s =>
    if c = '\\' then prepend [c, d] (alternatives s)
    else if c = '|' then [] :: alternatives (d :: s)
    else prepend [c] (alternatives (d :: s))

/-- The characters up to the anchor at the end.  A backslash makes a literal of a character that is not a letter or a
digit. -/
def literalRest : List Char → Option (List Char)
  | [] => none
  | [c] => if c = '$' then some [] else none
  | c :: d :: s =>
    if c = '\\' then
      if d.isAlphanum then none else (literalRest s).map (d :: ·)
    else if plain c then (literalRest (d :: s)).map (c :: ·)
    else none

def literal : List Char → Option (List Char)
  | [] => none
  | c :: s => if c = '^' then literalRest s else none

/-- The strings that a pattern of the fragment accepts. -/
def language (pattern : String) : Option (List (List Char)) := (alternatives pattern.toList).mapM literal

def accepts (pattern s : String) : Bool := (language pattern).any fun literals => s.toList ∈ literals

/-! ### Writing a pattern -/

/-- The text of a literal in which the character `esc` is escaped. -/
def escape (esc : Char) (lit : List Char) : List Char := lit.flatMap fun c => if c = esc then ['\\', c] else [c]

def anchored (esc : Char) (lit : List Char) : List Char := '^' :: escape esc lit ++ ['$']

def union (esc : Char) (first : List Char) (rest : List (List Char)) : List Char :=
  anchored esc first ++ rest.flatMap fun lit => '|' :: anchored esc lit

private theorem prepend_append (p q : List Char) (as : List (List Char)) :
    prepend (p ++ q) as = prepend p (prepend q as) := by
  cases as with
  | nil => simp [prepend]
  | cons a as => simp [prepend]

private theorem alternatives_cons {c : Char} (h : c ≠ '\\') (hb : c ≠ '|') (s : List Char) :
    alternatives (c :: s) = prepend [c] (alternatives s) := by
  cases s with
  | nil => simp [alternatives, hb, prepend]
  | cons d s => simp [alternatives, h, hb]

private theorem alternatives_bar (s : List Char) : alternatives ('|' :: s) = [] :: alternatives s := by
  cases s with
  | nil => rfl
  | cons d s => rfl

private theorem alternatives_escaped (c : Char) (s : List Char) :
    alternatives ('\\' :: c :: s) = prepend ['\\', c] (alternatives s) := by
  simp [alternatives]

private theorem ne_of_plain {c d : Char} (hd : plain d = false) (hc : plain c = true) : c ≠ d := by
  rintro rfl
  rw [hd] at hc
  cases hc

private theorem alternatives_escape {esc : Char} {lit : List Char} (h : ∀ c ∈ lit, plain c = true) (s : List Char) :
    alternatives (escape esc lit ++ s) = prepend (escape esc lit) (alternatives s) := by
  induction lit with
  | nil =>
    have hne : alternatives s ≠ [] := by
      unfold alternatives
      split
      · simp
      · split <;> simp
      · split
        · unfold prepend; split <;> simp
        · split
          · simp
          · unfold prepend; split <;> simp
    obtain ⟨a, as, has⟩ := List.exists_cons_of_ne_nil hne
    simp [escape, has, prepend]
  | cons c lit ih =>
    have ih := ih fun d hd => h d (List.mem_cons_of_mem _ hd)
    have hc := h c List.mem_cons_self
    have hsplit : escape esc (c :: lit) = (if c = esc then ['\\', c] else [c]) ++ escape esc lit := by
      simp [escape]
    rw [hsplit, List.append_assoc, prepend_append, ← ih]
    by_cases he : c = esc
    · rw [if_pos he]
      exact alternatives_escaped c _
    · rw [if_neg he]
      exact alternatives_cons (ne_of_plain (by decide) hc) (ne_of_plain (by decide) hc) _

private theorem alternatives_anchored (esc : Char) {lit : List Char} (h : ∀ c ∈ lit, plain c = true) (s : List Char) :
    alternatives (anchored esc lit ++ s) = prepend (anchored esc lit) (alternatives s) := by
  have hend : alternatives (['$'] ++ s) = prepend ['$'] (alternatives s) := alternatives_cons (by decide) (by decide) s
  have hstart : anchored esc lit ++ s = '^' :: (escape esc lit ++ (['$'] ++ s)) := by simp [anchored]
  rw [hstart, alternatives_cons (by decide) (by decide), alternatives_escape h, hend, ← prepend_append,
    ← prepend_append]
  simp [anchored]

private theorem alternatives_union {esc : Char} {first : List Char} {rest : List (List Char)}
    (h : ∀ lit ∈ first :: rest, ∀ c ∈ lit, plain c = true) :
    alternatives (union esc first rest) = (first :: rest).map (anchored esc) := by
  induction rest generalizing first with
  | nil =>
    have := alternatives_anchored esc (h first List.mem_cons_self) []
    simpa [union, alternatives, prepend] using this
  | cons lit rest ih =>
    have ih := @ih lit fun l hl => h l (List.mem_cons_of_mem _ hl)
    have hsplit : union esc first (lit :: rest) = anchored esc first ++ '|' :: union esc lit rest := by
      simp [union]
    rw [hsplit, alternatives_anchored esc (h first List.mem_cons_self), alternatives_bar, ih]
    simp [prepend]

private theorem literalRest_escape {esc : Char} (hesc : esc.isAlphanum = false) {lit : List Char}
    (h : ∀ c ∈ lit, plain c = true) : literalRest (escape esc lit ++ ['$']) = some lit := by
  induction lit with
  | nil => rfl
  | cons c lit ih =>
    have ih := ih fun d hd => h d (List.mem_cons_of_mem _ hd)
    have hc := h c List.mem_cons_self
    by_cases he : c = esc
    · have hsplit : escape esc (c :: lit) ++ ['$'] = '\\' :: c :: (escape esc lit ++ ['$']) := by simp [escape, he]
      rw [hsplit]
      simp [literalRest, ih, he, hesc]
    · have hsplit : escape esc (c :: lit) ++ ['$'] = c :: (escape esc lit ++ ['$']) := by simp [escape, he]
      rw [hsplit]
      -- the definition looks one character ahead
      obtain ⟨d, s, hs⟩ := List.exists_cons_of_ne_nil (by simp : escape esc lit ++ ['$'] ≠ [])
      rw [hs] at ih ⊢
      simp [literalRest, ih, hc, ne_of_plain (d := '\\') (by decide) hc]

/-- A pattern written from literals accepts these and no others. -/
theorem language_union {esc : Char} (hesc : esc.isAlphanum = false) {first : List Char} {rest : List (List Char)}
    (h : ∀ lit ∈ first :: rest, ∀ c ∈ lit, plain c = true) {pattern : String}
    (hp : pattern.toList = union esc first rest) : language pattern = some (first :: rest) := by
  have hlit : ∀ lit ∈ first :: rest, literal (anchored esc lit) = some lit := by
    intro lit hl
    simp [literal, anchored, literalRest_escape hesc (h lit hl)]
  rw [language, hp, alternatives_union h]
  generalize first :: rest = lits at hlit
  induction lits with
  | nil => rfl
  | cons lit lits ih =>
    rw [List.map_cons, List.mapM_cons, hlit lit List.mem_cons_self, ih fun l hl => hlit l (List.mem_cons_of_mem _ hl)]
    rfl

end AnchoredPattern
