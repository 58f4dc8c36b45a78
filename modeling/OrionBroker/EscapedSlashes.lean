import OrionBroker.JsonText

/-!
# Escaped slashes

The text without the backslashes that stand directly before slashes (`unescaped`), and what is read of it as JSON.  An
escaped slash becomes a plain one; but where the backslash is the second half of an escaped backslash, the first half
then escapes the slash, and the string loses a character.  A text with a value keeps it exactly if that happens nowhere
(`parse_unescaped_iff`).
-/

namespace EscapedSlashes

open JsonText

/-! ### The text that is left -/

/-- The text without the backslashes directly before slashes. -/
def unescaped : List Char → List Char
  | [] => []
  | c :: rest => if c = '\\' ∧ rest.head? = some '/' then unescaped rest else c :: unescaped rest

@[simp] theorem unescaped_nil : unescaped [] = [] := rfl

theorem unescaped_cons {c : Char} (hc : c ≠ '\\') (rest : List Char) : unescaped (c :: rest) = c :: unescaped rest := by
  rw [unescaped, if_neg fun h => hc h.1]

theorem unescaped_keeps {rest : List Char} (hrest : rest.head? ≠ some '/') :
    unescaped ('\\' :: rest) = '\\' :: unescaped rest := by
  rw [unescaped, if_neg fun h => hrest h.2]

theorem unescaped_drops (rest : List Char) : unescaped ('\\' :: '/' :: rest) = '/' :: unescaped rest := by
  rw [unescaped, if_pos ⟨rfl, rfl⟩, unescaped_cons (by decide)]

/-- A text without an escaped slash stays. -/
theorem unescaped_eq_self {text : List Char} (h : ¬['\\', '/'] <:+: text) : unescaped text = text := by
  induction text with
  | nil => rfl
  | cons c rest ih =>
    rw [unescaped, if_neg, ih fun hrest => h (List.infix_cons hrest)]
    rintro ⟨rfl, hslash⟩
    cases rest with
    | nil => cases hslash
    | cons d rest =>
      cases hslash
      exact h ⟨[], rest, rfl⟩

theorem subset_of_unescaped (text : List Char) : unescaped text ⊆ text := by
  induction text with
  | nil => exact List.Subset.refl _
  | cons c rest ih =>
    rw [unescaped]
    split
    · exact List.subset_cons_of_subset c ih
    · exact List.cons_subset_cons c ih

/-! ### Reading the text that is left -/

/-- A text begins with an escaped slash, or with a character that stays. -/
theorem unescaped_cases (text : List Char) :
    text = [] ∨ (∃ rest, text = '\\' :: '/' :: rest) ∨
      ∃ c rest, text = c :: rest ∧ unescaped (c :: rest) = c :: unescaped rest := by
  cases text with
  | nil => exact .inl rfl
  | cons c rest =>
    by_cases hc : c = '\\' ∧ rest.head? = some '/'
    · obtain ⟨rfl, hhead⟩ := hc
      cases rest with
      | nil => cases hhead
      | cons d rest =>
        cases hhead
        exact .inr (.inl ⟨rest, rfl⟩)
    · exact .inr (.inr ⟨c, rest, rfl, by rw [unescaped, if_neg hc]⟩)

/-- A character that is left, other than a slash, begins the text itself. -/
theorem of_unescaped_cons {text more : List Char} {c : Char} (hslash : c ≠ '/') (h : unescaped text = c :: more) :
    ∃ rest, text = c :: rest ∧ more = unescaped rest := by
  obtain rfl | ⟨rest, rfl⟩ | ⟨d, rest, rfl, hd⟩ := unescaped_cases text
  · cases h
  · rw [unescaped_drops] at h
    exact absurd (List.cons.inj h).1.symm hslash
  · rw [hd] at h
    cases h
    exact ⟨rest, rfl, rfl⟩

/-- A slash that is left is one of the text, with or without a backslash. -/
theorem of_unescaped_slash {text more : List Char} (h : unescaped text = '/' :: more) :
    ∃ rest, (text = '/' :: rest ∨ text = '\\' :: '/' :: rest) ∧ more = unescaped rest := by
  obtain rfl | ⟨rest, rfl⟩ | ⟨d, rest, rfl, hd⟩ := unescaped_cases text
  · cases h
  · rw [unescaped_drops] at h
    cases h
    exact ⟨rest, .inr rfl, rfl⟩
  · rw [hd] at h
    cases h
    exact ⟨rest, .inl rfl, rfl⟩

theorem of_unescaped_nil {text : List Char} (h : unescaped text = []) : text = [] := by
  obtain rfl | ⟨rest, rfl⟩ | ⟨d, rest, rfl, hd⟩ := unescaped_cases text
  · rfl
  · rw [unescaped_drops] at h
    cases h
  · rw [hd] at h
    cases h

/-- Characters of a kind without backslashes and slashes are taken from what is left as from the text. -/
theorem span_unescaped {p : Char → Bool} (hbackslash : p '\\' = false) (hslash : p '/' = false) (text : List Char) :
    (unescaped text).takeWhile p = text.takeWhile p ∧ (unescaped text).dropWhile p = unescaped (text.dropWhile p) := by
  induction text with
  | nil => exact ⟨rfl, rfl⟩
  | cons c rest ih =>
    obtain hnil | ⟨rest, heq⟩ | ⟨c, rest, heq, hc⟩ := unescaped_cases (c :: rest)
    · cases hnil
    · rw [heq, unescaped_drops]
      simp [unescaped_drops, hbackslash, hslash]
    · cases heq
      rw [hc, List.takeWhile_cons, List.takeWhile_cons, List.dropWhile_cons, List.dropWhile_cons]
      cases hp : p c with
      | true => simp [ih]
      | false => simp [hc]

theorem skipWhitespace_unescaped (text : List Char) :
    skipWhitespace (unescaped text) = unescaped (skipWhitespace text) := (span_unescaped rfl rfl text).2

/-! #### Numbers -/

/-- What is read is the same, and of the rest it is what is left. -/
def Same {α : Type} (read : List Char → Option (α × List Char)) : Prop :=
  ∀ text, read (unescaped text) = (read text).map fun (a, rest) => (a, unescaped rest)

theorem same_readDigits : Same readDigits := by
  intro text
  obtain ⟨htake, hdrop⟩ := span_unescaped (p := Char.isDigit) rfl rfl text
  unfold readDigits
  rw [List.span_eq_takeWhile_dropWhile, List.span_eq_takeWhile_dropWhile, htake, hdrop]
  cases text.takeWhile Char.isDigit <;> rfl

theorem readSign_unescaped (text : List Char) :
    readSign (unescaped text) = ((readSign text).1, unescaped (readSign text).2) := by
  obtain rfl | ⟨rest, rfl⟩ | ⟨c, rest, rfl, hc⟩ := unescaped_cases text
  · rfl
  · rw [unescaped_drops]
    show (1, _) = ((1 : Int), unescaped ('\\' :: '/' :: rest))
    rw [unescaped_drops]
  · by_cases hsign : c = '-'
    · subst hsign
      rw [hc]
      rfl
    · have hread : ∀ text, readSign (c :: text) = (1, c :: text) := by
        intro text
        unfold readSign
        split
        · next heq => exact absurd (List.cons.inj heq).1 hsign
        · rfl
      rw [hc, hread, hread, hc]

/-- A part of a number that may begin with a certain character, and is read otherwise without it. -/
theorem same_of_head {α : Type} {read other : List Char → Option (α × List Char)} {first : Char → Bool}
    (hbackslash : first '\\' = false) (hslash : first '/' = false)
    (hother : ∀ text, (∀ c rest, text = c :: rest → first c = false) → read text = other text) (hsame : Same other)
    (hread : ∀ c, first c = true → Same fun text => read (c :: text)) : Same read := by
  intro text
  have hwithout (hfirst : ∀ c rest, text = c :: rest → first c = false)
      (hfirst' : ∀ c rest, unescaped text = c :: rest → first c = false) :
      read (unescaped text) = (read text).map fun (a, rest) => (a, unescaped rest) := by
    rw [hother text hfirst, hother (unescaped text) hfirst']
    exact hsame text
  obtain rfl | ⟨rest, rfl⟩ | ⟨c, rest, rfl, hc⟩ := unescaped_cases text
  · exact hwithout nofun nofun
  · refine hwithout (fun _ _ heq => ?_) fun _ _ heq => ?_
    · cases heq
      exact hbackslash
    · rw [unescaped_drops] at heq
      cases heq
      exact hslash
  · cases hfirst : first c with
    | true =>
      rw [hc]
      exact hread c hfirst rest
    | false =>
      refine hwithout (fun _ _ heq => ?_) fun _ _ heq => ?_
      · cases heq
        exact hfirst
      · rw [hc] at heq
        cases heq
        exact hfirst

theorem same_some {α : Type} (a : α) : Same fun text => some (a, text) := fun _ => rfl

theorem Same.map {α β : Type} {read : List Char → Option (α × List Char)} (h : Same read) (f : α → β) :
    Same fun text => (read text).map fun (a, rest) => (f a, rest) := by
  intro text
  show (read (unescaped text)).map _ = ((read text).map _).map _
  rw [h text]
  cases read text <;> rfl

theorem same_readFraction : Same readFraction := by
  refine @same_of_head _ _ _ (fun c => c = '.') rfl rfl ?_ (same_some none) ?_
  · intro text hother
    unfold readFraction
    split
    · exact absurd (hother _ _ rfl) (by decide)
    · rfl
  · intro c hc
    obtain rfl : c = '.' := of_decide_eq_true hc
    exact same_readDigits.map some

theorem same_readExponentDigits : Same readExponentDigits := by
  refine @same_of_head _ _ _ (fun c => c = '+' || c = '-') rfl rfl ?_
    (same_readDigits.map fun digits => (natOf digits : Int)) ?_
  · intro text hother
    unfold readExponentDigits
    split
    · exact absurd (hother _ _ rfl) (by decide)
    · exact absurd (hother _ _ rfl) (by decide)
    · rfl
  · intro c hc
    obtain hc | hc := Bool.or_eq_true_iff.1 hc
    · obtain rfl : c = '+' := of_decide_eq_true hc
      exact same_readDigits.map fun digits => (natOf digits : Int)
    · obtain rfl : c = '-' := of_decide_eq_true hc
      exact same_readDigits.map fun digits => -(natOf digits : Int)

theorem same_readExponent : Same readExponent := by
  refine @same_of_head _ _ _ (fun c => c = 'e' || c = 'E') rfl rfl ?_ (same_some none) ?_
  · intro text hother
    unfold readExponent
    split
    · exact absurd (hother _ _ rfl) (by decide)
    · exact absurd (hother _ _ rfl) (by decide)
    · rfl
  · intro c hc
    obtain hc | hc := Bool.or_eq_true_iff.1 hc
    · obtain rfl : c = 'e' := of_decide_eq_true hc
      exact same_readExponentDigits.map some
    · obtain rfl : c = 'E' := of_decide_eq_true hc
      exact same_readExponentDigits.map some

theorem same_readNumber : Same readNumber := by
  intro text
  rw [readNumber_eq, readNumber_eq, readSign_unescaped, same_readDigits]
  cases readDigits (readSign text).2 with
  | none => rfl
  | some r =>
    obtain ⟨whole, text'⟩ := r
    simp only [Option.map_some, Option.bind_some]
    split
    · rfl
    · rw [same_readFraction text']
      cases readFraction text' with
      | none => rfl
      | some r =>
        obtain ⟨fraction, text''⟩ := r
        simp only [Option.map_some, Option.bind_some]
        rw [same_readExponent text'']
        cases readExponent text'' <;> rfl

/-! #### Strings -/

theorem Same.bind {α β : Type} {read : List Char → Option (α × List Char)} (h : Same read)
    {next : α → List Char → Option (β × List Char)} (hnext : ∀ a, Same (next a)) :
    Same fun text => (read text).bind fun (a, rest) => next a rest := by
  intro text
  show (read (unescaped text)).bind _ = ((read text).bind _).map _
  rw [h text]
  cases read text with
  | none => rfl
  | some r => exact hnext r.1 r.2

def readHexDigit : List Char → Option (Nat × List Char)
  | c :: rest => (hexDigit c).map fun n => (n, rest)
  | [] => none

theorem same_readHexDigit : Same readHexDigit := by
  intro text
  obtain rfl | ⟨rest, rfl⟩ | ⟨c, rest, rfl, hc⟩ := unescaped_cases text
  · rfl
  · rw [unescaped_drops]
    rfl
  · rw [hc]
    show (hexDigit c).map _ = ((hexDigit c).map _).map _
    cases hexDigit c <;> rfl

theorem readCodeUnit_eq (text : List Char) :
    readCodeUnit text =
      (readHexDigit text).bind fun (a, text) => (readHexDigit text).bind fun (b, text) =>
        (readHexDigit text).bind fun (c, text) => (readHexDigit text).map fun (d, text) =>
          (((a * 16 + b) * 16 + c) * 16 + d, text) := by
  rcases text with _ | ⟨a, _ | ⟨b, _ | ⟨c, _ | ⟨d, rest⟩⟩⟩⟩
  · rfl
  · cases ha : hexDigit a <;> simp [readCodeUnit, readHexDigit, ha]
  · cases ha : hexDigit a <;> cases hb : hexDigit b <;> simp [readCodeUnit, readHexDigit, ha, hb]
  · cases ha : hexDigit a <;> cases hb : hexDigit b <;> cases hc : hexDigit c <;>
      simp [readCodeUnit, readHexDigit, ha, hb, hc]
  · cases ha : hexDigit a <;> cases hb : hexDigit b <;> cases hc : hexDigit c <;> cases hd : hexDigit d <;>
      simp [readCodeUnit, codeUnit, readHexDigit, ha, hb, hc, hd]

theorem same_readCodeUnit : Same readCodeUnit := by
  have heq : readCodeUnit = _ := funext readCodeUnit_eq
  rw [heq]
  exact same_readHexDigit.bind fun a => same_readHexDigit.bind fun b => same_readHexDigit.bind fun c =>
    same_readHexDigit.map fun d => ((a * 16 + b) * 16 + c) * 16 + d

/-- The number of escaped backslashes directly before a slash. -/
def broken : List Char → Nat
  | '\\' :: '\\' :: rest => (if rest.head? = some '/' then 1 else 0) + broken rest
  | '\\' :: _ :: rest => broken rest
  | _ :: rest => broken rest
  | [] => 0

theorem broken_cons {c : Char} (hc : c ≠ '\\') (rest : List Char) : broken (c :: rest) = broken rest := by
  rw [broken]
  · exact fun _ h => absurd h hc
  · exact fun _ _ h => absurd h hc

theorem broken_escape {e : Char} (he : e ≠ '\\') (rest : List Char) : broken ('\\' :: e :: rest) = broken rest := by
  rw [broken]
  exact he

theorem broken_pair (rest : List Char) :
    broken ('\\' :: '\\' :: rest) = (if rest.head? = some '/' then 1 else 0) + broken rest := by
  rw [broken]

theorem hexDigit_backslash : hexDigit '\\' = none := rfl

theorem broken_readCodeUnit {text rest : List Char} {unit : Nat} (h : readCodeUnit text = some (unit, rest)) :
    broken text = broken rest := by
  have hdigit {text rest : List Char} {n : Nat} (h : readHexDigit text = some (n, rest)) : broken text = broken rest := by
    cases text with
    | nil => cases h
    | cons c text =>
      obtain ⟨n, hn, he⟩ := Option.map_eq_some_iff.1 h
      cases he
      refine broken_cons (fun hc => ?_) _
      rw [hc, hexDigit_backslash] at hn
      cases hn
  rw [readCodeUnit_eq] at h
  obtain ⟨⟨a, t₁⟩, ha, h⟩ := Option.bind_eq_some_iff.1 h
  obtain ⟨⟨b, t₂⟩, hb, h⟩ := Option.bind_eq_some_iff.1 h
  obtain ⟨⟨c, t₃⟩, hc, h⟩ := Option.bind_eq_some_iff.1 h
  obtain ⟨⟨d, t₄⟩, hd, he⟩ := Option.map_eq_some_iff.1 h
  cases he
  rw [hdigit ha, hdigit hb, hdigit hc, hdigit hd]

/-- A character is read of what is left as of the text, unless it is an escaped backslash before a slash. -/
theorem readsCharacter_unescaped {text rest : List Char} {c : Char} (h : ReadsCharacter text c rest) :
    text = '\\' :: '\\' :: rest ∧ c = '\\' ∧ rest.head? = some '/' ∨
      ReadsCharacter (unescaped text) c (unescaped rest) ∧ broken text = broken rest := by
  cases h with
  | plain h =>
    rw [unescaped_cons h.2.2]
    exact .inr ⟨.plain h, broken_cons h.2.2 rest⟩
  | @escape e c rest h =>
    by_cases hback : e = '\\'
    · subst hback
      cases h
      by_cases hslash : rest.head? = some '/'
      · exact .inl ⟨rfl, rfl, hslash⟩
      · rw [unescaped_keeps (by simp), unescaped_keeps hslash]
        exact .inr ⟨.escape rfl, by rw [broken_pair, if_neg hslash, Nat.zero_add]⟩
    · by_cases hslash : e = '/'
      · subst hslash
        cases h
        rw [unescaped_drops]
        exact .inr ⟨.plain ⟨by decide, by decide, by decide⟩, broken_escape hback rest⟩
      · rw [unescaped_keeps (by simpa using hslash), unescaped_cons hback]
        exact .inr ⟨.escape h, broken_escape hback rest⟩
  | @unit text rest unit h hunit =>
    rw [unescaped_keeps (by simp), unescaped_cons (by decide)]
    refine .inr ⟨.unit ?_ hunit, by rw [broken_escape (by decide), broken_readCodeUnit h]⟩
    rw [same_readCodeUnit, h]
    rfl
  | @pair text text' rest unit low h hunit h' hlow =>
    rw [unescaped_keeps (by simp), unescaped_cons (by decide)]
    refine .inr ⟨@ReadsCharacter.pair _ (unescaped text') _ _ _ ?_ hunit ?_ hlow, ?_⟩
    · rw [same_readCodeUnit, h]
      show some (unit, unescaped ('\\' :: 'u' :: text')) = _
      rw [unescaped_keeps (by simp), unescaped_cons (by decide)]
    · rw [same_readCodeUnit, h']
      rfl
    · rw [broken_escape (by decide), broken_readCodeUnit h, broken_escape (by decide), broken_readCodeUnit h']

/-- What is read of what is left instead of a value `a`: each escaped backslash before a slash costs one character, and
without one the value is the same. -/
structure Changed {α : Type} (size : α → Nat) (text rest : List Char) (a a' : α) : Prop where
  le : broken rest ≤ broken text
  size : size a' + broken text = size a + broken rest
  same : broken text = broken rest → a' = a

theorem readString_unescaped {text s rest : List Char} (h : readString text = some (s, rest)) :
    ∃ s', readString (unescaped text) = some (s', unescaped rest) ∧ Changed List.length text rest s s' := by
  induction hn : s.length using Nat.strong_induction_on generalizing text s with
  | _ n ih =>
    subst hn
    obtain ⟨rfl, rfl⟩ | ⟨c, more, s, hc, hs, rfl⟩ := readString_iff.1 h
    · have hbroken : broken ('"' :: rest) = broken rest := broken_cons (by decide) rest
      rw [unescaped_cons (by decide)]
      exact ⟨[], readString_iff.2 (.inl ⟨rfl, rfl⟩), hbroken.ge, by rw [hbroken], fun _ => rfl⟩
    · obtain ⟨rfl, rfl, hslash⟩ | ⟨hc', hbroken⟩ := readsCharacter_unescaped hc
      · -- the slash is read with the backslash before it
        cases more with
        | nil => cases hslash
        | cons d more =>
          cases hslash
          obtain ⟨heq, -⟩ | ⟨d, more', s, hd, hs, rfl⟩ := readString_iff.1 hs
          · cases heq
          · cases hd
            obtain ⟨s', hs', hle, hsize, hsame⟩ := ih s.length (by simp) hs rfl
            have hbroken : broken ('\\' :: '\\' :: '/' :: more) = 1 + broken more := by
              rw [broken_pair, if_pos List.head?_cons, broken_cons (by decide)]
            rw [unescaped_keeps (by simp), unescaped_drops]
            refine ⟨'/' :: s', readString_iff.2 (.inr ⟨'/', _, s', .escape rfl, hs', rfl⟩), ?_, ?_, ?_⟩
            · omega
            · simp only [List.length_cons]
              omega
            · omega
      · obtain ⟨s', hs', hle, hsize, hsame⟩ := ih s.length (by simp) hs rfl
        refine ⟨c :: s', readString_iff.2 (.inr ⟨c, _, s', hc', hs', rfl⟩), ?_, ?_, ?_⟩
        · omega
        · simp only [List.length_cons]
          omega
        · intro heq
          rw [hsame (by omega)]

theorem Same.of_some {α : Type} {read : List Char → Option (α × List Char)} (h : Same read) {text rest' : List Char} {a : α}
    (hread : read (unescaped text) = some (a, rest')) : ∃ rest, read text = some (a, rest) ∧ rest' = unescaped rest := by
  rw [h text] at hread
  obtain ⟨⟨a, rest⟩, hsome, he⟩ := Option.map_eq_some_iff.1 hread
  cases he
  exact ⟨rest, hsome, rfl⟩

/-- A character that is read of what is left is one of the text, or the second of two. -/
theorem of_readsCharacter_unescaped {text rest' : List Char} {c : Char} (h : ReadsCharacter (unescaped text) c rest') :
    (∃ rest, ReadsCharacter text c rest ∧ rest' = unescaped rest) ∨
      ∃ rest, text = '\\' :: '\\' :: '/' :: rest ∧ rest' = unescaped rest := by
  generalize hleft : unescaped text = left at h
  cases h with
  | @plain c rest' h =>
    by_cases hslash : c = '/'
    · subst hslash
      obtain ⟨rest, rfl | rfl, rfl⟩ := of_unescaped_slash hleft
      · exact .inl ⟨rest, .plain h, rfl⟩
      · exact .inl ⟨rest, .escape rfl, rfl⟩
    · obtain ⟨rest, rfl, rfl⟩ := of_unescaped_cons hslash hleft
      exact .inl ⟨rest, .plain h, rfl⟩
  | @escape e c rest' h =>
    obtain ⟨more, rfl, hmore⟩ := of_unescaped_cons (by decide) hleft
    by_cases hslash : e = '/'
    · subst hslash
      obtain ⟨rest, rfl | rfl, rfl⟩ := of_unescaped_slash hmore.symm
      · rw [unescaped_drops] at hleft
        cases hleft
      · exact .inr ⟨rest, rfl, rfl⟩
    · obtain ⟨rest, rfl, rfl⟩ := of_unescaped_cons hslash hmore.symm
      exact .inl ⟨rest, .escape h, rfl⟩
  | @unit text' rest' unit h hunit =>
    obtain ⟨more, rfl, hmore⟩ := of_unescaped_cons (by decide) hleft
    obtain ⟨digits, rfl, rfl⟩ := of_unescaped_cons (by decide) hmore.symm
    obtain ⟨rest, hrest, rfl⟩ := same_readCodeUnit.of_some h
    exact .inl ⟨rest, .unit hrest hunit, rfl⟩
  | @pair text₁ text₂ rest' unit low h hunit h' hlow =>
    obtain ⟨more, rfl, hmore⟩ := of_unescaped_cons (by decide) hleft
    obtain ⟨digits, rfl, rfl⟩ := of_unescaped_cons (by decide) hmore.symm
    obtain ⟨next, hnext, hmore'⟩ := same_readCodeUnit.of_some h
    obtain ⟨more', rfl, hmore''⟩ := of_unescaped_cons (by decide) hmore'.symm
    obtain ⟨digits', rfl, rfl⟩ := of_unescaped_cons (by decide) hmore''.symm
    obtain ⟨rest, hrest, rfl⟩ := same_readCodeUnit.of_some h'
    exact .inl ⟨rest, .pair hnext hunit hrest hlow, rfl⟩

theorem of_readString_unescaped {text s' rest' : List Char} (h : readString (unescaped text) = some (s', rest')) :
    ∃ s rest, readString text = some (s, rest) ∧ rest' = unescaped rest := by
  induction s' generalizing text with
  | nil =>
    obtain ⟨hquote, -⟩ | ⟨_, _, _, _, _, he⟩ := readString_iff.1 h
    · obtain ⟨rest, rfl, rfl⟩ := of_unescaped_cons (by decide) hquote
      exact ⟨[], rest, readString_iff.2 (.inl ⟨rfl, rfl⟩), rfl⟩
    · cases he
  | cons c s' ih =>
    obtain ⟨-, he⟩ | ⟨_, more', _, hc, hs, he⟩ := readString_iff.1 h
    · cases he
    · cases he
      obtain ⟨more, hc', rfl⟩ | ⟨more, rfl, rfl⟩ := of_readsCharacter_unescaped hc
      · obtain ⟨s, rest, hread, hrest⟩ := ih hs
        exact ⟨c :: s, rest, hc'.readString hread, hrest⟩
      · obtain ⟨s, rest, hread, hrest⟩ := ih hs
        have hslash : ReadsCharacter ('/' :: more) '/' more := .plain ⟨by decide, by decide, by decide⟩
        have hback : ReadsCharacter ('\\' :: '\\' :: '/' :: more) '\\' ('/' :: more) := .escape rfl
        exact ⟨'\\' :: '/' :: s, rest, hback.readString (hslash.readString hread), hrest⟩

/-! #### Values -/

theorem broken_dropWhile {p : Char → Bool} (hbackslash : p '\\' = false) (text : List Char) :
    broken (text.dropWhile p) = broken text := by
  induction text with
  | nil => rfl
  | cons c rest ih =>
    rw [List.dropWhile_cons]
    cases hp : p c with
    | true =>
      have hc : c ≠ '\\' := by
        rintro rfl
        rw [hbackslash] at hp
        cases hp
      simp [ih, broken_cons hc]
    | false => simp

theorem broken_skipWhitespace (text : List Char) : broken (skipWhitespace text) = broken text := broken_dropWhile rfl text

theorem broken_readDigits {text digits rest : List Char} (h : readDigits text = some (digits, rest)) :
    broken rest = broken text := by
  have hdrop := broken_dropWhile (p := Char.isDigit) rfl text
  unfold readDigits at h
  rw [List.span_eq_takeWhile_dropWhile] at h
  cases htake : text.takeWhile Char.isDigit with
  | nil =>
    rw [htake] at h
    cases h
  | cons c digits' =>
    rw [htake] at h
    cases h
    exact hdrop

theorem broken_readSign (text : List Char) : broken (readSign text).2 = broken text := by
  unfold readSign
  split
  · exact (broken_cons (by decide) _).symm
  · rfl

theorem broken_readFraction {text rest : List Char} {fraction : Option (List Char)}
    (h : readFraction text = some (fraction, rest)) : broken rest = broken text := by
  unfold readFraction at h
  split at h
  · obtain ⟨⟨_, _⟩, hdigits, he⟩ := Option.map_eq_some_iff.1 h
    cases he
    rw [broken_readDigits hdigits, broken_cons (by decide)]
  · cases h
    rfl

theorem broken_readExponentDigits {text rest : List Char} {n : Int} (h : readExponentDigits text = some (n, rest)) :
    broken rest = broken text := by
  unfold readExponentDigits at h
  split at h
  · obtain ⟨⟨_, _⟩, hdigits, he⟩ := Option.map_eq_some_iff.1 h
    cases he
    rw [broken_readDigits hdigits, broken_cons (by decide)]
  · obtain ⟨⟨_, _⟩, hdigits, he⟩ := Option.map_eq_some_iff.1 h
    cases he
    rw [broken_readDigits hdigits, broken_cons (by decide)]
  · obtain ⟨⟨_, _⟩, hdigits, he⟩ := Option.map_eq_some_iff.1 h
    cases he
    exact broken_readDigits hdigits

theorem broken_readExponent {text rest : List Char} {exponent : Option Int}
    (h : readExponent text = some (exponent, rest)) : broken rest = broken text := by
  unfold readExponent at h
  split at h
  · obtain ⟨⟨_, _⟩, hdigits, he⟩ := Option.map_eq_some_iff.1 h
    cases he
    rw [broken_readExponentDigits hdigits, broken_cons (by decide)]
  · obtain ⟨⟨_, _⟩, hdigits, he⟩ := Option.map_eq_some_iff.1 h
    cases he
    rw [broken_readExponentDigits hdigits, broken_cons (by decide)]
  · cases h
    rfl

theorem broken_readNumber {text rest : List Char} {v : Json} (h : readNumber text = some (v, rest)) :
    broken rest = broken text := by
  rw [readNumber_eq] at h
  obtain ⟨⟨whole, text'⟩, hwhole, h⟩ := Option.bind_eq_some_iff.1 h
  simp only at h
  split at h
  · cases h
  · obtain ⟨⟨fraction, text''⟩, hfraction, h⟩ := Option.bind_eq_some_iff.1 h
    obtain ⟨⟨exponent, _⟩, hexponent, he⟩ := Option.map_eq_some_iff.1 h
    cases he
    rw [broken_readExponent hexponent, broken_readFraction hfraction, broken_readDigits hwhole, broken_readSign]

mutual

/-- The number of characters in the strings of a value, the names of its members included. -/
def characters : Json → Nat
  | .string s => s.toList.length
  | .array items => charactersOfItems items
  | .object members => charactersOfMembers members
  | _ => 0

def charactersOfItems : List Json → Nat
  | [] => 0
  | v :: items => characters v + charactersOfItems items

def charactersOfMembers : List (String × Json) → Nat
  | [] => 0
  | (name, v) :: members => name.toList.length + characters v + charactersOfMembers members

end

theorem Changed.refl {α : Type} {size : α → Nat} {text rest : List Char} (h : broken rest = broken text) (a : α) :
    Changed size text rest a a := ⟨h.le, by rw [h], fun _ => rfl⟩

/-- What a text changes, a longer text changes whose first part has no escaped backslash before a slash. -/
theorem Changed.of_broken {α : Type} {size : α → Nat} {text text' rest rest' : List Char} {a a' : α}
    (h : Changed size text rest a a') (htext : broken text' = broken text) (hrest : broken rest' = broken rest) :
    Changed size text' rest' a a' := by
  obtain ⟨hle, hsize, hsame⟩ := h
  refine ⟨by omega, by omega, fun heq => hsame (by omega)⟩

theorem Changed.map {α β : Type} {size : α → Nat} {size' : β → Nat} {text rest : List Char} {a a' : α}
    (h : Changed size text rest a a') (f : α → β) (hf : ∀ a, size' (f a) = size a) :
    Changed size' text rest (f a) (f a') := by
  obtain ⟨hle, hsize, hsame⟩ := h
  refine ⟨hle, ?_, fun heq => congrArg f (hsame heq)⟩
  rw [hf, hf]
  exact hsize

/-- Two parts of a value that are read one after the other. -/
theorem Changed.append {α β γ : Type} {size₁ : α → Nat} {size₂ : β → Nat} {size : γ → Nat} {text more rest : List Char}
    {a a' : α} {b b' : β} (h₁ : Changed size₁ text more a a') (h₂ : Changed size₂ more rest b b') (f : α → β → γ)
    (hf : ∀ a b, size (f a b) = size₁ a + size₂ b) : Changed size text rest (f a b) (f a' b') := by
  obtain ⟨hle₁, hsize₁, hsame₁⟩ := h₁
  obtain ⟨hle₂, hsize₂, hsame₂⟩ := h₂
  refine ⟨by omega, ?_, fun heq => ?_⟩
  · rw [hf, hf]
    omega
  · rw [hsame₁ (by omega), hsame₂ (by omega)]

/-- What follows white space and a character of the grammar. -/
theorem skip_unescaped {text rest : List Char} {c : Char} (hback : c ≠ '\\') (h : skipWhitespace text = c :: rest) :
    skipWhitespace (unescaped text) = c :: unescaped rest ∧ broken text = broken rest := by
  refine ⟨by rw [skipWhitespace_unescaped, h, unescaped_cons hback], ?_⟩
  rw [← broken_skipWhitespace, h, broken_cons hback]

theorem of_skip_unescaped {text rest' : List Char} {c : Char} (hslash : c ≠ '/')
    (h : skipWhitespace (unescaped text) = c :: rest') :
    ∃ rest, skipWhitespace text = c :: rest ∧ rest' = unescaped rest := by
  rw [skipWhitespace_unescaped] at h
  exact of_unescaped_cons hslash h

/-- What is read of a text, read of what is left of it. -/
theorem read_unescaped (fuel : Nat) :
    (∀ {text rest : List Char} {v : Json}, readValue fuel text = some (v, rest) →
      ∃ v', readValue fuel (unescaped text) = some (v', unescaped rest) ∧ Changed characters text rest v v') ∧
    (∀ {text rest : List Char} {items : List Json}, readItems fuel text = some (items, rest) →
      ∃ items', readItems fuel (unescaped text) = some (items', unescaped rest) ∧
        Changed charactersOfItems text rest items items') ∧
    (∀ {text rest : List Char} {members : List (String × Json)}, readMembers fuel text = some (members, rest) →
      ∃ members', readMembers fuel (unescaped text) = some (members', unescaped rest) ∧
        Changed charactersOfMembers text rest members members') := by
  induction fuel with
  | zero =>
    refine ⟨?_, ?_, ?_⟩
    · intro text rest v h; rw [readValue] at h; cases h
    · intro text rest items h; rw [readItems] at h; cases h
    · intro text rest members h; rw [readMembers] at h; cases h
  | succ fuel ih =>
    obtain ⟨ihValue, ihItems, ihMembers⟩ := ih
    refine ⟨?_, ?_, ?_⟩
    · intro text rest v h
      rw [readValue_iff] at h
      have hvalue : ∃ v', ReadsValue fuel (unescaped (skipWhitespace text)) v' (unescaped rest) ∧
          Changed characters (skipWhitespace text) rest v v' := by
        generalize skipWhitespace text = text at h ⊢
        cases h with
        | null => exact ⟨_, by simpa [unescaped] using .null, .refl (by simp [broken]) _⟩
        | true => exact ⟨_, by simpa [unescaped] using .true, .refl (by simp [broken]) _⟩
        | false => exact ⟨_, by simpa [unescaped] using .false, .refl (by simp [broken]) _⟩
        | string h =>
          obtain ⟨s', hs', hchanged⟩ := readString_unescaped h
          rw [unescaped_cons (by decide)]
          refine ⟨_, .string hs', (hchanged.of_broken (broken_cons (by decide) _) rfl).map
            (fun s => Json.string (String.ofList s)) fun s => ?_⟩
          rw [characters, String.toList_ofList]
        | emptyArray h =>
          obtain ⟨hend, hbroken⟩ := skip_unescaped (by decide) h
          rw [unescaped_cons (by decide)]
          exact ⟨_, .emptyArray hend, .refl (by rw [broken_cons (by decide), hbroken]) _⟩
        | array hne h =>
          obtain ⟨items', hitems, hchanged⟩ := ihItems h
          rw [unescaped_cons (by decide)]
          refine ⟨_, .array (fun more hmore => ?_) hitems, (hchanged.of_broken (broken_cons (by decide) _) rfl).map
            Json.array fun items => by rw [characters]⟩
          obtain ⟨more', hmore', -⟩ := of_skip_unescaped (by decide) hmore
          exact hne more' hmore'
        | emptyObject h =>
          obtain ⟨hend, hbroken⟩ := skip_unescaped (by decide) h
          rw [unescaped_cons (by decide)]
          exact ⟨_, .emptyObject hend, .refl (by rw [broken_cons (by decide), hbroken]) _⟩
        | object hne h =>
          obtain ⟨members', hmembers, hchanged⟩ := ihMembers h
          rw [unescaped_cons (by decide)]
          refine ⟨_, .object (fun more hmore => ?_) hmembers, (hchanged.of_broken (broken_cons (by decide) _) rfl).map
            Json.object fun members => by rw [characters]⟩
          obtain ⟨more', hmore', -⟩ := of_skip_unescaped (by decide) hmore
          exact hne more' hmore'
        | number h =>
          refine ⟨_, .number ?_, .refl (broken_readNumber h) v⟩
          rw [same_readNumber, h]
          rfl
      obtain ⟨v', hv', hchanged⟩ := hvalue
      refine ⟨v', readValue_iff.2 ?_, hchanged.of_broken (broken_skipWhitespace text).symm rfl⟩
      rw [skipWhitespace_unescaped]
      exact hv'
    · intro text rest items h
      obtain ⟨v, more, hv, hmore⟩ := readItems_iff.1 h
      obtain ⟨v', hv', hchanged⟩ := ihValue hv
      obtain ⟨hend, rfl⟩ | ⟨more', items, hcomma, hitems, rfl⟩ := hmore
      · obtain ⟨hend', hbroken⟩ := skip_unescaped (by decide) hend
        refine ⟨[v'], readItems_iff.2 ⟨v', _, hv', .inl ⟨hend', rfl⟩⟩, ?_⟩
        exact (hchanged.of_broken rfl hbroken.symm).map (fun v => [v]) fun v => rfl
      · obtain ⟨hcomma', hbroken⟩ := skip_unescaped (by decide) hcomma
        obtain ⟨items', hitems', hchanged'⟩ := ihItems hitems
        refine ⟨v' :: items', readItems_iff.2 ⟨v', _, hv', .inr ⟨_, items', hcomma', hitems', rfl⟩⟩, ?_⟩
        exact hchanged.append (hchanged'.of_broken hbroken rfl) List.cons fun v items => by rw [charactersOfItems]
    · intro text rest members h
      obtain ⟨text', name, colon, value, v, more, htext, hname, hcolon, hv, hmore⟩ := readMembers_iff.1 h
      obtain ⟨htext', hbroken₁⟩ := skip_unescaped (by decide) htext
      obtain ⟨name', hname', hchanged₁⟩ := readString_unescaped hname
      obtain ⟨hcolon', hbroken₂⟩ := skip_unescaped (by decide) hcolon
      obtain ⟨v', hv', hchanged₂⟩ := ihValue hv
      have hmember : Changed (fun m : String × Json => m.1.toList.length + characters m.2) text more
          (String.ofList name, v) (String.ofList name', v') :=
        (hchanged₁.of_broken hbroken₁ rfl).append (hchanged₂.of_broken hbroken₂ rfl)
          (fun name v => (String.ofList name, v)) fun name v => by rw [String.toList_ofList]
      obtain ⟨hend, rfl⟩ | ⟨more', members, hcomma, hmembers, rfl⟩ := hmore
      · obtain ⟨hend', hbroken₃⟩ := skip_unescaped (by decide) hend
        refine ⟨_, readMembers_iff.2
          ⟨_, name', _, _, v', _, htext', hname', hcolon', hv', .inl ⟨hend', rfl⟩⟩, ?_⟩
        exact (hmember.of_broken rfl hbroken₃.symm).map (fun m => [m]) fun m => rfl
      · obtain ⟨hcomma', hbroken₃⟩ := skip_unescaped (by decide) hcomma
        obtain ⟨members', hmembers', hchanged₃⟩ := ihMembers hmembers
        refine ⟨_, readMembers_iff.2
          ⟨_, name', _, _, v', _, htext', hname', hcolon', hv', .inr ⟨_, members', hcomma', hmembers', rfl⟩⟩, ?_⟩
        exact hmember.append (hchanged₃.of_broken hbroken₃ rfl) List.cons fun m members => by rw [charactersOfMembers]

/-- What is read of what is left is read of the text. -/
theorem of_read_unescaped (fuel : Nat) :
    (∀ {text rest' : List Char} {v' : Json}, readValue fuel (unescaped text) = some (v', rest') →
      ∃ v rest, readValue fuel text = some (v, rest) ∧ rest' = unescaped rest) ∧
    (∀ {text rest' : List Char} {items' : List Json}, readItems fuel (unescaped text) = some (items', rest') →
      ∃ items rest, readItems fuel text = some (items, rest) ∧ rest' = unescaped rest) ∧
    (∀ {text rest' : List Char} {members' : List (String × Json)},
      readMembers fuel (unescaped text) = some (members', rest') →
      ∃ members rest, readMembers fuel text = some (members, rest) ∧ rest' = unescaped rest) := by
  induction fuel with
  | zero =>
    refine ⟨?_, ?_, ?_⟩
    · intro text rest' v' h; rw [readValue] at h; cases h
    · intro text rest' items' h; rw [readItems] at h; cases h
    · intro text rest' members' h; rw [readMembers] at h; cases h
  | succ fuel ih =>
    obtain ⟨ihValue, ihItems, ihMembers⟩ := ih
    refine ⟨?_, ?_, ?_⟩
    · intro text rest' v' h
      rw [readValue_iff, skipWhitespace_unescaped] at h
      have hvalue : ∃ v rest, ReadsValue fuel (skipWhitespace text) v rest ∧ rest' = unescaped rest := by
        generalize skipWhitespace text = text at h ⊢
        generalize hleft : unescaped text = left at h
        -- the characters of a literal are characters of the text
        have hcons {c : Char} {text more : List Char} (hc : c ≠ '/') (heq : unescaped text = c :: more) :=
          of_unescaped_cons hc heq
        cases h with
        | null =>
          obtain ⟨t₁, rfl, h₁⟩ := hcons (by decide) hleft
          obtain ⟨t₂, rfl, h₂⟩ := hcons (by decide) h₁.symm
          obtain ⟨t₃, rfl, h₃⟩ := hcons (by decide) h₂.symm
          obtain ⟨t₄, rfl, h₄⟩ := hcons (by decide) h₃.symm
          exact ⟨_, t₄, .null, h₄⟩
        | true =>
          obtain ⟨t₁, rfl, h₁⟩ := hcons (by decide) hleft
          obtain ⟨t₂, rfl, h₂⟩ := hcons (by decide) h₁.symm
          obtain ⟨t₃, rfl, h₃⟩ := hcons (by decide) h₂.symm
          obtain ⟨t₄, rfl, h₄⟩ := hcons (by decide) h₃.symm
          exact ⟨_, t₄, .true, h₄⟩
        | false =>
          obtain ⟨t₁, rfl, h₁⟩ := hcons (by decide) hleft
          obtain ⟨t₂, rfl, h₂⟩ := hcons (by decide) h₁.symm
          obtain ⟨t₃, rfl, h₃⟩ := hcons (by decide) h₂.symm
          obtain ⟨t₄, rfl, h₄⟩ := hcons (by decide) h₃.symm
          obtain ⟨t₅, rfl, h₅⟩ := hcons (by decide) h₄.symm
          exact ⟨_, t₅, .false, h₅⟩
        | string h =>
          obtain ⟨more, rfl, rfl⟩ := hcons (by decide) hleft
          obtain ⟨s, rest, hs, hrest⟩ := of_readString_unescaped h
          exact ⟨_, rest, .string hs, hrest⟩
        | emptyArray h =>
          obtain ⟨more, rfl, rfl⟩ := hcons (by decide) hleft
          obtain ⟨rest, hend, hrest⟩ := of_skip_unescaped (by decide) h
          exact ⟨_, rest, .emptyArray hend, hrest⟩
        | array hne h =>
          obtain ⟨more, rfl, rfl⟩ := hcons (by decide) hleft
          obtain ⟨items, rest, hitems, hrest⟩ := ihItems h
          exact ⟨_, rest, .array (fun end_ hend => hne _ (skip_unescaped (by decide) hend).1) hitems, hrest⟩
        | emptyObject h =>
          obtain ⟨more, rfl, rfl⟩ := hcons (by decide) hleft
          obtain ⟨rest, hend, hrest⟩ := of_skip_unescaped (by decide) h
          exact ⟨_, rest, .emptyObject hend, hrest⟩
        | object hne h =>
          obtain ⟨more, rfl, rfl⟩ := hcons (by decide) hleft
          obtain ⟨members, rest, hmembers, hrest⟩ := ihMembers h
          exact ⟨_, rest, .object (fun end_ hend => hne _ (skip_unescaped (by decide) hend).1) hmembers, hrest⟩
        | number h =>
          subst hleft
          obtain ⟨rest, hnumber, hrest⟩ := same_readNumber.of_some h
          exact ⟨_, rest, .number hnumber, hrest⟩
      obtain ⟨v, rest, hv, hrest⟩ := hvalue
      exact ⟨v, rest, readValue_iff.2 hv, hrest⟩
    · intro text rest' items' h
      obtain ⟨v', more', hv', hmore⟩ := readItems_iff.1 h
      obtain ⟨v, more, hv, rfl⟩ := ihValue hv'
      obtain ⟨hend, -⟩ | ⟨next', items', hcomma, hitems', -⟩ := hmore
      · obtain ⟨rest, hend, hrest⟩ := of_skip_unescaped (by decide) hend
        exact ⟨[v], rest, readItems_iff.2 ⟨v, more, hv, .inl ⟨hend, rfl⟩⟩, hrest⟩
      · obtain ⟨next, hnext, rfl⟩ := of_skip_unescaped (by decide) hcomma
        obtain ⟨items, rest, hitems, hrest⟩ := ihItems hitems'
        exact ⟨v :: items, rest, readItems_iff.2 ⟨v, more, hv, .inr ⟨next, items, hnext, hitems, rfl⟩⟩, hrest⟩
    · intro text rest' members' h
      obtain ⟨text', name', colon', value', v', more', htext', hname', hcolon', hv', hmore⟩ := readMembers_iff.1 h
      obtain ⟨text'', htext, rfl⟩ := of_skip_unescaped (by decide) htext'
      obtain ⟨name, colon, hname, rfl⟩ := of_readString_unescaped hname'
      obtain ⟨value, hcolon, rfl⟩ := of_skip_unescaped (by decide) hcolon'
      obtain ⟨v, more, hv, rfl⟩ := ihValue hv'
      obtain ⟨hend, -⟩ | ⟨next', members', hcomma, hmembers', -⟩ := hmore
      · obtain ⟨rest, hend, hrest⟩ := of_skip_unescaped (by decide) hend
        exact ⟨_, rest, readMembers_iff.2
          ⟨text'', name, colon, value, v, more, htext, hname, hcolon, hv, .inl ⟨hend, rfl⟩⟩, hrest⟩
      · obtain ⟨next, hnext, rfl⟩ := of_skip_unescaped (by decide) hcomma
        obtain ⟨members, rest, hmembers, hrest⟩ := ihMembers hmembers'
        exact ⟨_, rest, readMembers_iff.2 ⟨text'', name, colon, value, v, more, htext, hname, hcolon, hv,
          .inr ⟨next, members, hnext, hmembers, rfl⟩⟩, hrest⟩

/-- The value of what is left is that of the text if there is none, or if no escaped backslash stands before a slash. -/
theorem parse_unescaped_iff (text : List Char) :
    parse (String.ofList (unescaped text)) = parse (String.ofList text) ↔
      parse (String.ofList text) = none ∨ broken text = 0 := by
  cases hparse : parse (String.ofList text) with
  | none =>
    have hnone : parse (String.ofList (unescaped text)) = none := by
      by_contra hsome
      obtain ⟨v', hv'⟩ := Option.ne_none_iff_exists'.1 hsome
      obtain ⟨fuel, rest', hread', hrest⟩ := parse_eq_some_iff.1 hv'
      rw [String.toList_ofList] at hread'
      obtain ⟨v, rest, hread, rfl⟩ := (of_read_unescaped fuel).1 hread'
      rw [skipWhitespace_unescaped] at hrest
      have hv : parse (String.ofList text) = some v :=
        parse_eq_some_iff.2 ⟨fuel, rest, by rw [String.toList_ofList, hread], of_unescaped_nil hrest⟩
      rw [hparse] at hv
      cases hv
    simp only [hnone, true_or]
  | some v =>
    obtain ⟨fuel, rest, hread, hrest⟩ := parse_eq_some_iff.1 hparse
    rw [String.toList_ofList] at hread
    obtain ⟨v', hread', hle, hsize, hsame⟩ := (read_unescaped fuel).1 hread
    have hparse' : parse (String.ofList (unescaped text)) = some v' :=
      parse_eq_some_iff.2 ⟨fuel, unescaped rest, by rw [String.toList_ofList, hread'],
        by rw [skipWhitespace_unescaped, hrest, unescaped_nil]⟩
    have hbroken : broken rest = 0 := by rw [← broken_skipWhitespace, hrest, broken]
    rw [hbroken] at hsize hsame
    rw [hparse']
    constructor
    · intro heq
      obtain rfl := Option.some.inj heq
      exact .inr (by omega)
    · rintro (h | h)
      · cases h
      · rw [hsame h]

end EscapedSlashes
