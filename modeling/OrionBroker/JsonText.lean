import Mathlib.Data.List.Forall2
import OrionBroker.Json

/-!
# JSON texts

`parse` reads a text as the grammar of JSON says, with white space, escapes and numbers; a text that the grammar does
not derive is not read.  The rules below say what is read of a text that is put together without escapes and white
space: a text denotes a value (`Denotes`) if the value is read of it whatever follows.  What is read does not depend on
the number of turns that the reading is given (`read_of_fuel`, `parse_eq_some_iff`).
-/

namespace JsonText

/-! ### Reading a text -/

def isWhitespace (c : Char) : Bool := c = ' ' || c = '\t' || c = '\n' || c = '\r'

def skipWhitespace (text : List Char) : List Char := text.dropWhile isWhitespace

def hexDigit (c : Char) : Option Nat :=
  if '0' ≤ c ∧ c ≤ '9' then some (c.toNat - '0'.toNat)
  else if 'a' ≤ c ∧ c ≤ 'f' then some (c.toNat - 'a'.toNat + 10)
  else if 'A' ≤ c ∧ c ≤ 'F' then some (c.toNat - 'A'.toNat + 10)
  else none

/-- The code unit that four hexadecimal digits stand for. -/
def codeUnit (a b c d : Char) : Option Nat := do
  return (((← hexDigit a) * 16 + (← hexDigit b)) * 16 + (← hexDigit c)) * 16 + (← hexDigit d)

/-- The character that a backslash and this character stand for. -/
def escaped : Char → Option Char
  | '"' => some '"'
  | '\\' => some '\\'
  | '/' => some '/'
  | 'b' => some '\x08'
  | 'f' => some '\x0c'
  | 'n' => some '\n'
  | 'r' => some '\r'
  | 't' => some '\t'
  | _ => none

/-- A string after its opening quote: its characters, and what follows the closing quote.  A character above `U+FFFF`
may be given by the two code units of a surrogate pair. -/
def readString : List Char → Option (List Char × List Char)
  | [] => none
  | '"' :: rest => some ([], rest)
  | '\\' :: 'u' :: a :: b :: c :: d :: rest =>
    match codeUnit a b c d with
    | none => none
    | some unit =>
      if unit < 0xD800 ∨ 0xE000 ≤ unit then
        (readString rest).map fun (s, rest) => (Char.ofNat unit :: s, rest)
      else
        match rest with
        | '\\' :: 'u' :: a :: b :: c :: d :: rest =>
          match codeUnit a b c d with
          | none => none
          | some low =>
            if unit < 0xDC00 ∧ 0xDC00 ≤ low ∧ low < 0xE000 then
              (readString rest).map fun (s, rest) =>
                (Char.ofNat (0x10000 + (unit - 0xD800) * 0x400 + (low - 0xDC00)) :: s, rest)
            else none
        | _ => none
  | '\\' :: e :: rest =>
    match escaped e with
    | none => none
    | some c => (readString rest).map fun (s, rest) => (c :: s, rest)
  | c :: rest => if c.toNat < 0x20 then none else (readString rest).map fun (s, rest) => (c :: s, rest)

def natOf (digits : List Char) : Nat := digits.foldl (fun n c => n * 10 + (c.toNat - '0'.toNat)) 0

/-- The sign that may stand before a number. -/
def readSign : List Char → Int × List Char
  | '-' :: rest => (-1, rest)
  | text => (1, text)

/-- One or more digits. -/
def readDigits (text : List Char) : Option (List Char × List Char) :=
  match text.span Char.isDigit with
  | ([], _) => none
  | (digits, rest) => some (digits, rest)

/-- The fraction of a number, if it has one. -/
def readFraction : List Char → Option (Option (List Char) × List Char)
  | '.' :: rest => (readDigits rest).map fun (digits, rest) => (some digits, rest)
  | text => some (none, text)

def readExponentDigits : List Char → Option (Int × List Char)
  | '+' :: rest => (readDigits rest).map fun (digits, rest) => ((natOf digits : Int), rest)
  | '-' :: rest => (readDigits rest).map fun (digits, rest) => (-(natOf digits : Int), rest)
  | text => (readDigits text).map fun (digits, rest) => ((natOf digits : Int), rest)

/-- The exponent of a number, if it has one. -/
def readExponent : List Char → Option (Option Int × List Char)
  | 'e' :: rest => (readExponentDigits rest).map fun (n, rest) => (some n, rest)
  | 'E' :: rest => (readExponentDigits rest).map fun (n, rest) => (some n, rest)
  | text => some (none, text)

/-- A number; one with neither a fraction nor an exponent is an integer. -/
def readNumber (text : List Char) : Option (Json × List Char) := do
  let (sign, text) := readSign text
  let (whole, text) ← readDigits text
  if whole.head? = some '0' ∧ whole ≠ ['0'] then none
  let (fraction, text) ← readFraction text
  let (exponent, text) ← readExponent text
  if fraction = none ∧ exponent = none then
    return (.int (sign * natOf whole), text)
  let digits := fraction.getD []
  let q : ℚ := sign * (natOf whole + natOf digits / 10 ^ digits.length) * 10 ^ (exponent.getD 0)
  return (.double (.fin q), text)

mutual

/-- A value, and what follows it. -/
def readValue : Nat → List Char → Option (Json × List Char)
  | 0, _ => none
  | fuel + 1, text =>
    match skipWhitespace text with
    | 'n' :: 'u' :: 'l' :: 'l' :: rest => some (.null, rest)
    | 't' :: 'r' :: 'u' :: 'e' :: rest => some (.bool true, rest)
    | 'f' :: 'a' :: 'l' :: 's' :: 'e' :: rest => some (.bool false, rest)
    | '"' :: rest => (readString rest).map fun (s, rest) => (.string (String.ofList s), rest)
    | '[' :: rest =>
      match skipWhitespace rest with
      | ']' :: rest => some (.array [], rest)
      | _ => (readItems fuel rest).map fun (items, rest) => (.array items, rest)
    | '{' :: rest =>
      match skipWhitespace rest with
      | '}' :: rest => some (.object [], rest)
      | _ => (readMembers fuel rest).map fun (members, rest) => (.object members, rest)
    | text => readNumber text

/-- The items of an array up to its closing bracket. -/
def readItems : Nat → List Char → Option (List Json × List Char)
  | 0, _ => none
  | fuel + 1, text =>
    match readValue fuel text with
    | none => none
    | some (v, rest) =>
      match skipWhitespace rest with
      | ',' :: rest => (readItems fuel rest).map fun (items, rest) => (v :: items, rest)
      | ']' :: rest => some ([v], rest)
      | _ => none

/-- The members of an object up to its closing brace. -/
def readMembers : Nat → List Char → Option (List (String × Json) × List Char)
  | 0, _ => none
  | fuel + 1, text =>
    match skipWhitespace text with
    | '"' :: rest =>
      match readString rest with
      | none => none
      | some (name, rest) =>
        match skipWhitespace rest with
        | ':' :: rest =>
          match readValue fuel rest with
          | none => none
          | some (v, rest) =>
            match skipWhitespace rest with
            | ',' :: rest =>
              (readMembers fuel rest).map fun (members, rest) => ((String.ofList name, v) :: members, rest)
            | '}' :: rest => some ([(String.ofList name, v)], rest)
            | _ => none
        | _ => none
    | _ => none

end

/-- The value of a whole text. -/
def parse (text : String) : Option Json :=
  match readValue (text.toList.length + 1) text.toList with
  | some (v, rest) => if skipWhitespace rest = [] then some v else none
  | none => none

/-! ### What a text denotes -/

/-- A character that may stand in a string as it is. -/
def Unescaped (c : Char) : Prop := 0x20 ≤ c.toNat ∧ c ≠ '"' ∧ c ≠ '\\'

/-- The value is read of the text, whatever follows. -/
def Denotes (text : List Char) (v : Json) : Prop :=
  ∀ rest fuel, text.length < fuel → readValue fuel (text ++ rest) = some (v, rest)

/-- A text in quotes. -/
def quoted (s : List Char) : List Char := '"' :: (s ++ ['"'])

/-- The text denotes the member of an object. -/
def DenotesMember (text : List Char) (m : String × Json) : Prop :=
  (∀ c ∈ m.1.toList, Unescaped c) ∧ ∃ value, text = quoted m.1.toList ++ ':' :: value ∧ Denotes value m.2

def commaSeparated : List (List Char) → List Char
  | [] => []
  | [text] => text
  | text :: texts => text ++ ',' :: commaSeparated texts

theorem readString_quoted {s : List Char} (h : ∀ c ∈ s, Unescaped c) (rest : List Char) :
    readString (s ++ '"' :: rest) = some (s, rest) := by
  induction s with
  | nil => rfl
  | cons c s ih =>
    obtain ⟨hcontrol, hquote, hbackslash⟩ := h c (List.mem_cons_self ..)
    have ih := ih fun d hd => h d (List.mem_cons_of_mem c hd)
    have hread : readString (c :: (s ++ '"' :: rest)) =
        if c.toNat < 0x20 then none else (readString (s ++ '"' :: rest)).map fun (s, rest) => (c :: s, rest) := by
      rw [readString]
      · exact hquote
      · intro _ _ _ _ _ hc
        exact absurd hc hbackslash
      · intro _ _ hc
        exact absurd hc hbackslash
    rw [List.cons_append, hread, if_neg (by omega), ih]
    rfl

theorem denotes_null : Denotes ['n', 'u', 'l', 'l'] .null := by
  intro rest fuel hfuel
  cases fuel with
  | zero => simp at hfuel
  | succ fuel => rw [readValue]; rfl

theorem denotes_true : Denotes ['t', 'r', 'u', 'e'] (.bool true) := by
  intro rest fuel hfuel
  cases fuel with
  | zero => simp at hfuel
  | succ fuel => rw [readValue]; rfl

theorem denotes_false : Denotes ['f', 'a', 'l', 's', 'e'] (.bool false) := by
  intro rest fuel hfuel
  cases fuel with
  | zero => simp at hfuel
  | succ fuel => rw [readValue]; rfl

/-- A string without characters that must be escaped denotes itself. -/
theorem denotes_string {s : String} (h : ∀ c ∈ s.toList, Unescaped c) : Denotes (quoted s.toList) (.string s) := by
  intro rest fuel hfuel
  cases fuel with
  | zero => simp at hfuel
  | succ fuel =>
    have hread := readString_quoted h rest
    have htext : quoted s.toList ++ rest = '"' :: (s.toList ++ '"' :: rest) := by simp [quoted]
    rw [readValue, htext]
    show (readString (s.toList ++ '"' :: rest)).map _ = _
    rw [hread, Option.map_some]
    show some (Json.string (String.ofList s.toList), rest) = _
    rw [String.ofList_toList]

/-! ### Arrays and objects -/

/-- No value begins with the end of an array. -/
theorem Denotes.not_bracket {text : List Char} {v : Json} (h : Denotes text v) (rest more : List Char) :
    skipWhitespace (text ++ rest) ≠ ']' :: more := by
  intro hskip
  have hread := h rest (text.length + 1) (Nat.lt_succ_self _)
  rw [readValue, hskip] at hread
  exact absurd hread (by rintro ⟨⟩)

theorem commaSeparated_cons_cons (text text' : List Char) (texts : List (List Char)) :
    commaSeparated (text :: text' :: texts) = text ++ ',' :: commaSeparated (text' :: texts) := rfl

theorem readItems_of_denotes {texts : List (List Char)} {items : List Json} (h : List.Forall₂ Denotes texts items)
    (hne : texts ≠ []) (rest : List Char) {fuel : Nat} (hfuel : (commaSeparated texts).length + 1 < fuel) :
    readItems fuel (commaSeparated texts ++ ']' :: rest) = some (items, rest) := by
  induction h generalizing fuel with
  | nil => exact absurd rfl hne
  | @cons text v texts items hv hrest ih =>
    cases fuel with
    | zero => omega
    | succ fuel =>
      rw [readItems]
      cases hrest with
      | nil =>
        have hlength : text.length < fuel := by
          simp only [commaSeparated] at hfuel
          omega
        rw [show commaSeparated [text] = text from rfl, hv (']' :: rest) fuel hlength]
        rfl
      | @cons text' v' texts items hv' hrest =>
        rw [commaSeparated_cons_cons] at hfuel ⊢
        simp only [List.length_append, List.length_cons] at hfuel
        have hread := hv (',' :: (commaSeparated (text' :: texts) ++ ']' :: rest)) fuel (by omega)
        have ih : readItems fuel (commaSeparated (text' :: texts) ++ ']' :: rest) = some (v' :: items, rest) :=
          ih (by simp) (by omega)
        rw [List.append_assoc, List.cons_append, hread]
        show (readItems fuel (commaSeparated (text' :: texts) ++ ']' :: rest)).map _ = _
        rw [ih]
        rfl

/-- An array that is not empty is read as its items. -/
theorem readValue_array {fuel : Nat} {text : List Char} (h : ∀ more, skipWhitespace text ≠ ']' :: more) :
    readValue (fuel + 1) ('[' :: text) = (readItems fuel text).map fun (items, rest) => (.array items, rest) := by
  rw [readValue]
  show (match skipWhitespace text with
    | ']' :: rest => some (Json.array [], rest)
    | _ => (readItems fuel text).map fun (items, rest) => (.array items, rest)) = _
  split
  · next rest hrest => exact absurd hrest (h rest)
  · rfl

theorem denotes_array {texts : List (List Char)} {items : List Json} (h : List.Forall₂ Denotes texts items) :
    Denotes ('[' :: (commaSeparated texts ++ [']'])) (.array items) := by
  intro rest fuel hfuel
  cases fuel with
  | zero => simp at hfuel
  | succ fuel =>
    cases h with
    | nil =>
      rw [readValue]
      rfl
    | @cons text v texts items hv hrest =>
      simp only [List.length_cons, List.length_append, List.length_nil] at hfuel
      have htext : '[' :: (commaSeparated (text :: texts) ++ [']']) ++ rest =
          '[' :: (commaSeparated (text :: texts) ++ ']' :: rest) := by simp
      have hfirst : ∃ more, commaSeparated (text :: texts) ++ ']' :: rest = text ++ more := by
        cases texts with
        | nil => exact ⟨_, rfl⟩
        | cons text' texts => exact ⟨_, List.append_assoc ..⟩
      obtain ⟨more, hmore⟩ := hfirst
      have hread : readItems fuel (commaSeparated (text :: texts) ++ ']' :: rest) = some (v :: items, rest) :=
        readItems_of_denotes (.cons hv hrest) (by simp) rest (by omega)
      rw [htext, readValue_array (hmore ▸ hv.not_bracket more), hread]
      rfl

theorem readMembers_of_denotes {texts : List (List Char)} {members : List (String × Json)}
    (h : List.Forall₂ DenotesMember texts members) (hne : texts ≠ []) (rest : List Char) {fuel : Nat}
    (hfuel : (commaSeparated texts).length + 1 < fuel) :
    readMembers fuel (commaSeparated texts ++ '}' :: rest) = some (members, rest) := by
  induction h generalizing fuel with
  | nil => exact absurd rfl hne
  | @cons text m texts members hm hrest ih =>
    obtain ⟨hname, value, rfl, hv⟩ := hm
    cases fuel with
    | zero => omega
    | succ fuel =>
      -- the name, the colon and the value, before whatever follows
      have hmember : ∀ more, value.length < fuel →
          readMembers (fuel + 1) (quoted m.1.toList ++ ':' :: value ++ more) =
            match skipWhitespace more with
            | ',' :: rest => (readMembers fuel rest).map fun (members, rest) => (m :: members, rest)
            | '}' :: rest => some ([m], rest)
            | _ => none := by
        intro more hlength
        have htext : quoted m.1.toList ++ ':' :: value ++ more =
            '"' :: (m.1.toList ++ '"' :: ':' :: (value ++ more)) := by simp [quoted]
        rw [htext, readMembers]
        show (match readString (m.1.toList ++ '"' :: ':' :: (value ++ more)) with
          | none => none
          | some (name, rest) => _) = _
        rw [readString_quoted hname]
        show (match readValue fuel (value ++ more) with
          | none => none
          | some (v, rest) => _) = _
        rw [hv more fuel hlength]
        simp only [String.ofList_toList]
      cases hrest with
      | nil =>
        simp only [commaSeparated, List.length_append, List.length_cons] at hfuel
        exact hmember ('}' :: rest) (by omega)
      | @cons text' m' texts members hm' hrest =>
        rw [commaSeparated_cons_cons] at hfuel ⊢
        simp only [List.length_append, List.length_cons] at hfuel
        have ih : readMembers fuel (commaSeparated (text' :: texts) ++ '}' :: rest) = some (m' :: members, rest) :=
          ih (by simp) (by omega)
        have hread := hmember (',' :: (commaSeparated (text' :: texts) ++ '}' :: rest)) (by omega)
        rw [List.append_assoc (_ ++ _), List.cons_append, hread]
        show (readMembers fuel (commaSeparated (text' :: texts) ++ '}' :: rest)).map _ = _
        rw [ih]
        rfl

theorem denotes_object {texts : List (List Char)} {members : List (String × Json)}
    (h : List.Forall₂ DenotesMember texts members) :
    Denotes ('{' :: (commaSeparated texts ++ ['}'])) (.object members) := by
  intro rest fuel hfuel
  cases fuel with
  | zero => simp at hfuel
  | succ fuel =>
    cases h with
    | nil =>
      rw [readValue]
      rfl
    | @cons text m texts members hm hrest =>
      simp only [List.length_cons, List.length_append, List.length_nil] at hfuel
      have hread : readMembers fuel (commaSeparated (text :: texts) ++ '}' :: rest) = some (m :: members, rest) :=
        readMembers_of_denotes (.cons hm hrest) (by simp) rest (by omega)
      have hfirst : ∃ more, commaSeparated (text :: texts) ++ '}' :: rest = '"' :: more := by
        obtain ⟨-, value, rfl, -⟩ := hm
        cases texts with
        | nil => exact ⟨_, rfl⟩
        | cons text' texts => exact ⟨_, rfl⟩
      obtain ⟨more, hmore⟩ := hfirst
      have htext : '{' :: (commaSeparated (text :: texts) ++ ['}']) ++ rest = '{' :: '"' :: more := by
        rw [← hmore]
        simp
      rw [hmore] at hread
      rw [htext, readValue]
      show (readMembers fuel ('"' :: more)).map _ = _
      rw [hread]
      rfl

/-- A whole text is read as the value it denotes. -/
theorem parse_of_denotes {text : String} {v : Json} (h : Denotes text.toList v) : parse text = some v := by
  have hread := h [] (text.toList.length + 1) (Nat.lt_succ_self _)
  rw [List.append_nil] at hread
  unfold parse
  rw [hread]
  rfl

/-! ### Reading does not depend on the number of turns -/

/-- How a text without leading white space is read as a value. -/
inductive ReadsValue (fuel : Nat) : List Char → Json → List Char → Prop where
  | null {rest : List Char} : ReadsValue fuel ('n' :: 'u' :: 'l' :: 'l' :: rest) .null rest
  | true {rest : List Char} : ReadsValue fuel ('t' :: 'r' :: 'u' :: 'e' :: rest) (.bool Bool.true) rest
  | false {rest : List Char} : ReadsValue fuel ('f' :: 'a' :: 'l' :: 's' :: 'e' :: rest) (.bool Bool.false) rest
  | string {text s rest : List Char} (h : readString text = some (s, rest)) :
      ReadsValue fuel ('"' :: text) (.string (String.ofList s)) rest
  | emptyArray {text rest : List Char} (h : skipWhitespace text = ']' :: rest) :
      ReadsValue fuel ('[' :: text) (.array []) rest
  | array {text rest : List Char} {items : List Json} (hne : ∀ more, skipWhitespace text ≠ ']' :: more)
      (h : readItems fuel text = some (items, rest)) : ReadsValue fuel ('[' :: text) (.array items) rest
  | emptyObject {text rest : List Char} (h : skipWhitespace text = '}' :: rest) :
      ReadsValue fuel ('{' :: text) (.object []) rest
  | object {text rest : List Char} {members : List (String × Json)} (hne : ∀ more, skipWhitespace text ≠ '}' :: more)
      (h : readMembers fuel text = some (members, rest)) : ReadsValue fuel ('{' :: text) (.object members) rest
  | number {text rest : List Char} {v : Json} (h : readNumber text = some (v, rest)) : ReadsValue fuel text v rest

/-- A number begins with a sign or a digit. -/
theorem readNumber_cons {c : Char} (hsign : c ≠ '-') (hdigit : c.isDigit = false) (text : List Char) :
    readNumber (c :: text) = none := by
  have hdigits : readDigits (c :: text) = none := by
    unfold readDigits
    rw [List.span_eq_takeWhile_dropWhile, List.takeWhile_cons, hdigit]
    rfl
  have hread : readSign (c :: text) = (1, c :: text) := by
    unfold readSign
    split
    · next heq => exact absurd (List.cons.inj heq).1 hsign
    · rfl
  unfold readNumber
  rw [hread]
  show (readDigits (c :: text)).bind _ = none
  rw [hdigits]
  rfl

theorem readValue_iff {fuel : Nat} {text rest : List Char} {v : Json} :
    readValue (fuel + 1) text = some (v, rest) ↔ ReadsValue fuel (skipWhitespace text) v rest := by
  rw [readValue]
  constructor
  · intro h
    split at h
    · next heq => cases h; rw [heq]; exact .null
    · next heq => cases h; rw [heq]; exact .true
    · next heq => cases h; rw [heq]; exact .false
    · next heq =>
      obtain ⟨⟨s, _⟩, hs, he⟩ := Option.map_eq_some_iff.1 h
      cases he
      rw [heq]
      exact .string hs
    · next text' heq =>
      rw [heq]
      split at h
      · next heq => cases h; exact .emptyArray heq
      · next hne =>
        obtain ⟨⟨items, _⟩, hitems, he⟩ := Option.map_eq_some_iff.1 h
        cases he
        exact .array hne hitems
    · next text' heq =>
      rw [heq]
      split at h
      · next heq => cases h; exact .emptyObject heq
      · next hne =>
        obtain ⟨⟨members, _⟩, hmembers, he⟩ := Option.map_eq_some_iff.1 h
        cases he
        exact .object hne hmembers
    · exact .number h
  · intro h
    generalize skipWhitespace text = text at h ⊢
    cases h with
    | null => rfl
    | true => rfl
    | false => rfl
    | string h =>
      show Option.map _ (readString _) = _
      rw [h]
      rfl
    | emptyArray h =>
      simp only [h]
    | array hne h =>
      show (match skipWhitespace _ with
        | ']' :: rest => some (Json.array [], rest)
        | _ => (readItems fuel _).map fun (items, rest) => (.array items, rest)) = _
      split
      · next more heq => exact absurd heq (hne more)
      · rw [h]; rfl
    | emptyObject h =>
      simp only [h]
    | object hne h =>
      show (match skipWhitespace _ with
        | '}' :: rest => some (Json.object [], rest)
        | _ => (readMembers fuel _).map fun (members, rest) => (.object members, rest)) = _
      split
      · next more heq => exact absurd heq (hne more)
      · rw [h]; rfl
    | number h =>
      split
      -- no other value begins like a number
      case h_7 => exact h
      all_goals
        rw [readNumber_cons (by decide) (by decide)] at h
        cases h

theorem readItems_iff {fuel : Nat} {text rest : List Char} {items : List Json} :
    readItems (fuel + 1) text = some (items, rest) ↔
      ∃ v more, readValue fuel text = some (v, more) ∧
        (skipWhitespace more = ']' :: rest ∧ items = [v] ∨
          ∃ more' items', skipWhitespace more = ',' :: more' ∧ readItems fuel more' = some (items', rest) ∧
            items = v :: items') := by
  rw [readItems]
  constructor
  · intro h
    split at h
    · cases h
    · next v more hv =>
      refine ⟨v, more, hv, ?_⟩
      split at h
      · next more' hmore =>
        obtain ⟨⟨items', _⟩, hitems, he⟩ := Option.map_eq_some_iff.1 h
        cases he
        exact .inr ⟨more', items', hmore, hitems, rfl⟩
      · next hmore => cases h; exact .inl ⟨hmore, rfl⟩
      · cases h
  · rintro ⟨v, more, hv, ⟨hmore, rfl⟩ | ⟨more', items', hmore, hitems, rfl⟩⟩
    · simp only [hv, hmore]
    · simp only [hv, hmore, hitems, Option.map_some]

theorem readMembers_iff {fuel : Nat} {text rest : List Char} {members : List (String × Json)} :
    readMembers (fuel + 1) text = some (members, rest) ↔
      ∃ text' name colon value v more, skipWhitespace text = '"' :: text' ∧ readString text' = some (name, colon) ∧
        skipWhitespace colon = ':' :: value ∧ readValue fuel value = some (v, more) ∧
        (skipWhitespace more = '}' :: rest ∧ members = [(String.ofList name, v)] ∨
          ∃ more' members', skipWhitespace more = ',' :: more' ∧ readMembers fuel more' = some (members', rest) ∧
            members = (String.ofList name, v) :: members') := by
  rw [readMembers]
  constructor
  · intro h
    split at h
    · next text' htext =>
      split at h
      · cases h
      · next name colon hname =>
        split at h
        · next value hcolon =>
          split at h
          · cases h
          · next v more hv =>
            refine ⟨text', name, colon, value, v, more, htext, hname, hcolon, hv, ?_⟩
            split at h
            · next more' hmore =>
              obtain ⟨⟨members', _⟩, hmembers, he⟩ := Option.map_eq_some_iff.1 h
              cases he
              exact .inr ⟨more', members', hmore, hmembers, rfl⟩
            · next hmore => cases h; exact .inl ⟨hmore, rfl⟩
            · cases h
        · cases h
    · cases h
  · rintro ⟨text', name, colon, value, v, more, htext, hname, hcolon, hv,
      ⟨hmore, rfl⟩ | ⟨more', members', hmore, hmembers, rfl⟩⟩
    · simp only [htext, hname, hcolon, hv, hmore]
    · simp only [htext, hname, hcolon, hv, hmore, hmembers, Option.map_some]

/-! The rest of what is read is shorter than the text. -/

theorem length_skipWhitespace (text : List Char) : (skipWhitespace text).length ≤ text.length :=
  (List.dropWhile_suffix _).length_le

/-- The code unit of the digits that the text begins with. -/
def readCodeUnit : List Char → Option (Nat × List Char)
  | a :: b :: c :: d :: rest => (codeUnit a b c d).map fun unit => (unit, rest)
  | _ => none

/-- How one character of a string is read. -/
inductive ReadsCharacter : List Char → Char → List Char → Prop where
  | plain {c : Char} {rest : List Char} (h : Unescaped c) : ReadsCharacter (c :: rest) c rest
  | escape {e c : Char} {rest : List Char} (h : escaped e = some c) : ReadsCharacter ('\\' :: e :: rest) c rest
  | unit {text rest : List Char} {unit : Nat} (h : readCodeUnit text = some (unit, rest))
      (hunit : unit < 0xD800 ∨ 0xE000 ≤ unit) : ReadsCharacter ('\\' :: 'u' :: text) (Char.ofNat unit) rest
  | pair {text text' rest : List Char} {unit low : Nat} (h : readCodeUnit text = some (unit, '\\' :: 'u' :: text'))
      (hunit : ¬(unit < 0xD800 ∨ 0xE000 ≤ unit)) (h' : readCodeUnit text' = some (low, rest))
      (hlow : unit < 0xDC00 ∧ 0xDC00 ≤ low ∧ low < 0xE000) :
      ReadsCharacter ('\\' :: 'u' :: text) (Char.ofNat (0x10000 + (unit - 0xD800) * 0x400 + (low - 0xDC00))) rest

theorem readCodeUnit_eq_some {text rest : List Char} {unit : Nat} (h : readCodeUnit text = some (unit, rest)) :
    ∃ a b c d, text = a :: b :: c :: d :: rest ∧ codeUnit a b c d = some unit := by
  unfold readCodeUnit at h
  split at h
  · next a b c d _ =>
    obtain ⟨_, hunit, he⟩ := Option.map_eq_some_iff.1 h
    cases he
    exact ⟨a, b, c, d, rfl, hunit⟩
  · cases h

theorem ReadsCharacter.readString {text rest rest' : List Char} {c : Char} {s : List Char}
    (h : ReadsCharacter text c rest) (hs : readString rest = some (s, rest')) :
    readString text = some (c :: s, rest') := by
  cases h with
  | plain h =>
    obtain ⟨hcontrol, hquote, hbackslash⟩ := h
    rw [JsonText.readString]
    · rw [if_neg (by omega), hs]
      rfl
    · exact hquote
    · intro _ _ _ _ _ hc
      exact absurd hc hbackslash
    · intro _ _ hc
      exact absurd hc hbackslash
  | escape h =>
    rw [JsonText.readString]
    · simp only [h, hs, Option.map_some]
    · rintro _ _ _ _ _ rfl
      cases h
  | unit h hunit =>
    obtain ⟨a, b, c, d, rfl, hcode⟩ := readCodeUnit_eq_some h
    simp only [JsonText.readString, hcode, if_pos hunit, hs, Option.map_some]
  | pair h hunit h' hlow =>
    obtain ⟨a, b, c, d, rfl, hcode⟩ := readCodeUnit_eq_some h
    obtain ⟨a', b', c', d', rfl, hcode'⟩ := readCodeUnit_eq_some h'
    simp only [JsonText.readString, hcode, if_neg hunit, hcode', if_pos hlow, hs, Option.map_some]

/-- A string is read character by character up to its closing quote. -/
theorem readString_iff {text s rest : List Char} :
    readString text = some (s, rest) ↔
      text = '"' :: rest ∧ s = [] ∨
        ∃ c more s', ReadsCharacter text c more ∧ readString more = some (s', rest) ∧ s = c :: s' := by
  constructor
  · intro h
    have hsome {more : List Char} {f : List Char → List Char}
        (h : ((readString more).map fun (s, rest) => (f s, rest)) = some (s, rest)) :
        ∃ s', readString more = some (s', rest) ∧ s = f s' := by
      obtain ⟨⟨s', _⟩, hs', he⟩ := Option.map_eq_some_iff.1 h
      cases he
      exact ⟨s', hs', rfl⟩
    fun_cases readString text with
    | case1 => rw [readString] at h; cases h
    | case2 more => cases h; exact .inl ⟨rfl, rfl⟩
    | case3 a b c d more hcode => simp only [readString, hcode] at h; cases h
    | case4 a b c d more unit hcode hunit =>
      simp only [readString, hcode, if_pos hunit] at h
      obtain ⟨s', hs', he⟩ := hsome h
      exact .inr ⟨_, more, s', .unit (by simp only [readCodeUnit, hcode, Option.map_some]) hunit, hs', he⟩
    | case5 a b c d unit hcode hunit a' b' c' d' more hcode' =>
      simp only [readString, hcode, if_neg hunit, hcode'] at h
      cases h
    | case6 a b c d unit hcode hunit a' b' c' d' more low hcode' hlow =>
      simp only [readString, hcode, if_neg hunit, hcode', if_pos hlow] at h
      obtain ⟨s', hs', he⟩ := hsome h
      have hlow' : readCodeUnit (a' :: b' :: c' :: d' :: more) = some (low, more) := by
        simp only [readCodeUnit, hcode', Option.map_some]
      exact .inr ⟨_, more, s', .pair (by simp only [readCodeUnit, hcode, Option.map_some]) hunit hlow' hlow, hs', he⟩
    | case7 a b c d unit hcode hunit a' b' c' d' more low hcode' hlow =>
      simp only [readString, hcode, if_neg hunit, hcode', if_neg hlow] at h
      cases h
    | case8 a b c d more unit hcode hunit hmore =>
      rw [readString] at h
      simp only [hcode, if_neg hunit] at h
      cases h
    | case9 e more hmore he =>
      rw [readString] at h
      · simp only [he] at h
        cases h
      · exact hmore
    | case10 e more hmore c he =>
      rw [readString] at h
      case x_1 => exact hmore
      simp only [he] at h
      obtain ⟨s', hs', he'⟩ := hsome h
      exact .inr ⟨c, more, s', .escape he, hs', he'⟩
    | case11 c more hquote hunit hbackslash hcontrol =>
      rw [readString, if_pos hcontrol] at h
      · cases h
      · exact hquote
      · exact hunit
      · exact hbackslash
    | case12 c more hquote hunit hbackslash hcontrol =>
      rw [readString, if_neg hcontrol] at h
      case x_1 => exact hquote
      case x_2 => exact hunit
      case x_3 => exact hbackslash
      obtain ⟨s', hs', he⟩ := hsome h
      have hc : c ≠ '\\' := by
        -- a backslash that ends the text leaves nothing to read
        rintro rfl
        cases more with
        | nil => rw [readString] at hs'; cases hs'
        | cons e more => exact hbackslash e more rfl rfl
      exact .inr ⟨c, more, s', .plain ⟨by omega, hquote, hc⟩, hs', he⟩
  · rintro (⟨rfl, rfl⟩ | ⟨c, more, s', hc, hs', rfl⟩)
    · rw [readString]
    · exact hc.readString hs'

theorem length_readCodeUnit {text rest : List Char} {unit : Nat} (h : readCodeUnit text = some (unit, rest)) :
    rest.length < text.length := by
  obtain ⟨a, b, c, d, rfl, -⟩ := readCodeUnit_eq_some h
  simp only [List.length_cons]
  omega

theorem ReadsCharacter.length_lt {text rest : List Char} {c : Char} (h : ReadsCharacter text c rest) :
    rest.length < text.length := by
  cases h with
  | plain h => exact Nat.lt_succ_self _
  | escape h =>
    simp only [List.length_cons]
    omega
  | unit h =>
    have hlength := length_readCodeUnit h
    simp only [List.length_cons]
    omega
  | pair h _ h' =>
    have hlength := length_readCodeUnit h
    have hlength' := length_readCodeUnit h'
    simp only [List.length_cons] at hlength ⊢
    omega

theorem length_readString {text s rest : List Char} (h : readString text = some (s, rest)) :
    rest.length < text.length := by
  induction s generalizing text with
  | nil =>
    obtain ⟨rfl, -⟩ | ⟨_, _, _, _, _, he⟩ := readString_iff.1 h
    · exact Nat.lt_succ_self _
    · cases he
  | cons c s ih =>
    obtain ⟨-, he⟩ | ⟨_, more, _, hc, hs, he⟩ := readString_iff.1 h
    · cases he
    · cases he
      exact Nat.lt_trans (ih hs) hc.length_lt

theorem length_readDigits {text digits rest : List Char} (h : readDigits text = some (digits, rest)) :
    rest.length < text.length := by
  have happend := congrArg List.length (List.takeWhile_append_dropWhile (p := Char.isDigit) (l := text))
  rw [List.length_append] at happend
  unfold readDigits at h
  rw [List.span_eq_takeWhile_dropWhile] at h
  cases htake : text.takeWhile Char.isDigit with
  | nil =>
    rw [htake] at h
    cases h
  | cons c digits' =>
    rw [htake] at h happend
    cases h
    simp only [List.length_cons] at happend
    omega

theorem length_readFraction {text rest : List Char} {fraction : Option (List Char)}
    (h : readFraction text = some (fraction, rest)) : rest.length ≤ text.length := by
  unfold readFraction at h
  split at h
  · obtain ⟨⟨_, _⟩, hdigits, he⟩ := Option.map_eq_some_iff.1 h
    cases he
    exact Nat.le_succ_of_le (length_readDigits hdigits).le
  · cases h
    exact le_rfl

theorem length_readExponentDigits {text rest : List Char} {n : Int}
    (h : readExponentDigits text = some (n, rest)) : rest.length ≤ text.length := by
  unfold readExponentDigits at h
  split at h
  all_goals
    obtain ⟨⟨_, _⟩, hdigits, he⟩ := Option.map_eq_some_iff.1 h
    cases he
    have hlength := length_readDigits hdigits
    simp only [List.length_cons] at *
    omega

theorem length_readExponent {text rest : List Char} {exponent : Option Int}
    (h : readExponent text = some (exponent, rest)) : rest.length ≤ text.length := by
  unfold readExponent at h
  split at h
  · obtain ⟨⟨_, _⟩, hdigits, he⟩ := Option.map_eq_some_iff.1 h
    cases he
    exact Nat.le_succ_of_le (length_readExponentDigits hdigits)
  · obtain ⟨⟨_, _⟩, hdigits, he⟩ := Option.map_eq_some_iff.1 h
    cases he
    exact Nat.le_succ_of_le (length_readExponentDigits hdigits)
  · cases h
    exact le_rfl

theorem length_readSign (text : List Char) : (readSign text).2.length ≤ text.length := by
  unfold readSign
  split
  · exact Nat.le_succ _
  · exact le_rfl

/-- What the parts of a number stand for. -/
def numberOf (sign : Int) (whole : List Char) (fraction : Option (List Char)) (exponent : Option Int) : Json :=
  if fraction = none ∧ exponent = none then
    .int (sign * natOf whole)
  else
    let digits := fraction.getD []
    .double (.fin (sign * (natOf whole + natOf digits / 10 ^ digits.length) * 10 ^ (exponent.getD 0)))

theorem readNumber_eq (text : List Char) :
    readNumber text =
      (readDigits (readSign text).2).bind fun (whole, text') =>
        if whole.head? = some '0' ∧ whole ≠ ['0'] then none
        else (readFraction text').bind fun (fraction, text') =>
          (readExponent text').map fun (exponent, rest) => (numberOf (readSign text).1 whole fraction exponent, rest) := by
  show (readDigits (readSign text).2).bind _ = _
  congr 1
  funext ⟨whole, text'⟩
  by_cases hzero : whole.head? = some '0' ∧ whole ≠ ['0']
  · simp only [if_pos hzero]
    rfl
  · simp only [if_neg hzero]
    show (readFraction text').bind _ = _
    congr 1
    funext ⟨fraction, text'⟩
    show (readExponent text').bind _ = _
    cases readExponent text' with
    | none => rfl
    | some r =>
      unfold numberOf
      show (if fraction = none ∧ r.1 = none then _ else _) = some (if fraction = none ∧ r.1 = none then _ else _, r.2)
      split <;> rfl

theorem length_readNumber {text rest : List Char} {v : Json} (h : readNumber text = some (v, rest)) :
    rest.length < text.length := by
  have hsign := length_readSign text
  rw [readNumber_eq] at h
  obtain ⟨⟨whole, text'⟩, hwhole, h⟩ := Option.bind_eq_some_iff.1 h
  have hwhole := length_readDigits hwhole
  simp only at h
  split at h
  · cases h
  · obtain ⟨⟨fraction, text''⟩, hfraction, h⟩ := Option.bind_eq_some_iff.1 h
    obtain ⟨⟨exponent, _⟩, hexponent, he⟩ := Option.map_eq_some_iff.1 h
    cases he
    have hfraction : text''.length ≤ text'.length := length_readFraction hfraction
    have hexponent := length_readExponent hexponent
    exact lt_of_le_of_lt (le_trans hexponent hfraction) (lt_of_lt_of_le hwhole hsign)

/-- A value that is read is read by every number of turns above the length of its text, and so are items and members. -/
theorem read_of_fuel (fuel : Nat) :
    (∀ {text rest : List Char} {v : Json}, readValue fuel text = some (v, rest) → rest.length < text.length ∧
      ∀ fuel', text.length < fuel' + rest.length → readValue fuel' text = some (v, rest)) ∧
    (∀ {text rest : List Char} {items : List Json}, readItems fuel text = some (items, rest) →
      rest.length < text.length ∧
      ∀ fuel', text.length < fuel' + rest.length → readItems fuel' text = some (items, rest)) ∧
    (∀ {text rest : List Char} {members : List (String × Json)}, readMembers fuel text = some (members, rest) →
      rest.length < text.length ∧
      ∀ fuel', text.length < fuel' + rest.length → readMembers fuel' text = some (members, rest)) := by
  induction fuel with
  | zero =>
    refine ⟨?_, ?_, ?_⟩
    · intro text rest v h; rw [readValue] at h; cases h
    · intro text rest items h; rw [readItems] at h; cases h
    · intro text rest members h; rw [readMembers] at h; cases h
  | succ fuel ih =>
    obtain ⟨ihValue, ihItems, ihMembers⟩ := ih
    refine ⟨?_, ?_, ?_⟩
    · intro text rest v h
      have hlength := length_skipWhitespace text
      rw [readValue_iff] at h
      have hread : rest.length < text.length ∧
          ∀ fuel', text.length < fuel' + 1 + rest.length → ReadsValue fuel' (skipWhitespace text) v rest := by
        generalize skipWhitespace text = text' at h hlength ⊢
        cases h with
        | null => exact ⟨by simp only [List.length_cons] at hlength; omega, fun _ _ => .null⟩
        | true => exact ⟨by simp only [List.length_cons] at hlength; omega, fun _ _ => .true⟩
        | false => exact ⟨by simp only [List.length_cons] at hlength; omega, fun _ _ => .false⟩
        | string h =>
          have hs := length_readString h
          exact ⟨by simp only [List.length_cons] at hlength; omega, fun _ _ => .string h⟩
        | emptyArray h =>
          have hs := congrArg List.length h ▸ length_skipWhitespace _
          simp only [List.length_cons] at hlength hs
          exact ⟨by omega, fun _ _ => .emptyArray h⟩
        | array hne h =>
          obtain ⟨hs, hread⟩ := ihItems h
          simp only [List.length_cons] at hlength
          exact ⟨by omega, fun fuel' hfuel => .array hne (hread fuel' (by omega))⟩
        | emptyObject h =>
          have hs := congrArg List.length h ▸ length_skipWhitespace _
          simp only [List.length_cons] at hlength hs
          exact ⟨by omega, fun _ _ => .emptyObject h⟩
        | object hne h =>
          obtain ⟨hs, hread⟩ := ihMembers h
          simp only [List.length_cons] at hlength
          exact ⟨by omega, fun fuel' hfuel => .object hne (hread fuel' (by omega))⟩
        | number h =>
          have hs := length_readNumber h
          exact ⟨by omega, fun _ _ => .number h⟩
      refine ⟨hread.1, fun fuel' hfuel => ?_⟩
      obtain ⟨fuel', rfl⟩ : ∃ n, fuel' = n + 1 := ⟨fuel' - 1, by omega⟩
      exact readValue_iff.2 (hread.2 fuel' hfuel)
    · intro text rest items h
      obtain ⟨v, more, hv, hmore⟩ := readItems_iff.1 h
      obtain ⟨hlt, hread⟩ := ihValue hv
      have hskip := length_skipWhitespace more
      obtain ⟨hend, rfl⟩ | ⟨more', items', hcomma, hitems, rfl⟩ := hmore
      · rw [hend, List.length_cons] at hskip
        refine ⟨by omega, fun fuel' hfuel => ?_⟩
        obtain ⟨fuel', rfl⟩ : ∃ n, fuel' = n + 1 := ⟨fuel' - 1, by omega⟩
        exact readItems_iff.2 ⟨v, more, hread fuel' (by omega), .inl ⟨hend, rfl⟩⟩
      · rw [hcomma, List.length_cons] at hskip
        obtain ⟨hlt', hread'⟩ := ihItems hitems
        refine ⟨by omega, fun fuel' hfuel => ?_⟩
        obtain ⟨fuel', rfl⟩ : ∃ n, fuel' = n + 1 := ⟨fuel' - 1, by omega⟩
        exact readItems_iff.2 ⟨v, more, hread fuel' (by omega), .inr ⟨more', items', hcomma, hread' fuel' (by omega), rfl⟩⟩
    · intro text rest members h
      obtain ⟨text', name, colon, value, v, more, htext, hname, hcolon, hv, hmore⟩ := readMembers_iff.1 h
      obtain ⟨hlt, hread⟩ := ihValue hv
      have hskip := length_skipWhitespace more
      have hskip' := length_skipWhitespace text
      have hskip'' := length_skipWhitespace colon
      have hname' := length_readString hname
      rw [htext, List.length_cons] at hskip'
      rw [hcolon, List.length_cons] at hskip''
      obtain ⟨hend, rfl⟩ | ⟨more', members', hcomma, hmembers, rfl⟩ := hmore
      · rw [hend, List.length_cons] at hskip
        refine ⟨by omega, fun fuel' hfuel => ?_⟩
        obtain ⟨fuel', rfl⟩ : ∃ n, fuel' = n + 1 := ⟨fuel' - 1, by omega⟩
        exact readMembers_iff.2
          ⟨text', name, colon, value, v, more, htext, hname, hcolon, hread fuel' (by omega), .inl ⟨hend, rfl⟩⟩
      · rw [hcomma, List.length_cons] at hskip
        obtain ⟨hlt', hread'⟩ := ihMembers hmembers
        refine ⟨by omega, fun fuel' hfuel => ?_⟩
        obtain ⟨fuel', rfl⟩ : ∃ n, fuel' = n + 1 := ⟨fuel' - 1, by omega⟩
        exact readMembers_iff.2 ⟨text', name, colon, value, v, more, htext, hname, hcolon, hread fuel' (by omega),
          .inr ⟨more', members', hcomma, hread' fuel' (by omega), rfl⟩⟩

/-- The value of a whole text, whatever the number of turns it is read with. -/
theorem parse_eq_some_iff {text : String} {v : Json} :
    parse text = some v ↔
      ∃ fuel rest, readValue fuel text.toList = some (v, rest) ∧ skipWhitespace rest = [] := by
  unfold parse
  constructor
  · intro h
    split at h
    · next v' rest hread =>
      obtain ⟨hrest, he⟩ := Option.ite_none_right_eq_some.1 h
      cases he
      exact ⟨_, rest, hread, hrest⟩
    · cases h
  · rintro ⟨fuel, rest, hread, hrest⟩
    have hread := ((read_of_fuel fuel).1 hread).2 (text.toList.length + 1) (by omega)
    simp only [hread, if_pos hrest]

end JsonText
