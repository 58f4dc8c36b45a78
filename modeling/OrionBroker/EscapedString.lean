import OrionBroker.JsonText

/-!
# Escaped strings (`JsonHelper.cpp`, `tag.cpp`)

The encoder of JSON strings exists twice, with quotes around the text and without.  Both go through the bytes of a
string: quotes, backslashes and control characters are escaped, and the bytes of the other characters, which are
negative as `char`, are left as they are.  A reader of JSON gets back the bytes that were written
(`toJsonString_reversible`).
-/

namespace OrionBroker.JsonHelper

open JsonText (codeUnit escaped)

/-! ### The two encoders -/

/-- A byte as `char`. -/
def signedChar (b : UInt8) : Int := b.toBitVec.toInt

def bytes (s : String) : List UInt8 := s.toList.map fun c => UInt8.ofNat c.toNat

def intToHex : List UInt8 := bytes "0123456789ABCDEF"

/-- The switch of both loops: what is written to the stream for one byte. -/
def written (b : UInt8) : List UInt8 :=
  let ch := signedChar b
  if ch = '\\'.toNat then bytes "\\\\"
  else if ch = '"'.toNat then bytes "\\\""
  else if ch = 0x08 then bytes "\\b"
  else if ch = 0x0C then bytes "\\f"
  else if ch = '\n'.toNat then bytes "\\n"
  else if ch = '\r'.toNat then bytes "\\r"
  else if ch = '\t'.toNat then bytes "\\t"
  else if ch ≥ 0 ∧ ch ≤ 0x1F then
    bytes "\\u00" ++ [intToHex.getD ((b.toNat &&& 0xF0) >>> 4) 0, intToHex.getD (b.toNat &&& 0x0F) 0]
  else [b]

def toJsonString (input : List UInt8) : List UInt8 :=
  input.foldl (fun ss b => ss ++ written b) (bytes "\"") ++ bytes "\""

def jsonInvalidCharsTransformation (input : List UInt8) : List UInt8 :=
  input.foldl (fun ss b => ss ++ written b) []

/-! ### The reader -/

def quote : UInt8 := 0x22

def backslash : UInt8 := 0x5C

def char (b : UInt8) : Char := Char.ofNat b.toNat

/-- The code unit of four digits, and what follows them. -/
def readUnit : List UInt8 → Option (Nat × List UInt8)
  | a :: b :: c :: d :: rest => (codeUnit (char a) (char b) (char c) (char d)).map fun unit => (unit, rest)
  | _ => none

/-- A character that is given by its code units; two of them make a surrogate pair. -/
def readUnicode (text : List UInt8) : Option (List UInt8 × List UInt8) := do
  let (unit, rest) ← readUnit text
  if unit < 0xD800 ∨ 0xE000 ≤ unit then return (String.utf8EncodeChar (Char.ofNat unit), rest)
  else
    match rest with
    | b :: u :: rest =>
      if b = backslash ∧ char u = 'u' then
        let (low, rest) ← readUnit rest
        if unit < 0xDC00 ∧ 0xDC00 ≤ low ∧ low < 0xE000 then
          return (String.utf8EncodeChar (Char.ofNat (0x10000 + (unit - 0xD800) * 0x400 + (low - 0xDC00))), rest)
        else none
      else none
    | _ => none

/-- One character between the quotes: its bytes, and what follows it. -/
def readCharacter : List UInt8 → Option (List UInt8 × List UInt8)
  | [] => none
  | b :: rest =>
    if b = backslash then
      match rest with
      | [] => none
      | e :: rest =>
        if char e = 'u' then readUnicode rest
        else (escaped (char e)).map fun c => (String.utf8EncodeChar c, rest)
    else if b = quote ∨ b < 0x20 then none
    else some ([b], rest)

/-- The characters up to a quote, which is the last byte.  Every character is at least one byte of the text, so its
length is fuel enough. -/
def readBody : Nat → List UInt8 → Option (List UInt8)
  | 0, _ => none
  | fuel + 1, text =>
    if text = [quote] then some []
    else do
      let (c, rest) ← readCharacter text
      return c ++ (← readBody fuel rest)

/-- The bytes that a string literal stands for. -/
def readLiteral : List UInt8 → Option (List UInt8)
  | [] => none
  | b :: body => if b = quote then readBody body.length body else none

/-- The inside of a literal: no control character and no quote is left as it is, and each backslash begins an escape
sequence. -/
inductive LiteralBody : List UInt8 → Prop where
  | nil : LiteralBody []
  | plain {b : UInt8} {body : List UInt8} (hcontrol : ¬b < 0x20) (hquote : b ≠ quote) (hbackslash : b ≠ backslash)
      (h : LiteralBody body) : LiteralBody (b :: body)
  | escape {e : UInt8} {body : List UInt8} (he : e ∈ bytes "\"\\/bfnrt") (h : LiteralBody body) :
      LiteralBody (backslash :: e :: body)
  | unit {u a b c d : UInt8} {body : List UInt8} (hu : char u = 'u')
      (hunit : (codeUnit (char a) (char b) (char c) (char d)).isSome = true) (h : LiteralBody body) :
      LiteralBody (backslash :: u :: a :: b :: c :: d :: body)

/-! ### One byte -/

/-- The ways in which a byte is written. -/
theorem written_cases : ∀ b : UInt8,
    (written b = [b] ∧ ¬b < 0x20 ∧ b ≠ quote ∧ b ≠ backslash) ∨
      (∃ e ∈ bytes "\"\\/bfnrt", written b = [backslash, e] ∧ char e ≠ 'u' ∧
        (escaped (char e)).map String.utf8EncodeChar = some [b]) ∨
      ∃ x ∈ intToHex, ∃ y ∈ intToHex, written b = backslash :: (bytes "u00" ++ [x, y]) ∧
        codeUnit '0' '0' (char x) (char y) = some b.toNat ∧ b.toNat < 0x20 := by
  have hall : ∀ n : Fin 256, let b := UInt8.ofNat n.val
      (written b = [b] ∧ ¬b < 0x20 ∧ b ≠ quote ∧ b ≠ backslash) ∨
        (∃ e ∈ bytes "\"\\/bfnrt", written b = [backslash, e] ∧ char e ≠ 'u' ∧
          (escaped (char e)).map String.utf8EncodeChar = some [b]) ∨
        ∃ x ∈ intToHex, ∃ y ∈ intToHex, written b = backslash :: (bytes "u00" ++ [x, y]) ∧
          codeUnit '0' '0' (char x) (char y) = some b.toNat ∧ b.toNat < 0x20 := by
    decide +kernel
  intro b
  have hb := hall ⟨b.toNat, b.toNat_lt⟩
  simpa using hb

theorem utf8EncodeChar_control {b : UInt8} (h : b.toNat < 0x20) : String.utf8EncodeChar (Char.ofNat b.toNat) = [b] := by
  have hall : ∀ n : Fin 0x20, String.utf8EncodeChar (Char.ofNat n.val) = [UInt8.ofNat n.val] := by decide +kernel
  have hb := hall ⟨b.toNat, h⟩
  simpa using hb

/-- A byte is read as it was written, whatever follows. -/
theorem readCharacter_written (b : UInt8) (rest : List UInt8) : readCharacter (written b ++ rest) = some ([b], rest) := by
  rcases written_cases b with ⟨hwritten, hcontrol, hquote, hbackslash⟩ | ⟨e, -, hwritten, hu, hescape⟩ | ⟨x, -, y, -, hwritten, hunit, hlt⟩
  · rw [hwritten, List.singleton_append]
    simp only [readCharacter, if_neg hbackslash, if_neg (not_or.2 ⟨hquote, hcontrol⟩)]
  · obtain ⟨c, hc, hbyte⟩ := Option.map_eq_some_iff.1 hescape
    rw [hwritten]
    simp only [List.cons_append, List.nil_append, readCharacter, if_true, if_neg hu, hc, Option.map_some, hbyte]
  · have hdigits : bytes "u00" ++ [x, y] ++ rest = 0x75 :: 0x30 :: 0x30 :: x :: y :: rest := rfl
    have hread : readUnit (0x30 :: 0x30 :: x :: y :: rest) = some (b.toNat, rest) := by
      have hzero : char 0x30 = '0' := rfl
      simp only [readUnit, hzero, hunit, Option.map_some]
    have hunicode : readUnicode (0x30 :: 0x30 :: x :: y :: rest) = some ([b], rest) := by
      have hbelow : b.toNat < 0xD800 ∨ 0xE000 ≤ b.toNat := Or.inl (hlt.trans (by decide))
      simp only [readUnicode, hread, Option.bind_eq_bind, Option.bind_some, if_pos hbelow, utf8EncodeChar_control hlt]
      rfl
    have hu : char 0x75 = 'u' := rfl
    rw [hwritten, List.cons_append, hdigits]
    simp only [readCharacter, if_true, hu, hunicode]

theorem LiteralBody.written (b : UInt8) {body : List UInt8} (h : LiteralBody body) : LiteralBody (written b ++ body) := by
  rcases written_cases b with ⟨hwritten, hcontrol, hquote, hbackslash⟩ | ⟨e, he, hwritten, -⟩ | ⟨x, -, y, -, hwritten, hunit, -⟩
  · rw [hwritten]
    exact .plain hcontrol hquote hbackslash h
  · rw [hwritten]
    exact .escape he h
  · rw [hwritten]
    exact .unit (show char 0x75 = 'u' from rfl) (Option.isSome_iff_exists.2 ⟨_, hunit⟩) h

/-- A byte is written as at least one, and not as a quote. -/
theorem written_ne (b : UInt8) : written b ≠ [] ∧ ∀ rest, written b ++ rest ≠ [quote] := by
  rcases written_cases b with ⟨hwritten, -, hquote, -⟩ | ⟨e, -, hwritten, -⟩ | ⟨x, -, y, -, hwritten, -⟩
  · rw [hwritten]
    refine ⟨List.cons_ne_nil _ _, fun rest h => ?_⟩
    exact hquote (List.cons.inj h).1
  · rw [hwritten]
    refine ⟨List.cons_ne_nil _ _, fun rest h => ?_⟩
    cases (List.cons.inj h).2
  · rw [hwritten]
    refine ⟨List.cons_ne_nil _ _, fun rest h => ?_⟩
    cases (List.cons.inj h).2

/-! ### All bytes -/

theorem foldl_written (ss input : List UInt8) :
    input.foldl (fun ss b => ss ++ written b) ss = ss ++ input.flatMap written := by
  induction input generalizing ss with
  | nil => simp
  | cons b input ih => rw [List.foldl_cons, ih, List.flatMap_cons, List.append_assoc]

theorem jsonInvalidCharsTransformation_eq (input : List UInt8) :
    jsonInvalidCharsTransformation input = input.flatMap written := by
  rw [jsonInvalidCharsTransformation, foldl_written, List.nil_append]

/-- The encoders differ in the quotes. -/
theorem toJsonString_eq (input : List UInt8) :
    toJsonString input = quote :: (jsonInvalidCharsTransformation input ++ [quote]) := by
  rw [toJsonString, foldl_written, jsonInvalidCharsTransformation_eq, List.append_assoc]
  rfl

theorem literalBody_written (input : List UInt8) : LiteralBody (input.flatMap written) := by
  induction input with
  | nil => exact .nil
  | cons b input ih =>
    rw [List.flatMap_cons]
    exact ih.written b

theorem readBody_written (input : List UInt8) {fuel : Nat} (hfuel : input.length < fuel) :
    readBody fuel (input.flatMap written ++ [quote]) = some input := by
  induction input generalizing fuel with
  | nil =>
    obtain ⟨fuel, rfl⟩ := Nat.exists_eq_add_of_lt hfuel
    rfl
  | cons b input ih =>
    obtain ⟨fuel, rfl⟩ : ∃ n, fuel = n + 1 := ⟨fuel - 1, by omega⟩
    rw [List.length_cons] at hfuel
    have hrest := ih (show input.length < fuel by omega)
    rw [List.flatMap_cons, List.append_assoc, readBody, if_neg ((written_ne b).2 _), readCharacter_written]
    simp only [Option.bind_eq_bind, Option.bind_some, hrest]
    rfl

theorem length_written (input : List UInt8) : input.length ≤ (input.flatMap written).length := by
  induction input with
  | nil => exact Nat.zero_le _
  | cons b input ih =>
    have hpos := List.length_pos_iff.2 (written_ne b).1
    rw [List.flatMap_cons, List.length_append, List.length_cons]
    omega

/-- A literal is read as the bytes that were written. -/
theorem readLiteral_toJsonString (s : List UInt8) : readLiteral (toJsonString s) = some s := by
  have hfuel : s.length < (s.flatMap written ++ [quote]).length := by
    have hlength := length_written s
    rw [List.length_append, List.length_singleton]
    omega
  rw [toJsonString_eq, jsonInvalidCharsTransformation_eq, readLiteral, if_pos rfl]
  exact readBody_written s hfuel

/-- What is written is a string literal that stands for the bytes, the other encoder writes its inside, and different
strings are written differently by both. -/
theorem toJsonString_reversible (s : List UInt8) :
    readLiteral (toJsonString s) = some s ∧ LiteralBody (jsonInvalidCharsTransformation s) ∧
      toJsonString s = quote :: (jsonInvalidCharsTransformation s ++ [quote]) ∧
      ∀ t, t ≠ s → toJsonString t ≠ toJsonString s ∧
        jsonInvalidCharsTransformation t ≠ jsonInvalidCharsTransformation s := by
  refine ⟨readLiteral_toJsonString s, ?_, toJsonString_eq s, fun t hne => ?_⟩
  · rw [jsonInvalidCharsTransformation_eq]
    exact literalBody_written s
  · have hdiffer : toJsonString t ≠ toJsonString s := by
      intro h
      have hread := readLiteral_toJsonString t
      rw [h, readLiteral_toJsonString] at hread
      exact hne (Option.some.inj hread).symm
    refine ⟨hdiffer, fun h => hdiffer ?_⟩
    rw [toJsonString_eq, toJsonString_eq, h]

end OrionBroker.JsonHelper
