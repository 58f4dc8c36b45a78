import Mathlib.Algebra.Order.Floor.Ring
import Mathlib.Data.Int.Log
import Mathlib.Tactic.FieldSimp
import Mathlib.Tactic.NormNum
import OrionBroker.JsonText

/-!
# Numbers on a stream

With the default settings a stream writes a `double` as `%g` does: with six significant digits, without zeros at the end
of the fraction, and with an exponent if it is below -4 or above 5.  The text denotes the number rounded to six digits
(`denotes_toString`), so an integer is written exactly if and only if it has no more than six significant digits
(`denotes_toString_int_iff`).
-/

namespace OrionBroker.OStream

open Bson JsonText

/-! ### Writing -/

/-- The nearest integer; of two, the even one. -/
def roundEven (q : ℚ) : ℤ :=
  if q - ⌊q⌋ < 1 / 2 then ⌊q⌋
  else if 1 / 2 < q - ⌊q⌋ then ⌊q⌋ + 1
  else if ⌊q⌋ % 2 = 0 then ⌊q⌋
  else ⌊q⌋ + 1

/-- The six digits of a positive number as an integer, and the decimal exponent of the first one. -/
def significand (q : ℚ) : ℕ × ℤ :=
  let exponent := Int.log 10 q
  let digits := (roundEven (q / 10 ^ (exponent - 5))).toNat
  if digits = 1000000 then (100000, exponent + 1) else (digits, exponent)

def sixDigits (r : ℕ) : List Char :=
  [r / 100000, r / 10000 % 10, r / 1000 % 10, r / 100 % 10, r / 10 % 10, r % 10].map Nat.digitChar

def withoutZeros (digits : List Char) : List Char := (digits.reverse.dropWhile (· = '0')).reverse

/-- The point and the digits behind it, if there are any. -/
def fraction (digits : List Char) : List Char :=
  if withoutZeros digits = [] then [] else '.' :: withoutZeros digits

/-- Two digits at least. -/
def exponentDigits (n : ℕ) : List Char :=
  if (Nat.toDigits 10 n).length < 2 then '0' :: Nat.toDigits 10 n else Nat.toDigits 10 n

def exponentText (exponent : ℤ) : List Char :=
  'e' :: (if exponent < 0 then '-' else '+') :: exponentDigits exponent.natAbs

/-- A positive number. -/
def positiveText (q : ℚ) : List Char :=
  let digits := sixDigits (significand q).1
  let exponent := (significand q).2
  if exponent < -4 ∨ 6 ≤ exponent then digits.take 1 ++ fraction (digits.drop 1) ++ exponentText exponent
  else if 0 ≤ exponent then digits.take (exponent.toNat + 1) ++ fraction (digits.drop (exponent.toNat + 1))
  else '0' :: fraction (List.replicate (exponent.natAbs - 1) '0' ++ digits)

/-- `toString` of a `double` (`string.h`). -/
def toString : Double → String
  | .nan => "nan"
  | .inf negative => if negative then "-inf" else "inf"
  | .fin q =>
    if q = 0 then "0"
    else if q < 0 then String.ofList ('-' :: positiveText (-q))
    else String.ofList (positiveText q)

/-! ### Rounding -/

theorem floor_le_roundEven (q : ℚ) : ⌊q⌋ ≤ roundEven q := by
  unfold roundEven
  split_ifs <;> omega

theorem roundEven_le (q : ℚ) : roundEven q ≤ ⌊q⌋ + 1 := by
  unfold roundEven
  split_ifs <;> omega

theorem roundEven_intCast (n : ℤ) : roundEven n = n := by
  unfold roundEven
  rw [Int.floor_intCast, sub_self, if_pos (by norm_num)]

/-- A positive number rounded to six significant digits. -/
def roundSix (q : ℚ) : ℚ := roundEven (q / 10 ^ (Int.log 10 q - 5)) * 10 ^ (Int.log 10 q - 5)

theorem significand_spec {q : ℚ} (hq : 0 < q) :
    100000 ≤ (significand q).1 ∧ (significand q).1 < 1000000 ∧
      ((significand q).1 : ℚ) * 10 ^ ((significand q).2 - 5) = roundSix q := by
  have hlow := Int.zpow_log_le_self (b := 10) (by norm_num) hq
  have hhigh := Int.lt_zpow_succ_log_self (b := 10) (by norm_num) q
  unfold significand roundSix
  dsimp only
  generalize Int.log 10 q = exponent at *
  have hten : (0 : ℚ) < 10 ^ (exponent - 5) := by positivity
  have hfloor : 100000 ≤ ⌊q / 10 ^ (exponent - 5)⌋ := by
    rw [Int.le_floor, le_div_iff₀ hten]
    calc ((100000 : ℤ) : ℚ) * 10 ^ (exponent - 5) = 10 ^ (5 : ℤ) * 10 ^ (exponent - 5) := by norm_num
      _ = 10 ^ exponent := by rw [← zpow_add₀ (by norm_num)]; congr 1; omega
      _ ≤ q := by exact_mod_cast hlow
  have hfloor' : ⌊q / 10 ^ (exponent - 5)⌋ < 1000000 := by
    rw [Int.floor_lt, div_lt_iff₀ hten]
    calc q < 10 ^ (exponent + 1) := by exact_mod_cast hhigh
      _ = 10 ^ (6 : ℤ) * 10 ^ (exponent - 5) := by rw [← zpow_add₀ (by norm_num)]; congr 1; omega
      _ = ((1000000 : ℤ) : ℚ) * 10 ^ (exponent - 5) := by norm_num
  have hge := floor_le_roundEven (q / 10 ^ (exponent - 5))
  have hle := roundEven_le (q / 10 ^ (exponent - 5))
  generalize roundEven (q / 10 ^ (exponent - 5)) = r at *
  obtain ⟨r, rfl⟩ := Int.eq_ofNat_of_zero_le (by omega : 0 ≤ r)
  rw [Int.toNat_natCast]
  split
  · rename_i hr
    refine ⟨le_rfl, by norm_num, ?_⟩
    have hsix : exponent + 1 - 5 = exponent - 5 + 1 := by omega
    rw [hr, hsix, zpow_add_one₀ (by norm_num)]
    push_cast
    ring
  · exact ⟨by omega, by omega, by push_cast; rfl⟩

/-! ### Digits -/

theorem natOf_eq (digits : List Char) : natOf digits = Nat.ofDigitChars 10 digits 0 := by
  rw [natOf, Nat.ofDigitChars_eq_foldl]
  congr 1
  funext n c
  rw [Nat.mul_comm]

theorem natOf_append (l m : List Char) : natOf (l ++ m) = natOf l * 10 ^ m.length + natOf m := by
  rw [natOf_eq, natOf_eq, natOf_eq, Nat.ofDigitChars_append, Nat.ofDigitChars_eq_ofDigitChars_zero, Nat.mul_comm]

theorem natOf_replicate (n : ℕ) : natOf (List.replicate n '0') = 0 := by
  rw [natOf_eq, Nat.ofDigitChars_replicate_zero, Nat.mul_zero]

theorem natOf_toDigits (n : ℕ) : natOf (Nat.toDigits 10 n) = n := by rw [natOf_eq, Nat.ofDigitChars_ten_toDigits]

/-- Nothing but digits. -/
def Digits (l : List Char) : Prop := ∀ c ∈ l, c.isDigit = true

theorem Digits.append {l m : List Char} (hl : Digits l) (hm : Digits m) : Digits (l ++ m) := fun c hc =>
  (List.mem_append.1 hc).elim (hl c) (hm c)

theorem digits_replicate (n : ℕ) : Digits (List.replicate n '0') := fun c hc => by
  rw [List.eq_of_mem_replicate hc]
  rfl

theorem digits_toDigits (n : ℕ) : Digits (Nat.toDigits 10 n) := fun _ hc =>
  Nat.isDigit_of_mem_toDigits (by decide) (by decide) hc

theorem digits_sixDigits {r : ℕ} (h : r < 1000000) : Digits (sixDigits r) := by
  intro c hc
  obtain ⟨d, hd, rfl⟩ := List.mem_map.1 hc
  have hlt : d < 10 := by
    simp only [List.mem_cons, List.not_mem_nil, or_false] at hd
    omega
  simpa using hlt

theorem natOf_sixDigits {r : ℕ} (h : r < 1000000) : natOf (sixDigits r) = r := by
  rw [natOf_eq, sixDigits]
  simp only [List.map_cons, List.map_nil]
  iterate 6 rw [Nat.ofDigitChars_cons_digitChar_of_lt_ten (by omega)]
  rw [Nat.ofDigitChars_nil]
  omega

/-- The zeros at the end that are left out. -/
theorem withoutZeros_append (digits : List Char) : ∃ n, digits = withoutZeros digits ++ List.replicate n '0' := by
  have hsplit := List.takeWhile_append_dropWhile (p := fun c => decide (c = '0')) (l := digits.reverse)
  have hzeros : ∀ c ∈ digits.reverse.takeWhile (fun c => decide (c = '0')), c = '0' := fun c hc => by
    simpa using List.mem_takeWhile_imp hc
  refine ⟨(digits.reverse.takeWhile fun c => decide (c = '0')).length, ?_⟩
  rw [withoutZeros, ← List.reverse_replicate, ← List.reverse_append, ← List.eq_replicate_of_mem hzeros, hsplit,
    List.reverse_reverse]

theorem natOf_withoutZeros (digits : List Char) :
    (natOf (withoutZeros digits) : ℚ) / 10 ^ (withoutZeros digits).length = natOf digits / 10 ^ digits.length := by
  obtain ⟨n, hn⟩ := withoutZeros_append digits
  generalize withoutZeros digits = short at *
  rw [hn, natOf_append, natOf_replicate, List.length_append, List.length_replicate, pow_add]
  push_cast
  field_simp
  simp

/-! ### Reading -/

/-- The text is a number of JSON. -/
def DenotesNumber (text : List Char) (q : ℚ) : Prop :=
  readNumber text = some (.double (.fin q), []) ∨ ∃ n : ℤ, readNumber text = some (.int n, []) ∧ q = n

theorem readDigits_append {digits rest : List Char} (hdigits : Digits digits) (hne : digits ≠ [])
    (hrest : ∀ c ∈ rest.head?, c.isDigit = false) : readDigits (digits ++ rest) = some (digits, rest) := by
  have htake : (digits ++ rest).takeWhile Char.isDigit = digits := by
    rw [List.takeWhile_append_of_pos hdigits]
    cases rest with
    | nil => simp
    | cons c rest =>
      have hc : c.isDigit = false := hrest c rfl
      rw [List.takeWhile_cons_of_neg (by simp [hc]), List.append_nil]
  have hdrop : (digits ++ rest).dropWhile Char.isDigit = rest := by
    rw [List.dropWhile_append_of_pos hdigits]
    cases rest with
    | nil => rfl
    | cons c rest =>
      have hc : c.isDigit = false := hrest c rfl
      rw [List.dropWhile_cons_of_neg (by simp [hc])]
  unfold readDigits
  rw [List.span_eq_takeWhile_dropWhile, htake, hdrop]
  cases digits with
  | nil => exact absurd rfl hne
  | cons c digits => rfl

theorem digits_withoutZeros {digits : List Char} (h : Digits digits) : Digits (withoutZeros digits) := by
  obtain ⟨n, hn⟩ := withoutZeros_append digits
  exact fun c hc => h c (hn ▸ List.mem_append_left _ hc)

/-- What may follow the digits of a number. -/
def ends (exponent : Option ℤ) : List Char := (exponent.map exponentText).getD []

theorem head_ends (exponent : Option ℤ) : ∀ c ∈ (ends exponent).head?, c = 'e' := by
  cases exponent with
  | none => simp [ends]
  | some X => simp [ends, exponentText]

theorem readDigits_exponentDigits (n : ℕ) :
    ∃ digits, readDigits (exponentDigits n) = some (digits, []) ∧ natOf digits = n := by
  unfold exponentDigits
  split
  · have hread := @readDigits_append _ [] ((digits_replicate 1).append (digits_toDigits n)) (by simp) (by simp)
    have hvalue := natOf_append (List.replicate 1 '0') (Nat.toDigits 10 n)
    rw [natOf_replicate, natOf_toDigits, Nat.zero_mul, Nat.zero_add] at hvalue
    rw [List.append_nil] at hread
    exact ⟨_, hread, hvalue⟩
  · have hread := @readDigits_append _ [] (digits_toDigits n) Nat.toDigits_ne_nil (by simp)
    rw [List.append_nil] at hread
    exact ⟨_, hread, natOf_toDigits n⟩

theorem readExponent_ends (exponent : Option ℤ) : readExponent (ends exponent) = some (exponent, []) := by
  cases exponent with
  | none => rfl
  | some X =>
    obtain ⟨digits, hread, hvalue⟩ := readDigits_exponentDigits X.natAbs
    have htext : ends (some X) = 'e' :: (if X < 0 then '-' else '+') :: exponentDigits X.natAbs := rfl
    rw [htext, readExponent]
    split
    · rw [readExponentDigits, hread]
      simp only [Option.map_some, hvalue]
      congr 3
      omega
    · rw [readExponentDigits, hread]
      simp only [Option.map_some, hvalue]
      congr 3
      omega

theorem readFraction_fraction {fr : List Char} (hfr : Digits fr) (exponent : Option ℤ) :
    readFraction (fraction fr ++ ends exponent) =
      some (if withoutZeros fr = [] then none else some (withoutZeros fr), ends exponent) := by
  have hhead := head_ends exponent
  unfold fraction
  split
  · rw [List.nil_append, readFraction]
    intro rest hrest
    rw [hrest] at hhead
    exact absurd (hhead '.' rfl) (by decide)
  · rename_i hne
    rw [List.cons_append, readFraction, readDigits_append (digits_withoutZeros hfr) hne]
    · rfl
    · intro c hc
      rw [hhead c hc]
      rfl

/-- What is read of a number that is written with a sign, the digits before and behind the point, and an exponent. -/
theorem denotes_positional {whole fr : List Char} (hwhole : Digits whole) (hne : whole ≠ [])
    (hzero : ¬(whole.head? = some '0' ∧ whole ≠ ['0'])) (hfr : Digits fr) (exponent : Option ℤ) (negative : Bool) :
    DenotesNumber ((if negative then ['-'] else []) ++ (whole ++ fraction fr ++ ends exponent))
      ((if negative then -1 else 1) * (natOf whole + natOf fr / 10 ^ fr.length) * 10 ^ (exponent.getD 0)) := by
  have hsign : readSign ((if negative then ['-'] else []) ++ (whole ++ fraction fr ++ ends exponent)) =
      ((if negative then -1 else 1), whole ++ fraction fr ++ ends exponent) := by
    cases negative with
    | true => rfl
    | false =>
      cases whole with
      | nil => exact absurd rfl hne
      | cons c whole =>
        have hc : c ≠ '-' := by
          rintro rfl
          exact absurd (hwhole '-' List.mem_cons_self) (by decide)
        rw [readSign]
        · simp
        · rintro rest hrest
          simp at hrest
          exact absurd hrest.1 hc
  have hrest : ∀ c ∈ (fraction fr ++ ends exponent).head?, c.isDigit = false := by
    intro c hc
    unfold fraction at hc
    split at hc
    · rw [head_ends exponent c hc]
      rfl
    · cases hc
      rfl
  unfold DenotesNumber readNumber
  rw [hsign, List.append_assoc]
  simp only [readDigits_append hwhole hne hrest, if_neg hzero, readFraction_fraction hfr, readExponent_ends,
    Option.bind_eq_bind, Option.bind_some, ← natOf_withoutZeros fr]
  by_cases hnone : withoutZeros fr = []
  · cases exponent with
    | none =>
      right
      refine ⟨(if negative then -1 else 1) * natOf whole, by simp [hnone], ?_⟩
      simp [hnone, natOf]
    | some X =>
      left
      simp [hnone, natOf]
  · left
    simp [hnone]

/-! ### What the text of a number denotes -/

theorem head_sixDigits {r : ℕ} (hlow : 100000 ≤ r) (hhigh : r < 1000000) (n : ℕ) :
    ((sixDigits r).take (n + 1)).head? ≠ some '0' := by
  have hhead : ((sixDigits r).take (n + 1)).head? = some (Nat.digitChar (r / 100000)) := by simp [sixDigits]
  have hdigit : r / 100000 < 10 := by omega
  have hvalue := Nat.toNat_digitChar_sub_48_of_lt_ten hdigit
  intro h
  rw [hhead, Option.some.injEq] at h
  rw [h] at hvalue
  have hzero : '0'.toNat - 48 = 0 := rfl
  omega

/-- The point may stand anywhere among the digits. -/
theorem natOf_take_drop {r : ℕ} (hhigh : r < 1000000) {n : ℕ} (hn : n ≤ 6) :
    (natOf ((sixDigits r).take n) : ℚ) + natOf ((sixDigits r).drop n) / 10 ^ ((sixDigits r).drop n).length =
      r * 10 ^ (-(6 - n : ℤ)) := by
  have hlength : ((sixDigits r).drop n).length = 6 - n := by simp [sixDigits]
  have happend := natOf_append ((sixDigits r).take n) ((sixDigits r).drop n)
  rw [List.take_append_drop, natOf_sixDigits hhigh, hlength] at happend
  have hcast : (r : ℚ) = natOf ((sixDigits r).take n) * 10 ^ (6 - n) + natOf ((sixDigits r).drop n) := by
    exact_mod_cast happend
  have hpow : (10 : ℚ) ^ (-(6 - n : ℤ)) = (10 ^ (6 - n))⁻¹ := by
    rw [← zpow_natCast, ← zpow_neg]
    congr 1
    omega
  rw [hcast, hpow, hlength]
  field_simp

theorem denotes_positiveText {q : ℚ} (hq : 0 < q) (negative : Bool) :
    DenotesNumber ((if negative then ['-'] else []) ++ positiveText q) ((if negative then -1 else 1) * roundSix q) := by
  obtain ⟨hlow, hhigh, hvalue⟩ := significand_spec hq
  rw [← hvalue]
  unfold positiveText
  dsimp only
  generalize (significand q).1 = r at *
  generalize (significand q).2 = exponent at *
  have hdigits := digits_sixDigits hhigh
  have hwhole (n : ℕ) : Digits ((sixDigits r).take n) := fun c hc => hdigits c (List.mem_of_mem_take hc)
  have hfraction (n : ℕ) : Digits ((sixDigits r).drop n) := fun c hc => hdigits c (List.mem_of_mem_drop hc)
  have hne (n : ℕ) : (sixDigits r).take (n + 1) ≠ [] := by simp [sixDigits]
  have hzero (n : ℕ) : ¬(((sixDigits r).take (n + 1)).head? = some '0' ∧ (sixDigits r).take (n + 1) ≠ ['0']) :=
    fun h => head_sixDigits hlow hhigh n h.1
  by_cases hstyle : exponent < -4 ∨ 6 ≤ exponent
  · rw [if_pos hstyle]
    have hread := denotes_positional (hwhole 1) (hne 0) (hzero 0) (hfraction 1) (some exponent) negative
    rw [natOf_take_drop hhigh (by omega), Option.getD_some, mul_assoc, mul_assoc,
      ← zpow_add₀ (by norm_num : (10 : ℚ) ≠ 0)] at hread
    have hexponent : -(6 - (1 : ℕ) : ℤ) + exponent = exponent - 5 := by omega
    rwa [hexponent] at hread
  · rw [if_neg hstyle]
    by_cases hsign : 0 ≤ exponent
    · rw [if_pos hsign]
      have hread := denotes_positional (hwhole (exponent.toNat + 1)) (hne _) (hzero _) (hfraction (exponent.toNat + 1)) none
        negative
      rw [natOf_take_drop hhigh (by omega), Option.getD_none, zpow_zero, mul_one] at hread
      have hexponent : -(6 - (exponent.toNat + 1 : ℕ) : ℤ) = exponent - 5 := by omega
      rw [hexponent] at hread
      simpa [ends] using hread
    · rw [if_neg hsign]
      have hzeros := (digits_replicate (exponent.natAbs - 1)).append hdigits
      have hread := @denotes_positional ['0'] _ (digits_replicate 1) (by simp) (by simp) hzeros none negative
      have hone : natOf ['0'] = 0 := rfl
      have hlength : (List.replicate (exponent.natAbs - 1) '0' ++ sixDigits r).length = (5 - exponent).toNat := by
        simp only [List.length_append, List.length_replicate, sixDigits, List.length_map, List.length_cons,
          List.length_nil]
        omega
      have hpow : ((10 : ℚ) ^ (5 - exponent).toNat)⁻¹ = 10 ^ (exponent - 5) := by
        rw [← zpow_natCast, ← zpow_neg]
        congr 1
        omega
      rw [hlength, natOf_append, natOf_replicate, Nat.zero_mul, Nat.zero_add, natOf_sixDigits hhigh, hone, Nat.cast_zero,
        zero_add, Option.getD_none, zpow_zero, mul_one, div_eq_mul_inv, hpow] at hread
      simpa [ends] using hread

/-- The text of a finite number denotes the number rounded to six significant digits. -/
theorem denotes_toString (q : ℚ) :
    DenotesNumber (toString (.fin q)).toList (if q = 0 then 0 else if q < 0 then -roundSix (-q) else roundSix q) := by
  have htext : toString (.fin q) = if q = 0 then "0"
      else if q < 0 then String.ofList ('-' :: positiveText (-q)) else String.ofList (positiveText q) := rfl
  rw [htext]
  split
  · exact Or.inr ⟨0, rfl, by norm_num⟩
  · split
    · rename_i hneg
      have hread := denotes_positiveText (neg_pos.2 hneg) true
      rw [String.toList_ofList]
      simpa using hread
    · rename_i hne hneg
      have hread := denotes_positiveText (lt_of_le_of_ne (not_lt.1 hneg) (Ne.symm hne)) false
      rw [String.toList_ofList]
      simpa using hread

/-- A text denotes one number at most. -/
theorem DenotesNumber.unique {text : List Char} {p q : ℚ} (hp : DenotesNumber text p) (hq : DenotesNumber text q) :
    p = q := by
  rcases hp with hp | ⟨m, hm, rfl⟩
  · rcases hq with hq | ⟨n, hn, -⟩
    · rw [hp] at hq
      simpa using hq
    · rw [hp] at hn
      cases hn
  · rcases hq with hq | ⟨n, hn, rfl⟩
    · rw [hm] at hq
      cases hq
    · rw [hm] at hn
      simpa using hn

/-! ### Integers -/

/-- No more than six significant digits. -/
def SixDigits (n : ℤ) : Prop := ∃ digits zeros : ℕ, digits < 1000000 ∧ n.natAbs = digits * 10 ^ zeros

/-- Rounding changes nothing if and only if nothing is left behind the six digits. -/
theorem roundSix_eq_self_iff (q : ℚ) : roundSix q = q ↔ ∃ n : ℤ, q = n * 10 ^ (Int.log 10 q - 5) := by
  unfold roundSix
  have hten : (0 : ℚ) < 10 ^ (Int.log 10 q - 5) := by positivity
  generalize (10 : ℚ) ^ (Int.log 10 q - 5) = unit at *
  constructor
  · intro h
    exact ⟨_, h.symm⟩
  · rintro ⟨n, hn⟩
    have hdiv : q / unit = n := by rw [hn, mul_div_assoc, div_self hten.ne', mul_one]
    rw [hdiv, roundEven_intCast, ← hn]

theorem roundSix_natCast_iff {m : ℕ} (hm : 0 < m) : roundSix m = m ↔ SixDigits m := by
  have hhigh : m < 10 ^ (Nat.log 10 m + 1) := Nat.lt_pow_succ_log_self (by norm_num) m
  have hlow : 10 ^ Nat.log 10 m ≤ m := Nat.pow_log_le_self 10 hm.ne'
  rw [roundSix_eq_self_iff, Int.log_natCast, SixDigits, Int.natAbs_natCast]
  generalize Nat.log 10 m = exponent at *
  by_cases hsmall : exponent ≤ 5
  · refine iff_of_true ⟨m * 10 ^ (5 - exponent), ?_⟩ ⟨m, 0, ?_, by rw [pow_zero, mul_one]⟩
    · have hunit : (10 : ℚ) ^ ((exponent : ℤ) - 5) = (10 ^ (5 - exponent))⁻¹ := by
        rw [← zpow_natCast, ← zpow_neg]
        congr 1
        omega
      rw [hunit]
      push_cast
      field_simp
    · calc m < 10 ^ (exponent + 1) := hhigh
        _ ≤ 10 ^ 6 := Nat.pow_le_pow_right (by norm_num) (by omega)
  · obtain ⟨k, rfl⟩ : ∃ k, exponent = k + 5 := ⟨exponent - 5, by omega⟩
    have hunit : (10 : ℚ) ^ (((k + 5 : ℕ) : ℤ) - 5) = ((10 ^ k : ℕ) : ℚ) := by
      rw [Nat.cast_add, Nat.cast_ofNat, add_sub_cancel_right, zpow_natCast]
      push_cast
      rfl
    rw [hunit]
    have hpos : 0 < 10 ^ k := by positivity
    constructor
    · rintro ⟨n, hn⟩
      have hint : (m : ℤ) = n * (10 ^ k : ℕ) := by exact_mod_cast hn
      obtain ⟨digits, rfl⟩ : ∃ digits : ℕ, n = digits := by
        refine Int.eq_ofNat_of_zero_le ?_
        by_contra hneg
        have hprod := mul_neg_of_neg_of_pos (not_le.1 hneg) (by exact_mod_cast hpos : (0 : ℤ) < (10 ^ k : ℕ))
        omega
      have hnat : m = digits * 10 ^ k := by exact_mod_cast hint
      refine ⟨digits, k, ?_, hnat⟩
      have hbound : digits * 10 ^ k < 1000000 * 10 ^ k := by
        rw [← hnat]
        calc m < 10 ^ (k + 5 + 1) := hhigh
          _ = 1000000 * 10 ^ k := by ring
      exact Nat.lt_of_mul_lt_mul_right hbound
    · rintro ⟨digits, zeros, hdigits, hnat⟩
      have hle : k ≤ zeros := by
        by_contra hlt
        have hbound : m < 10 ^ (k + 5) := by
          calc m = digits * 10 ^ zeros := hnat
            _ < 1000000 * 10 ^ zeros := Nat.mul_lt_mul_of_pos_right hdigits (by positivity)
            _ = 10 ^ (zeros + 1 + 5) := by ring
            _ ≤ 10 ^ (k + 5) := Nat.pow_le_pow_right (by norm_num) (by omega)
        omega
      refine ⟨digits * 10 ^ (zeros - k), ?_⟩
      have hsplit : m = digits * 10 ^ (zeros - k) * 10 ^ k := by
        rw [mul_assoc, ← pow_add, Nat.sub_add_cancel hle]
        exact hnat
      rw [hsplit]
      push_cast
      rfl

/-- An integer is written exactly if and only if it has no more than six significant digits. -/
theorem denotes_toString_int_iff (n : ℤ) : DenotesNumber (toString (.fin n)).toList n ↔ SixDigits n := by
  have hread := denotes_toString n
  have hexact : DenotesNumber (toString (.fin n)).toList n ↔
      (if (n : ℚ) = 0 then 0 else if (n : ℚ) < 0 then -roundSix (-n) else roundSix n) = n := by
    constructor
    · exact fun h => hread.unique h
    · intro h
      rwa [h] at hread
  rw [hexact]
  rcases lt_trichotomy n 0 with hneg | rfl | hpos
  · obtain ⟨m, rfl⟩ : ∃ m : ℕ, n = -m := ⟨n.natAbs, by omega⟩
    have hm : 0 < m := by omega
    have hq : ((-m : ℤ) : ℚ) < 0 := by exact_mod_cast hneg
    rw [if_neg hq.ne, if_pos hq]
    have hsix : SixDigits (-m) ↔ SixDigits m := by rw [SixDigits, SixDigits, Int.natAbs_neg]
    rw [hsix, ← roundSix_natCast_iff hm]
    push_cast
    rw [neg_neg, neg_inj]
  · exact iff_of_true (by simp) ⟨0, 0, by norm_num, rfl⟩
  · obtain ⟨m, rfl⟩ : ∃ m : ℕ, n = m := ⟨n.natAbs, by omega⟩
    have hm : 0 < m := by omega
    have hq : (0 : ℚ) < ((m : ℤ) : ℚ) := by exact_mod_cast hpos
    rw [if_neg hq.ne', if_neg hq.not_gt, ← roundSix_natCast_iff hm]
    push_cast
    rfl

end OrionBroker.OStream
