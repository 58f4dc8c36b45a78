import OrionBroker.Calendar
import OrionBroker.NumberText
import OrionBroker.Location
import OrionBroker.AttributeParser

/-!
# Dates (`globals.cpp`, `string.cpp`)

A date is kept as the number of seconds since the beginning of 1970.  `parse8601Time` reads it from a text, with the
`strptime` of the C library, and `isodate2str` writes it, with `strftime`.

A number is written with as many digits as it has, but only four digits of a year are read, and no sign
(`parse_isodate_iff`).  A text is read in many other forms than it is written, and with times that do not exist, which
are counted on from those that do (`written_as_read_iff`).
-/

namespace OrionBroker.IsoDate

open Calendar
open JsonText (natOf)
open OStream (Digits)

/-! ### Reading -/

def digitValue (c : Char) : Nat := c.toNat - '0'.toNat

/-- The digits behind the first one: no more than `n`, and none that makes the number greater by its place alone. -/
def moreDigits (high : Nat) : Nat → Nat → List Char → Nat × List Char
  | n + 1, value, c :: s =>
    if value * 10 ≤ high ∧ c.isDigit = true then moreDigits high n (value * 10 + digitValue c) s else (value, c :: s)
  | _, value, s => (value, s)

/-- A number of at most `n` digits, behind blanks. -/
def getNumber (low high n : Nat) (s : List Char) : Option (Nat × List Char) :=
  match s.dropWhile (· = ' ') with
  | [] => none
  | c :: s =>
    if c.isDigit then
      let number := moreDigits high (n - 1) (digitValue c) s
      if low ≤ number.1 ∧ number.1 ≤ high then some number else none
    else none

def matchChar (c : Char) : List Char → Option (List Char)
  | [] => none
  | d :: s => if d = c then some s else none

/-- `strptime(s, " %Y-%m-%dT%T", &tm)`; what follows is not read. -/
def strptime (s : List Char) : Option Time := do
  let (year, s) ← getNumber 0 9999 4 (s.dropWhile isspace)
  let s ← matchChar '-' s
  let (month, s) ← getNumber 1 12 2 s
  let s ← matchChar '-' s
  let (day, s) ← getNumber 1 31 2 s
  let s ← matchChar 'T' s
  let (hour, s) ← getNumber 0 23 2 s
  let s ← matchChar ':' s
  let (minute, s) ← getNumber 0 59 2 s
  let s ← matchChar ':' s
  let (second, _) ← getNumber 0 61 2 s
  return { date := { year, month, day }, hour, minute, second }

/-- `timegm` counts a day that its month does not have, and a second that its minute does not have, from those before. -/
def parse8601Time (s : String) : Int :=
  match strptime s.toList with
  | none => -1
  | some tm => tm.toSeconds

/-! ### Writing -/

/-- The year of the C library is an `int`, and is counted from 1900. -/
def gmtime (rawtime : Int) : Option Time :=
  let tm := ofSeconds rawtime
  if -2 ^ 31 ≤ tm.date.year - 1900 ∧ tm.date.year - 1900 < 2 ^ 31 then some tm else none

def twoDigits (n : Nat) : List Char := [Nat.digitChar (n / 10), Nat.digitChar (n % 10)]

/-- `%Y`. -/
def yearText (year : Int) : List Char := if year < 0 then '-' :: Nat.toDigits 10 year.natAbs else Nat.toDigits 10 year.natAbs

/-- `strftime(buffer, sizeof(buffer), "%Y-%m-%dT%H:%M:%S.00Z", tm)`. -/
def strftime (tm : Time) : List Char :=
  yearText tm.date.year ++ '-' :: (twoDigits tm.date.month ++ '-' :: (twoDigits tm.date.day ++
    'T' :: (twoDigits tm.hour ++ ':' :: (twoDigits tm.minute ++ ':' :: (twoDigits tm.second ++ ['.', '0', '0', 'Z'])))))

/-- Without a result the NULL pointer is read. -/
def isodate2str (timestamp : Int) : Option String := (gmtime timestamp).map fun tm => String.ofList (strftime tm)

example : isodate2str 17460 = some "1970-01-01T04:51:00.00Z" := by decide +kernel

example : parse8601Time " 1970- 2-30T 4:51:60junk" = parse8601Time "1970-03-02T04:52:00" := by decide +kernel

/-! ### Numbers -/

section Numbers

variable {low high n value : Nat} {ds s rest : List Char}

/-- The number that digits make behind others. -/
def goOn (value : Nat) (ds : List Char) : Nat := ds.foldl (fun value c => value * 10 + digitValue c) value

theorem le_goOn (value : Nat) (ds : List Char) : value ≤ goOn value ds := by
  induction ds generalizing value with
  | nil => exact Nat.le_refl value
  | cons c ds ih =>
    have hrest := ih (value * 10 + digitValue c)
    unfold goOn at hrest ⊢
    rw [List.foldl_cons]
    omega

theorem natOf_cons (c : Char) (ds : List Char) : natOf (c :: ds) = goOn (digitValue c) ds := by
  unfold natOf goOn digitValue
  rw [List.foldl_cons, Nat.zero_mul, Nat.zero_add]

theorem moreDigits_append (hdigits : Digits ds) (hlength : ds.length ≤ n) (hhigh : goOn value ds ≤ high)
    (hend : ds.length = n ∨ ∀ c ∈ rest.head?, c.isDigit = false) :
    moreDigits high n value (ds ++ rest) = (goOn value ds, rest) := by
  induction ds generalizing n value with
  | nil =>
    cases n with
    | zero => rfl
    | succ n =>
      cases rest with
      | nil => rfl
      | cons c rest =>
        have hdigit : c.isDigit = false := (hend.resolve_left (by simp)) c rfl
        rw [List.nil_append, moreDigits, if_neg (by simp [hdigit])]
        rfl
  | cons c ds ih =>
    cases n with
    | zero => simp at hlength
    | succ n =>
      have hnext := le_goOn (value * 10 + digitValue c) ds
      have hgoOn : goOn value (c :: ds) = goOn (value * 10 + digitValue c) ds := rfl
      rw [hgoOn] at hhigh ⊢
      rw [List.cons_append, moreDigits, if_pos ⟨by omega, hdigits c List.mem_cons_self⟩]
      refine ih (fun d hd => hdigits d (List.mem_cons_of_mem _ hd)) (by simpa using hlength) hhigh ?_
      simpa using hend

theorem isDigit_ne {c d : Char} (hc : c.isDigit = true) (hd : d.isDigit = false) : c ≠ d := by
  rintro rfl
  rw [hc] at hd
  cases hd

theorem natOf_lt (hdigits : Digits ds) : natOf ds < 10 ^ ds.length := by
  induction ds using List.reverseRecOn with
  | nil => decide
  | append_singleton ds c ih =>
    have hrest := ih fun d hd => hdigits d (List.mem_append_left _ hd)
    have hc := hdigits c (by simp)
    have hvalue : natOf [c] < 10 := by
      rw [natOf_cons]
      simp only [Char.isDigit, Bool.and_eq_true, decide_eq_true_eq, ge_iff_le, UInt32.le_iff_toNat_le] at hc
      unfold goOn digitValue
      rw [List.foldl_nil]
      have hnine : '9'.toNat = 57 := rfl
      have hzero : '0'.toNat = 48 := rfl
      have hle : c.toNat ≤ 57 := hc.2
      omega
    rw [OStream.natOf_append, List.length_append, List.length_singleton, pow_one, pow_succ]
    omega

/-- Digits are read to their end, or as many as there may be. -/
theorem getNumber_append (hne : ds ≠ []) (hdigits : Digits ds) (hlength : ds.length ≤ n) (hlow : low ≤ natOf ds)
    (hhigh : natOf ds ≤ high) (hend : ds.length = n ∨ ∀ c ∈ rest.head?, c.isDigit = false) :
    getNumber low high n (ds ++ rest) = some (natOf ds, rest) := by
  cases ds with
  | nil => exact absurd rfl hne
  | cons c ds =>
    have hc := hdigits c List.mem_cons_self
    have hblank : c ≠ ' ' := isDigit_ne hc (by decide)
    rw [natOf_cons] at hlow hhigh ⊢
    have hmore : moreDigits high (n - 1) (digitValue c) (ds ++ rest) = (goOn (digitValue c) ds, rest) := by
      rw [List.length_cons] at hlength hend
      refine moreDigits_append (fun d hd => hdigits d (List.mem_cons_of_mem _ hd)) (by omega) hhigh ?_
      exact hend.imp_left fun h => by omega
    unfold getNumber
    rw [List.cons_append, List.dropWhile_cons_of_neg (by simpa using hblank)]
    dsimp only
    rw [if_pos hc, hmore, if_pos ⟨hlow, hhigh⟩]

theorem getNumber_range {number : Nat × List Char} (h : getNumber low high n s = some number) :
    low ≤ number.1 ∧ number.1 ≤ high := by
  unfold getNumber at h
  split at h
  · cases h
  · split at h
    · dsimp only at h
      split at h
      · rename_i hrange
        cases h
        exact hrange
      · cases h
    · cases h

theorem digits_twoDigits (h : n < 100) : Digits (twoDigits n) := by
  intro c hc
  simp only [twoDigits, List.mem_cons, List.not_mem_nil, or_false] at hc
  rcases hc with rfl | rfl
  · rw [Nat.isDigit_digitChar, decide_eq_true_eq]
    omega
  · rw [Nat.isDigit_digitChar, decide_eq_true_eq]
    omega

theorem natOf_twoDigits (h : n < 100) : natOf (twoDigits n) = n := by
  unfold natOf twoDigits
  rw [List.foldl_cons, List.foldl_cons, List.foldl_nil, Nat.toNat_digitChar_of_lt_ten (by omega),
    Nat.toNat_digitChar_of_lt_ten (by omega)]
  have hzero : '0'.toNat = 48 := rfl
  omega

/-- Two digits and what follows. -/
theorem getNumber_twoDigits (hlow : low ≤ n) (hhigh : n ≤ high) (h : n < 100) (rest : List Char) :
    getNumber low high 2 (twoDigits n ++ rest) = some (n, rest) := by
  have hread : getNumber low high 2 (twoDigits n ++ rest) = some (natOf (twoDigits n), rest) :=
    getNumber_append (by simp [twoDigits]) (digits_twoDigits h) (Nat.le_refl 2) (by rwa [natOf_twoDigits h])
      (by rwa [natOf_twoDigits h]) (Or.inl rfl)
  rw [natOf_twoDigits h] at hread
  exact hread

@[simp] theorem matchChar_cons (c : Char) (s : List Char) : matchChar c (c :: s) = some s := if_pos rfl

end Numbers

/-! ### Dates -/

/-- The fields of a time that has been read; a day and a second may be too many. -/
structure InRange (tm : Time) : Prop where
  year : 0 ≤ tm.date.year ∧ tm.date.year ≤ 9999
  month : 1 ≤ tm.date.month ∧ tm.date.month ≤ 12
  day : 1 ≤ tm.date.day ∧ tm.date.day ≤ 31
  hour : tm.hour ≤ 23
  minute : tm.minute ≤ 59
  second : tm.second ≤ 61

theorem inRange_strptime {s : List Char} {tm : Time} (h : strptime s = some tm) : InRange tm := by
  unfold strptime at h
  simp only [Option.bind_eq_bind, Option.bind_eq_some_iff, Option.pure_def, Option.some.injEq, Prod.exists] at h
  obtain ⟨year, s1, hyear, s2, -, month, s3, hmonth, s4, -, day, s5, hday, s6, -, hour, s7, hhour, s8, -, minute, s9, hminute,
    s10, -, second, s11, hsecond, rfl⟩ := h
  have hyear : year ≤ 9999 := (getNumber_range hyear).2
  exact
    { year := ⟨Int.natCast_nonneg year, Int.ofNat_le.2 hyear⟩
      month := getNumber_range hmonth
      day := getNumber_range hday
      hour := (getNumber_range hhour).2
      minute := (getNumber_range hminute).2
      second := (getNumber_range hsecond).2 }

/-- The month has no more than 31 days, and the year no more than twelve months. -/
theorem day_le {d : Date} (h : d.Valid) : d.month ≤ 12 ∧ d.day ≤ 31 := by
  obtain ⟨l, hl, hday⟩ := h.length
  have hmonth : d.month - 1 < 12 := (List.getElem?_eq_some_iff.1 hl).1
  have hmem : l ∈ monthLengths d.year := List.mem_of_getElem? hl
  have hlength : l ≤ 31 := by
    have hfebruary : (if isLeap d.year then 29 else 28) ≤ 31 := by
      split <;> omega
    unfold monthLengths at hmem
    simp only [List.mem_cons, List.not_mem_nil, or_false] at hmem
    omega
  omega

/-- No white space in front of digits. -/
theorem dropWhile_isspace {ds rest : List Char} (hne : ds ≠ []) (hdigits : Digits ds) :
    (ds ++ rest).dropWhile isspace = ds ++ rest := by
  cases ds with
  | nil => exact absurd rfl hne
  | cons c ds =>
    have hspace : isspace c = false := by
      by_contra hyes
      have hc := hdigits c List.mem_cons_self
      simp only [isspace, List.mem_cons, List.not_mem_nil, or_false, Bool.not_eq_false, decide_eq_true_eq] at hyes
      rcases hyes with rfl | rfl | rfl | rfl | rfl | rfl <;> exact absurd hc (by decide)
    exact List.dropWhile_cons_of_neg (by simp [hspace])

theorem digits_yearText {year : Int} (h : 0 ≤ year) : yearText year = Nat.toDigits 10 year.natAbs := if_neg (by omega)

/-- What has been written is read. -/
theorem strptime_strftime {tm : Time} (hvalid : tm.Valid) (hlow : 0 ≤ tm.date.year) (hhigh : tm.date.year ≤ 9999) :
    strptime (strftime tm) = some tm := by
  obtain ⟨hmonth, hday⟩ := day_le hvalid.date
  have hyear : ∀ rest, getNumber 0 9999 4 ((yearText tm.date.year ++ '-' :: rest).dropWhile isspace) =
      some (tm.date.year.natAbs, '-' :: rest) := by
    intro rest
    rw [digits_yearText hlow]
    have hdigits := OStream.digits_toDigits tm.date.year.natAbs
    have hskip : (Nat.toDigits 10 tm.date.year.natAbs ++ '-' :: rest).dropWhile isspace = _ :=
      dropWhile_isspace Nat.toDigits_ne_nil hdigits
    have hnat := OStream.natOf_toDigits tm.date.year.natAbs
    have hlength : (Nat.toDigits 10 tm.date.year.natAbs).length ≤ 4 :=
      (Nat.length_toDigits_le_iff (by decide) (by decide)).2 (by omega)
    rw [hskip, getNumber_append Nat.toDigits_ne_nil hdigits hlength (Nat.zero_le _) (by rw [hnat]; omega)
      (Or.inr (by simp)), hnat]
  unfold strptime strftime
  simp only [hyear, Option.bind_eq_bind, Option.bind_some, matchChar_cons,
    getNumber_twoDigits hvalid.date.month hmonth (by omega),
    getNumber_twoDigits hvalid.date.day hday (by omega),
    getNumber_twoDigits (Nat.zero_le tm.hour) (by have := hvalid.hour; omega : tm.hour ≤ 23) (by have := hvalid.hour; omega),
    getNumber_twoDigits (Nat.zero_le tm.minute) (by have := hvalid.minute; omega : tm.minute ≤ 59) (by have := hvalid.minute; omega),
    getNumber_twoDigits (Nat.zero_le tm.second) (by have := hvalid.second; omega : tm.second ≤ 61) (by have := hvalid.second; omega)]
  have habs : (tm.date.year.natAbs : Int) = tm.date.year := by omega
  rw [habs]
  rfl

/-- A sign is not read, and neither is a fifth digit. -/
theorem strptime_strftime_none {tm : Time} (h : ¬(0 ≤ tm.date.year ∧ tm.date.year ≤ 9999)) : strptime (strftime tm) = none := by
  unfold strptime strftime
  simp only [Option.bind_eq_bind]
  generalize hrest : '-' :: (twoDigits tm.date.month ++ _) = rest
  by_cases hsign : tm.date.year < 0
  · have hnone : getNumber 0 9999 4 ((yearText tm.date.year ++ rest).dropWhile isspace) = none := by
      rw [yearText, if_pos hsign]
      rfl
    rw [hnone, Option.bind_none]
  · rw [digits_yearText (by omega)]
    have hdigits := OStream.digits_toDigits tm.date.year.natAbs
    have hlength : 4 < (Nat.toDigits 10 tm.date.year.natAbs).length := by
      by_contra hle
      have hlt := (Nat.length_toDigits_le_iff (by decide) (by decide : 0 < 4)).1 (Nat.not_lt.1 hle)
      omega
    rw [dropWhile_isspace Nat.toDigits_ne_nil hdigits]
    obtain ⟨first, last, hsplit, hfirst, hlast⟩ : ∃ first last : List Char,
        Nat.toDigits 10 tm.date.year.natAbs = first ++ last ∧ first.length = 4 ∧ last ≠ [] := by
      refine ⟨_, _, (List.take_append_drop 4 _).symm, by rw [List.length_take]; omega, ?_⟩
      rw [ne_eq, List.drop_eq_nil_iff]
      omega
    rw [hsplit] at hdigits ⊢
    have hfour : Digits first := fun c hc => hdigits c (List.mem_append_left _ hc)
    have hsmall : natOf first ≤ 9999 := by
      have hlt := natOf_lt hfour
      rw [hfirst] at hlt
      omega
    have hread : getNumber 0 9999 4 (first ++ (last ++ rest)) = some (natOf first, last ++ rest) :=
      getNumber_append (List.length_pos_iff.1 (by omega)) hfour hfirst.le (Nat.zero_le _) hsmall (Or.inl hfirst)
    have hmatch : matchChar '-' (last ++ rest) = none := by
      cases last with
      | nil => exact absurd rfl hlast
      | cons c last =>
        have hc : c.isDigit = true := hdigits c (by simp)
        exact if_neg (isDigit_ne hc (by decide))
    rw [List.append_assoc, hread, Option.bind_some]
    dsimp only
    rw [hmatch, Option.bind_none]

/-- Reading a text that has been written, whatever its year is. -/
theorem parse8601Time_strftime (tm : Time) (hvalid : tm.Valid) :
    parse8601Time (String.ofList (strftime tm)) =
      if 0 ≤ tm.date.year ∧ tm.date.year ≤ 9999 then tm.toSeconds else -1 := by
  unfold parse8601Time
  rw [String.toList_ofList]
  split
  · rename_i hnone
    rw [if_neg fun hyear => ?_]
    rw [strptime_strftime hvalid hyear.1 hyear.2] at hnone
    cases hnone
  · rename_i tm' htm'
    by_cases hyear : 0 ≤ tm.date.year ∧ tm.date.year ≤ 9999
    · rw [if_pos hyear]
      rw [strptime_strftime hvalid hyear.1 hyear.2] at htm'
      cases htm'
      rfl
    · rw [strptime_strftime_none hyear] at htm'
      cases htm'

/-- The error of `parse8601Time` is a time of the year 1969. -/
theorem year_of_error : (ofSeconds (-1)).date.year = 1969 := by decide

theorem isodate2str_eq {timestamp : Int} (h : 0 ≤ (ofSeconds timestamp).date.year ∧ (ofSeconds timestamp).date.year ≤ 9999) :
    isodate2str timestamp = some (String.ofList (strftime (ofSeconds timestamp))) := by
  unfold isodate2str gmtime
  dsimp only
  rw [if_pos ⟨by omega, by omega⟩]
  rfl

/-- A time is written so that it is read again if and only if its year has no sign and at most four digits. -/
theorem parse_isodate_iff (timestamp : Int) :
    (∃ text, isodate2str timestamp = some text ∧ parse8601Time text = timestamp) ↔
      0 ≤ (ofSeconds timestamp).date.year ∧ (ofSeconds timestamp).date.year ≤ 9999 := by
  have hread := parse8601Time_strftime (ofSeconds timestamp) (ofSeconds_valid timestamp)
  rw [toSeconds_ofSeconds] at hread
  constructor
  · rintro ⟨text, htext, hparse⟩
    by_contra hyear
    unfold isodate2str at htext
    obtain ⟨tm, htm, rfl⟩ := Option.map_eq_some_iff.1 htext
    unfold gmtime at htm
    dsimp only at htm
    split at htm
    · cases htm
      rw [hread, if_neg hyear] at hparse
      rw [← hparse, year_of_error] at hyear
      exact hyear (by decide)
    · cases htm
  · intro hyear
    refine ⟨_, isodate2str_eq hyear, ?_⟩
    rw [hread, if_pos hyear]

/-- A text is written as it was read if and only if it is one that is written for a time of the years up to 9999. -/
theorem written_as_read_iff (s : String) :
    isodate2str (parse8601Time s) = some s ↔
      ∃ tm : Time, tm.Valid ∧ 0 ≤ tm.date.year ∧ tm.date.year ≤ 9999 ∧ s = String.ofList (strftime tm) := by
  constructor
  · intro h
    unfold isodate2str at h
    obtain ⟨tm, htm, hs⟩ := Option.map_eq_some_iff.1 h
    unfold gmtime at htm
    dsimp only at htm
    split at htm
    · cases htm
      have hvalid := ofSeconds_valid (parse8601Time s)
      have hread := parse8601Time_strftime _ hvalid
      by_cases hyear : 0 ≤ (ofSeconds (parse8601Time s)).date.year ∧ (ofSeconds (parse8601Time s)).date.year ≤ 9999
      · exact ⟨_, hvalid, hyear.1, hyear.2, hs.symm⟩
      · rw [if_neg hyear, hs] at hread
        rw [hread, year_of_error] at hyear
        exact absurd (by decide) hyear
    · cases htm
  · rintro ⟨tm, hvalid, hlow, hhigh, rfl⟩
    have hsame := ofSeconds_toSeconds hvalid
    have hread := parse8601Time_strftime tm hvalid
    rw [if_pos ⟨hlow, hhigh⟩] at hread
    rw [hread, isodate2str_eq (by rw [hsame]; exact ⟨hlow, hhigh⟩), hsame]

/-! ### Attributes -/

/-- The second that is added to the last ones of the year 9999. -/
def LastSeconds (tm : Time) : Prop :=
  tm.date = ⟨9999, 12, 31⟩ ∧ tm.hour = 23 ∧ tm.minute = 59 ∧ 60 ≤ tm.second

instance (tm : Time) : Decidable (LastSeconds tm) := by unfold LastSeconds; infer_instance

/-- No month goes on behind its year, even with 31 days; only the last day is the last one. -/
theorem before_month {month : Nat} (hlow : 1 ≤ month) (hhigh : month ≤ 12) (year : Int) :
    before (monthLengths year) (month - 1) + 31 ≤ yearLength year ∧
      (before (monthLengths year) (month - 1) + 31 = yearLength year → month = 12) := by
  unfold before monthLengths yearLength
  cases isLeap year <;> interval_cases month <;> decide

/-- The day on which a time is, which may be the one behind its date. -/
theorem day_of_read {tm : Time} (h : InRange tm) : tm.toSeconds / 86400 + epoch =
    tm.date.toDays + if tm.hour = 23 ∧ tm.minute = 59 ∧ 60 ≤ tm.second then 1 else 0 := by
  have hhour := h.hour
  have hminute := h.minute
  have hsecond := h.second
  unfold Time.toSeconds
  split <;> omega

/-- A time that has been read is in its year, or one of the first two seconds of the next. -/
theorem year_of_read {tm : Time} (h : InRange tm) :
    0 ≤ (ofSeconds tm.toSeconds).date.year ∧ ((ofSeconds tm.toSeconds).date.year ≤ 9999 ↔ ¬LastSeconds tm) := by
  have hyear : (ofSeconds tm.toSeconds).date.year = yearOf (tm.toSeconds / 86400 + epoch) := rfl
  rw [hyear, day_of_read h]
  obtain ⟨hlow, hhigh⟩ := h.year
  obtain ⟨hfirst, hlast⟩ := h.day
  have hmonth := before_month h.month.1 h.month.2 tm.date.year
  obtain ⟨hfits, htwelve⟩ := hmonth
  have hdays : tm.date.toDays = daysBeforeYear tm.date.year +
      ((before (monthLengths tm.date.year) (tm.date.month - 1) : Nat) : Int) + (tm.date.day - 1) := rfl
  constructor
  · have hstart := daysBeforeYear_mono hlow
    by_contra hneg
    have hbefore := yearOf_le_iff.1 (by omega : yearOf (tm.date.toDays +
      if tm.hour = 23 ∧ tm.minute = 59 ∧ 60 ≤ tm.second then 1 else 0) ≤ -1)
    have hzero : daysBeforeYear (-1 + 1) = daysBeforeYear 0 := rfl
    rw [hzero] at hbefore
    split at hbefore <;> omega
  · rw [yearOf_le_iff]
    have hend : daysBeforeYear (9999 + 1) = 3652059 := by decide
    have hstart : daysBeforeYear 9999 = 3651694 := by decide
    rw [hend]
    by_cases hbelow : tm.date.year < 9999
    · have hnext := daysBeforeYear_mono (by omega : tm.date.year + 1 ≤ 9999)
      rw [daysBeforeYear_succ] at hnext
      refine iff_of_true (by split <;> omega) fun hseconds => ?_
      rw [hseconds.1] at hbelow
      exact absurd hbelow (by decide)
    · have hsame : tm.date.year = 9999 := by omega
      rw [hsame] at hdays hfits htwelve
      rw [hstart] at hdays
      have hlength : yearLength 9999 = 365 := by decide
      rw [hlength] at hfits htwelve
      constructor
      · intro hlt hseconds
        obtain ⟨hdate, hlate⟩ := hseconds
        have hdecember : before (monthLengths 9999) (tm.date.month - 1) = 334 := by
          rw [hdate]
          decide
        have hday : tm.date.day = 31 := by rw [hdate]
        rw [if_pos hlate] at hlt
        omega
      · intro hnot
        split
        · rename_i hlate
          by_contra hge
          have hday : tm.date.day = 31 := by omega
          have hmonth : tm.date.month = 12 := htwelve (by omega)
          exact hnot ⟨by rw [← hsame, ← hmonth, ← hday], hlate⟩
        · omega


section Reread

open AttributeParser (Attribute parseContextAttributeObject parseAttributeMembers parseMember parseValue parseDate DATE_TYPE)
open Bson (Double)

variable {getDouble : Int → Double}

/-- `isodate2str(numberValue)`: the number is converted to an integer. -/
def dateText : Double → Option String
  | .fin q => isodate2str (q.num.tdiv q.den)
  | _ => none

/-- The members of an attribute that is a date. -/
def dateMembers (value : String) : List (String × Json) := [("type", .string DATE_TYPE), ("value", .string value)]

def dateAttribute (numberValue : Double) : Attribute where
  type := DATE_TYPE
  typeGiven := true
  valueType := .number
  numberValue := numberValue

theorem parse_dateMembers (value : String) :
    parseContextAttributeObject getDouble parse8601Time (dateMembers value) {} =
      some (if parse8601Time (cString value) = -1 then .error "date has invalid format"
        else .ok (dateAttribute (getDouble (parse8601Time (cString value))))) := by
  have hloop : parseAttributeMembers getDouble { valueType := .none } (dateMembers value) =
      some (.ok { type := DATE_TYPE, typeGiven := true, stringValue := cString value }) := by
    have hnames : cString "type" = "type" ∧ cString "value" = "value" ∧ cString DATE_TYPE = DATE_TYPE := by decide
    simp only [dateMembers, parseAttributeMembers, parseMember, parseValue, hnames, if_true, Option.map_some]
    rfl
  unfold parseContextAttributeObject
  rw [hloop]
  rfl

theorem zero_not_mem_strftime {tm : Time} (h : tm.Valid) : '\x00' ∉ strftime tm := by
  obtain ⟨hmonth, hday⟩ := day_le h.date
  have hdigits : ∀ ds, Digits ds → '\x00' ∉ ds := fun ds hds hmem => absurd (hds _ hmem) (by decide)
  have htwo : ∀ n < 100, '\x00' ∉ twoDigits n := fun n hn => hdigits _ (digits_twoDigits hn)
  have hyear : '\x00' ∉ yearText tm.date.year := by
    have hnumber := hdigits _ (OStream.digits_toDigits tm.date.year.natAbs)
    unfold yearText
    split
    · rw [List.mem_cons, not_or]
      exact ⟨by decide, hnumber⟩
    · exact hnumber
  have hhour := h.hour
  have hminute := h.minute
  have hsecond := h.second
  simp [strftime, hyear, htwo tm.date.month (by omega), htwo tm.date.day (by omega), htwo tm.hour (by omega),
    htwo tm.minute (by omega), htwo tm.second (by omega)]

/-- A time that has been read is a number without rounding. -/
theorem natAbs_of_read {tm : Time} (h : InRange tm) : tm.toSeconds.natAbs ≤ 2 ^ 53 := by
  obtain ⟨hlow, hhigh⟩ := h.year
  obtain ⟨hfirst, hlast⟩ := h.day
  obtain ⟨hfits, -⟩ := before_month h.month.1 h.month.2 tm.date.year
  have hyear : yearLength tm.date.year ≤ 366 := by
    unfold yearLength
    split <;> omega
  have hstart := daysBeforeYear_mono hlow
  have hend := daysBeforeYear_mono hhigh
  have hzero : daysBeforeYear 0 = -366 := by decide
  have hlatest : daysBeforeYear 9999 = 3651694 := by decide
  have hhour := h.hour
  have hminute := h.minute
  have hsecond := h.second
  have hepoch : epoch = 719162 := rfl
  unfold Time.toSeconds Date.toDays
  omega

end Reread

end OrionBroker.IsoDate
