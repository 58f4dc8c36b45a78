import Mathlib

/-!
# The calendar

The days are counted from the first one of the year 1 of the Gregorian calendar, which goes on before it.  A day is a year,
a month and a day of the month (`Date`), and the count of it is found by adding up lengths (`Date.toDays`); the other
way round, the year is guessed as if every year had 365 days, and is too late by one at most (`yearOfCycle`).

The two are inverse to each other (`ofDays_toDays`, `toDays_ofDays`), and so are those for seconds (`ofSeconds_toSeconds`,
`toSeconds_ofSeconds`).
-/

namespace Calendar

/-! ### Lengths one behind the other -/

/-- The part in which a place lies, and the place in this part. -/
def place : List Nat → Nat → Nat × Nat
  | [], n => (0, n)
  | l :: lengths, n => if n < l then (0, n) else ((place lengths (n - l)).1 + 1, (place lengths (n - l)).2)

/-- What is in front of a part. -/
def before (lengths : List Nat) (i : Nat) : Nat := (lengths.take i).sum

theorem place_spec {lengths : List Nat} {n : Nat} (h : n < lengths.sum) :
    before lengths (place lengths n).1 + (place lengths n).2 = n ∧
      ∃ l, lengths[(place lengths n).1]? = some l ∧ (place lengths n).2 < l := by
  induction lengths generalizing n with
  | nil => simp at h
  | cons l lengths ih =>
    rw [List.sum_cons] at h
    unfold place
    split
    · rename_i hlt
      exact ⟨by simp [before], l, rfl, hlt⟩
    · rename_i hge
      obtain ⟨hsum, hlength⟩ := ih (by omega : n - l < lengths.sum)
      refine ⟨?_, hlength⟩
      unfold before at hsum ⊢
      rw [List.take_succ_cons, List.sum_cons]
      omega

theorem place_before {lengths : List Nat} {i l r : Nat} (hi : lengths[i]? = some l) (hr : r < l) :
    place lengths (before lengths i + r) = (i, r) := by
  induction lengths generalizing i with
  | nil => simp at hi
  | cons k lengths ih =>
    cases i with
    | zero =>
      obtain rfl : k = l := by simpa using hi
      simp [place, before, hr]
    | succ i =>
      have hrest := ih (i := i) (by simpa using hi)
      have hsum : before (k :: lengths) (i + 1) = k + before lengths i := by
        unfold before
        rw [List.take_succ_cons, List.sum_cons]
      have hsub : k + before lengths i + r - k = before lengths i + r := by omega
      rw [hsum, place, if_neg (by omega), hsub, hrest]

theorem before_add_le {lengths : List Nat} {i l : Nat} (hi : lengths[i]? = some l) : before lengths i + l ≤ lengths.sum := by
  induction lengths generalizing i with
  | nil => simp at hi
  | cons k lengths ih =>
    cases i with
    | zero =>
      obtain rfl : k = l := by simpa using hi
      simp [before]
    | succ i =>
      have hrest := ih (i := i) (by simpa using hi)
      unfold before at hrest ⊢
      rw [List.take_succ_cons, List.sum_cons, List.sum_cons]
      omega

/-! ### Years -/

def isLeap (year : Int) : Bool := year % 4 = 0 && (year % 100 ≠ 0 || year % 400 = 0)

def yearLength (year : Int) : Nat := if isLeap year then 366 else 365

/-- The days before the first one of a year. -/
def daysBeforeYear (year : Int) : Int :=
  365 * (year - 1) + (year - 1) / 4 - (year - 1) / 100 + (year - 1) / 400

theorem daysBeforeYear_succ (year : Int) : daysBeforeYear (year + 1) = daysBeforeYear year + yearLength year := by
  unfold daysBeforeYear yearLength isLeap
  simp only [Bool.and_eq_true, Bool.or_eq_true, decide_eq_true_eq]
  split <;> omega

/-- The days of 400 years. -/
abbrev cycle : Int := 146097

/-- The year in which a day of a cycle lies, and the days of the cycle before it. -/
def yearOfCycle (n : Int) : Int :=
  if 365 * (n / 365) + n / 365 / 4 - n / 365 / 100 + n / 365 / 400 ≤ n then n / 365 else n / 365 - 1

/-- The year of a day. -/
def yearOf (days : Int) : Int := 400 * (days / cycle) + yearOfCycle (days % cycle) + 1

theorem yearOfCycle_spec {n : Int} (hlow : 0 ≤ n) (hhigh : n < cycle) :
    0 ≤ yearOfCycle n ∧ yearOfCycle n < 400 ∧
      365 * yearOfCycle n + yearOfCycle n / 4 - yearOfCycle n / 100 ≤ n ∧
      n < 365 * (yearOfCycle n + 1) + (yearOfCycle n + 1) / 4 - (yearOfCycle n + 1) / 100 + (yearOfCycle n + 1) / 400 := by
  unfold yearOfCycle
  unfold cycle at hhigh
  generalize hg : n / 365 = g
  have hguess : 365 * g ≤ n ∧ n < 365 * g + 365 := by omega
  split
  · omega
  · rename_i hgt
    rw [Int.sub_add_cancel]
    omega

/-- A day lies in its year. -/
theorem yearOf_spec (days : Int) :
    daysBeforeYear (yearOf days) ≤ days ∧ days < daysBeforeYear (yearOf days) + yearLength (yearOf days) := by
  rw [← daysBeforeYear_succ]
  have hmod : 0 ≤ days % cycle ∧ days % cycle < cycle := by
    unfold cycle
    omega
  obtain ⟨hlow, hhigh, hbefore, hafter⟩ := yearOfCycle_spec hmod.1 hmod.2
  have hdays : days = cycle * (days / cycle) + days % cycle := (Int.mul_ediv_add_emod days cycle).symm
  unfold yearOf daysBeforeYear
  generalize yearOfCycle (days % cycle) = k at hlow hhigh hbefore hafter ⊢
  generalize days / cycle = c at hdays ⊢
  generalize days % cycle = n at hmod hbefore hafter hdays
  unfold cycle at hdays
  constructor <;> omega

theorem daysBeforeYear_mono {a b : Int} (h : a ≤ b) : daysBeforeYear a ≤ daysBeforeYear b := by
  unfold daysBeforeYear
  omega

theorem yearOf_eq {year days : Int} (hlow : daysBeforeYear year ≤ days)
    (hhigh : days < daysBeforeYear year + yearLength year) : yearOf days = year := by
  obtain ⟨hlow', hhigh'⟩ := yearOf_spec days
  rw [← daysBeforeYear_succ] at hhigh hhigh'
  rcases Int.lt_trichotomy (yearOf days) year with hlt | heq | hgt
  · have hmono := daysBeforeYear_mono (by omega : yearOf days + 1 ≤ year)
    omega
  · exact heq
  · have hmono := daysBeforeYear_mono (by omega : year + 1 ≤ yearOf days)
    omega

theorem yearOf_le_iff {days year : Int} : yearOf days ≤ year ↔ days < daysBeforeYear (year + 1) := by
  obtain ⟨hlow, hhigh⟩ := yearOf_spec days
  rw [← daysBeforeYear_succ] at hhigh
  constructor
  · intro hle
    have hmono := daysBeforeYear_mono (by omega : yearOf days + 1 ≤ year + 1)
    omega
  · intro hlt
    by_contra hgt
    have hmono := daysBeforeYear_mono (by omega : year + 1 ≤ yearOf days)
    omega

/-! ### Days -/

def monthLengths (year : Int) : List Nat :=
  [31, if isLeap year then 29 else 28, 31, 30, 31, 30, 31, 31, 30, 31, 30, 31]

theorem sum_monthLengths (year : Int) : (monthLengths year).sum = yearLength year := by
  unfold monthLengths yearLength
  cases isLeap year <;> rfl

/-- The first month is 1, and so is the first day of a month. -/
structure Date where
  year : Int
  month : Nat
  day : Nat
deriving DecidableEq

/-- The month has the day. -/
structure Date.Valid (d : Date) : Prop where
  month : 1 ≤ d.month
  day : 1 ≤ d.day
  length : ∃ l, (monthLengths d.year)[d.month - 1]? = some l ∧ d.day ≤ l

/-- Also for a day behind the end of its month. -/
def Date.toDays (d : Date) : Int := daysBeforeYear d.year + before (monthLengths d.year) (d.month - 1) + (d.day - 1)

def ofDays (days : Int) : Date :=
  let year := yearOf days
  let monthAndDay := place (monthLengths year) (days - daysBeforeYear year).toNat
  { year, month := monthAndDay.1 + 1, day := monthAndDay.2 + 1 }

theorem ofDays_spec (days : Int) : (ofDays days).Valid ∧ (ofDays days).toDays = days := by
  obtain ⟨hlow, hhigh⟩ := yearOf_spec days
  have hlt : (days - daysBeforeYear (yearOf days)).toNat < (monthLengths (yearOf days)).sum := by
    rw [sum_monthLengths]
    omega
  obtain ⟨hsum, l, hl, hday⟩ := place_spec hlt
  refine ⟨⟨Nat.le_add_left 1 _, Nat.le_add_left 1 _, l, hl, hday⟩, ?_⟩
  unfold ofDays Date.toDays
  dsimp only
  rw [Nat.add_sub_cancel]
  omega

theorem toDays_ofDays (days : Int) : (ofDays days).toDays = days := (ofDays_spec days).2

theorem ofDays_toDays {d : Date} (h : d.Valid) : ofDays d.toDays = d := by
  obtain ⟨l, hl, hday⟩ := h.length
  have hmonth := h.month
  have hpos := h.day
  have hplace := place_before hl (by omega : d.day - 1 < l)
  have hyear : yearOf d.toDays = d.year := by
    have hle : before (monthLengths d.year) (d.month - 1) + l ≤ yearLength d.year := by
      rw [← sum_monthLengths]
      exact before_add_le hl
    refine yearOf_eq ?_ ?_
    · unfold Date.toDays
      omega
    · unfold Date.toDays
      omega
  have hrest : (d.toDays - daysBeforeYear d.year).toNat = before (monthLengths d.year) (d.month - 1) + (d.day - 1) := by
    unfold Date.toDays
    omega
  unfold ofDays
  dsimp only
  rw [hyear, hrest, hplace]
  have hmonth' : d.month - 1 + 1 = d.month := by omega
  have hday' : d.day - 1 + 1 = d.day := by omega
  rw [hmonth', hday']

/-! ### Seconds -/

/-- A time of a day. -/
structure Time where
  date : Date
  hour : Nat
  minute : Nat
  second : Nat
deriving DecidableEq

structure Time.Valid (t : Time) : Prop where
  date : t.date.Valid
  hour : t.hour < 24
  minute : t.minute < 60
  second : t.second < 60

/-- The day from which on seconds are counted. -/
abbrev epoch : Int := 719162

example : Date.toDays ⟨1970, 1, 1⟩ = epoch := by decide

/-- Also for a second behind the end of its minute. -/
def Time.toSeconds (t : Time) : Int :=
  86400 * (t.date.toDays - epoch) + 3600 * t.hour + 60 * t.minute + t.second

def ofSeconds (seconds : Int) : Time :=
  let ofDay := (seconds % 86400).toNat
  { date := ofDays (seconds / 86400 + epoch), hour := ofDay / 3600, minute := ofDay / 60 % 60, second := ofDay % 60 }

theorem ofSeconds_valid (seconds : Int) : (ofSeconds seconds).Valid := by
  refine ⟨(ofDays_spec _).1, ?_, ?_, ?_⟩
  · unfold ofSeconds
    dsimp only
    omega
  · exact Nat.mod_lt _ (by omega)
  · exact Nat.mod_lt _ (by omega)

theorem toSeconds_ofSeconds (seconds : Int) : (ofSeconds seconds).toSeconds = seconds := by
  unfold Time.toSeconds ofSeconds
  dsimp only
  rw [toDays_ofDays]
  omega

theorem ofSeconds_toSeconds {t : Time} (h : t.Valid) : ofSeconds t.toSeconds = t := by
  have hhour := h.hour
  have hminute := h.minute
  have hsecond := h.second
  have hdays : t.toSeconds / 86400 + epoch = t.date.toDays := by
    unfold Time.toSeconds
    omega
  have hofDay : (t.toSeconds % 86400).toNat = 3600 * t.hour + 60 * t.minute + t.second := by
    unfold Time.toSeconds
    omega
  unfold ofSeconds
  dsimp only
  rw [hdays, hofDay, ofDays_toDays h.date]
  have hhour' : (3600 * t.hour + 60 * t.minute + t.second) / 3600 = t.hour := by omega
  have hminute' : (3600 * t.hour + 60 * t.minute + t.second) / 60 % 60 = t.minute := by omega
  have hsecond' : (3600 * t.hour + 60 * t.minute + t.second) % 60 = t.second := by omega
  rw [hhour', hminute', hsecond']

end Calendar
