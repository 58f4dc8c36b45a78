import Mathlib.Algebra.BigOperators.Group.List.Basic
import OrionBroker.NumberText
import OrionBroker.Scope

/-!
# Durations (`globals.cpp`)

`parse8601` goes through a text such as `P1Y2DT3H` once.  It keeps the digits it has passed and takes them as a number at
a designator.  Behind `T` it takes a designator without digits as well, digits before `T` are dropped, and nothing need
stand behind it (`Shape.Taken`).  The numbers are converted to `int`, those of seconds by way of a `float`; the sum is
one of 64 bits.
-/

namespace OrionBroker.Duration

open JsonText OStream
open Areas (atoi atoi_of_lt)

/-! ### The conversions -/

def toSeconds (value : Int) (what : Char) (dayPart : Bool) : Int :=
  if dayPart then
    if what = 'Y' then 365 * 24 * 3600 * value
    else if what = 'M' then 30 * 24 * 3600 * value
    else if what = 'W' then 7 * 24 * 3600 * value
    else if what = 'D' then 24 * 3600 * value
    else -1
  else if what = 'H' then 3600 * value
  else if what = 'M' then 60 * value
  else if what = 'S' then value
  else -1

/-- The nearest number with that many significant bits; of two, the one with the even last bit. -/
def roundBits (bits : ℕ) (q : ℚ) : ℚ :=
  let ulp : ℚ := 2 ^ (Int.log 2 q - (bits - 1))
  roundEven (q / ulp) * ulp

/-- The decimal number at the beginning of a text of digits, points and commas. -/
def atof (s : List Char) : ℚ :=
  let fraction :=
    match s.dropWhile Char.isDigit with
    | '.' :: rest => rest.takeWhile Char.isDigit
    | _ => []
  natOf (s.takeWhile Char.isDigit) + natOf fraction / 10 ^ fraction.length

/-- `(int)`; a number that is too large becomes the smallest one. -/
def toInt (r : Int) : Int := if r < 2 ^ 31 then r else -2 ^ 31

/-- "We support floats for the seconds, but only to round to an integer". -/
def roundSeconds (start : List Char) : Int :=
  let secs := roundBits 24 (roundBits 53 (atof start))
  toInt ⌊secs + 1 / 2⌋

/-- The number before a designator. -/
def valueOf (start : List Char) (what : Char) (dayPart : Bool) : Int :=
  if dayPart = false ∧ what = 'S' then roundSeconds start else atoi start

/-- `accumulated` is a number of 64 bits. -/
def accumulate (accumulated : Int) (seconds : Int) : Int := Int.bmod (accumulated + seconds) (2 ^ 64)

def isDayDesignator (c : Char) : Bool := c = 'Y' || c = 'M' || c = 'D' || c = 'W'

def isTimeDesignator (c : Char) : Bool := c = 'H' || c = 'M' || c = 'S'

/-- The loop of `parse8601`; `start` is what stands between `start` and `duration`. -/
def parseLoop (dayPart : Bool) (start : List Char) (digitsPending : Bool) (accumulated : Int) : List Char → Int
  | [] => if digitsPending then -1 else accumulated
  | c :: duration =>
    if c.isDigit || c = '.' || c = ',' then parseLoop dayPart (start ++ [c]) true accumulated duration
    else if dayPart && isDayDesignator c then
      if atoi start = 0 ∧ start.head? ≠ some '0' then -1
      else parseLoop dayPart [] false (accumulate accumulated (toSeconds (valueOf start c dayPart) c dayPart)) duration
    else if dayPart && c = 'T' then parseLoop false [] false accumulated duration
    else if !dayPart && isTimeDesignator c then
      parseLoop dayPart [] false (accumulate accumulated (toSeconds (valueOf start c dayPart) c dayPart)) duration
    else -1

def parse8601 (s : String) : Int :=
  if s = "" then -1
  else
    match (cString s).toList with
    | 'P' :: duration => if duration = [] then -1 else parseLoop true [] false 0 duration
    | _ => -1

/-! ### What is meant, and what is taken -/

/-- Digits and the designator behind them. -/
structure Piece where
  digits : List Char
  designator : Char

def Piece.text (p : Piece) : List Char := p.digits ++ [p.designator]

/-- The seconds that a unit of the piece stands for. -/
def unit (dayPart : Bool) (designator : Char) : ℕ := (toSeconds 1 designator dayPart).toNat

def Piece.seconds (dayPart : Bool) (p : Piece) : ℕ := natOf p.digits * unit dayPart p.designator

/-- The seconds that the code makes of the piece. -/
def Piece.read (dayPart : Bool) (p : Piece) : Int :=
  toSeconds (valueOf p.digits p.designator dayPart) p.designator dayPart

/-- The parts of a text: pieces before `T`, and digits, `T` and the pieces behind it, if there is a `T`. -/
structure Shape where
  day : List Piece
  time : Option (List Char × List Piece)

namespace Shape

def afterT (t : Shape) : List Piece := (t.time.map Prod.snd).getD []

def text (t : Shape) : List Char :=
  'P' :: (t.day.flatMap Piece.text ++
    match t.time with
    | none => []
    | some (stray, pieces) => stray ++ 'T' :: pieces.flatMap Piece.text)

def seconds (t : Shape) : ℕ := (t.day.map (Piece.seconds true)).sum + (t.afterT.map (Piece.seconds false)).sum

def read (t : Shape) : Int := (t.day.map (Piece.read true)).sum + (t.afterT.map (Piece.read false)).sum

/-- What a duration looks like: there is a piece, each one has digits, and no others stand before `T`. -/
structure Regular (t : Shape) : Prop where
  day : ∀ p ∈ t.day, p.digits ≠ [] ∧ Digits p.digits ∧ isDayDesignator p.designator = true
  time : ∀ p ∈ t.afterT, p.digits ≠ [] ∧ Digits p.digits ∧ isTimeDesignator p.designator = true
  stray : ∀ stray ∈ t.time.map Prod.fst, stray = []
  piece : t.day ≠ [] ∨ t.afterT ≠ []

/-- What the code takes: a piece before `T` has a number, which is not 0 unless it is written with a 0 in front. -/
structure Taken (t : Shape) : Prop where
  day : ∀ p ∈ t.day, Digits p.digits ∧ isDayDesignator p.designator = true ∧
    (atoi p.digits = 0 → p.digits.head? = some '0')
  time : ∀ p ∈ t.afterT, Digits p.digits ∧ isTimeDesignator p.designator = true
  stray : ∀ stray ∈ t.time.map Prod.fst, Digits stray
  piece : t.day ≠ [] ∨ t.time ≠ none

end Shape

/-- A duration of at most 64 bits gives its seconds, and everything else an error. -/
structure ReadsDuration (s : String) : Prop where
  value : ∀ t : Shape, t.Regular → s.toList = t.text → t.seconds < 2 ^ 63 → parse8601 s = t.seconds
  error : (∀ t : Shape, t.Regular → s.toList ≠ t.text) → parse8601 s = -1

/-! ### The loop -/

/-- The loop where digits are pending if and only if there are some. -/
def run (dayPart : Bool) (start : List Char) (accumulated : Int) (duration : List Char) : Int :=
  parseLoop dayPart start (!start.isEmpty) accumulated duration

theorem run_nil (dayPart : Bool) (start : List Char) (accumulated : Int) :
    run dayPart start accumulated [] = if start = [] then accumulated else -1 := by
  cases start <;> rfl

theorem run_digit (dayPart : Bool) (start : List Char) (accumulated : Int) {c : Char} (hc : c.isDigit = true)
    (duration : List Char) :
    run dayPart start accumulated (c :: duration) = run dayPart (start ++ [c]) accumulated duration := by
  have hpending : (!(start ++ [c]).isEmpty) = true := by cases start <;> rfl
  rw [run, run, hpending, parseLoop, if_pos (by simp [hc])]

theorem run_digits (dayPart : Bool) (start : List Char) (accumulated : Int) {digits : List Char} (h : Digits digits)
    (duration : List Char) :
    run dayPart start accumulated (digits ++ duration) = run dayPart (start ++ digits) accumulated duration := by
  induction digits generalizing start with
  | nil => simp
  | cons c digits ih =>
    rw [List.cons_append, run_digit _ _ _ (h c List.mem_cons_self), ih _ fun d hd => h d (List.mem_cons_of_mem c hd),
      List.append_assoc, List.singleton_append]

/-- A designator is neither a digit nor `T`. -/
theorem not_digit_of_day {c : Char} (h : isDayDesignator c = true) :
    (c.isDigit || c = '.' || c = ',') = false ∧ c ≠ 'T' ∧ c ≠ '\x00' := by
  simp only [isDayDesignator, Bool.or_eq_true, decide_eq_true_eq] at h
  rcases h with ((rfl | rfl) | rfl) | rfl <;> decide

theorem not_digit_of_time {c : Char} (h : isTimeDesignator c = true) :
    (c.isDigit || c = '.' || c = ',') = false ∧ c ≠ '\x00' := by
  simp only [isTimeDesignator, Bool.or_eq_true, decide_eq_true_eq] at h
  rcases h with (rfl | rfl) | rfl <;> decide

theorem run_day_designator (start : List Char) (accumulated : Int) {c : Char} (h : isDayDesignator c = true)
    (duration : List Char) :
    run true start accumulated (c :: duration) =
      if atoi start = 0 ∧ start.head? ≠ some '0' then -1
      else run true [] (accumulate accumulated (toSeconds (valueOf start c true) c true)) duration := by
  rw [run, parseLoop, if_neg (by simp [(not_digit_of_day h).1]), if_pos (by simp [h])]
  rfl

theorem run_T (start : List Char) (accumulated : Int) (duration : List Char) :
    run true start accumulated ('T' :: duration) = run false [] accumulated duration := by
  rw [run, parseLoop, if_neg (by decide), if_neg (by decide), if_pos (by decide)]
  rfl

theorem run_time_designator (start : List Char) (accumulated : Int) {c : Char} (h : isTimeDesignator c = true)
    (duration : List Char) :
    run false start accumulated (c :: duration) =
      run false [] (accumulate accumulated (toSeconds (valueOf start c false) c false)) duration := by
  rw [run, parseLoop, if_neg (by simp [(not_digit_of_time h).1]), if_neg (by simp), if_neg (by simp), if_pos (by simp [h])]
  rfl

theorem accumulate_bmod (a b : Int) : accumulate (Int.bmod a (2 ^ 64)) b = Int.bmod (a + b) (2 ^ 64) :=
  Int.bmod_add_bmod

/-- The pieces before `T`. -/
theorem run_day {pieces : List Piece}
    (h : ∀ p ∈ pieces, Digits p.digits ∧ isDayDesignator p.designator = true) (a : Int) (duration : List Char) :
    run true [] (Int.bmod a (2 ^ 64)) (pieces.flatMap Piece.text ++ duration) =
      if ∀ p ∈ pieces, atoi p.digits = 0 → p.digits.head? = some '0' then
        run true [] (Int.bmod (a + (pieces.map (Piece.read true)).sum) (2 ^ 64)) duration
      else -1 := by
  induction pieces generalizing a with
  | nil => simp
  | cons p pieces ih =>
    obtain ⟨⟨hdigits, hdesignator⟩, hrest⟩ := List.forall_mem_cons.1 h
    have htext : (p :: pieces).flatMap Piece.text ++ duration =
        p.digits ++ p.designator :: (pieces.flatMap Piece.text ++ duration) := by simp [Piece.text]
    rw [htext, run_digits _ _ _ hdigits, List.nil_append, run_day_designator _ _ hdesignator, accumulate_bmod, ih hrest]
    by_cases hzero : atoi p.digits = 0 → p.digits.head? = some '0'
    · have hall : (∀ q ∈ p :: pieces, atoi q.digits = 0 → q.digits.head? = some '0') ↔
          ∀ q ∈ pieces, atoi q.digits = 0 → q.digits.head? = some '0' := by
        rw [List.forall_mem_cons]
        exact and_iff_right hzero
      rw [if_neg (by tauto), List.map_cons, List.sum_cons, add_assoc]
      simp only [hall]
      rfl
    · rw [if_pos (Classical.not_imp.1 hzero), if_neg fun hall => hzero (List.forall_mem_cons.1 hall).1]

/-- The pieces behind `T`. -/
theorem run_time {pieces : List Piece}
    (h : ∀ p ∈ pieces, Digits p.digits ∧ isTimeDesignator p.designator = true) (a : Int) :
    run false [] (Int.bmod a (2 ^ 64)) (pieces.flatMap Piece.text) =
      Int.bmod (a + (pieces.map (Piece.read false)).sum) (2 ^ 64) := by
  induction pieces generalizing a with
  | nil => simp [run_nil]
  | cons p pieces ih =>
    obtain ⟨⟨hdigits, hdesignator⟩, hrest⟩ := List.forall_mem_cons.1 h
    have htext : (p :: pieces).flatMap Piece.text = p.digits ++ p.designator :: pieces.flatMap Piece.text := by
      simp [Piece.text]
    rw [htext, run_digits _ _ _ hdigits, List.nil_append, run_time_designator _ _ hdesignator, accumulate_bmod, ih hrest,
      List.map_cons, List.sum_cons, add_assoc]
    rfl

/-- A text of the right characters. -/
theorem run_text {t : Shape} (hday : ∀ p ∈ t.day, Digits p.digits ∧ isDayDesignator p.designator = true)
    (htime : ∀ p ∈ t.afterT, Digits p.digits ∧ isTimeDesignator p.designator = true)
    (hstray : ∀ stray ∈ t.time.map Prod.fst, Digits stray) :
    run true [] 0 t.text.tail =
      if ∀ p ∈ t.day, atoi p.digits = 0 → p.digits.head? = some '0' then Int.bmod t.read (2 ^ 64) else -1 := by
  have hrun := run_day hday 0
  simp only [Int.zero_bmod, zero_add] at hrun
  rw [Shape.text, List.tail_cons, hrun]
  refine if_congr Iff.rfl ?_ rfl
  obtain ⟨day, time⟩ := t
  cases time with
  | none => simp [run_nil, Shape.read, Shape.afterT]
  | some parts =>
    obtain ⟨stray, pieces⟩ := parts
    have hstray : Digits stray := hstray stray rfl
    have hpieces : ∀ p ∈ pieces, Digits p.digits ∧ isTimeDesignator p.designator = true := htime
    dsimp only
    rw [run_digits _ _ _ hstray, run_T, run_time hpieces]
    rfl

theorem zero_not_mem_pieces {pieces : List Piece}
    (h : ∀ p ∈ pieces, Digits p.digits ∧ p.designator ≠ '\x00') : '\x00' ∉ pieces.flatMap Piece.text := by
  intro hmem
  obtain ⟨p, hp, hmem⟩ := List.mem_flatMap.1 hmem
  rcases List.mem_append.1 hmem with hmem | hmem
  · exact absurd ((h p hp).1 _ hmem) (by decide)
  · exact (h p hp).2 (List.mem_singleton.1 hmem).symm

/-- A text of the right characters is one of C. -/
theorem zero_not_mem_text {t : Shape} (hday : ∀ p ∈ t.day, Digits p.digits ∧ isDayDesignator p.designator = true)
    (htime : ∀ p ∈ t.afterT, Digits p.digits ∧ isTimeDesignator p.designator = true)
    (hstray : ∀ stray ∈ t.time.map Prod.fst, Digits stray) : '\x00' ∉ t.text := by
  have hfirst := zero_not_mem_pieces fun p hp => ⟨(hday p hp).1, (not_digit_of_day (hday p hp).2).2.2⟩
  have hsecond := zero_not_mem_pieces fun p hp => ⟨(htime p hp).1, (not_digit_of_time (htime p hp).2).2⟩
  obtain ⟨day, time⟩ := t
  cases time with
  | none =>
    simp only [Shape.text, List.append_nil, List.mem_cons, not_or]
    exact ⟨by decide, hfirst⟩
  | some parts =>
    obtain ⟨stray, pieces⟩ := parts
    have hstray : '\x00' ∉ stray := fun hmem => absurd (hstray stray rfl _ hmem) (by decide)
    simp only [Shape.text, List.mem_cons, List.mem_append, not_or]
    exact ⟨by decide, hfirst, hstray, by decide, hsecond⟩

/-- `parse8601` behind the `P`. -/
theorem parse8601_of_text {s : String} {duration : List Char} (hs : (cString s).toList = 'P' :: duration) :
    parse8601 s = if duration = [] then -1 else run true [] 0 duration := by
  have hne : s ≠ "" := by
    rintro rfl
    simp [cString] at hs
  rw [parse8601, if_neg hne]
  simp only [hs]
  rfl

theorem text_ne {t : Shape} (h : t.day ≠ [] ∨ t.time ≠ none) : t.text.tail ≠ [] := by
  obtain ⟨day, time⟩ := t
  rw [Shape.text, List.tail_cons]
  cases time with
  | some parts => simp
  | none =>
    cases day with
    | nil => simp at h
    | cons p day => simp [Piece.text]

theorem parse8601_of_shape {s : String} {t : Shape} (hs : (cString s).toList = t.text)
    (hday : ∀ p ∈ t.day, Digits p.digits ∧ isDayDesignator p.designator = true)
    (htime : ∀ p ∈ t.afterT, Digits p.digits ∧ isTimeDesignator p.designator = true)
    (hstray : ∀ stray ∈ t.time.map Prod.fst, Digits stray) (hpiece : t.day ≠ [] ∨ t.time ≠ none) :
    parse8601 s =
      if ∀ p ∈ t.day, atoi p.digits = 0 → p.digits.head? = some '0' then Int.bmod t.read (2 ^ 64) else -1 := by
  have htext : (cString s).toList = 'P' :: t.text.tail := hs
  rw [parse8601_of_text htext, if_neg (text_ne hpiece), run_text hday htime hstray]

theorem parse8601_of_taken {s : String} {t : Shape} (hs : (cString s).toList = t.text) (h : t.Taken) :
    parse8601 s = Int.bmod t.read (2 ^ 64) := by
  rw [parse8601_of_shape hs (fun p hp => ⟨(h.day p hp).1, (h.day p hp).2.1⟩) h.time h.stray h.piece,
    if_pos fun p hp => (h.day p hp).2.2]

/-! ### What has been taken -/

theorem time_of_run {start duration : List Char} {accumulated : Int} (hpoint : ∀ c ∈ duration, c ≠ '.' ∧ c ≠ ',')
    (hstart : Digits start) (h : run false start accumulated duration ≠ -1) :
    ∃ pieces : List Piece, (∀ p ∈ pieces, Digits p.digits ∧ isTimeDesignator p.designator = true) ∧
      start ++ duration = pieces.flatMap Piece.text := by
  induction duration generalizing start accumulated with
  | nil =>
    rw [run_nil] at h
    have hnone : start = [] := by
      by_contra hne
      exact h (if_neg hne)
    exact ⟨[], by simp, by simp [hnone]⟩
  | cons c duration ih =>
    obtain ⟨hc, hrest⟩ := List.forall_mem_cons.1 hpoint
    by_cases hdigit : c.isDigit = true
    · rw [run_digit _ _ _ hdigit] at h
      obtain ⟨pieces, hpieces, htext⟩ := ih hrest (hstart.append fun d hd => List.mem_singleton.1 hd ▸ hdigit) h
      exact ⟨pieces, hpieces, by rw [← htext, List.append_assoc]; rfl⟩
    · by_cases hdesignator : isTimeDesignator c = true
      · rw [run_time_designator _ _ hdesignator] at h
        obtain ⟨pieces, hpieces, htext⟩ := ih hrest (fun d hd => by cases hd) h
        refine ⟨⟨start, c⟩ :: pieces, List.forall_mem_cons.2 ⟨⟨hstart, hdesignator⟩, hpieces⟩, ?_⟩
        rw [List.flatMap_cons, ← htext]
        simp [Piece.text]
      · refine absurd ?_ h
        rw [run, parseLoop, if_neg (by simp [hdigit, hc.1, hc.2]), if_neg (by simp), if_neg (by simp),
          if_neg (by simp [hdesignator])]

theorem day_of_run {start duration : List Char} {accumulated : Int} (hpoint : ∀ c ∈ duration, c ≠ '.' ∧ c ≠ ',')
    (hstart : Digits start) (h : run true start accumulated duration ≠ -1) :
    ∃ t : Shape,
      (∀ p ∈ t.day, Digits p.digits ∧ isDayDesignator p.designator = true ∧
        (atoi p.digits = 0 → p.digits.head? = some '0')) ∧
      (∀ p ∈ t.afterT, Digits p.digits ∧ isTimeDesignator p.designator = true) ∧
      (∀ stray ∈ t.time.map Prod.fst, Digits stray) ∧ start ++ duration = t.text.tail := by
  induction duration generalizing start accumulated with
  | nil =>
    rw [run_nil] at h
    have hnone : start = [] := by
      by_contra hne
      exact h (if_neg hne)
    exact ⟨⟨[], none⟩, by simp, by simp [Shape.afterT], by simp, by simp [hnone, Shape.text]⟩
  | cons c duration ih =>
    obtain ⟨hc, hrest⟩ := List.forall_mem_cons.1 hpoint
    by_cases hdigit : c.isDigit = true
    · rw [run_digit _ _ _ hdigit] at h
      obtain ⟨t, hday, htime, hstray, htext⟩ :=
        ih hrest (hstart.append fun d hd => List.mem_singleton.1 hd ▸ hdigit) h
      exact ⟨t, hday, htime, hstray, by rw [← htext, List.append_assoc]; rfl⟩
    · by_cases hdesignator : isDayDesignator c = true
      · rw [run_day_designator _ _ hdesignator] at h
        split at h
        · exact absurd rfl h
        · rename_i hzero
          obtain ⟨t, hday, htime, hstray, htext⟩ := ih hrest (fun d hd => by cases hd) h
          refine ⟨⟨⟨start, c⟩ :: t.day, t.time⟩, List.forall_mem_cons.2 ⟨⟨hstart, hdesignator, by tauto⟩, hday⟩, htime,
            hstray, ?_⟩
          rw [Shape.text, List.tail_cons, List.nil_append] at htext
          rw [htext, Shape.text, List.tail_cons]
          simp [Piece.text]
      · by_cases hT : c = 'T'
        · rw [hT, run_T] at h
          obtain ⟨pieces, hpieces, htext⟩ := time_of_run hrest (fun d hd => by cases hd) h
          refine ⟨⟨[], some (start, pieces)⟩, by simp, hpieces, ?_, ?_⟩
          · intro stray hmem
            cases hmem
            exact hstart
          · rw [List.nil_append] at htext
            rw [hT, htext]
            rfl
        · refine absurd ?_ h
          rw [run, parseLoop, if_neg (by simp [hdigit, hc.1, hc.2]), if_neg (by simp [hdesignator]), if_neg (by simp [hT]),
            if_neg (by simp)]

theorem taken_of_parse8601 {s : String} (hpoint : '.' ∉ s.toList) (hcomma : ',' ∉ s.toList) (h : parse8601 s ≠ -1) :
    ∃ t : Shape, t.Taken ∧ (cString s).toList = t.text := by
  have hsub : ∀ c ∈ (cString s).toList, c ∈ s.toList := by
    intro c hc
    rw [cString, String.toList_ofList] at hc
    exact (List.takeWhile_prefix _).subset hc
  cases htext : (cString s).toList with
  | nil =>
    refine absurd ?_ h
    simp [parse8601, htext]
  | cons c duration =>
    by_cases hP : c = 'P'
    · rw [hP] at htext ⊢
      rw [parse8601_of_text htext] at h
      split at h
      · exact absurd rfl h
      · rename_i hne
        have hpoint : ∀ d ∈ duration, d ≠ '.' ∧ d ≠ ',' := by
          intro d hd
          have hmem := hsub d (by rw [htext]; exact List.mem_cons_of_mem _ hd)
          exact ⟨fun heq => hpoint (heq ▸ hmem), fun heq => hcomma (heq ▸ hmem)⟩
        obtain ⟨t, hday, htime, hstray, hdur⟩ := day_of_run hpoint (fun d hd => by cases hd) h
        rw [List.nil_append] at hdur
        refine ⟨t, ⟨hday, htime, hstray, ?_⟩, by rw [hdur]; rfl⟩
        by_contra hnone
        push Not at hnone
        obtain ⟨day, time⟩ := t
        obtain ⟨rfl, rfl⟩ := hnone
        exact hne hdur
    · refine absurd ?_ h
      rw [parse8601]
      split
      · rfl
      · split
        · rename_i heq
          rw [htext, List.cons.injEq] at heq
          exact absurd heq.1 hP
        · rfl

/-! ### When a text is read rightly -/

/-- A duration is taken, and the errors of its numbers cancel out; a text that is taken and is no duration comes to
-1. -/
structure ReadRightly (s : String) : Prop where
  exact : ∀ t : Shape, t.Regular → s.toList = t.text → t.seconds < 2 ^ 63 →
    t.Taken ∧ (2 ^ 64 : Int) ∣ t.read - t.seconds
  regular : ∀ t : Shape, t.Taken → (cString s).toList = t.text →
    (∃ t' : Shape, t'.Regular ∧ s.toList = t'.text) ∨ Int.bmod t.read (2 ^ 64) = -1

namespace Shape.Regular

variable {t : Shape} (h : t.Regular)

include h

theorem digits_day : ∀ p ∈ t.day, Digits p.digits ∧ isDayDesignator p.designator = true := fun p hp => (h.day p hp).2

theorem digits_time : ∀ p ∈ t.afterT, Digits p.digits ∧ isTimeDesignator p.designator = true := fun p hp =>
  (h.time p hp).2

theorem digits_stray : ∀ stray ∈ t.time.map Prod.fst, Digits stray := by
  intro stray hmem
  rw [h.stray stray hmem]
  exact fun c hc => by cases hc

theorem some_piece : t.day ≠ [] ∨ t.time ≠ none := by
  refine h.piece.imp_right fun hne hnone => hne ?_
  rw [afterT, hnone]
  rfl

theorem taken_iff : t.Taken ↔ ∀ p ∈ t.day, atoi p.digits = 0 → p.digits.head? = some '0' :=
  ⟨fun htaken p hp => (htaken.day p hp).2.2, fun hzero =>
    ⟨fun p hp => ⟨(h.digits_day p hp).1, (h.digits_day p hp).2, hzero p hp⟩, h.digits_time, h.digits_stray, h.some_piece⟩⟩

theorem cString_text {s : String} (hs : s.toList = t.text) : (cString s).toList = t.text := by
  rw [cString_eq_self_iff.2 (hs ▸ zero_not_mem_text h.digits_day h.digits_time h.digits_stray), hs]

theorem parse8601_eq {s : String} (hs : s.toList = t.text) [Decidable t.Taken] :
    parse8601 s = if t.Taken then Int.bmod t.read (2 ^ 64) else -1 := by
  rw [parse8601_of_shape (h.cString_text hs) h.digits_day h.digits_time h.digits_stray h.some_piece]
  simp only [h.taken_iff]

end Shape.Regular

theorem bmod_eq_iff {read seconds : Int} (hlow : 0 ≤ seconds) (hhigh : seconds < 2 ^ 63) :
    Int.bmod read (2 ^ 64) = seconds ↔ (2 ^ 64 : Int) ∣ read - seconds := by
  have hself : Int.bmod seconds (2 ^ 64) = seconds := Int.bmod_eq_of_le (by omega) (by omega)
  constructor
  · intro h
    have hdvd : ((2 ^ 64 : ℕ) : Int) ∣ Int.bmod read (2 ^ 64) - read := Int.dvd_bmod_sub_self
    rw [h] at hdvd
    have := (dvd_neg (a := ((2 ^ 64 : ℕ) : Int))).2 hdvd
    rw [neg_sub] at this
    exact_mod_cast this
  · intro h
    rw [← hself]
    exact (Int.bmod_eq_bmod_iff_bmod_sub_eq_zero).2 (Int.bmod_eq_zero_of_dvd (by exact_mod_cast h))

/-- The code reads a text without points and commas as a duration if and only if it takes no text that is none, and
the errors of the numbers cancel out. -/
theorem parse8601_iff (s : String) (hpoint : '.' ∉ s.toList) (hcomma : ',' ∉ s.toList) :
    ReadsDuration s ↔ ReadRightly s := by
  classical
  constructor
  · rintro ⟨hvalue, herror⟩
    refine ⟨?_, ?_⟩
    · intro t hregular hs hbound
      have hparse := hvalue t hregular hs hbound
      rw [hregular.parse8601_eq hs] at hparse
      split at hparse
      · rename_i htaken
        exact ⟨htaken, (bmod_eq_iff (by omega) (by omega)).1 hparse⟩
      · omega
    · intro t htaken hs
      by_cases hregular : ∃ t' : Shape, t'.Regular ∧ s.toList = t'.text
      · exact .inl hregular
      · right
        rw [← parse8601_of_taken hs htaken]
        exact herror fun t' ht' hs' => hregular ⟨t', ht', hs'⟩
  · rintro ⟨hexact, hregular⟩
    refine ⟨?_, ?_⟩
    · intro t ht hs hbound
      obtain ⟨htaken, hdvd⟩ := hexact t ht hs hbound
      rw [ht.parse8601_eq hs, if_pos htaken]
      exact (bmod_eq_iff (by omega) (by omega)).2 hdvd
    · intro hnone
      by_contra hne
      obtain ⟨t, htaken, hs⟩ := taken_of_parse8601 hpoint hcomma hne
      rcases hregular t htaken hs with ⟨t', ht', hs'⟩ | hminus
      · exact hnone t' ht' hs'
      · rw [parse8601_of_taken hs htaken] at hne
        exact hne hminus

theorem parse8601_iff_day : ReadsDuration "P1D" ↔ ReadRightly "P1D" := parse8601_iff "P1D" (by decide) (by decide)

/-- A `T` and nothing else is 0 seconds. -/
theorem bare_T_read : ¬ReadsDuration "PT" := by
  rintro ⟨-, herror⟩
  have hparse : parse8601 "PT" = 0 := by decide +kernel
  have hminus : parse8601 "PT" = -1 := by
    refine herror fun t ht htext => ?_
    have htext : ['T'] = t.day.flatMap Piece.text ++
        match t.time with
        | none => []
        | some (stray, pieces) => stray ++ 'T' :: pieces.flatMap Piece.text := (List.cons.inj htext).2
    cases hday : t.day with
    | cons p day =>
      obtain ⟨hne, hdigits, -⟩ := ht.day p (by rw [hday]; exact List.mem_cons_self)
      cases hp : p.digits with
      | nil => exact hne hp
      | cons c digits =>
        rw [hday, List.flatMap_cons, Piece.text, hp] at htext
        have hc : c = 'T' := (List.cons.inj htext).1.symm
        have hdigit := hdigits c (by rw [hp]; exact List.mem_cons_self)
        rw [hc] at hdigit
        cases hdigit
    | nil =>
      rcases ht.piece with hne | hne
      · exact hne hday
      · cases htime : t.time with
        | none => exact hne (by rw [Shape.afterT, htime]; rfl)
        | some parts =>
          obtain ⟨stray, pieces⟩ := parts
          have hstray : stray = [] := ht.stray stray (by rw [htime]; rfl)
          have hafter : t.afterT = pieces := by rw [Shape.afterT, htime]; rfl
          rw [hday, htime, hstray] at htext
          cases hpieces : pieces with
          | nil => exact hne (by rw [hafter, hpieces])
          | cons p pieces' =>
            rw [hpieces] at htext
            simp [Piece.text] at htext
  rw [hparse] at hminus
  cases hminus

/-! ### Numbers that are read exactly -/

theorem roundBits_natCast {bits n : ℕ} (h : n < 2 ^ bits) : roundBits bits n = n := by
  rcases Nat.eq_zero_or_pos n with rfl | hpos
  · simp [roundBits, roundEven]
  · have hlog : Nat.log 2 n ≤ bits - 1 := by
      have := Nat.log_lt_of_lt_pow hpos.ne' h
      omega
    have hbits : 1 ≤ bits := by
      by_contra hzero
      have : bits = 0 := by omega
      rw [this] at h
      omega
    unfold roundBits
    dsimp only
    rw [Int.log_natCast]
    -- the number of units in the last place
    have hunit : (2 : ℚ) ^ ((Nat.log 2 n : ℤ) - ((bits : ℤ) - 1)) = ((2 ^ (bits - 1 - Nat.log 2 n) : ℕ) : ℚ)⁻¹ := by
      have hexp : ((Nat.log 2 n : ℤ) - ((bits : ℤ) - 1)) = -((bits - 1 - Nat.log 2 n : ℕ) : ℤ) := by omega
      rw [hexp, zpow_neg, zpow_natCast]
      push_cast
      rfl
    have hunits : (n : ℚ) / 2 ^ ((Nat.log 2 n : ℤ) - ((bits : ℤ) - 1)) =
        ((n * 2 ^ (bits - 1 - Nat.log 2 n) : ℕ) : ℤ) := by
      rw [hunit, div_inv_eq_mul]
      push_cast
      rfl
    rw [hunits, roundEven_intCast, ← hunits]
    exact div_mul_cancel₀ _ (zpow_ne_zero _ (by norm_num))

theorem roundSeconds_of_lt {digits : List Char} (h : Digits digits) (hlt : natOf digits < 2 ^ 24) :
    roundSeconds digits = natOf digits := by
  have hatof : atof digits = natOf digits := by
    have htake : digits.takeWhile Char.isDigit = digits := List.takeWhile_eq_self_iff.2 h
    have hdrop : digits.dropWhile Char.isDigit = [] := List.dropWhile_eq_nil_iff.2 h
    simp [atof, htake, hdrop, natOf]
  have hround : ⌊((natOf digits : ℕ) : ℚ) + 1 / 2⌋ = natOf digits := by
    rw [Int.floor_eq_iff]
    constructor <;> push_cast <;> linarith
  unfold roundSeconds
  dsimp only
  rw [hatof, roundBits_natCast (by omega), roundBits_natCast hlt, hround, toInt, if_pos (by omega)]

theorem toSeconds_eq {c : Char} {dayPart : Bool} (h : (if dayPart then isDayDesignator c else isTimeDesignator c) = true)
    (value : ℕ) : toSeconds value c dayPart = (value * unit dayPart c : ℕ) := by
  cases dayPart with
  | true =>
    simp only [if_true, isDayDesignator, Bool.or_eq_true, decide_eq_true_eq] at h
    rcases h with ((rfl | rfl) | rfl) | rfl <;> simp [toSeconds, unit] <;> omega
  | false =>
    simp only [Bool.false_eq_true, if_false, isTimeDesignator, Bool.or_eq_true, decide_eq_true_eq] at h
    rcases h with (rfl | rfl) | rfl <;> simp [toSeconds, unit] <;> omega

/-- A number that is written with a few digits. -/
def Piece.Small (p : Piece) : Prop := natOf p.digits < if p.designator = 'S' then 2 ^ 24 else 2 ^ 31

theorem read_of_small {p : Piece} {dayPart : Bool} (hdigits : Digits p.digits)
    (hdesignator : (if dayPart then isDayDesignator p.designator else isTimeDesignator p.designator) = true)
    (h : p.Small) : p.read dayPart = p.seconds dayPart := by
  have hvalue : valueOf p.digits p.designator dayPart = natOf p.digits := by
    unfold valueOf
    split
    · rename_i hseconds
      rw [Piece.Small, if_pos hseconds.2] at h
      exact roundSeconds_of_lt hdigits h
    · refine atoi_of_lt hdigits (lt_of_lt_of_le h ?_)
      split <;> norm_num
  rw [Piece.read, hvalue, toSeconds_eq hdesignator, Piece.seconds]

theorem head_of_natOf_eq_zero {digits : List Char} (hdigits : Digits digits) (hne : digits ≠ []) (h : natOf digits = 0) :
    digits.head? = some '0' := by
  cases digits with
  | nil => exact absurd rfl hne
  | cons c digits =>
    have hfirst := natOf_append [c] digits
    rw [List.singleton_append, h] at hfirst
    have hc : natOf [c] = 0 := by
      have hpos : 0 < 10 ^ digits.length := by positivity
      rcases Nat.mul_eq_zero.1 (by omega : natOf [c] * 10 ^ digits.length = 0) with hc | hc
      · exact hc
      · omega
    have hdigit := hdigits c List.mem_cons_self
    simp only [natOf, List.foldl_cons, List.foldl_nil, Nat.zero_mul, Nat.zero_add] at hc
    simp only [Char.isDigit, Bool.and_eq_true, decide_eq_true_eq] at hdigit
    have hnat : c.toNat = '0'.toNat := by
      have hlow : '0'.toNat ≤ c.toNat := UInt32.le_iff_toNat_le.1 hdigit.1
      omega
    rw [List.head?_cons, Char.ext (UInt32.toNat_inj.1 hnat)]

/-- A duration whose numbers are small is taken for what it is. -/
theorem taken_of_small {t : Shape} (h : t.Regular) (hday : ∀ p ∈ t.day, p.Small) (htime : ∀ p ∈ t.afterT, p.Small) :
    t.Taken ∧ t.read = t.seconds := by
  refine ⟨h.taken_iff.2 fun p hp hzero => ?_, ?_⟩
  · obtain ⟨hne, hdigits, -⟩ := h.day p hp
    have hlt : natOf p.digits < 2 ^ 31 := by
      refine lt_of_lt_of_le (hday p hp) ?_
      split <;> norm_num
    rw [atoi_of_lt hdigits hlt] at hzero
    exact head_of_natOf_eq_zero hdigits hne (by exact_mod_cast hzero)
  · have hfirst : t.day.map (Piece.read true) = t.day.map fun p => (p.seconds true : Int) := by
      refine List.map_congr_left fun p hp => ?_
      exact read_of_small (h.digits_day p hp).1 (h.digits_day p hp).2 (hday p hp)
    have hsecond : t.afterT.map (Piece.read false) = t.afterT.map fun p => (p.seconds false : Int) := by
      refine List.map_congr_left fun p hp => ?_
      exact read_of_small (h.digits_time p hp).1 (h.digits_time p hp).2 (htime p hp)
    rw [Shape.read, Shape.seconds, hfirst, hsecond]
    push_cast
    simp [List.map_map, Function.comp_def]

example : parse8601 "P1Y2DT3H4S" = 365 * 86400 + 2 * 86400 + 3 * 3600 + 4 := by decide +kernel

end OrionBroker.Duration
