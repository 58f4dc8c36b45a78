import OrionBroker.ContextElement
import OrionBroker.Json
import OrionBroker.Stripping

/-!
# Coordinates in a string (`string.cpp`)

A position is given as a latitude, a comma and a longitude.  The string is stripped of blanks and cut at its first
comma, and each half is stripped and converted.  The conversion is the one of the C library; whether it converted
anything is not tested, and not-a-number is neither too large nor too small.  `string2coords_iff` says for which strings
what is accepted is a pair of coordinates.
-/

namespace OrionBroker

open Bson

/-! ### The two halves -/

theorem comma_not_mem {b : List Char} (h : Blanks b) : ',' ∉ b := fun hc => by simpa [isStripped] using h ',' hc

/-- The two halves of a text, if it has a comma. -/
def halves (l : List Char) : Option (List Char × List Char) :=
  if ',' ∉ wsStrip l then none
  else some (wsStrip ((wsStrip l).takeWhile (· ≠ ',')), wsStrip (((wsStrip l).dropWhile (· ≠ ',')).drop 1))

theorem split_comma {u : List Char} (h : ',' ∉ u) (v : List Char) :
    (u ++ ',' :: v).takeWhile (· ≠ ',') = u ∧ ((u ++ ',' :: v).dropWhile (· ≠ ',')).drop 1 = v := by
  induction u with
  | nil => simp
  | cons c u ih =>
    rw [List.mem_cons, not_or] at h
    have hc : c ≠ ',' := Ne.symm h.1
    simpa [hc] using ih h.2

theorem halves_append {u : List Char} (h : ',' ∉ u) (v : List Char) :
    halves (u ++ ',' :: v) = some (wsStrip u, wsStrip v) := by
  obtain ⟨-, b, b', hb, hb', hl⟩ := wsStrip_decompose (u ++ ',' :: v)
  have hcomma : ',' ∈ wsStrip (u ++ ',' :: v) := by
    have hmem : ',' ∈ b ++ wsStrip (u ++ ',' :: v) ++ b' := by
      rw [← hl]
      exact List.mem_append_right u List.mem_cons_self
    rw [List.mem_append, List.mem_append] at hmem
    exact (hmem.resolve_right (comma_not_mem hb')).resolve_left (comma_not_mem hb)
  obtain ⟨u', v', huv, hu'⟩ := List.eq_append_cons_of_mem hcomma
  rw [huv] at hl
  have hl' : u ++ ',' :: v = (b ++ u') ++ ',' :: (v' ++ b') := by
    rw [hl]
    simp
  have hbu : ',' ∉ b ++ u' := fun hc => (List.mem_append.1 hc).elim (comma_not_mem hb) hu'
  have hu : u = b ++ u' := by rw [← (split_comma h v).1, hl', (split_comma hbu _).1]
  have hv : v = v' ++ b' := by rw [← (split_comma h v).2, hl', (split_comma hbu _).2]
  rw [halves, if_neg (not_not.2 hcomma), huv, (split_comma hu' v').1, (split_comma hu' v').2, hu, hv,
    wsStrip_append_left hb, wsStrip_append_right hb']

/-- The halves are what stands before and after the first comma, up to blanks. -/
theorem halves_eq_some_iff {l n1 n2 : List Char} :
    halves l = some (n1, n2) ↔
      Trimmed n1 ∧ Trimmed n2 ∧ ',' ∉ n1 ∧ ∃ b1 b2 b3 b4, (Blanks b1 ∧ Blanks b2 ∧ Blanks b3 ∧ Blanks b4) ∧
        l = (b1 ++ n1 ++ b2) ++ ',' :: (b3 ++ n2 ++ b4) := by
  constructor
  · intro h
    have hcomma : ',' ∈ l := by
      by_contra hnot
      obtain ⟨-, b, b', -, -, hl⟩ := wsStrip_decompose l
      have hstrip : ',' ∉ wsStrip l := fun hc =>
        hnot (hl ▸ List.mem_append_left b' (List.mem_append_right b hc))
      rw [halves, if_pos hstrip] at h
      cases h
    obtain ⟨u, v, rfl, hu⟩ := List.eq_append_cons_of_mem hcomma
    rw [halves_append hu] at h
    cases h
    obtain ⟨htrim, b1, b2, hb1, hb2, hul⟩ := wsStrip_decompose u
    obtain ⟨htrim', b3, b4, hb3, hb4, hvl⟩ := wsStrip_decompose v
    have hun : ',' ∉ wsStrip u := fun hc => hu (hul ▸ List.mem_append_left b2 (List.mem_append_right b1 hc))
    refine ⟨htrim, htrim', hun, b1, b2, b3, b4, ⟨hb1, hb2, hb3, hb4⟩, ?_⟩
    rw [← hul, ← hvl]
  · rintro ⟨htrim, htrim', hn, b1, b2, b3, b4, ⟨hb1, hb2, hb3, hb4⟩, rfl⟩
    have hu : ',' ∉ b1 ++ n1 ++ b2 := by
      simp only [List.mem_append, not_or]
      exact ⟨⟨comma_not_mem hb1, hn⟩, comma_not_mem hb2⟩
    rw [halves_append hu, wsStrip_append_right hb2, wsStrip_append_left hb1, wsStrip_append_right hb4,
      wsStrip_append_left hb3, wsStrip_of_trimmed htrim, wsStrip_of_trimmed htrim']

/-! ### The two numbers -/

section Numbers

variable (strtod : String → Strtod)

/-- `string2coords` with its output arguments. -/
def string2coordsArgs (s : String) (latitude longitude : Double) : Bool × Double × Double :=
  let cP := wsStrip (cString s).toList
  if ',' ∉ cP then (false, latitude, longitude)
  else
    let number1 := wsStrip (cP.takeWhile (· ≠ ','))
    let number2 := wsStrip ((cP.dropWhile (· ≠ ',')).drop 1)
    match str2double strtod number1 with
    | none => (false, latitude, longitude)
    | some newLatitude =>
      if Double.lt (.fin 90) newLatitude || Double.lt newLatitude (.fin (-90)) then (false, latitude, longitude)
      else
        match str2double strtod number2 with
        | none => (false, latitude, longitude)
        | some newLongitude =>
          if Double.lt (.fin 180) newLongitude || Double.lt newLongitude (.fin (-180)) then (false, latitude, longitude)
          else (true, newLatitude, newLongitude)

theorem string2coordsArgs_eq (s : String) (latitude longitude : Double) :
    string2coordsArgs strtod s latitude longitude =
      match string2coords strtod (cString s) with
      | none => (false, latitude, longitude)
      | some coords => (true, coords) := by
  unfold string2coordsArgs string2coords
  dsimp only
  repeat' split
  all_goals simp_all

/-- The conversion of a text converts something, and all of it but white space, to a finite number. -/
structure IsNumber (n : List Char) (q : ℚ) : Prop where
  zero_not_mem : '\x00' ∉ n
  converted : (strtod (String.ofList n)).rest ≠ String.ofList n
  inRange : (strtod (String.ofList n)).erange = false
  whole : ∀ c ∈ (strtod (String.ofList n)).rest.toList, isspace c = true
  value : (strtod (String.ofList n)).value = .fin q

/-- Up to surrounding blanks, a text is a latitude, a comma and a longitude. -/
def IsCoords (s : String) (latitude longitude : ℚ) : Prop :=
  ∃ b1 n1 b2 b3 n2 b4, s.toList = (b1 ++ n1 ++ b2) ++ ',' :: (b3 ++ n2 ++ b4) ∧
    (Blanks b1 ∧ Blanks b2 ∧ Blanks b3 ∧ Blanks b4) ∧ (Trimmed n1 ∧ Trimmed n2) ∧ ',' ∉ n1 ∧
    (IsNumber strtod n1 latitude ∧ -90 ≤ latitude ∧ latitude ≤ 90) ∧
    IsNumber strtod n2 longitude ∧ -180 ≤ longitude ∧ longitude ≤ 180

/-- What is accepted is exactly coordinates, and these are what is returned; otherwise the arguments are unchanged. -/
def CoordsExact (s : String) (latitude longitude : Double) : Prop :=
  ((string2coordsArgs strtod s latitude longitude).1 = true ↔ ∃ lat long, IsCoords strtod s lat long) ∧
  ((string2coordsArgs strtod s latitude longitude).1 = true → ∃ lat long, IsCoords strtod s lat long ∧
    (string2coordsArgs strtod s latitude longitude).2 = (.fin lat, .fin long)) ∧
  ((string2coordsArgs strtod s latitude longitude).1 = false →
    (string2coordsArgs strtod s latitude longitude).2 = (latitude, longitude))

/-- The conversion of a text leaves nothing but white space and stays in the range of `double`, and the number does not
compare as beyond a limit. -/
structure Passes (limit : ℚ) (n : List Char) : Prop where
  inRange : (strtod (String.ofList n)).erange = false
  whole : ∀ c ∈ (strtod (String.ofList n)).rest.toList, isspace c = true
  upper : Double.lt (.fin limit) (strtod (String.ofList n)).value = false
  lower : Double.lt (strtod (String.ofList n)).value (.fin (-limit)) = false

/-- Something is converted, and to a number. -/
def Converts (n : List Char) : Prop :=
  (strtod (String.ofList n)).rest ≠ String.ofList n ∧ (strtod (String.ofList n)).value ≠ .nan

variable {strtod}

theorem str2double_eq_some_iff {n : List Char} {d : Double} :
    str2double strtod n = some d ↔ (strtod (String.ofList n)).erange = false ∧
      (∀ c ∈ (strtod (String.ofList n)).rest.toList, isspace c = true) ∧ (strtod (String.ofList n)).value = d := by
  unfold str2double
  dsimp only
  simp only [List.isEmpty_iff, List.dropWhile_eq_nil_iff]
  split
  · rename_i herange
    simp [herange]
  · rename_i herange
    rw [Bool.not_eq_true] at herange
    split
    · rename_i hwhole
      simpa [herange] using fun _ => hwhole
    · rename_i hwhole
      simp [herange, hwhole]

/-- The limits keep out what is infinite. -/
theorem passes_converts_iff {limit : ℚ} {n : List Char} :
    Passes strtod limit n ∧ Converts strtod n ∧ '\x00' ∉ n ↔
      ∃ q, (strtod (String.ofList n)).value = .fin q ∧ IsNumber strtod n q ∧ -limit ≤ q ∧ q ≤ limit := by
  constructor
  · rintro ⟨hpass, ⟨hrest, hnan⟩, hzero⟩
    have hupper := hpass.upper
    have hlower := hpass.lower
    cases hvalue : (strtod (String.ofList n)).value with
    | nan => exact absurd hvalue hnan
    | inf negative =>
      rw [hvalue] at hupper hlower
      cases negative
      · cases hupper
      · cases hlower
    | fin q =>
      rw [hvalue] at hupper hlower
      simp only [Double.lt, decide_eq_false_iff_not, not_lt] at hupper hlower
      exact ⟨q, rfl, ⟨hzero, hrest, hpass.inRange, hpass.whole, hvalue⟩, hlower, hupper⟩
  · rintro ⟨q, hvalue, hnumber, hlower, hupper⟩
    refine ⟨⟨hnumber.inRange, hnumber.whole, ?_, ?_⟩, ⟨hnumber.converted, ?_⟩, hnumber.zero_not_mem⟩
    · simpa [hvalue, Double.lt] using hupper
    · simpa [hvalue, Double.lt] using hlower
    · simp [hvalue]

theorem string2coords_eq_some_iff {s : String} {latitude longitude : Double} :
    string2coords strtod s = some (latitude, longitude) ↔
      ∃ n1 n2, halves s.toList = some (n1, n2) ∧ Passes strtod 90 n1 ∧ Passes strtod 180 n2 ∧
        (strtod (String.ofList n1)).value = latitude ∧ (strtod (String.ofList n2)).value = longitude := by
  unfold string2coords halves
  dsimp only
  by_cases hcomma : ',' ∉ wsStrip s.toList
  · simp [hcomma]
  · rw [if_neg hcomma, if_neg hcomma]
    generalize wsStrip ((wsStrip s.toList).takeWhile (· ≠ ',')) = n1
    generalize wsStrip (((wsStrip s.toList).dropWhile (· ≠ ',')).drop 1) = n2
    constructor
    · intro h
      split at h
      · cases h
      · rename_i lat hlat
        obtain ⟨herange, hwhole, hvalue⟩ := str2double_eq_some_iff.1 hlat
        split at h
        · cases h
        · rename_i hlimits
          split at h
          · cases h
          · rename_i long hlong
            obtain ⟨herange', hwhole', hvalue'⟩ := str2double_eq_some_iff.1 hlong
            split at h
            · cases h
            · rename_i hlimits'
              cases h
              simp only [Bool.or_eq_true, not_or, Bool.not_eq_true] at hlimits hlimits'
              subst hvalue hvalue'
              exact ⟨n1, n2, rfl, ⟨herange, hwhole, hlimits.1, hlimits.2⟩,
                ⟨herange', hwhole', hlimits'.1, hlimits'.2⟩, rfl, rfl⟩
    · rintro ⟨n1', n2', h, hpass, hpass', rfl, rfl⟩
      cases h
      rw [str2double_eq_some_iff.2 ⟨hpass.inRange, hpass.whole, rfl⟩,
        str2double_eq_some_iff.2 ⟨hpass'.inRange, hpass'.whole, rfl⟩]
      simp only [hpass.upper, hpass.lower, hpass'.upper, hpass'.lower, Bool.or_self, Bool.false_eq_true, if_false]

theorem isCoords_iff {s : String} {lat long : ℚ} :
    IsCoords strtod s lat long ↔
      ∃ n1 n2, halves s.toList = some (n1, n2) ∧ (IsNumber strtod n1 lat ∧ -90 ≤ lat ∧ lat ≤ 90) ∧
        IsNumber strtod n2 long ∧ -180 ≤ long ∧ long ≤ 180 := by
  constructor
  · rintro ⟨b1, n1, b2, b3, n2, b4, hs, hblank, htrim, hcomma, hlat, hlong⟩
    exact ⟨n1, n2, halves_eq_some_iff.2 ⟨htrim.1, htrim.2, hcomma, b1, b2, b3, b4, hblank, hs⟩, hlat, hlong⟩
  · rintro ⟨n1, n2, hhalves, hlat, hlong⟩
    obtain ⟨htrim, htrim', hcomma, b1, b2, b3, b4, hblank, hs⟩ := halves_eq_some_iff.1 hhalves
    exact ⟨b1, n1, b2, b3, n2, b4, hs, hblank, ⟨htrim, htrim'⟩, hcomma, hlat, hlong⟩

/-- Coordinates have no zero character. -/
theorem IsCoords.cString_eq {s : String} {lat long : ℚ} (h : IsCoords strtod s lat long) : cString s = s := by
  obtain ⟨b1, n1, b2, b3, n2, b4, hs, ⟨hb1, hb2, hb3, hb4⟩, -, -, ⟨hlat, -⟩, hlong, -⟩ := h
  have hblank : ∀ b : List Char, Blanks b → '\x00' ∉ b := fun b hb hc => by simpa [isStripped] using hb _ hc
  have hzero : '\x00' ≠ ',' := by decide
  rw [cString_eq_self_iff, hs]
  simp only [List.mem_append, List.mem_cons, not_or]
  exact ⟨⟨⟨hblank b1 hb1, hlat.zero_not_mem⟩, hblank b2 hb2⟩, hzero, ⟨hblank b3 hb3, hlong.zero_not_mem⟩, hblank b4 hb4⟩

/-- What is accepted is exactly coordinates if and only if in every pair of halves that pass the tests both are
converted to numbers, and the string does not go on behind a zero character. -/
theorem string2coords_iff (strtod : String → Strtod) (s : String) (latitude longitude : Double) :
    CoordsExact strtod s latitude longitude ↔
      ∀ n1 n2, halves (cString s).toList = some (n1, n2) → Passes strtod 90 n1 → Passes strtod 180 n2 →
        Converts strtod n1 ∧ Converts strtod n2 ∧ '\x00' ∉ s.toList := by
  unfold CoordsExact
  rw [string2coordsArgs_eq]
  constructor
  · rintro ⟨-, hvalues, -⟩ n1 n2 hhalves hpass hpass'
    rw [string2coords_eq_some_iff.2 ⟨n1, n2, hhalves, hpass, hpass', rfl, rfl⟩] at hvalues
    obtain ⟨lat, long, hcoords, -⟩ := hvalues rfl
    have hcut := hcoords.cString_eq
    obtain ⟨m1, m2, hhalves', ⟨hlat, hlower, hupper⟩, hlong, hlower', hupper'⟩ := isCoords_iff.1 hcoords
    rw [hcut, hhalves'] at hhalves
    cases hhalves
    exact ⟨(passes_converts_iff.2 ⟨lat, hlat.value, hlat, hlower, hupper⟩).2.1,
      (passes_converts_iff.2 ⟨long, hlong.value, hlong, hlower', hupper'⟩).2.1, cString_eq_self_iff.1 hcut⟩
  · intro h
    cases hresult : string2coords strtod (cString s) with
    | none =>
      refine ⟨iff_of_false (by simp) ?_, by simp, fun _ => rfl⟩
      rintro ⟨lat, long, hcoords⟩
      have hcut := hcoords.cString_eq
      obtain ⟨n1, n2, hhalves, ⟨hlat, hlower, hupper⟩, hlong, hlower', hupper'⟩ := isCoords_iff.1 hcoords
      have hpass := (passes_converts_iff.2 ⟨lat, hlat.value, hlat, hlower, hupper⟩).1
      have hpass' := (passes_converts_iff.2 ⟨long, hlong.value, hlong, hlower', hupper'⟩).1
      rw [hcut, string2coords_eq_some_iff.2 ⟨n1, n2, hhalves, hpass, hpass', rfl, rfl⟩] at hresult
      cases hresult
    | some coords =>
      obtain ⟨newLatitude, newLongitude⟩ := coords
      obtain ⟨n1, n2, hhalves, hpass, hpass', rfl, rfl⟩ := string2coords_eq_some_iff.1 hresult
      obtain ⟨hconv, hconv', hzero⟩ := h n1 n2 hhalves hpass hpass'
      have hcut := cString_eq_self_iff.2 hzero
      rw [hcut] at hhalves
      obtain ⟨-, -, -, b1, b2, b3, b4, -, hs⟩ := halves_eq_some_iff.1 hhalves
      rw [hs] at hzero
      simp only [List.mem_append, List.mem_cons, not_or] at hzero
      obtain ⟨lat, hvalue, hlat⟩ := passes_converts_iff.1 ⟨hpass, hconv, hzero.1.1.2⟩
      obtain ⟨long, hvalue', hlong⟩ := passes_converts_iff.1 ⟨hpass', hconv', hzero.2.2.1.2⟩
      have hcoords : IsCoords strtod s lat long := isCoords_iff.2 ⟨n1, n2, hhalves, hlat, hlong⟩
      refine ⟨iff_of_true rfl ⟨lat, long, hcoords⟩, fun _ => ⟨lat, long, hcoords, ?_⟩, fun hfalse => by cases hfalse⟩
      rw [hvalue, hvalue']

/-- A comma alone is accepted: nothing is converted, and the position is 0, 0. -/
theorem comma_accepted : ¬CoordsExact strtodDigits "," (.fin 1) (.fin 1) := by
  have hresult : string2coordsArgs strtodDigits "," (.fin 1) (.fin 1) = (true, .fin 0, .fin 0) := by decide +kernel
  rintro ⟨hiff, -, -⟩
  rw [hresult] at hiff
  obtain ⟨lat, long, hcoords⟩ := hiff.1 rfl
  obtain ⟨n1, n2, hhalves, ⟨hlat, -⟩, -⟩ := isCoords_iff.1 hcoords
  have hempty : halves ",".toList = some ([], []) := by decide
  rw [hempty] at hhalves
  cases hhalves
  exact hlat.converted (by decide)

end Numbers

end OrionBroker
