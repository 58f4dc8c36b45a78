import OrionBroker.Json
import OrionBroker.Location
import OrionBroker.NumberText
import OrionBroker.ServicePath
import OrionBroker.Text

/-!
# The scope of a geo query (`areas.cpp`, `Scope.cpp`)

A query names an area by three texts: the geometry, its coordinates and, in the second version, the relation to the
area.  Each is a list of items with a separator.  `Scope::fill` parses them and puts the area together.

The texts are parameters of a URI, that is, strings of C without a zero character.  `beyond` stands for the memory
after an item `radius` that has no number: the parser reads the number one character behind its end.
-/

namespace OrionBroker.Areas

open Bson
open Text (strncmp)

abbrev FIWARE_LOCATION : String := "FIWARE::Location"
abbrev FIWARE_LOCATION_DEPRECATED : String := "FIWARE_Location"
abbrev FIWARE_LOCATION_V2 : String := "FIWARE::Location::NGSIv2"

/-- `orion::Point`. -/
structure Point where
  lat : Double
  lon : Double
deriving DecidableEq

def Point.equals (p q : Point) : Bool := Double.eq q.lat p.lat && Double.eq q.lon p.lon

/-- The area of a scope, by the type of the area. -/
inductive Area where
  | noArea
  | circle (center : Point) (radius : Int) (inverted : Bool)
  | polygon (vertexList : List Point) (inverted : Bool)
  | point (p : Point)
  | line (pointList : List Point)
  | box (lowerLeft upperRight : Point)
deriving DecidableEq

/-! ### The relation to the area -/

structure Georel where
  type : String := ""
  maxDistance : Double := .fin 0
  minDistance : Double := .fin 0
deriving DecidableEq

/-- What the parser of the relation has found so far. -/
structure GeorelState where
  georel : Georel
  maxDistanceSet : Bool := false
  minDistanceSet : Bool := false

def georelTypes : List String := ["near", "coveredBy", "intersects", "equals", "disjoint"]

section Parsers

variable (strtod : String → Strtod)

def georelItem (s : GeorelState) (item : String) : Except String GeorelState :=
  if item ∈ georelTypes then
    if s.georel.type ≠ "" then .error "georel type present more than once"
    else .ok { s with georel := { s.georel with type := item } }
  else if strncmp "maxDistance:" item 12 then
    if s.maxDistanceSet then .error "maxDistance present more than once"
    else
      match str2double strtod (item.toList.drop 12) with
      | none => .error "invalid number for maxDistance"
      | some d => .ok { s with georel := { s.georel with maxDistance := d }, maxDistanceSet := true }
  else if strncmp "minDistance:" item 12 then
    if s.minDistanceSet then .error "minDistance present more than once"
    else
      match str2double strtod (item.toList.drop 12) with
      | none => .error "invalid number for minDistance"
      | some d => .ok { s with georel := { s.georel with minDistance := d }, minDistanceSet := true }
  else .error "Invalid selector in georel specification"

def georelItems (s : GeorelState) : List String → Except String GeorelState
  | [] => .ok s
  | item :: items =>
    match georelItem strtod s item with
    | .error e => .error e
    | .ok s' => georelItems s' items

def Georel.parse (g : Georel) (input : String) : Except String Georel :=
  let items := stringSplit input ';'
  if items = [] then .error "empty georel"
  else
    match georelItems strtod { georel := { g with maxDistance := .fin (-1), minDistance := .fin (-1) } } items with
    | .error e => .error e
    | .ok s =>
      if s.maxDistanceSet && s.georel.type ≠ "near" then
        .error ("maxDistance erroneously used with georel /" ++ s.georel.type ++ "/")
      else if s.minDistanceSet && s.georel.type ≠ "near" then
        .error ("minDistance erroneously used with georel /" ++ s.georel.type ++ "/")
      else if s.georel.type = "near" && !s.maxDistanceSet && !s.minDistanceSet then
        .error "georel /near/ without either minDistance nor maxDistance"
      else .ok s.georel

/-! ### The geometry -/

/-- `atoi`: the number of 64 bits nearest to the decimal one, cut to 32 bits. -/
def atoi (s : List Char) : Int :=
  let s := s.dropWhile isspace
  let negative := s.head? = some '-'
  let digits := ((if negative ∨ s.head? = some '+' then s.drop 1 else s).takeWhile Char.isDigit)
  let magnitude : Int := (digits.foldl (fun n c => 10 * n + (c.toNat - 48)) 0 : Nat)
  let long := if negative then max (-magnitude) (-2 ^ 63) else min magnitude (2 ^ 63 - 1)
  Int.bmod long (2 ^ 32)

theorem atoi_of_lt {digits : List Char} (h : OStream.Digits digits) (hlt : JsonText.natOf digits < 2 ^ 31) : atoi digits = JsonText.natOf digits := by
  have hspace : digits.dropWhile isspace = digits := by
    cases digits with
    | nil => rfl
    | cons c digits =>
      refine List.dropWhile_cons_of_neg fun hc => ?_
      have hdigit := h c List.mem_cons_self
      simp only [isspace, decide_eq_true_eq, List.mem_cons, List.not_mem_nil, or_false] at hc
      rcases hc with rfl | rfl | rfl | rfl | rfl | rfl <;> cases hdigit
  have hsign : ∀ c : Char, c.isDigit = false → digits.head? ≠ some c := by
    intro c hc hhead
    have hdigit := h c (List.mem_of_mem_head? hhead)
    rw [hc] at hdigit
    cases hdigit
  have htake : digits.takeWhile Char.isDigit = digits := List.takeWhile_eq_self_iff.2 h
  have hfold : digits.foldl (fun n c => 10 * n + (c.toNat - 48)) 0 = JsonText.natOf digits := by
    rw [JsonText.natOf]
    congr 1
    funext n c
    rw [Nat.mul_comm]
    rfl
  unfold atoi
  dsimp only
  have hminus := hsign '-' (by decide)
  have hplus := hsign '+' (by decide)
  rw [hspace, if_neg hminus, if_neg (not_or.2 ⟨hminus, hplus⟩), htake, hfold, min_eq_left (by omega)]
  exact Int.bmod_eq_of_le (by omega) (by omega)

theorem atoi_lt (s : List Char) : atoi s < 2 ^ 31 := by
  unfold atoi
  exact Int.bmod_lt (by decide)

theorem le_atoi (s : List Char) : -2 ^ 31 ≤ atoi s := by
  unfold atoi
  exact Int.le_bmod (by decide)

/-- The radius is held as a float, which is as good as the number for the tests of the parser. -/
structure Geometry where
  areaType : String := ""
  radius : Int := -1
  external : Bool := false
deriving DecidableEq

/-- The memory that the number of an item `radius...` is read from. -/
def radiusText (beyond : List Char) (item : String) : List Char :=
  if item = "radius" then beyond else item.toList.drop 7

def geometryItem (beyond : List Char) (apiVersion : ApiVersion) (g : Geometry) (item : String) :
    Except String Geometry :=
  if apiVersion = .v1 ∧ item ∈ ["polygon", "circle"] then
    if g.areaType ≠ "" then .error "polygon/circle present more than once"
    else .ok { g with areaType := item }
  else if apiVersion = .v2 ∧ item ∈ ["point", "line", "box", "polygon"] then
    if g.areaType ≠ "" then .error "geometry-type present more than once"
    else .ok { g with areaType := item }
  else if strncmp "radius" item 6 then
    if atoi (radiusText beyond item) = 0 then .error "Invalid value of /radius/"
    else .ok { g with radius := atoi (radiusText beyond item) }
  else if item = "external" then .ok { g with external := true }
  else .error "Invalid selector in geometry specification"

def geometryItems (beyond : List Char) (apiVersion : ApiVersion) (g : Geometry) :
    List String → Except String Geometry
  | [] => .ok g
  | item :: items =>
    match geometryItem beyond apiVersion g item with
    | .error e => .error e
    | .ok g' => geometryItems beyond apiVersion g' items

def Geometry.parse (beyond : List Char) (apiVersion : ApiVersion) (g : Geometry) (input : String) :
    Except String Geometry :=
  let items := stringSplit input ';'
  if items = [] then .error "empty geometry"
  else
    match geometryItems beyond apiVersion g items with
    | .error e => .error e
    | .ok g' =>
      if g'.areaType = "circle" ∧ g'.radius = -1 then .error "no radius for circle"
      else if g'.areaType = "polygon" ∧ g'.radius ≠ -1 then .error "radius set for polygon"
      else .ok g'

/-! ### The coordinates -/

def pointOfString (s : String) : Except String Point :=
  match stringSplit s ',' with
  | [latitude, longitude] =>
    match str2double strtod latitude.toList with
    | none => .error "invalid coordinates"
    | some lat =>
      match str2double strtod longitude.toList with
      | none => .error "invalid coordinates"
      | some lon => .ok ⟨lat, lon⟩
  | _ => .error "invalid point in URI param /coords/"

def pointsOfStrings : List String → Except String (List Point)
  | [] => .ok []
  | s :: rest =>
    match pointOfString strtod s with
    | .error e => .error e
    | .ok p =>
      match pointsOfStrings rest with
      | .error e => .error e
      | .ok pointV => .ok (p :: pointV)

/-! ### The scope -/

/-- A scope of a query; `value` is the text of a scope that is not an area. -/
structure Scope where
  type : String
  value : String := ""
  georel : Georel := {}
  area : Area := .noArea
deriving DecidableEq

/-- Is the first point the last one? -/
def closesRing (pointV : List Point) : Bool :=
  match pointV.head?, pointV.getLast? with
  | some first, some last => first.equals last
  | _, _ => false

/-- The area with the points. -/
def areaOfPoints (apiVersion : ApiVersion) (geometry : Geometry) (pointV : List Point) : Except String Area :=
  if geometry.areaType = "circle" then
    if apiVersion = .v2 then .error "circle geometry is not supported by Orion API v2"
    else
      match pointV with
      | [center] => .ok (.circle center geometry.radius geometry.external)
      | _ => .error "Too many coordinates for circle"
  else if geometry.areaType = "polygon" then
    if apiVersion = .v1 ∧ pointV.length < 3 then .error "Too few coordinates for polygon"
    else if apiVersion = .v2 ∧ pointV.length < 4 then .error "Too few coordinates for polygon"
    else if apiVersion = .v2 ∧ closesRing pointV = false then
      .error "First and last point in polygon not the same"
    else .ok (.polygon pointV geometry.external)
  else if geometry.areaType = "line" then
    if pointV.length < 2 then .error "invalid number of coordinates for /line/"
    else .ok (.line pointV)
  else if geometry.areaType = "box" then
    match pointV with
    | [p, q] =>
      match orderCoordsForBox p.lat q.lat p.lon q.lon with
      | none => .error "box coordinates are not defining an actual box"
      | some (minLat, maxLat, minLon, maxLon) => .ok (.box ⟨minLat, minLon⟩ ⟨maxLat, maxLon⟩)
    | _ => .error "invalid number of coordinates for /box/"
  else if geometry.areaType = "point" then
    match pointV with
    | [p] => .ok (.point p)
    | _ => .error "invalid number of coordinates for /point/"
  else .error "invalid area-type"

/-- The combinations of a geometry and a relation that the database does not support. -/
def checkCombination (geometry : Geometry) (georel : Georel) : Except String Unit :=
  if geometry.areaType = "line" ∧ georel.type = "coveredBy" then
    .error "line geometry cannot be used with coveredBy georel"
  else if geometry.areaType = "point" ∧ georel.type = "coveredBy" then
    .error "point geometry cannot be used with coveredBy georel"
  else if geometry.areaType ≠ "point" ∧ georel.type = "near" then
    .error "georel /near/ used with geometry different than point"
  else .ok ()

def Scope.fill (beyond : List Char) (scope : Scope) (apiVersion : ApiVersion)
    (geometryString coordsString georelString : String) : Except String Scope := do
  let geometry ← (Geometry.parse beyond apiVersion {} geometryString).mapError ("error parsing geometry: " ++ ·)
  let georel ← (if georelString ≠ "" then scope.georel.parse strtod georelString else .ok scope.georel :
    Except String Georel)
  checkCombination geometry georel
  if coordsString = "" then Except.error "no coordinates for geometry"
  else if stringSplit coordsString ';' = [] then Except.error "erroneous coordinates for geometry"
  else
    let pointV ← pointsOfStrings strtod (stringSplit coordsString ';')
    let area ← areaOfPoints apiVersion geometry pointV
    Except.ok
      { scope with
        type := if apiVersion = .v1 then FIWARE_LOCATION else FIWARE_LOCATION_V2
        georel := georel
        area := area }

/-! ### What an accepted relation gives -/

/-- The distances that the items give under a name. -/
def distances (name : String) (items : List String) : List Double :=
  items.filterMap fun item => if strncmp name item 12 then str2double strtod (item.toList.drop 12) else none

/-- The type that was found, if any. -/
def GeorelState.types (s : GeorelState) : List String := if s.georel.type ≠ "" then [s.georel.type] else []

def GeorelState.maxDistances (s : GeorelState) : List Double :=
  if s.maxDistanceSet then [s.georel.maxDistance] else []

def GeorelState.minDistances (s : GeorelState) : List Double :=
  if s.minDistanceSet then [s.georel.minDistance] else []

private theorem not_minDistance {item : String} (h : strncmp "maxDistance:" item 12 = true) :
    strncmp "minDistance:" item 12 = false := by
  by_contra hne
  have hmin : strncmp "minDistance:" item 12 = true := by simpa using hne
  unfold strncmp at h hmin
  rw [List.isPrefixOf_iff_prefix] at h hmin
  have := List.prefix_of_prefix_length_le h hmin (by decide)
  exact absurd this (by decide)

private theorem distances_type {name item : String} (hname : name ∈ ["maxDistance:", "minDistance:"])
    (hitem : item ∈ georelTypes) : distances strtod name [item] = [] := by
  have hbegins : ∀ n ∈ ["maxDistance:", "minDistance:"], ∀ i ∈ georelTypes, strncmp n i 12 = false := by decide
  simp [distances, hbegins name hname item hitem]

/-- What an accepted item does: it gives the type, or one of the distances. -/
private theorem georelItem_cases {s s' : GeorelState} {item : String} (h : georelItem strtod s item = .ok s') :
    (item ∈ georelTypes ∧ s.georel.type = "" ∧ s' = { s with georel := { s.georel with type := item } }) ∨
      (∃ d, item ∉ georelTypes ∧ strncmp "maxDistance:" item 12 = true ∧ s.maxDistanceSet = false ∧
        str2double strtod (item.toList.drop 12) = some d ∧
        s' = { s with georel := { s.georel with maxDistance := d }, maxDistanceSet := true }) ∨
      ∃ d, item ∉ georelTypes ∧ strncmp "maxDistance:" item 12 = false ∧ strncmp "minDistance:" item 12 = true ∧
        s.minDistanceSet = false ∧ str2double strtod (item.toList.drop 12) = some d ∧
        s' = { s with georel := { s.georel with minDistance := d }, minDistanceSet := true } := by
  unfold georelItem at h
  split at h
  · rename_i hitem
    split at h
    · cases h
    · rename_i htype
      cases h
      exact Or.inl ⟨hitem, not_not.1 htype, rfl⟩
  · rename_i hitem
    split at h
    · rename_i hmax
      split at h
      · cases h
      · rename_i hset
        split at h
        · cases h
        · rename_i d hd
          cases h
          exact Or.inr (Or.inl ⟨d, hitem, hmax, by simpa using hset, hd, rfl⟩)
    · rename_i hmax
      split at h
      · rename_i hmin
        split at h
        · cases h
        · rename_i hset
          split at h
          · cases h
          · rename_i d hd
            cases h
            exact Or.inr (Or.inr ⟨d, hitem, by simpa using hmax, hmin, by simpa using hset, hd, rfl⟩)
      · cases h

/-- What an accepted item adds to what was found. -/
private theorem georelItem_given {s s' : GeorelState} {item : String} (h : georelItem strtod s item = .ok s') :
    s'.types = s.types ++ [item].filter (· ∈ georelTypes) ∧
      s'.maxDistances = s.maxDistances ++ distances strtod "maxDistance:" [item] ∧
      s'.minDistances = s.minDistances ++ distances strtod "minDistance:" [item] := by
  rcases georelItem_cases strtod h with ⟨hitem, htype, rfl⟩ | ⟨d, hitem, hmax, hset, hd, rfl⟩ |
    ⟨d, hitem, hmax, hmin, hset, hd, rfl⟩
  · have hne : item ≠ "" := by
      rintro rfl
      exact absurd hitem (by decide)
    have hfilter : [item].filter (· ∈ georelTypes) = [item] := by simp [hitem]
    rw [distances_type strtod (by decide) hitem, distances_type strtod (by decide) hitem, hfilter]
    simp [GeorelState.types, GeorelState.maxDistances, GeorelState.minDistances, hne, htype]
  · have hmin := not_minDistance hmax
    simp [GeorelState.types, GeorelState.maxDistances, GeorelState.minDistances, distances, hitem, hmax, hmin, hset, hd]
  · simp [GeorelState.types, GeorelState.maxDistances, GeorelState.minDistances, distances, hitem, hmax, hmin, hset, hd]

/-- An accepted item gives something. -/
private theorem georelItem_gives {s s' : GeorelState} {item : String} (h : georelItem strtod s item = .ok s') :
    item ∈ georelTypes ∨ distances strtod "maxDistance:" [item] ≠ [] ∨ distances strtod "minDistance:" [item] ≠ [] := by
  rcases georelItem_cases strtod h with ⟨hitem, -⟩ | ⟨d, -, hmax, -, hd, -⟩ | ⟨d, -, -, hmin, -, hd, -⟩
  · exact Or.inl hitem
  · exact Or.inr (Or.inl (by simp [distances, hmax, hd]))
  · exact Or.inr (Or.inr (by simp [distances, hmin, hd]))

private theorem distances_cons (name item : String) (items : List String) :
    distances strtod name (item :: items) = distances strtod name [item] ++ distances strtod name items := by
  unfold distances
  rw [← List.filterMap_append, List.singleton_append]

/-- Nothing that was found is lost, and nothing is accepted twice. -/
private theorem georelItems_given {s s' : GeorelState} {items : List String}
    (h : georelItems strtod s items = .ok s') :
    s'.types = s.types ++ items.filter (· ∈ georelTypes) ∧
      s'.maxDistances = s.maxDistances ++ distances strtod "maxDistance:" items ∧
      s'.minDistances = s.minDistances ++ distances strtod "minDistance:" items := by
  induction items generalizing s with
  | nil =>
    cases h
    simp [distances]
  | cons item items ih =>
    unfold georelItems at h
    split at h
    · cases h
    · rename_i s₁ hitem
      obtain ⟨htypes, hmax, hmin⟩ := georelItem_given strtod hitem
      obtain ⟨htypes', hmax', hmin'⟩ := ih h
      refine ⟨?_, ?_, ?_⟩
      · rw [htypes', htypes, List.append_assoc, ← List.filter_append, List.singleton_append]
      · rw [hmax', hmax, distances_cons strtod _ item items, List.append_assoc]
      · rw [hmin', hmin, distances_cons strtod _ item items, List.append_assoc]

/-- Accepted items, if there are any, give something. -/
private theorem georelItems_gives {s s' : GeorelState} {items : List String}
    (h : georelItems strtod s items = .ok s') (hne : items ≠ []) :
    ¬ (items.filter (· ∈ georelTypes) = [] ∧ distances strtod "maxDistance:" items = [] ∧
      distances strtod "minDistance:" items = []) := by
  cases items with
  | nil => exact absurd rfl hne
  | cons item items =>
    rintro ⟨htypes, hmax, hmin⟩
    unfold georelItems at h
    split at h
    · cases h
    · rename_i s₁ hitem
      rw [distances_cons strtod _ item items, List.append_eq_nil_iff] at hmax hmin
      rcases georelItem_gives strtod hitem with htype | hdistance | hdistance
      · exact absurd htype (by simpa using List.filter_eq_nil_iff.1 htypes item List.mem_cons_self)
      · exact hdistance hmax.1
      · exact hdistance hmin.1

/-- The distances of a state that are not set are -1. -/
def GeorelState.Unset (s : GeorelState) : Prop :=
  (s.maxDistanceSet = true ∨ s.georel.maxDistance = .fin (-1)) ∧
    (s.minDistanceSet = true ∨ s.georel.minDistance = .fin (-1))

private theorem georelItems_unset {s s' : GeorelState} {items : List String}
    (h : georelItems strtod s items = .ok s') (hs : s.Unset) : s'.Unset := by
  induction items generalizing s with
  | nil =>
    cases h
    exact hs
  | cons item items ih =>
    unfold georelItems at h
    split at h
    · cases h
    · rename_i s₁ hitem
      refine ih h ?_
      rcases georelItem_cases strtod hitem with ⟨-, -, rfl⟩ | ⟨d, -, -, -, -, rfl⟩ | ⟨d, -, -, -, -, -, rfl⟩
      · exact hs
      · exact ⟨Or.inl rfl, hs.2⟩
      · exact ⟨hs.1, Or.inl rfl⟩

/-- A distance is the one that the items give under its name, and -1 without one. -/
def IsDistance (d : Double) (given : List Double) : Prop := given = [d] ∨ given = [] ∧ d = .fin (-1)

/-- The relation that is parsed from a text. -/
structure ParsedGeorel (input : String) (g : Georel) : Prop where
  type : g.type ∈ georelTypes
  max : IsDistance g.maxDistance (distances strtod "maxDistance:" (stringSplit input ';'))
  min : IsDistance g.minDistance (distances strtod "minDistance:" (stringSplit input ';'))
  near : g.type ≠ "near" → distances strtod "maxDistance:" (stringSplit input ';') = [] ∧
    distances strtod "minDistance:" (stringSplit input ';') = []

theorem parsedGeorel {input : String} {g : Georel} (h : ({} : Georel).parse strtod input = .ok g) :
    ParsedGeorel strtod input g := by
  unfold Georel.parse at h
  dsimp only at h
  split at h
  · cases h
  · rename_i hitems
    split at h
    · cases h
    · rename_i s hs
      obtain ⟨htypes, hmax, hmin⟩ := georelItems_given strtod hs
      obtain ⟨hmaxUnset, hminUnset⟩ := georelItems_unset strtod hs ⟨Or.inr rfl, Or.inr rfl⟩
      have hstart : ∀ d, GeorelState.types { georel := d } = (if d.type ≠ "" then [d.type] else []) := fun _ => rfl
      simp only [hstart, ne_eq, not_true_eq_false, if_false, List.nil_append] at htypes
      replace hmax : s.maxDistances = distances strtod "maxDistance:" (stringSplit input ';') := hmax
      replace hmin : s.minDistances = distances strtod "minDistance:" (stringSplit input ';') := hmin
      split at h
      · cases h
      · rename_i hmaxNear
        split at h
        · cases h
        · rename_i hminNear
          split at h
          · cases h
          · rename_i hnear
            cases h
            have hnone : s.georel.type ≠ "near" → s.maxDistanceSet = false ∧ s.minDistanceSet = false := by
              intro hne
              simp only [hne, ne_eq, not_false_eq_true, decide_true, Bool.and_true, Bool.not_eq_true]
                at hmaxNear hminNear
              exact ⟨hmaxNear, hminNear⟩
            refine ⟨?_, ?_, ?_, ?_⟩
            · by_contra hout
              have htype : s.georel.type = "" := by
                by_contra hne
                have hmem : s.georel.type ∈ s.types := by simp [GeorelState.types, hne]
                rw [htypes] at hmem
                exact hout (by simpa using (List.mem_filter.1 hmem).2)
              obtain ⟨hmaxSet, hminSet⟩ := hnone (by rw [htype]; decide)
              have hfound : s.types = [] ∧ s.maxDistances = [] ∧ s.minDistances = [] := by
                simp [GeorelState.types, GeorelState.maxDistances, GeorelState.minDistances, htype, hmaxSet, hminSet]
              rw [htypes, hmax, hmin] at hfound
              exact georelItems_gives strtod hs hitems hfound
            · rw [← hmax]
              unfold GeorelState.maxDistances
              split
              · exact Or.inl rfl
              · rename_i hset
                exact Or.inr ⟨rfl, hmaxUnset.resolve_left hset⟩
            · rw [← hmin]
              unfold GeorelState.minDistances
              split
              · exact Or.inl rfl
              · rename_i hset
                exact Or.inr ⟨rfl, hminUnset.resolve_left hset⟩
            · intro hne
              obtain ⟨hmaxSet, hminSet⟩ := hnone hne
              rw [← hmax, ← hmin]
              simp [GeorelState.maxDistances, GeorelState.minDistances, hmaxSet, hminSet]

/-! ### What an accepted area gives -/

/-- The points that a text of coordinates gives. -/
def givenPoints (coords : String) : List Point :=
  (stringSplit coords ';').filterMap fun s => (pointOfString strtod s).toOption

private theorem pointsOfStrings_eq {pointStringV : List String} {pointV : List Point}
    (h : pointsOfStrings strtod pointStringV = .ok pointV) :
    pointStringV.filterMap (fun s => (pointOfString strtod s).toOption) = pointV := by
  induction pointStringV generalizing pointV with
  | nil =>
    cases h
    rfl
  | cons s rest ih =>
    unfold pointsOfStrings at h
    split at h
    · cases h
    · rename_i p hp
      split at h
      · cases h
      · rename_i pointV' hrest
        cases h
        rw [List.filterMap_cons_some (by rw [hp]; rfl), ih hrest]

/-- The types of areas that a text names for the second version. -/
def givenTypes (items : List String) : List String := items.filter (· ∈ ["point", "line", "box", "polygon"])

/-- The type that was found, if any. -/
def Geometry.types (g : Geometry) : List String := if g.areaType ≠ "" then [g.areaType] else []

private theorem geometryItem_types {beyond : List Char} {g g' : Geometry} {item : String}
    (h : geometryItem beyond .v2 g item = .ok g') : g'.types = g.types ++ givenTypes [item] := by
  unfold geometryItem at h
  simp only [reduceCtorEq, false_and, if_false, true_and] at h
  split at h
  · rename_i hitem
    split at h
    · cases h
    · rename_i htype
      cases h
      have hne : item ≠ "" := by
        rintro rfl
        exact absurd hitem (by decide)
      have hgiven : givenTypes [item] = [item] := by
        unfold givenTypes
        refine List.filter_eq_self.2 fun i hi => ?_
        rw [List.mem_singleton.1 hi]
        exact decide_eq_true hitem
      rw [hgiven]
      unfold Geometry.types
      rw [if_pos hne, if_neg htype, List.nil_append]
  · rename_i hitem
    have hgiven : givenTypes [item] = [] := by
      unfold givenTypes
      refine List.filter_eq_nil_iff.2 fun i hi => ?_
      rw [List.mem_singleton.1 hi, decide_eq_true_eq]
      exact hitem
    rw [hgiven, List.append_nil]
    split at h
    · split at h
      · cases h
      · cases h
        rfl
    · split at h
      · cases h
        rfl
      · cases h

private theorem geometryItems_types {beyond : List Char} {g g' : Geometry} {items : List String}
    (h : geometryItems beyond .v2 g items = .ok g') : g'.types = g.types ++ givenTypes items := by
  induction items generalizing g with
  | nil =>
    cases h
    exact (List.append_nil _).symm
  | cons item items ih =>
    unfold geometryItems at h
    split at h
    · cases h
    · rename_i g₁ hitem
      rw [ih h, geometryItem_types hitem, List.append_assoc]
      unfold givenTypes
      rw [← List.filter_append, List.singleton_append]

/-- A parsed geometry has the only type that its items name. -/
theorem givenTypes_of_parse {beyond : List Char} {input : String} {g : Geometry}
    (h : ({} : Geometry).parse beyond .v2 input = .ok g) (hne : g.areaType ≠ "") :
    givenTypes (stringSplit input ';') = [g.areaType] := by
  unfold Geometry.parse at h
  dsimp only at h
  split at h
  · cases h
  · split at h
    · cases h
    · rename_i g' hitems
      split at h
      · cases h
      · split at h
        · cases h
        · cases h
          have htypes : g.types = [] ++ givenTypes (stringSplit input ';') := geometryItems_types hitems
          rw [List.nil_append] at htypes
          rw [← htypes]
          unfold Geometry.types
          rw [if_pos hne]

/-- The areas of the second version, with the points they are made of. -/
inductive AreaOf : String → List Point → Area → Prop where
  | polygon {pointV : List Point} (inverted : Bool) (size : 4 ≤ pointV.length)
      (closed : pointV.head? = pointV.getLast?) : AreaOf "polygon" pointV (.polygon pointV inverted)
  | line {pointV : List Point} (size : 2 ≤ pointV.length) : AreaOf "line" pointV (.line pointV)
  | box {p q : Point} {minLat maxLat minLon maxLon : Double}
      (corners : orderCoordsForBox p.lat q.lat p.lon q.lon = some (minLat, maxLat, minLon, maxLon)) :
      AreaOf "box" [p, q] (.box ⟨minLat, minLon⟩ ⟨maxLat, maxLon⟩)
  | point (p : Point) : AreaOf "point" [p] (.point p)

theorem AreaOf.type_ne {areaType : String} {pointV : List Point} {area : Area} (h : AreaOf areaType pointV area) :
    areaType ≠ "" := by
  cases h <;> decide

private theorem closed_of_closesRing {pointV : List Point} (h : closesRing pointV = true) :
    pointV.head? = pointV.getLast? := by
  unfold closesRing at h
  split at h
  · rename_i first last hfirst hlast
    unfold Point.equals at h
    rw [Bool.and_eq_true] at h
    have hlat := Double.eq_of_eq h.1
    have hlon := Double.eq_of_eq h.2
    rw [hfirst, hlast]
    cases first
    cases last
    cases hlat
    cases hlon
    rfl
  · cases h

theorem areaOf_of_ok {geometry : Geometry} {pointV : List Point} {area : Area}
    (h : areaOfPoints .v2 geometry pointV = .ok area) : AreaOf geometry.areaType pointV area := by
  unfold areaOfPoints at h
  split at h
  · cases h
  · split at h
    · rename_i htype
      simp only [reduceCtorEq, false_and, if_false, true_and] at h
      split at h
      · cases h
      · rename_i hsize
        split at h
        · cases h
        · rename_i hclosed
          cases h
          rw [htype]
          exact .polygon _ (not_lt.1 hsize) (closed_of_closesRing (by simpa using hclosed))
    · split at h
      · rename_i htype
        split at h
        · cases h
        · rename_i hsize
          cases h
          rw [htype]
          exact .line (not_lt.1 hsize)
      · split at h
        · rename_i htype
          split at h
          · split at h
            · cases h
            · rename_i hcorners
              cases h
              rw [htype]
              exact .box hcorners
          · cases h
        · split at h
          · rename_i htype
            split at h
            · cases h
              rw [htype]
              exact .point _
            · cases h
          · cases h

/-- The scope that `Scope::fill` makes of the three texts. -/
structure FilledScope (geometryString coordsString georelString : String) (s : Scope) : Prop where
  type : s.type = FIWARE_LOCATION_V2
  georel : if georelString = "" then s.georel = {} else ParsedGeorel strtod georelString s.georel
  area : ∃ areaType, givenTypes (stringSplit geometryString ';') = [areaType] ∧
    AreaOf areaType (givenPoints strtod coordsString) s.area

theorem filledScope {beyond : List Char} {scope s : Scope} {geometryString coordsString georelString : String}
    (hscope : scope.georel = {})
    (h : scope.fill strtod beyond .v2 geometryString coordsString georelString = .ok s) :
    FilledScope strtod geometryString coordsString georelString s := by
  unfold Scope.fill at h
  obtain ⟨geometry, hgeometry, h⟩ := Except.of_bind_ok h
  obtain ⟨georel, hgeorel, h⟩ := Except.of_bind_ok h
  obtain ⟨-, -, h⟩ := Except.of_bind_ok h
  split at h
  · cases h
  · split at h
    · cases h
    · obtain ⟨pointV, hpoints, h⟩ := Except.of_bind_ok h
      obtain ⟨area, harea, h⟩ := Except.of_bind_ok h
      cases h
      refine ⟨rfl, ?_, ?_⟩
      · split
        · rename_i hempty
          rw [if_neg (not_not.2 hempty), hscope] at hgeorel
          cases hgeorel
          rfl
        · rename_i hne
          rw [if_pos hne, hscope] at hgeorel
          exact parsedGeorel strtod hgeorel
      · have hparsed : ({} : Geometry).parse beyond .v2 geometryString = .ok geometry := by
          cases hg : ({} : Geometry).parse beyond .v2 geometryString with
          | error e =>
            rw [hg] at hgeometry
            cases hgeometry
          | ok g =>
            rw [hg] at hgeometry
            cases hgeometry
            rfl
        have hof := areaOf_of_ok harea
        refine ⟨geometry.areaType, givenTypes_of_parse hparsed ?_, ?_⟩
        · exact hof.type_ne
        · unfold givenPoints
          rw [pointsOfStrings_eq strtod hpoints]
          exact hof

end Parsers

end OrionBroker.Areas
