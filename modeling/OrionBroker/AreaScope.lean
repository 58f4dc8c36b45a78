import OrionBroker.ContextElement
import OrionBroker.ParseSubscription
import OrionBroker.Scope

/-!
# Geo filters of queries (`getEntities.cpp`, `entitiesQuery`)

A query of the second version gives its area by the parameters `geometry`, `coords` and `georel`.  `getEntities` makes
a scope of them and `entitiesQuery` a condition on the location, if `processAreaScopeV2` can make one.

`geo_filter_kept_iff` says for which accepted parameters the condition is there, with the points and the distances that
were given.
-/

namespace OrionBroker.Areas

open Bson

abbrev SCOPE_FILTER : String := "FIWARE::Filter"

/-- The parameters of a request that make its scopes. -/
structure UriParam where
  id : String := ""
  idPattern : String := ""
  q : String := ""
  geometry : String := ""
  coords : String := ""
  georel : String := ""

section Query

variable (strtod : String → Strtod) (beyond : List Char)

/-- The error that is answered with the status code 422. -/
def invalidModification (details : String) : OrionError := ⟨details, "Invalid Modification"⟩

/-- The scopes that `getEntities` makes of the parameters; `parseError` is the error text of the string filter. -/
def getEntitiesScopes (parseError : String → Option String) (apiVersion : ApiVersion) (uriParam : UriParam) :
    Except OrionError (List Scope) :=
  if uriParam.idPattern ≠ "" ∧ uriParam.id ≠ "" then .error (badRequest "Incompatible parameters: id, IdPattern")
  else if uriParam.coords ≠ "" ∧ uriParam.geometry = "" then
    .error (invalidModification "Query not supported: URI param /coords/ used without /geometry/")
  else if uriParam.geometry ≠ "" ∧ uriParam.coords = "" then
    .error (invalidModification "Query not supported: URI param /geometry/ used without /coords/")
  else if uriParam.georel ≠ "" ∧ uriParam.geometry = "" then
    .error (invalidModification "Query not supported: URI param /georel/ used without /geometry/")
  else do
    let location ← (if uriParam.geometry ≠ "" then
        match ({ type := FIWARE_LOCATION } : Scope).fill strtod beyond apiVersion uriParam.geometry uriParam.coords
          uriParam.georel with
        | .error e => .error (invalidModification ("Query not supported: " ++ e))
        | .ok scope => .ok [scope]
      else .ok [] : Except OrionError (List Scope))
    let filter ← (if uriParam.q ≠ "" then
        match parseError uriParam.q with
        | some e => .error (badRequest e)
        | none => .ok [{ type := SCOPE_TYPE_SIMPLE_QUERY, value := uriParam.q }]
      else .ok [] : Except OrionError (List Scope))
    .ok (location ++ filter)

/-- Longitude and latitude, as `BSON_ARRAY(p->longitude() << p->latitude())`. -/
def lonLat (p : Point) : BSONValue := bsonPoint p.lon p.lat

/-- The GeoJSON of an area. -/
def areaGeometry : Area → Option BSONObj
  | .point p => some (geometry "Point" [.double p.lon, .double p.lat])
  | .line pointList => some (geometry "LineString" (pointList.map lonLat))
  | .box ll ur =>
    some (geometry "Polygon" [.array [bsonPoint ll.lon ll.lat, bsonPoint ur.lon ll.lat, bsonPoint ur.lon ur.lat,
      bsonPoint ll.lon ur.lat, bsonPoint ll.lon ll.lat]])
  | .polygon vertexList _ => some (geometry "Polygon" [.array (vertexList.map lonLat)])
  | .circle .. => none
  | .noArea => none

/-- `d >= 0`. -/
def notNegative (d : Double) : Bool := Double.lt (.fin 0) d || Double.eq (.fin 0) d

def processAreaScopeV2 (mongoLocationCapable : Bool) (scoP : Scope) : Option BSONObj :=
  if mongoLocationCapable = false then none
  else
    match areaGeometry scoP.area with
    | none => none
    | some geometry =>
      if scoP.georel.type = "near" then
        some [("$near", .object (("$geometry", .object geometry) ::
          ((if notNegative scoP.georel.maxDistance then [("$maxDistance", .double scoP.georel.maxDistance)] else []) ++
            (if notNegative scoP.georel.minDistance then [("$minDistance", .double scoP.georel.minDistance)] else []))))]
      else if scoP.georel.type = "coveredBy" then
        some [("$geoWithin", .object [("$geometry", .object geometry)])]
      else if scoP.georel.type = "intersects" then
        some [("$geoIntersects", .object [("$geometry", .object geometry)])]
      else if scoP.georel.type = "disjoint" then
        some [("$exists", .bool true),
          ("$not", .object [("$geoIntersects", .object [("$geometry", .object geometry)])])]
      else if scoP.georel.type = "equals" then some geometry
      else none

/-- The conditions on the location that the scopes add to a query, after `geoScopes` areas.  The areas of the first
version are left to `processAreaScope`. -/
def locationQuery (mongoLocationCapable : Bool) (processAreaScope : Scope → Option BSONObj) (geoScopes : Nat) :
    List Scope → BSONObj
  | [] => []
  | scopeP :: scopeVector =>
    if Text.strncmp SCOPE_FILTER scopeP.type 14 then
      locationQuery mongoLocationCapable processAreaScope geoScopes scopeVector
    else if scopeP.type ∈ [FIWARE_LOCATION, FIWARE_LOCATION_DEPRECATED, FIWARE_LOCATION_V2] then
      if geoScopes + 1 > 1 then
        locationQuery mongoLocationCapable processAreaScope (geoScopes + 1) scopeVector
      else
        (match (if scopeP.type = FIWARE_LOCATION_V2 then processAreaScopeV2 mongoLocationCapable scopeP
            else processAreaScope scopeP) with
          | some areaQuery => [("location.coords", .object areaQuery)]
          | none => []) ++
          locationQuery mongoLocationCapable processAreaScope (geoScopes + 1) scopeVector
    else locationQuery mongoLocationCapable processAreaScope geoScopes scopeVector

/-! ### What is kept -/

/-- The GeoJSON that an area query is about. -/
def geometryOf (areaQuery : BSONObj) : Option BSONValue :=
  if (areaQuery.lookup "type").isSome then some (.object areaQuery)
  else
    let inner := (embeddedObject ((areaQuery.lookup "$not").getD .null)) ++ areaQuery
    (["$near", "$geoWithin", "$geoIntersects"].findSome? fun op => inner.lookup op).bind fun v =>
      (embeddedObject v).lookup "$geometry"

/-- A GeoJSON with the given points, each with its longitude first.  A polygon is closed; a box is a closed ring along
its sides through the four corners. -/
inductive HasPoints : String → List Point → BSONObj → Prop where
  | point (p : Point) : HasPoints "point" [p] (geometry "Point" [.double p.lon, .double p.lat])
  | line (pointV : List Point) : HasPoints "line" pointV (geometry "LineString" (pointV.map lonLat))
  | polygon (pointV : List Point) (closed : pointV.head? = pointV.getLast?) :
      HasPoints "polygon" pointV (geometry "Polygon" [.array (pointV.map lonLat)])
  | box (p q : Point) (ring : List Point) (closed : ring.head? = ring.getLast?)
      (sides : ring.IsChain fun r s => r.lat = s.lat ∨ r.lon = s.lon)
      (corners : ∀ r, r ∈ ring ↔ (r.lat = p.lat ∨ r.lat = q.lat) ∧ (r.lon = p.lon ∨ r.lon = q.lon)) :
      HasPoints "box" [p, q] (geometry "Polygon" [.array (ring.map lonLat)])

/-- The bound on the distance that an area query has under a name. -/
def nearField (areaQuery : BSONObj) (name : String) : Option BSONValue :=
  (embeddedObject ((areaQuery.lookup "$near").getD .null)).lookup name

/-- The area query has the given points and the given distances. -/
structure FilterKept (uriParam : UriParam) (areaQuery : BSONObj) : Prop where
  points : ∃ areaType ∈ givenTypes (stringSplit uriParam.geometry ';'), ∃ geo, geometryOf areaQuery = some (.object geo) ∧
    HasPoints areaType (givenPoints strtod uriParam.coords) geo
  maxDistance : ∀ d ∈ distances strtod "maxDistance:" (stringSplit uriParam.georel ';'),
    nearField areaQuery "$maxDistance" = some (.double d)
  minDistance : ∀ d ∈ distances strtod "minDistance:" (stringSplit uriParam.georel ';'),
    nearField areaQuery "$minDistance" = some (.double d)

/-- The condition on the parameters for the filter to be kept. -/
structure Keepable (uriParam : UriParam) : Prop where
  georel : uriParam.georel ≠ ""
  distances : ∀ name ∈ ["maxDistance:", "minDistance:"],
    ∀ d ∈ distances strtod name (stringSplit uriParam.georel ';'), notNegative d = true
  /-- A box has no latitude and no longitude of which only one is a number. -/
  box : "box" ∈ givenTypes (stringSplit uriParam.geometry ';') → ∀ p q, givenPoints strtod uriParam.coords = [p, q] →
    (p.lat = .nan ↔ q.lat = .nan) ∧ (p.lon = .nan ↔ q.lon = .nan)

/-! ### Boxes -/

/-- One of two different numbers is less than the other. -/
private theorem lt_eq_not_lt {a b : Double} (h : Double.eq a b = false) (ha : a ≠ .nan) (hb : b ≠ .nan) :
    Double.lt a b = !Double.lt b a := by
  cases a with
  | nan => exact absurd rfl ha
  | inf s =>
    cases b with
    | nan => exact absurd rfl hb
    | inf t => cases s <;> cases t <;> first | rfl | cases h
    | fin r => cases s <;> rfl
  | fin q =>
    cases b with
    | nan => exact absurd rfl hb
    | inf t => cases t <;> rfl
    | fin r =>
      have hne : q ≠ r := by
        rintro rfl
        simp [Double.eq] at h
      show decide (q < r) = !decide (r < q)
      rcases lt_or_gt_of_ne hne with hlt | hlt
      · simp [hlt, hlt.le]
      · simp [hlt, hlt.le]

/-- The minimum and the maximum of two different numbers are these numbers, unless only one is a number. -/
private theorem minMax_iff {a b : Double} (h : Double.eq a b = false) :
    (∀ x, (x = (if Double.lt a b then a else b) ∨ x = (if Double.lt b a then a else b)) ↔ (x = a ∨ x = b)) ↔
      (a = .nan ↔ b = .nan) := by
  have hnan : ∀ d, Double.lt .nan d = false ∧ Double.lt d .nan = false := by
    intro d
    cases d with
    | nan => exact ⟨rfl, rfl⟩
    | inf negative => cases negative <;> exact ⟨rfl, rfl⟩
    | fin q => exact ⟨rfl, rfl⟩
  by_cases ha : a = .nan
  · subst ha
    simp only [(hnan b).1, (hnan b).2, Bool.false_eq_true, if_false, or_self, true_iff]
    constructor
    · intro hall
      exact ((hall .nan).2 (Or.inl rfl)).symm
    · rintro rfl x
      exact (or_self _).symm.to_iff
  · by_cases hb : b = .nan
    · subst hb
      simp only [(hnan a).1, (hnan a).2, Bool.false_eq_true, if_false, or_self, iff_true, ha, iff_false]
      intro hall
      exact ha ((hall a).2 (Or.inl rfl))
    · have hlt := lt_eq_not_lt h ha hb
      simp only [ha, hb, iff_self, iff_true]
      intro x
      rw [hlt]
      cases Double.lt b a with
      | true => simp only [Bool.not_true, Bool.false_eq_true, if_false, if_true]; exact or_comm
      | false => simp only [Bool.not_false, if_true, Bool.false_eq_true, if_false]

/-- The ring around a box has the corners that the points give exactly if its sides do. -/
private theorem corners_iff {ll ur p q : Point} :
    (∀ r : Point, r ∈ [ll, ⟨ll.lat, ur.lon⟩, ur, ⟨ur.lat, ll.lon⟩, ll] ↔
        (r.lat = p.lat ∨ r.lat = q.lat) ∧ (r.lon = p.lon ∨ r.lon = q.lon)) ↔
      (∀ x, (x = ll.lat ∨ x = ur.lat) ↔ (x = p.lat ∨ x = q.lat)) ∧
        ∀ x, (x = ll.lon ∨ x = ur.lon) ↔ (x = p.lon ∨ x = q.lon) := by
  have hring : ∀ r : Point, r ∈ [ll, ⟨ll.lat, ur.lon⟩, ur, ⟨ur.lat, ll.lon⟩, ll] ↔
      (r.lat = ll.lat ∨ r.lat = ur.lat) ∧ (r.lon = ll.lon ∨ r.lon = ur.lon) := by
    rintro ⟨lat, lon⟩
    cases ll
    cases ur
    simp only [List.mem_cons, List.not_mem_nil, or_false, Point.mk.injEq]
    tauto
  simp only [hring]
  constructor
  · intro h
    constructor
    · intro x
      constructor
      · intro hx
        exact ((h ⟨x, ll.lon⟩).1 ⟨hx, Or.inl rfl⟩).1
      · intro hx
        exact ((h ⟨x, p.lon⟩).2 ⟨hx, Or.inl rfl⟩).1
    · intro y
      constructor
      · intro hy
        exact ((h ⟨ll.lat, y⟩).1 ⟨Or.inl rfl, hy⟩).2
      · intro hy
        exact ((h ⟨p.lat, y⟩).2 ⟨Or.inl rfl, hy⟩).2
  · rintro ⟨hlat, hlon⟩ r
    rw [hlat, hlon]

/-! ### Areas -/

private theorem lonLat_inj {p q : Point} (h : lonLat p = lonLat q) : p = q := by
  obtain ⟨lat, lon⟩ := p
  obtain ⟨lat', lon'⟩ := q
  simp only [lonLat, bsonPoint, BSONValue.array.injEq, List.cons.injEq, BSONValue.double.injEq, and_true] at h
  rw [h.1, h.2]

private theorem eq_ring_of_hasPoints {areaType : String} {pointV : List Point} {geo : BSONObj}
    (h : HasPoints areaType pointV geo) (hbox : areaType = "box") :
    ∃ p q, ∃ ring : List Point, pointV = [p, q] ∧ geo = geometry "Polygon" [.array (ring.map lonLat)] ∧
      ∀ r : Point, r ∈ ring ↔ (r.lat = p.lat ∨ r.lat = q.lat) ∧ (r.lon = p.lon ∨ r.lon = q.lon) := by
  cases h with
  | point p => exact absurd hbox (by decide)
  | line pointV => exact absurd hbox (by decide)
  | polygon pointV closed => exact absurd hbox (by decide)
  | box p q ring closed sides corners => exact ⟨p, q, ring, rfl, rfl, corners⟩

/-- The GeoJSON of an accepted area has the given points, unless it is a box with only one number for a side. -/
theorem hasPoints_iff {areaType : String} {pointV : List Point} {area : Area} (h : AreaOf areaType pointV area) :
    ∃ geo, areaGeometry area = some geo ∧ (geo.lookup "type").isSome = true ∧
      (HasPoints areaType pointV geo ↔ (areaType = "box" → ∀ p q, pointV = [p, q] →
        (p.lat = .nan ↔ q.lat = .nan) ∧ (p.lon = .nan ↔ q.lon = .nan))) := by
  cases h with
  | polygon inverted size closed =>
    exact ⟨_, rfl, rfl, iff_of_true (.polygon _ closed) fun hbox => absurd hbox (by decide)⟩
  | line size => exact ⟨_, rfl, rfl, iff_of_true (.line _) fun hbox => absurd hbox (by decide)⟩
  | point p => exact ⟨_, rfl, rfl, iff_of_true (.point _) fun hbox => absurd hbox (by decide)⟩
  | @box p q minLat maxLat minLon maxLon corners =>
    refine ⟨_, rfl, rfl, ?_⟩
    have hring : [bsonPoint minLon minLat, bsonPoint maxLon minLat, bsonPoint maxLon maxLat, bsonPoint minLon maxLat,
        bsonPoint minLon minLat] =
          [Point.mk minLat minLon, ⟨minLat, maxLon⟩, ⟨maxLat, maxLon⟩, ⟨maxLat, minLon⟩, ⟨minLat, minLon⟩].map lonLat :=
      rfl
    have hcorners : (∀ r : Point,
        r ∈ [⟨minLat, minLon⟩, ⟨minLat, maxLon⟩, ⟨maxLat, maxLon⟩, ⟨maxLat, minLon⟩, ⟨minLat, minLon⟩] ↔
          (r.lat = p.lat ∨ r.lat = q.lat) ∧ (r.lon = p.lon ∨ r.lon = q.lon)) ↔
        (p.lat = .nan ↔ q.lat = .nan) ∧ (p.lon = .nan ↔ q.lon = .nan) := by
      unfold orderCoordsForBox at corners
      split at corners
      · cases corners
      · rename_i hne
        simp only [Bool.or_eq_true, not_or, Bool.not_eq_true] at hne
        cases corners
        rw [← minMax_iff hne.1, ← minMax_iff hne.2]
        exact @corners_iff ⟨_, _⟩ ⟨_, _⟩ p q
    dsimp only
    rw [hring]
    constructor
    · intro hpoints _ p' q' hpq
      cases hpq
      obtain ⟨p', q', ring, hpq, hgeo, hall⟩ := eq_ring_of_hasPoints hpoints rfl
      cases hpq
      rw [← hcorners]
      simp only [geometry, List.cons.injEq, Prod.mk.injEq, BSONValue.array.injEq, and_true, true_and] at hgeo
      have hmap := (List.map_injective_iff.2 fun _ _ => lonLat_inj) hgeo
      rw [hmap]
      exact hall
    · intro hnan
      refine .box p q _ rfl ?_ (hcorners.2 (hnan rfl p q rfl))
      simp

/-! ### Queries -/

/-- With a relation that is known, there is an area query about the GeoJSON; with `near` it has the distances that are
not negative. -/
private theorem processAreaScopeV2_some {s : Scope} {geo : BSONObj} (hgeo : areaGeometry s.area = some geo)
    (htype : (geo.lookup "type").isSome = true) (hgeorel : s.georel.type ∈ georelTypes) :
    ∃ areaQuery, processAreaScopeV2 true s = some areaQuery ∧ geometryOf areaQuery = some (.object geo) ∧
      (s.georel.type = "near" →
        nearField areaQuery "$maxDistance" =
          (if notNegative s.georel.maxDistance then some (.double s.georel.maxDistance) else none) ∧
        nearField areaQuery "$minDistance" =
          if notNegative s.georel.minDistance then some (.double s.georel.minDistance) else none) := by
  unfold processAreaScopeV2
  simp only [Bool.true_eq_false, if_false, hgeo]
  simp only [georelTypes, List.mem_cons, List.not_mem_nil, or_false] at hgeorel
  by_cases hnear : s.georel.type = "near"
  · rw [if_pos hnear]
    refine ⟨_, rfl, rfl, fun _ => ?_⟩
    cases notNegative s.georel.maxDistance <;> cases notNegative s.georel.minDistance <;> exact ⟨rfl, rfl⟩
  · rw [if_neg hnear]
    rcases hgeorel with h | h | h | h | h
    · exact absurd h hnear
    · rw [h]
      exact ⟨_, rfl, rfl, fun hn => absurd hn (by decide)⟩
    · rw [h]
      exact ⟨_, rfl, rfl, fun hn => absurd hn (by decide)⟩
    · rw [h]
      refine ⟨_, rfl, ?_, fun hn => absurd hn (by decide)⟩
      unfold geometryOf
      rw [if_pos htype]
    · rw [h]
      exact ⟨_, rfl, rfl, fun hn => absurd hn (by decide)⟩

/-- Accepted parameters with a geometry make one location scope, and at most a filter after it. -/
private theorem location_of_getEntities {parseError : String → Option String} {uriParam : UriParam}
    {scopes : List Scope} (h : getEntitiesScopes strtod beyond parseError .v2 uriParam = .ok scopes)
    (hgeometry : uriParam.geometry ≠ "") :
    ∃ s, FilledScope strtod uriParam.geometry uriParam.coords uriParam.georel s ∧
      ∀ processAreaScope, locationQuery true processAreaScope 0 scopes =
        match processAreaScopeV2 true s with
        | some areaQuery => [("location.coords", .object areaQuery)]
        | none => [] := by
  unfold getEntitiesScopes at h
  split at h
  · cases h
  · split at h
    · cases h
    · split at h
      · cases h
      · split at h
        · cases h
        · obtain ⟨location, hlocation, h⟩ := Except.of_bind_ok h
          obtain ⟨filter, hfilter, h⟩ := Except.of_bind_ok h
          cases h
          split at hlocation
          · cases hlocation
          · rename_i s hs
            cases hlocation
            have hfilled := filledScope strtod rfl hs
            have hfilterQuery : ∀ processAreaScope, locationQuery true processAreaScope 1 filter = [] := by
              intro processAreaScope
              split at hfilter
              · split at hfilter
                · cases hfilter
                · cases hfilter
                  have hnoFilter : Text.strncmp SCOPE_FILTER SCOPE_TYPE_SIMPLE_QUERY 14 = false := by decide
                  have hnoLocation : SCOPE_TYPE_SIMPLE_QUERY ∉
                      [FIWARE_LOCATION, FIWARE_LOCATION_DEPRECATED, FIWARE_LOCATION_V2] := by decide
                  rw [locationQuery, hnoFilter, if_neg Bool.false_ne_true, if_neg hnoLocation, locationQuery]
              · cases hfilter
                rw [locationQuery]
            refine ⟨s, hfilled, fun processAreaScope => ?_⟩
            have hnoFilter : Text.strncmp SCOPE_FILTER s.type 14 = false := by
              rw [hfilled.type]
              decide
            have hlocationType : s.type ∈ [FIWARE_LOCATION, FIWARE_LOCATION_DEPRECATED, FIWARE_LOCATION_V2] := by
              rw [hfilled.type]
              decide
            rw [List.singleton_append, locationQuery, hnoFilter, if_neg Bool.false_ne_true, if_pos hlocationType,
              if_neg (by decide), if_pos hfilled.type, hfilterQuery, List.append_nil]

/-- The distances of a scope with `near` are those that were given, where they are not negative. -/
private theorem distance_iff {d : Double} {given : List Double} (h : IsDistance d given) :
    (∀ d' ∈ given, (if notNegative d then some (BSONValue.double d) else none) = some (.double d')) ↔
      ∀ d' ∈ given, notNegative d' = true := by
  rcases h with hgiven | ⟨hgiven, -⟩
  · rw [hgiven]
    simp only [List.mem_singleton, forall_eq]
    cases notNegative d <;> simp
  · rw [hgiven]
    exact iff_of_true (fun _ h => by cases h) fun _ h => by cases h

/-- The geo filter of an accepted query is kept exactly if there is a relation, no distance is negative and a box is
given by numbers. -/
theorem geo_filter_kept_iff {parseError : String → Option String} {processAreaScope : Scope → Option BSONObj}
    {uriParam : UriParam} {scopes : List Scope} (hgeometry : uriParam.geometry ≠ "")
    (h : getEntitiesScopes strtod beyond parseError .v2 uriParam = .ok scopes) :
    (∃ areaQuery, locationQuery true processAreaScope 0 scopes = [("location.coords", .object areaQuery)] ∧
      FilterKept strtod uriParam areaQuery) ↔ Keepable strtod uriParam := by
  obtain ⟨s, hfilled, hquery⟩ := location_of_getEntities strtod beyond h hgeometry
  rw [hquery]
  by_cases hgeorel : uriParam.georel = ""
  · have hnone : processAreaScopeV2 true s = none := by
      have hdefault := hfilled.georel
      rw [if_pos hgeorel] at hdefault
      unfold processAreaScopeV2
      rw [hdefault]
      cases areaGeometry s.area <;> rfl
    rw [hnone]
    refine iff_of_false ?_ fun hk => hk.georel hgeorel
    rintro ⟨areaQuery, he, -⟩
    cases he
  · have hparsed := hfilled.georel
    rw [if_neg hgeorel] at hparsed
    obtain ⟨areaType, htypes, hof⟩ := hfilled.area
    obtain ⟨geo, hgeo, hgeoType, hpoints⟩ := hasPoints_iff hof
    obtain ⟨areaQuery, hsome, hgeometryOf, hnear⟩ := processAreaScopeV2_some hgeo hgeoType hparsed.type
    rw [hsome]
    have hdistances : ((∀ d ∈ distances strtod "maxDistance:" (stringSplit uriParam.georel ';'),
          nearField areaQuery "$maxDistance" = some (.double d)) ∧
        ∀ d ∈ distances strtod "minDistance:" (stringSplit uriParam.georel ';'),
          nearField areaQuery "$minDistance" = some (.double d)) ↔
        ∀ name ∈ ["maxDistance:", "minDistance:"],
          ∀ d ∈ distances strtod name (stringSplit uriParam.georel ';'), notNegative d = true := by
      simp only [List.mem_cons, List.not_mem_nil, or_false, forall_eq_or_imp, forall_eq]
      by_cases htype : s.georel.type = "near"
      · rw [(hnear htype).1, (hnear htype).2]
        exact and_congr (distance_iff hparsed.max) (distance_iff hparsed.min)
      · rw [(hparsed.near htype).1, (hparsed.near htype).2]
        simp
    have hbox : (∃ t ∈ givenTypes (stringSplit uriParam.geometry ';'), ∃ g, geometryOf areaQuery = some (.object g) ∧
          HasPoints t (givenPoints strtod uriParam.coords) g) ↔
        ("box" ∈ givenTypes (stringSplit uriParam.geometry ';') → ∀ p q, givenPoints strtod uriParam.coords = [p, q] →
          (p.lat = .nan ↔ q.lat = .nan) ∧ (p.lon = .nan ↔ q.lon = .nan)) := by
      rw [htypes, hgeometryOf]
      simp only [List.mem_singleton, exists_eq_left, Option.some.injEq, BSONValue.object.injEq, exists_eq_left']
      rw [hpoints, eq_comm]
    constructor
    · rintro ⟨areaQuery', he, hkept⟩
      cases he
      exact ⟨hgeorel, hdistances.1 ⟨hkept.maxDistance, hkept.minDistance⟩, hbox.1 hkept.points⟩
    · intro hk
      obtain ⟨hmax, hmin⟩ := hdistances.2 hk.distances
      exact ⟨areaQuery, rfl, hbox.2 hk.box, hmax, hmin⟩

end Query

/-- A query around a point. -/
def aroundPoint (georel : String) : UriParam := { geometry := "point", coords := "40,3", georel := georel }

def pointScope (georel : Georel) : Scope :=
  { type := FIWARE_LOCATION_V2, georel := georel, area := .point ⟨.fin 40, .fin 3⟩ }

/-- A query for the entities near a point keeps its filter. -/
theorem geo_filter_near : ∃ areaQuery,
    locationQuery true (fun _ => none) 0 [pointScope ⟨"near", .fin 1000, .fin (-1)⟩] =
        [("location.coords", .object areaQuery)] ∧
      FilterKept strtodDigits (aroundPoint "near;maxDistance:1000") areaQuery := by
  refine (@geo_filter_kept_iff strtodDigits [] (fun _ => none) (fun _ => none) (aroundPoint "near;maxDistance:1000") _
    (by decide) ?_).2 ⟨by decide, by decide, fun h => absurd h (by decide)⟩
  decide +kernel

/-- Without a relation the filter is accepted and dropped. -/
theorem geo_filter_dropped :
    getEntitiesScopes strtodDigits [] (fun _ => none) .v2 (aroundPoint "") = .ok [pointScope {}] ∧
      locationQuery true (fun _ => none) 0 [pointScope {}] = [] := by
  refine ⟨by decide +kernel, by decide +kernel⟩

end OrionBroker.Areas
