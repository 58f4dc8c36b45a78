import OrionBroker.ContextAttribute

/-!
# The location of an entity (`location.cpp`)

At most one attribute of an entity holds its position.  The document keeps the name of that attribute and the GeoJSON
computed from its value, for the geographical index of the database.  The name is decided attribute by attribute
while a request is processed, by a different cascade of cases at creation, at update and at append; each of the three
functions returns the new name and the fields it adds to the GeoJSON builder, or the text of an error.

The conversion of strings to numbers is the one of the C library; it is a parameter of everything that follows.  For
a given string it returns the number, the rest of the string and whether the number is out of range.
-/

namespace OrionBroker

open Bson

/-- The result of `strtod`: the number, the part of the string it did not use, and `errno == ERANGE`. -/
structure Strtod where
  value : Double
  rest : String
  erange : Bool

def isspace (c : Char) : Bool := c ∈ [' ', '\t', '\n', '\x0b', '\x0c', '\r']

/-- The white space that `wsStrip` removes from both ends. -/
def isStripped (c : Char) : Bool := c ∈ [' ', '\t', '\n']

def wsStrip (s : List Char) : List Char := ((s.dropWhile isStripped).reverse.dropWhile isStripped).reverse

section Coordinates

variable (strtod : String → Strtod)

def str2double (s : List Char) : Option Double :=
  let d := strtod (String.ofList s)
  if d.erange then none
  else if (d.rest.toList.dropWhile isspace).isEmpty then some d.value
  else none

/-- The latitude and the longitude in a string. -/
def string2coords (s : String) : Option (Double × Double) :=
  let cP := wsStrip s.toList
  if ',' ∉ cP then none
  else
    let number1 := wsStrip (cP.takeWhile (· ≠ ','))
    let number2 := wsStrip ((cP.dropWhile (· ≠ ',')).drop 1)
    match str2double strtod number1 with
    | none => none
    | some latitude =>
      if Double.lt (.fin 90) latitude || Double.lt latitude (.fin (-90)) then none
      else
        match str2double strtod number2 with
        | none => none
        | some longitude =>
          if Double.lt (.fin 180) longitude || Double.lt longitude (.fin (-180)) then none
          else some (latitude, longitude)

/-- The coordinates of the items of a vector. -/
def childCoords : List CompoundValueNode → Except String (List (Double × Double))
  | [] => .ok []
  | .string _ s :: items =>
    match string2coords strtod s with
    | none => .error ("geo coordinates format error [see Orion user manual]: " ++ s)
    | some c => (childCoords items).map (c :: ·)
  | _ :: _ => .error "geo:line, geo:box and geo:polygon needs array of strings but some element is not a string"

def stringArray2coords (caP : ContextAttribute) : Except String (List (Double × Double)) :=
  match caP.compoundValueP with
  | some (.vector _ childV) => childCoords strtod childV
  | _ => .error "geo:line, geo:box and geo:polygon needs array of strings as value"

/-- The corners of a box: minimum and maximum latitude, minimum and maximum longitude. -/
def orderCoordsForBox (lat1 lat2 lon1 lon2 : Double) : Option (Double × Double × Double × Double) :=
  if Double.eq lat1 lat2 || Double.eq lon1 lon2 then none
  else
    some (if Double.lt lat1 lat2 then lat1 else lat2, if Double.lt lat2 lat1 then lat1 else lat2,
      if Double.lt lon1 lon2 then lon1 else lon2, if Double.lt lon2 lon1 then lon1 else lon2)

/-- `BSON_ARRAY(x << y)`. -/
def bsonPoint (x y : Double) : BSONValue := .array [.double x, .double y]

/-- A GeoJSON object. -/
def geometry (type : String) (coordinates : List BSONValue) : BSONObj :=
  [("type", .string type), ("coordinates", .array coordinates)]

/-- The GeoJSON of an attribute. -/
def getGeoJson (caP : ContextAttribute) (apiVersion : ApiVersion) : Except String BSONObj :=
  if apiVersion = .v1 ∨ caP.type = GEO_POINT then
    match string2coords strtod caP.stringValue with
    | none => .error ("geo coordinates format error [see Orion user manual]: " ++ caP.stringValue)
    | some (aLat, aLong) => .ok (geometry "Point" [.double aLong, .double aLat])
  else if caP.type = GEO_JSON then
    match caP.compoundValueP with
    | some (.object _ _ childV) => .ok (compoundValueBson childV)
    | _ => .error "geo:json needs an object as value"
  else
    match stringArray2coords strtod caP with
    | .error e => .error e
    | .ok coords =>
      let ba := coords.map fun c => bsonPoint c.2 c.1
      if caP.type = GEO_BOX then
        match coords with
        | [(lat1, lon1), (lat2, lon2)] =>
          match orderCoordsForBox lat1 lat2 lon1 lon2 with
          | none => .error "geo:box coordinates are not defining an actual box"
          | some (minLat, maxLat, minLon, maxLon) =>
            .ok (geometry "Polygon" [.array [bsonPoint minLon minLat, bsonPoint minLon maxLat, bsonPoint maxLon maxLat,
              bsonPoint maxLon minLat, bsonPoint minLon minLat]])
        | _ => .error "geo:box uses exactly 2 coordinates"
      else if caP.type = GEO_LINE then
        if coords.length < 2 then .error "geo:line uses at least 2 coordinates"
        else .ok (geometry "LineString" ba)
      else if caP.type = GEO_POLYGON then
        if coords.length < 4 then .error "geo:polygon uses at least 4 coordinates"
        else
          match coords.head?, coords.getLast? with
          | some (lat0, lon0), some (latN, lonN) =>
            if Double.eq lat0 latN && Double.eq lon0 lonN then .ok (geometry "Polygon" [.array ba])
            else .error "geo:polygon first and last coordinates must match"
          | _, _ => .error "geo:polygon first and last coordinates must match"
      else .error "error processing geo location attribute, see log traces"

end Coordinates

/-! ### The location attribute -/

/-- The name of the location attribute after an attribute was processed, and the fields added to the GeoJSON. -/
structure LocationStep where
  currentLocAttrName : String
  geoJson : BSONObj
deriving DecidableEq

/-- A coordinate system that is not supported. -/
def badLocation (locationString : String) : Bool :=
  locationString ≠ "" && locationString ≠ LOCATION_WGS84 && locationString ≠ LOCATION_WGS84_LEGACY

def moreThanOneLocation (name currentLocAttrName : String) : String :=
  "attempt to define a geo location attribute [" ++ name ++ "]" ++ " when another one has been previously defined [" ++
    currentLocAttrName ++ "]"

section Process

variable (strtod : String → Strtod)

/-- The loop of `processLocationAtEntityCreation`. -/
def locationAtCreation (apiVersion : ApiVersion) (locAttr : String) (geoJson : BSONObj) :
    List ContextAttribute → Except String LocationStep
  | [] => .ok ⟨locAttr, geoJson⟩
  | caP :: caV =>
    let location := caP.getLocation apiVersion
    if location = "" then locationAtCreation apiVersion locAttr geoJson caV
    else if locAttr ≠ "" then
      .error "You cannot use more than one geo location attribute when creating an entity [see Orion user manual]"
    else if badLocation location then .error ("only WGS84 are supported, found: " ++ location)
    else
      match getGeoJson strtod caP apiVersion with
      | .error e => .error e
      | .ok g => locationAtCreation apiVersion caP.name (geoJson ++ g) caV

def processLocationAtEntityCreation (caV : List ContextAttribute) (apiVersion : ApiVersion) :
    Except String LocationStep :=
  locationAtCreation strtod apiVersion "" [] caV

/-- The GeoJSON of the attribute that holds the location under the name `locAttr`. -/
def parseLocation (locAttr : String) (targetAttr : ContextAttribute) (message : String) (apiVersion : ApiVersion) :
    Except String LocationStep :=
  match getGeoJson strtod targetAttr apiVersion with
  | .error subErr => .error (message ++ subErr)
  | .ok g => .ok ⟨locAttr, g⟩

def processLocationAtUpdateAttribute (currentLocAttrName : String) (targetAttr : ContextAttribute)
    (apiVersion : ApiVersion) : Except String LocationStep :=
  let locationString := targetAttr.getLocation apiVersion
  if badLocation locationString then
    .error ("only WGS84 is supported for location, found: [" ++ targetAttr.getLocation .v1 ++ "]")
  else if locationString ≠ "" then
    if currentLocAttrName = "" then
      parseLocation strtod targetAttr.name targetAttr "error parsing location attribute: " apiVersion
    else if currentLocAttrName ≠ targetAttr.name then
      .error (moreThanOneLocation targetAttr.name currentLocAttrName)
    else
      parseLocation strtod currentLocAttrName targetAttr "error parsing location attribute: " apiVersion
  else if currentLocAttrName = targetAttr.name then
    match apiVersion with
    | .v1 => parseLocation strtod currentLocAttrName targetAttr "error parsing location attribute: " apiVersion
    | .v2 => .ok ⟨"", []⟩
  else .ok ⟨currentLocAttrName, []⟩

/-- When an existing attribute is appended as the location, the test for another location attribute comes before the
test for none, so a tagged attribute is only accepted when it is the location attribute already. -/
def processLocationAtAppendAttribute (currentLocAttrName : String) (targetAttr : ContextAttribute)
    (actualAppend : Bool) (apiVersion : ApiVersion) : Except String LocationStep :=
  let locationString := targetAttr.getLocation apiVersion
  if badLocation locationString then
    .error ("only WGS84 is supported for location, found: [" ++ targetAttr.getLocation .v1 ++ "]")
  else if actualAppend ∧ locationString ≠ "" then
    if currentLocAttrName ≠ "" then .error (moreThanOneLocation targetAttr.name currentLocAttrName)
    else
      parseLocation strtod targetAttr.name targetAttr "error parsing location attribute for new attribute: " apiVersion
  else if actualAppend = false ∧ locationString ≠ "" then
    if currentLocAttrName ≠ targetAttr.name then .error (moreThanOneLocation targetAttr.name currentLocAttrName)
    else if currentLocAttrName = "" then
      parseLocation strtod targetAttr.name targetAttr "error parsing location attribute for existing attribute: "
        apiVersion
    else .ok ⟨currentLocAttrName, []⟩
  else if actualAppend = false ∧ locationString = "" ∧ currentLocAttrName = targetAttr.name then .ok ⟨"", []⟩
  else .ok ⟨currentLocAttrName, []⟩

end Process

end OrionBroker
