import OrionBroker.MergeAttr
import OrionBroker.MongoQuery
import OrionBroker.ProcessContextElement

/-!
# The registrations of a query (`registrationsQuery`, `MongoGlobal.cpp`)

The registrations that can answer a query are looked up twice: a filter of the database selects documents, and
`processContextRegistrationElement` then keeps the elements whose entities and attributes match.  The two read a missing
type differently: in memory it is a wildcard on either side, the filter compares it with the type that is asked for.

`registrations_query_iff` says when the filter misses nothing.  What is searched for is not computed by the broker
alone, so a pattern has two meanings here: `regexec`, of the C library, and `pcre`, of the database.
-/

namespace OrionBroker

open Bson

/-! ### The documents -/

/-- An entity of a registration.  No type is stored when it is empty, and the database has been seen to store the two
fields in either order. -/
structure RegisteredEntity where
  id : String
  type : Option String
  typeFirst : Bool := false

structure ContextRegistrationAttribute where
  name : String
  type : String
  isDomain : String
deriving DecidableEq

/-- An element of the field `contextRegistration`; in the style "E-<null>" it has no attributes. -/
structure RegisteredElement where
  entities : List RegisteredEntity
  attrs : Option (List ContextRegistrationAttribute)
  providingApplication : String

structure Registration where
  expiration : Int
  servicePath : Option String
  contextRegistration : List RegisteredElement

def RegisteredEntity.fields (e : RegisteredEntity) : List (String × String) :=
  match e.type with
  | none => [("id", e.id)]
  | some type => if e.typeFirst then [("type", type), ("id", e.id)] else [("id", e.id), ("type", type)]

def RegisteredEntity.toBson (e : RegisteredEntity) : BSONObj := stringFields e.fields

def ContextRegistrationAttribute.toBson (a : ContextRegistrationAttribute) : BSONObj :=
  stringFields [("name", a.name), ("type", a.type), ("isDomain", a.isDomain)]

def RegisteredElement.toBson (cr : RegisteredElement) : BSONObj :=
  [("entities", .array (cr.entities.map fun e => .object e.toBson))] ++
    (match cr.attrs with
      | none => []
      | some attrs => [("attrs", .array (attrs.map fun a => .object a.toBson))]) ++
    [("providingApplication", .string cr.providingApplication)]

def Registration.toBson (r : Registration) : BSONObj :=
  [("expiration", .int r.expiration)] ++
    (match r.servicePath with
      | none => []
      | some path => [("servicePath", .string path)]) ++
    [("contextRegistration", .array (r.contextRegistration.map fun cr => .object cr.toBson))]

/-! ### The match in memory -/

/-- What is kept of one element. -/
structure ContextRegistrationResponse where
  entityIdVector : List EntityId
  contextRegistrationAttributeVector : List ContextRegistrationAttribute
  providingApplication : String
deriving DecidableEq

section Process

-- `regcomp` and `regexec`, without flags; `false` for a pattern that does not compile
variable (regexec : String → String → Bool)

/-- `en1` is matched in `en2`, which may be a pattern. -/
def matchEntity (en1 en2 : EntityId) : Bool :=
  (if isTrue en2.isPattern then regexec en2.id en1.id else en2.id = en1.id) &&
    (en1.type = "" || en2.type = "" || en2.type = en1.type)

def includedEntity (en : EntityId) (entityIdV : List EntityId) : Bool := entityIdV.any (matchEntity regexec en)

def includedAttribute (attr : ContextRegistrationAttribute) (attrsV : List String) : Bool :=
  attrsV.length = 0 || attrsV.any fun name => name = attr.name

def processEntity (enV : List EntityId) (entity : BSONObj) : Option EntityId :=
  let en : EntityId :=
    { id := getStringFieldF entity "id"
      type := if hasField entity "type" then getStringFieldF entity "type" else ""
      isPattern := "false" }
  if includedEntity regexec en enV then some en else none

def processAttribute (attrL : List String) (o : BSONObj) : Option ContextRegistrationAttribute :=
  let attr : ContextRegistrationAttribute :=
    { name := getStringFieldF o "name"
      type := getStringFieldF o "type"
      isDomain := getStringFieldF o "isDomain" }
  if includedAttribute attr attrL then some attr else none

def processContextRegistrationElement (enV : List EntityId) (attrL : List String) (cr : BSONObj) :
    Option ContextRegistrationResponse :=
  let entityIdVector := (arrayItems cr "entities").filterMap fun e => processEntity regexec enV (embeddedObject e)
  -- attributes are only included when an entity has been found, and when there are any
  let attributes :=
    if entityIdVector.length > 0 then
      if hasField cr "attrs" then
        (arrayItems cr "attrs").filterMap fun a => processAttribute attrL (embeddedObject a)
      else []
    else []
  if entityIdVector.length = 0 then none
  else if attributes.length > 0 || (attributes.length = 0 && attrL.length = 0) then
    some
      { entityIdVector := entityIdVector
        contextRegistrationAttributeVector := attributes
        providingApplication := getStringFieldF cr "providingApplication" }
  else none

end Process

/-! ### The filter of the database -/

/-- `slashEscape`, into a buffer of the given length. -/
def slashEscape (source : String) (toLen : Nat) : String :=
  if source.utf8ByteSize + source.toList.count '/' + 1 > toLen then "ERROR"
  else String.ofList (source.toList.flatMap fun c => if c = '/' then ['\\', '/'] else [c])

/-- `SERVICE_PATH_MAX_TOTAL`. -/
def servicePathMaxTotal : Nat := (((50 + 1) * 10) + 2) * 10

/-- The items for one service path.  A path that ends in `#` stands for itself and for what is below it. -/
def servicePathPatterns (servicePath : String) : List InItem :=
  let path := slashEscape servicePath (servicePathMaxTotal * 2)
  if path.toList.getLast? = some '#' then
    let parent := String.ofList (path.toList.take (path.length - 3))
    [.regex ("^" ++ parent ++ "$"), .regex ("^" ++ parent ++ "\\/.*")]
  else [.regex ("^" ++ path ++ "$")]

/-- The loop of `fillQueryServicePath`: null is added once, for the root. -/
def servicePathItems : Bool → List String → List InItem
  | _, [] => []
  | nullAdded, path :: servicePath =>
    let addNull := !nullAdded && (path = "/" || path = "/#")
    (if addNull then [.value .null] else []) ++ servicePathPatterns path ++
      servicePathItems (nullAdded || addNull) servicePath

/-- The items of `$in` for the field `servicePath`, with the text that stands between the slashes of a regular expression.
The vector of the service paths has a first element, which is "" when none was given. -/
def fillQueryServicePath (first : String) (servicePath : List String) : List InItem :=
  if first = "" then [.regex "^\\/.*", .value .null] else servicePathItems false (first :: servicePath)

def contextRegistrationEntities : String := "contextRegistration.entities"
def contextRegistrationEntitiesId : String := "contextRegistration.entities.id"
def contextRegistrationEntitiesType : String := "contextRegistration.entities.type"
def contextRegistrationAttrsNames : String := "contextRegistration.attrs.name"

/-- The clause of an entity with a pattern. -/
def patternClause (en : EntityId) : Filter :=
  .all ([.field contextRegistrationEntitiesId (.regex en.id)] ++
    if en.type ≠ "" then [.field contextRegistrationEntitiesType (.compare .eq (.string en.type))] else [])

/-- The two orders in which the database stores an entity. -/
def typedItems (en : EntityId) : List InItem :=
  [.value (.object (stringFields [("id", en.id), ("type", en.type)])),
    .value (.object (stringFields [("type", en.type), ("id", en.id)]))]

def entityOr (enV : List EntityId) : List Filter :=
  let entitiesWithType := (enV.filter fun en => !isTrue en.isPattern && en.type ≠ "").flatMap typedItems
  let entitiesWithoutType := (enV.filter fun en => !isTrue en.isPattern && en.type = "").map fun en =>
    InItem.value (.string en.id)
  (enV.filter fun en => isTrue en.isPattern).map patternClause ++
    [.field contextRegistrationEntities (.isIn entitiesWithType),
      .field contextRegistrationEntitiesId (.isIn entitiesWithoutType)]

def registrationsFilter (now : Int) (enV : List EntityId) (attrL : List String) (first : String)
    (servicePath : List String) : Filter :=
  .all ([.any (entityOr enV), .field "expiration" (.compare .gt (.int now))] ++
    (if attrL.length > 0 then
      [.field contextRegistrationAttrsNames (.isIn (attrL.map fun name => .value (.string name)))] else []) ++
    [.field "servicePath" (.isIn (fillQueryServicePath first servicePath))])

/-- `registrationsQuery` on the documents of the collection, sorted by their `_id`.  A limit of 0 asks for all that the
filter selects; `none` when the database refuses the filter. -/
def registrationsQuery (regexec : String → String → Bool) (pcre : String → Option (String → Bool)) (now : Int)
    (enV : List EntityId) (attrL : List String) (first : String) (servicePath : List String) (offset limit : Nat)
    (docs : List BSONObj) : Option (List ContextRegistrationResponse) :=
  (find pcre (registrationsFilter now enV attrL first servicePath) docs).map fun found =>
    let page := if limit = 0 then found.drop offset else (found.drop offset).take limit
    page.flatMap fun r =>
      (arrayItems r "contextRegistration").filterMap fun cr =>
        processContextRegistrationElement regexec enV attrL (embeddedObject cr)

/-! ### What is kept of an element -/

def RegisteredEntity.entityId (e : RegisteredEntity) : EntityId :=
  { id := e.id, type := e.type.getD "", isPattern := "false" }

/-- An element is kept for one of its entities and, when attributes are asked for, one of its attributes. -/
def RegisteredElement.Kept (regexec : String → String → Bool) (enV : List EntityId) (attrL : List String)
    (cr : RegisteredElement) : Prop :=
  (∃ e ∈ cr.entities, includedEntity regexec e.entityId enV = true) ∧
    (attrL = [] ∨ ∃ a ∈ cr.attrs.getD [], a.name ∈ attrL)

section Kept

variable {regexec : String → String → Bool} {enV : List EntityId} {attrL : List String}

theorem processEntity_toBson (e : RegisteredEntity) :
    processEntity regexec enV e.toBson =
      if includedEntity regexec e.entityId enV then some e.entityId else none := by
  obtain ⟨id, type, typeFirst⟩ := e
  cases type with
  | none => rfl
  | some type =>
    cases typeFirst with
    | false => rfl
    | true => rfl

theorem processAttribute_toBson (a : ContextRegistrationAttribute) :
    processAttribute attrL a.toBson = if includedAttribute a attrL then some a else none := rfl

private theorem arrayItems_entities (cr : RegisteredElement) :
    arrayItems cr.toBson "entities" = cr.entities.map fun e => .object e.toBson := by
  simp [arrayItems, RegisteredElement.toBson]

private theorem lookup_attrs (cr : RegisteredElement) :
    cr.toBson.lookup "attrs" = cr.attrs.map fun attrs => .array (attrs.map fun a => .object a.toBson) := by
  cases h : cr.attrs with
  | none => simp [RegisteredElement.toBson, h, lookup_cons_eq]
  | some attrs => simp [RegisteredElement.toBson, h, lookup_cons_eq]

/-- A loop over the objects of an array that keeps some of them. -/
private theorem filterMap_objects {α β : Type} {toBson : α → BSONObj} {f : BSONObj → Option β} {g : α → β}
    {p : β → Bool} (h : ∀ a, f (toBson a) = if p (g a) then some (g a) else none) (l : List α) :
    (l.map fun a => BSONValue.object (toBson a)).filterMap (fun v => f (embeddedObject v)) = (l.map g).filter p := by
  induction l with
  | nil => rfl
  | cons a l ih =>
    rw [List.map_cons, List.filterMap_cons, List.map_cons, List.filter_cons, ih]
    have ha : f (embeddedObject (.object (toBson a))) = if p (g a) then some (g a) else none := h a
    rw [ha]
    by_cases hp : p (g a)
    · simp [hp]
    · simp [hp]

theorem entities_of_element (cr : RegisteredElement) :
    ((arrayItems cr.toBson "entities").filterMap fun e => processEntity regexec enV (embeddedObject e)) =
      (cr.entities.map RegisteredEntity.entityId).filter fun en => includedEntity regexec en enV := by
  rw [arrayItems_entities]
  exact filterMap_objects processEntity_toBson cr.entities

theorem attributes_of_element (cr : RegisteredElement) :
    (if hasField cr.toBson "attrs" then
        (arrayItems cr.toBson "attrs").filterMap fun a => processAttribute attrL (embeddedObject a)
      else []) = (cr.attrs.getD []).filter fun a => includedAttribute a attrL := by
  rw [hasField, arrayItems, lookup_attrs]
  cases cr.attrs with
  | none => rfl
  | some attrs =>
    have h := @filterMap_objects _ _ ContextRegistrationAttribute.toBson (processAttribute attrL) id
      (fun a => includedAttribute a attrL) processAttribute_toBson attrs
    rw [List.map_id] at h
    exact h

theorem includedAttribute_iff {a : ContextRegistrationAttribute} :
    includedAttribute a attrL = true ↔ attrL = [] ∨ a.name ∈ attrL := by
  simp [includedAttribute, List.length_eq_zero_iff]

/-- `processContextRegistrationElement` keeps exactly the elements that are `Kept`. -/
theorem kept_iff (cr : RegisteredElement) :
    (processContextRegistrationElement regexec enV attrL cr.toBson).isSome = true ↔ cr.Kept regexec enV attrL := by
  have hentities : ((cr.entities.map RegisteredEntity.entityId).filter fun en => includedEntity regexec en enV) = [] ↔
      ¬ ∃ e ∈ cr.entities, includedEntity regexec e.entityId enV = true := by
    simp [List.filter_eq_nil_iff]
  have hattrs : ((cr.attrs.getD []).filter fun a => includedAttribute a attrL) = [] ↔
      ¬ ∃ a ∈ cr.attrs.getD [], attrL = [] ∨ a.name ∈ attrL := by
    simp only [List.filter_eq_nil_iff, includedAttribute_iff, not_exists, not_and]
  rw [processContextRegistrationElement, entities_of_element, attributes_of_element, RegisteredElement.Kept]
  by_cases he : ∃ e ∈ cr.entities, includedEntity regexec e.entityId enV = true
  · have hne : 0 < ((cr.entities.map RegisteredEntity.entityId).filter fun en =>
        includedEntity regexec en enV).length := by
      rw [List.length_pos_iff]
      exact fun h => hentities.1 h he
    simp only [he, true_and, hne, gt_iff_lt, if_true, hne.ne', if_false]
    by_cases hL : attrL = []
    · subst hL
      have hcases := Nat.eq_zero_or_pos ((cr.attrs.getD []).filter fun a => includedAttribute a []).length
      rcases hcases with h | h
      · simp [h]
      · simp [h]
    · have hlen : ¬ attrL.length = 0 := fun h => hL (List.length_eq_zero_iff.1 h)
      simp only [hL, false_or] at hattrs ⊢
      by_cases ha : ∃ a ∈ cr.attrs.getD [], a.name ∈ attrL
      · have hpos : 0 < ((cr.attrs.getD []).filter fun a => includedAttribute a attrL).length := by
          rw [List.length_pos_iff]
          exact fun h => hattrs.1 h ha
        simp [hpos, ha]
      · have hnil := hattrs.2 ha
        simp [hnil, ha, hL]
  · have hnil := hentities.2 he
    simp [hnil, he]

end Kept

/-! ### What the filter selects -/

def Registration.entities (r : Registration) : List RegisteredEntity :=
  r.contextRegistration.flatMap RegisteredElement.entities

private theorem lookup_contextRegistration (r : Registration) :
    r.toBson.lookup "contextRegistration" =
      some (.array (r.contextRegistration.map fun cr => .object cr.toBson)) := by
  cases h : r.servicePath with
  | none => simp [Registration.toBson, h, lookup_cons_eq]
  | some path => simp [Registration.toBson, h, lookup_cons_eq]

private theorem lookup_servicePath (r : Registration) :
    r.toBson.lookup "servicePath" = r.servicePath.map BSONValue.string := by
  cases h : r.servicePath with
  | none => simp [Registration.toBson, h, lookup_cons_eq]
  | some path => simp [Registration.toBson, h, lookup_cons_eq]

private theorem lookup_entities (cr : RegisteredElement) :
    cr.toBson.lookup "entities" = some (.array (cr.entities.map fun e => .object e.toBson)) := by
  simp [RegisteredElement.toBson]

private theorem lookup_id (e : RegisteredEntity) : e.fields.lookup "id" = some e.id := by
  obtain ⟨id, type, typeFirst⟩ := e
  cases type with
  | none => rfl
  | some type =>
    cases typeFirst with
    | false => rfl
    | true => rfl

private theorem lookup_type (e : RegisteredEntity) : e.fields.lookup "type" = e.type := by
  obtain ⟨id, type, typeFirst⟩ := e
  cases type with
  | none => rfl
  | some type =>
    cases typeFirst with
    | false => rfl
    | true => rfl

/-- A path into the elements of a registration. -/
private theorem reached_elements (k : String) (ks : List String) (r : Registration) (hk : arrayIndex k = none) :
    reached ("contextRegistration" :: k :: ks) (.object r.toBson) =
      r.contextRegistration.flatMap fun cr => reachedField (reached ks) k cr.toBson := by
  rw [reached_object, reachedField_of_lookup (lookup_contextRegistration r), reached_objects _ _ hk]

/-- A field of the entities of a registration. -/
private theorem reached_entityField (k : String) (r : Registration) (hk : arrayIndex k = none) :
    reached ["contextRegistration", "entities", k] (.object r.toBson) =
      r.entities.map fun e => (e.fields.lookup k).map BSONValue.string := by
  have hentities : arrayIndex "entities" = none := by decide
  rw [reached_elements "entities" [k] r hentities, Registration.entities, List.map_flatMap]
  congr 1
  funext cr
  rw [reachedField_of_lookup (lookup_entities cr), reached_objects _ _ hk, List.map_eq_flatMap]
  congr 1
  funext e
  exact reachedField_stringFields e.fields k

theorem reached_entitiesId (r : Registration) :
    reached (splitPath contextRegistrationEntitiesId) (.object r.toBson) =
      r.entities.map fun e => some (.string e.id) := by
  have hpath : splitPath contextRegistrationEntitiesId = ["contextRegistration", "entities", "id"] := by decide
  rw [hpath, reached_entityField "id" r (by decide)]
  simp only [lookup_id, Option.map_some]

theorem reached_entitiesType (r : Registration) :
    reached (splitPath contextRegistrationEntitiesType) (.object r.toBson) =
      r.entities.map fun e => e.type.map BSONValue.string := by
  have hpath : splitPath contextRegistrationEntitiesType = ["contextRegistration", "entities", "type"] := by decide
  rw [hpath, reached_entityField "type" r (by decide)]
  simp only [lookup_type]

/-- The entities themselves are reached, and the arrays that hold them. -/
theorem reached_entities (r : Registration) :
    reached (splitPath contextRegistrationEntities) (.object r.toBson) =
      r.contextRegistration.flatMap fun cr =>
        cr.entities.map (fun e => some (.object e.toBson)) ++
          [some (.array (cr.entities.map fun e => .object e.toBson))] := by
  have hpath : splitPath contextRegistrationEntities = ["contextRegistration", "entities"] := by decide
  rw [hpath, reached_elements "entities" [] r (by decide)]
  congr 1
  funext cr
  rw [reachedField_of_lookup (lookup_entities cr), reached, List.map_map]
  rfl

theorem reached_attrsNames (r : Registration) :
    reached (splitPath contextRegistrationAttrsNames) (.object r.toBson) =
      r.contextRegistration.flatMap fun cr =>
        match cr.attrs with
        | none => [none]
        | some attrs => attrs.map fun a => some (.string a.name) := by
  have hpath : splitPath contextRegistrationAttrsNames = ["contextRegistration", "attrs", "name"] := by decide
  rw [hpath, reached_elements "attrs" ["name"] r (by decide)]
  congr 1
  funext cr
  rw [reachedField, lookup_attrs]
  cases cr.attrs with
  | none => rfl
  | some attrs =>
    simp only [Option.map_some]
    rw [reached_objects _ _ (by decide), List.map_eq_flatMap]
    rfl

/-- The match of a pattern by the database. -/
def PatternHolds (pcre : String → Option (String → Bool)) (pattern id : String) : Prop :=
  regexHolds pcre pattern (some (.string id)) = true

/-- The filter selects a registration for the entity `en` of the query. -/
def Selects (pcre : String → Option (String → Bool)) (en : EntityId) (r : Registration) : Prop :=
  if isTrue en.isPattern = true then
    (∃ e ∈ r.entities, PatternHolds pcre en.id e.id) ∧ (en.type = "" ∨ ∃ e ∈ r.entities, e.type = some en.type)
  else ∃ e ∈ r.entities, e.id = en.id ∧ (en.type = "" ∨ e.type = some en.type)

/-- The service path of a registration is one of those of the query. -/
def Registration.InPath (pcre : String → Option (String → Bool)) (first : String) (servicePath : List String)
    (r : Registration) : Bool :=
  (fillQueryServicePath first servicePath).any (InItem.holds pcre (r.servicePath.map BSONValue.string))

section Filter

variable {pcre : String → Option (String → Bool)} {now : Int} {enV : List EntityId} {attrL : List String}
variable {first : String} {servicePath : List String}

private theorem accepts_patternClause_iff {en : EntityId} {r : Registration} :
    (patternClause en).accepts pcre r.toBson = true ↔
      (∃ e ∈ r.entities, PatternHolds pcre en.id e.id) ∧
        (en.type = "" ∨ ∃ e ∈ r.entities, e.type = some en.type) := by
  have hid : (Filter.field contextRegistrationEntitiesId (.regex en.id)).accepts pcre r.toBson = true ↔
      ∃ e ∈ r.entities, PatternHolds pcre en.id e.id := by
    simp [Filter.accepts, Criterion.accepts, reached_entitiesId, PatternHolds]
  have htype : (Filter.field contextRegistrationEntitiesType (.compare .eq (.string en.type))).accepts pcre r.toBson = true ↔
      ∃ e ∈ r.entities, e.type = some en.type := by
    simp [Filter.accepts, Criterion.accepts, reached_entitiesType, eq_holds_string_iff]
  rw [patternClause, Filter.accepts, acceptsAll_eq, List.all_append, Bool.and_eq_true]
  by_cases h : en.type = ""
  · simp [h, hid]
  · simp [h, hid, htype]

/-- An entity that is stored with a type equals one of the two items for it. -/
private theorem typedItems_hold_iff {en : EntityId} {r : Registration} :
    ((reached (splitPath contextRegistrationEntities) (.object r.toBson)).any fun w =>
        (typedItems en).any (InItem.holds pcre w)) = true ↔
      ∃ e ∈ r.entities, e.id = en.id ∧ e.type = some en.type := by
  have hitem : ∀ e : RegisteredEntity,
      (typedItems en).any (InItem.holds pcre (some (.object e.toBson))) = true ↔
        e.id = en.id ∧ e.type = some en.type := by
    intro e
    obtain ⟨id, type, typeFirst⟩ := e
    simp only [typedItems, List.any_cons, List.any_nil, InItem.holds, RegisteredEntity.toBson,
      eq_holds_stringFields_iff, Bool.or_eq_true, RegisteredEntity.fields]
    cases type with
    | none => simp
    | some type =>
      cases typeFirst with
      | false => simp
      | true => simp [and_comm]
  have harray : ∀ cr : RegisteredElement,
      (typedItems en).any (InItem.holds pcre (some (.array (cr.entities.map fun e => .object e.toBson)))) = false := by
    intro cr
    simp [typedItems, InItem.holds, Comparison.holds, BSONValue.canonicalType]
  simp only [reached_entities, List.any_flatMap, List.any_append, List.any_cons, List.any_nil, harray, List.any_map,
    Bool.or_false, List.any_eq_true, Function.comp, hitem, Registration.entities, List.mem_flatMap]
  constructor
  · rintro ⟨cr, hcr, e, he, h⟩
    exact ⟨e, ⟨cr, hcr, he⟩, h⟩
  · rintro ⟨e, ⟨cr, hcr, he⟩, h⟩
    exact ⟨cr, hcr, e, he, h⟩

private theorem accepts_typed_iff {r : Registration} :
    (Filter.field contextRegistrationEntities
        (.isIn ((enV.filter fun en => !isTrue en.isPattern && en.type ≠ "").flatMap typedItems))).accepts pcre r.toBson = true ↔
      ∃ en ∈ enV, isTrue en.isPattern = false ∧ en.type ≠ "" ∧ ∃ e ∈ r.entities, e.id = en.id ∧ e.type = some en.type := by
  simp only [Filter.accepts, Criterion.accepts, List.any_flatMap]
  rw [List.any_eq_true]
  constructor
  · rintro ⟨w, hw, h⟩
    obtain ⟨en, hen, h⟩ := List.any_eq_true.1 h
    simp only [List.mem_filter, Bool.and_eq_true, Bool.not_eq_true', decide_eq_true_eq] at hen
    exact ⟨en, hen.1, hen.2.1, hen.2.2, typedItems_hold_iff.1 (List.any_eq_true.2 ⟨w, hw, h⟩)⟩
  · rintro ⟨en, hen, hpat, htype, h⟩
    obtain ⟨w, hw, h⟩ := List.any_eq_true.1 (typedItems_hold_iff.2 h)
    refine ⟨w, hw, List.any_eq_true.2 ⟨en, ?_, h⟩⟩
    simp [List.mem_filter, hen, hpat, htype]

private theorem accepts_untyped_iff {r : Registration} :
    (Filter.field contextRegistrationEntitiesId
        (.isIn ((enV.filter fun en => !isTrue en.isPattern && en.type = "").map fun en =>
          InItem.value (.string en.id)))).accepts pcre r.toBson = true ↔
      ∃ en ∈ enV, isTrue en.isPattern = false ∧ en.type = "" ∧ ∃ e ∈ r.entities, e.id = en.id := by
  simp only [Filter.accepts, Criterion.accepts, reached_entitiesId, List.any_map, List.any_eq_true, Function.comp,
    InItem.holds, eq_holds_string_iff, List.mem_filter, Bool.and_eq_true, Bool.not_eq_true', decide_eq_true_eq,
    Option.some.injEq, BSONValue.string.injEq]
  constructor
  · rintro ⟨e, he, en, ⟨hen, hpat, htype⟩, h⟩
    exact ⟨en, hen, hpat, htype, e, he, h⟩
  · rintro ⟨en, hen, hpat, htype, e, he, h⟩
    exact ⟨e, he, en, ⟨hen, hpat, htype⟩, h⟩

private theorem accepts_entityOr_iff {r : Registration} :
    (Filter.any (entityOr enV)).accepts pcre r.toBson = true ↔ ∃ en ∈ enV, Selects pcre en r := by
  have hor : (Filter.any (entityOr enV)).accepts pcre r.toBson = true ↔
      (∃ en ∈ enV, isTrue en.isPattern = true ∧ (patternClause en).accepts pcre r.toBson = true) ∨
        (∃ en ∈ enV, isTrue en.isPattern = false ∧ en.type ≠ "" ∧
          ∃ e ∈ r.entities, e.id = en.id ∧ e.type = some en.type) ∨
        ∃ en ∈ enV, isTrue en.isPattern = false ∧ en.type = "" ∧ ∃ e ∈ r.entities, e.id = en.id := by
    rw [Filter.accepts, acceptsAny_eq, entityOr, List.any_append, Bool.or_eq_true, List.any_cons, List.any_cons,
      List.any_nil, Bool.or_false, Bool.or_eq_true, accepts_typed_iff, accepts_untyped_iff]
    simp only [List.any_map, List.any_eq_true, List.mem_filter, Function.comp, and_assoc]
  rw [hor]
  constructor
  · rintro (⟨en, hen, hpat, h⟩ | ⟨en, hen, hpat, htype, e, he, hid, h⟩ | ⟨en, hen, hpat, htype, e, he, hid⟩)
    · refine ⟨en, hen, ?_⟩
      rw [Selects, if_pos hpat]
      exact accepts_patternClause_iff.1 h
    · refine ⟨en, hen, ?_⟩
      rw [Selects, if_neg (by simp [hpat])]
      exact ⟨e, he, hid, Or.inr h⟩
    · refine ⟨en, hen, ?_⟩
      rw [Selects, if_neg (by simp [hpat])]
      exact ⟨e, he, hid, Or.inl htype⟩
  · rintro ⟨en, hen, h⟩
    rw [Selects] at h
    cases hpat : isTrue en.isPattern with
    | true =>
      rw [if_pos hpat] at h
      exact Or.inl ⟨en, hen, hpat, accepts_patternClause_iff.2 h⟩
    | false =>
      rw [if_neg (by simp [hpat])] at h
      obtain ⟨e, he, hid, h⟩ := h
      by_cases htype : en.type = ""
      · exact Or.inr (Or.inr ⟨en, hen, hpat, htype, e, he, hid⟩)
      · exact Or.inr (Or.inl ⟨en, hen, hpat, htype, e, he, hid, h.resolve_left htype⟩)

private theorem accepts_attrs_iff {r : Registration} :
    (Filter.field contextRegistrationAttrsNames
        (.isIn (attrL.map fun name => .value (.string name)))).accepts pcre r.toBson = true ↔
      ∃ cr ∈ r.contextRegistration, ∃ a ∈ cr.attrs.getD [], a.name ∈ attrL := by
  have hitems : ∀ w : Option BSONValue,
      (attrL.map fun name => InItem.value (.string name)).any (InItem.holds pcre w) = true ↔
        ∃ name ∈ attrL, w = some (.string name) := by
    intro w
    simp [InItem.holds, eq_holds_string_iff]
  simp only [Filter.accepts, Criterion.accepts, reached_attrsNames, List.any_flatMap]
  rw [List.any_eq_true]
  refine exists_congr fun cr => and_congr_right fun _ => ?_
  rw [List.any_eq_true]
  cases cr.attrs with
  | none => simp [InItem.holds, Comparison.holds, BSONValue.canonicalType]
  | some attrs =>
    simp only [hitems, List.mem_map, Option.getD_some]
    constructor
    · rintro ⟨w, ⟨a, ha, rfl⟩, name, hname, h⟩
      have hw : a.name = name := by simpa using h
      exact ⟨a, ha, hw ▸ hname⟩
    · rintro ⟨a, ha, h⟩
      exact ⟨some (.string a.name), ⟨a, ha, rfl⟩, a.name, h, rfl⟩

private theorem accepts_expiration_iff {r : Registration} :
    (Filter.field "expiration" (.compare .gt (.int now))).accepts pcre r.toBson = true ↔ now < r.expiration := by
  have hpath : splitPath "expiration" = ["expiration"] := by decide
  have hlookup : r.toBson.lookup "expiration" = some (.int r.expiration) := by simp [Registration.toBson]
  rw [Filter.accepts, Criterion.accepts, hpath, reached_object, reachedField_of_lookup hlookup]
  simp [reached, gt_holds_int_iff]

private theorem accepts_servicePath {r : Registration} :
    (Filter.field "servicePath" (.isIn (fillQueryServicePath first servicePath))).accepts pcre r.toBson =
      r.InPath pcre first servicePath := by
  have hpath : splitPath "servicePath" = ["servicePath"] := by decide
  rw [Filter.accepts, Criterion.accepts, hpath, reached_object, reachedField, lookup_servicePath, Registration.InPath]
  cases r.servicePath with
  | none => simp
  | some path => simp [reached]

theorem accepts_registrationsFilter_iff {r : Registration} :
    (registrationsFilter now enV attrL first servicePath).accepts pcre r.toBson = true ↔
      (∃ en ∈ enV, Selects pcre en r) ∧ now < r.expiration ∧
        (attrL = [] ∨ ∃ cr ∈ r.contextRegistration, ∃ a ∈ cr.attrs.getD [], a.name ∈ attrL) ∧
          r.InPath pcre first servicePath = true := by
  rw [registrationsFilter, Filter.accepts, acceptsAll_eq]
  simp only [List.all_append, List.all_cons, List.all_nil, Bool.and_true, Bool.and_eq_true, accepts_entityOr_iff,
    accepts_expiration_iff, accepts_servicePath, and_assoc]
  refine and_congr_right fun _ => and_congr_right fun _ => and_congr_left fun _ => ?_
  by_cases h : attrL = []
  · simp [h]
  · have hlen : attrL.length > 0 := List.length_pos_iff.2 h
    simp only [hlen, if_true, List.all_cons, List.all_nil, Bool.and_true, accepts_attrs_iff, h, false_or]

end Filter

/-! ### What the query returns -/

instance (pcre : String → Option (String → Bool)) (en : EntityId) (r : Registration) : Decidable (Selects pcre en r) :=
  inferInstanceAs (Decidable (if isTrue en.isPattern = true then
    (∃ e ∈ r.entities, regexHolds pcre en.id (some (.string e.id)) = true) ∧
      (en.type = "" ∨ ∃ e ∈ r.entities, e.type = some en.type)
    else ∃ e ∈ r.entities, e.id = en.id ∧ (en.type = "" ∨ e.type = some en.type)))

/-- The elements of a registration that `processContextRegistrationElement` keeps. -/
def Registration.kept (regexec : String → String → Bool) (enV : List EntityId) (attrL : List String)
    (r : Registration) : List ContextRegistrationResponse :=
  r.contextRegistration.filterMap fun cr => processContextRegistrationElement regexec enV attrL cr.toBson

/-- The database compiles the patterns of the query and those of its service paths. -/
def queryCompiles (pcre : String → Option (String → Bool)) (enV : List EntityId) (first : String)
    (servicePath : List String) : Bool :=
  (enV.all fun en => !isTrue en.isPattern || compiles pcre en.id) &&
    (fillQueryServicePath first servicePath).all (InItem.wellFormed pcre)

/-- The query returns all that is kept of the unexpired registrations in a service path of the query, and nothing else. -/
def PrefilterComplete (regexec : String → String → Bool) (pcre : String → Option (String → Bool)) (now : Int)
    (enV : List EntityId) (attrL : List String) (first : String) (servicePath : List String)
    (docs : List Registration) : Prop :=
  registrationsQuery regexec pcre now enV attrL first servicePath 0 0 (docs.map Registration.toBson) =
    some ((docs.filter fun r => now < r.expiration && r.InPath pcre first servicePath).flatMap
      (Registration.kept regexec enV attrL))

/-- A filter that is stricter than another loses nothing when what it drops is empty. -/
private theorem flatMap_filter_eq_iff {α β : Type} {p q : α → Bool} {f : α → List β} {l : List α}
    (hpq : ∀ a ∈ l, p a = true → q a = true) :
    (l.filter p).flatMap f = (l.filter q).flatMap f ↔ ∀ a ∈ l, q a = true → f a ≠ [] → p a = true := by
  induction l with
  | nil => simp
  | cons a l ih =>
    have ih := ih fun b hb => hpq b (List.mem_cons_of_mem a hb)
    have ha := hpq a List.mem_cons_self
    rw [List.forall_mem_cons, ← ih]
    cases hp : p a with
    | true =>
      have hq := ha hp
      simp [hp, hq]
    | false =>
      cases hq : q a with
      | false => simp [hp, hq]
      | true =>
        simp only [List.filter_cons, hp, hq, if_true, Bool.false_eq_true, if_false, List.flatMap_cons]
        constructor
        · intro h
          -- the stricter filter gives no more than the other one does behind the head
          have hle : ((l.filter p).flatMap f).length ≤ ((l.filter q).flatMap f).length := by
            have hsub : (l.filter p).Sublist (l.filter q) := by
              have hpq' : l.filter p = (l.filter q).filter p := by
                rw [List.filter_filter]
                refine List.filter_congr fun b hb => ?_
                have hb := hpq b (List.mem_cons_of_mem a hb)
                cases hpb : p b with
                | false => rfl
                | true => simp [hb hpb]
              rw [hpq']
              exact List.filter_sublist
            exact (hsub.flatMap f).length_le
          have hlen := congrArg List.length h
          rw [List.length_append] at hlen
          have hnil : f a = [] := List.length_eq_zero_iff.1 (by omega)
          refine ⟨fun _ hne => absurd hnil hne, ?_⟩
          rw [h, hnil, List.nil_append]
        · rintro ⟨hhead, h⟩
          have hnil : f a = [] := by
            by_contra hne
            exact absurd (hhead trivial hne) (by simp)
          rw [hnil, List.nil_append]
          exact h

section Query

variable {regexec : String → String → Bool} {pcre : String → Option (String → Bool)} {now : Int}
variable {enV : List EntityId} {attrL : List String} {first : String} {servicePath : List String}

private theorem wellFormed_registrationsFilter :
    (registrationsFilter now enV attrL first servicePath).wellFormed pcre = queryCompiles pcre enV first servicePath := by
  have hclause : ∀ en : EntityId, (patternClause en).wellFormed pcre = compiles pcre en.id := by
    intro en
    rw [patternClause]
    by_cases h : en.type = ""
    · simp [h, Filter.wellFormed, Criterion.wellFormed]
    · simp [h, Filter.wellFormed, Criterion.wellFormed]
  have hpatterns : (enV.filter fun en => isTrue en.isPattern).all (fun en => compiles pcre en.id) =
      enV.all fun en => !isTrue en.isPattern || compiles pcre en.id := by
    rw [List.all_filter]
  have htyped : ∀ l : List EntityId, (l.flatMap typedItems).all (InItem.wellFormed pcre) = true := by
    intro l
    simp [typedItems, InItem.wellFormed]
  have hvalues : ∀ l : List EntityId,
      (l.map fun en => InItem.value (.string en.id)).all (InItem.wellFormed pcre) = true := by
    intro l
    simp [InItem.wellFormed]
  have hor : (Filter.any (entityOr enV)).wellFormed pcre =
      enV.all fun en => !isTrue en.isPattern || compiles pcre en.id := by
    rw [Filter.wellFormed, wellFormedList_eq, entityOr, List.all_append, ← hpatterns, List.all_map]
    simp only [Function.comp_def, hclause, List.all_cons, List.all_nil, Filter.wellFormed, Criterion.wellFormed, htyped,
      hvalues, Bool.and_true]
  have hattrs : (if attrL.length > 0 then
      [Filter.field contextRegistrationAttrsNames (.isIn (attrL.map fun name => .value (.string name)))] else []).all
        (Filter.wellFormed pcre) = true := by
    split
    · simp [Filter.wellFormed, Criterion.wellFormed, InItem.wellFormed]
    · rfl
  rw [registrationsFilter, Filter.wellFormed, wellFormedList_eq, List.all_append, List.all_append, hattrs, List.all_cons,
    List.all_cons, hor]
  simp [Filter.wellFormed, Criterion.wellFormed, queryCompiles]

/-- What is kept of a registration whose attributes do not match. -/
private theorem attrs_of_kept {r : Registration} (h : r.kept regexec enV attrL ≠ []) :
    attrL = [] ∨ ∃ cr ∈ r.contextRegistration, ∃ a ∈ cr.attrs.getD [], a.name ∈ attrL := by
  obtain ⟨crr, hcrr⟩ := List.exists_mem_of_ne_nil _ h
  obtain ⟨cr, hcr, hk⟩ := List.mem_filterMap.1 hcrr
  obtain ⟨-, hattrs⟩ := (kept_iff cr).1 (Option.isSome_iff_exists.2 ⟨crr, hk⟩)
  exact hattrs.imp_right fun ha => ⟨cr, hcr, ha⟩

theorem kept_ne_nil_iff {r : Registration} :
    r.kept regexec enV attrL ≠ [] ↔ ∃ cr ∈ r.contextRegistration, cr.Kept regexec enV attrL := by
  rw [Registration.kept, ne_eq, List.filterMap_eq_nil_iff]
  push Not
  refine exists_congr fun cr => and_congr_right fun _ => ?_
  rw [← kept_iff, Option.isSome_iff_ne_none]

/-- The query on the documents of a collection: all the elements that are kept of what the filter selects. -/
theorem registrationsQuery_all (docs : List Registration) :
    registrationsQuery regexec pcre now enV attrL first servicePath 0 0 (docs.map Registration.toBson) =
      if queryCompiles pcre enV first servicePath then
        some ((docs.filter fun r => (registrationsFilter now enV attrL first servicePath).accepts pcre r.toBson).flatMap
          (Registration.kept regexec enV attrL))
      else none := by
  have hkept : ∀ r : Registration, ((arrayItems r.toBson "contextRegistration").filterMap fun cr =>
      processContextRegistrationElement regexec enV attrL (embeddedObject cr)) = r.kept regexec enV attrL := by
    intro r
    rw [arrayItems, lookup_contextRegistration, Registration.kept, List.filterMap_map]
    rfl
  rw [registrationsQuery, find, wellFormed_registrationsFilter]
  cases queryCompiles pcre enV first servicePath with
  | false => rfl
  | true =>
    simp only [if_true, Option.map_some, List.drop_zero, List.filter_map, List.flatMap_map, hkept]
    rfl

/-- The filter misses nothing exactly when the database compiles the patterns and each registration that has something
to be kept is selected. -/
theorem prefilter_complete_iff (regexec : String → String → Bool) (pcre : String → Option (String → Bool)) (now : Int)
    (enV : List EntityId) (attrL : List String) (first : String) (servicePath : List String) (docs : List Registration) :
    PrefilterComplete regexec pcre now enV attrL first servicePath docs ↔
      queryCompiles pcre enV first servicePath = true ∧
        ∀ r ∈ docs, now < r.expiration → r.InPath pcre first servicePath = true →
          (∃ cr ∈ r.contextRegistration, cr.Kept regexec enV attrL) → ∃ en ∈ enV, Selects pcre en r := by
  rw [PrefilterComplete, registrationsQuery_all]
  cases queryCompiles pcre enV first servicePath with
  | false => simp
  | true =>
    simp only [if_true, Option.some.injEq, true_and]
    rw [flatMap_filter_eq_iff]
    · refine forall_congr' fun r => forall_congr' fun _ => ?_
      rw [accepts_registrationsFilter_iff, kept_ne_nil_iff, Bool.and_eq_true, decide_eq_true_eq]
      constructor
      · intro h hexp hpath hkept
        exact (h ⟨hexp, hpath⟩ hkept).1
      · rintro h ⟨hexp, hpath⟩ hkept
        exact ⟨h hexp hpath hkept, hexp, attrs_of_kept (kept_ne_nil_iff.2 hkept), hpath⟩
    · intro r _ h
      obtain ⟨-, hexp, -, hpath⟩ := accepts_registrationsFilter_iff.1 h
      simp [hexp, hpath]

end Query

end OrionBroker
