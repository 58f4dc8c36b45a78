import OrionBroker.Json
import OrionBroker.PostQueryContext
import OrionBroker.UpdateSubscription

/-!
# Parsing subscriptions (`parseSubscription.cpp`)

`parseSubscription` reads the payload of a new subscription or, with `update`, of an update.  The payload is the value
that the JSON library makes of it, `none` if it is not JSON.  A text is read as a C string.  Where a member is absent,
the field of the request keeps its first value or, depending on the field and on `update`, gets a default.

`Parsed` says what an accepted payload has, and what the fields of the request are (`parseSubscription_ok`).
-/

namespace OrionBroker

abbrev MAX_DESCRIPTION_LENGTH : Nat := 1024
abbrev PERMANENT_SUBS_DATETIME : Int := 9000000000000000000

/-! ### Checking the URL (`string.cpp`, `Reference.cpp`) -/

/-- The text before a colon in an IPv6 address. -/
def checkGroupIPv6 (group : List Char) : Bool := group.length ≤ 4 && group.all isHexDigit

/-- Whether what is before the last colon is an IPv6 address; what comes after it is the port. -/
def getIPv6Port (host : String) : Bool :=
  let groups := (host.toList.splitOn ':').dropLast
  groups.all checkGroupIPv6 && decide (1 < groups.length) && decide (groups.length < 8)

/-- Whether `parseUrl` accepts; a host that has only colons is not read further. -/
def parseUrl (url : String) : Bool :=
  match stringSplit url '/' with
  | scheme :: _ :: host :: _ =>
    decide (scheme = "https:" ∨ scheme = "http:") && decide (host ≠ "") &&
      (getIPv6Port host ||
        match stringSplit host ':' with
        | [_] => true
        | [_, port] => decide (port ≠ "")
        | _ => false)
  | _ => false

/-- `Reference::check` for a subscription. -/
def referenceCheck (reference : String) : String :=
  if reference = "" then "Empty Reference" else if parseUrl reference then "OK" else "Invalid URL"

/-! ### The parser -/

/-- An error that is answered with the status code 400. -/
structure OrionError where
  details : String
  reasonPhrase : String
deriving DecidableEq

def badRequest (details : String) : OrionError := ⟨details, "Bad Request"⟩

def parseError (details : String) : OrionError := ⟨details, "ParseError"⟩

/-- The request with its fields for the second version. -/
structure DescribedRequest (Item : Type) extends SubscribeContextRequest Item where
  description : String := ""
  descriptionProvided : Bool := false

/-- `stringToRenderFormat` with `noDefault`. -/
def renderFormatOfString (s : String) : RenderFormat :=
  if s = "JSON" then .NGSI_V1_LEGACY
  else if s = "legacy" then .NGSI_V1_LEGACY
  else if s = "normalized" then .NGSI_V2_NORMALIZED
  else if s = "keyValues" then .NGSI_V2_KEYVALUES
  else if s = "values" then .NGSI_V2_VALUES
  else if s = "uniqueValues" then .NGSI_V2_UNIQUE_VALUES
  else .NO_FORMAT

/-- What the parser calls: the parser of string filters and that of dates, which returns `-1` for a text that is none. -/
structure SubscriptionParser (Item : Type) where
  stringFilter : String → Except String (List Item)
  parse8601Time : String → Int

/-- A member that has to be a string, if it is there. -/
def stringMember (v : Json) (name details : String) : Except OrionError (Option String) :=
  match v.member name with
  | none => .ok none
  | some (.string s) => .ok (some (cString s))
  | some _ => .error (badRequest details)

def parseAttribute : Json → Except OrionError String
  | .string s => .ok (cString s)
  | _ => .error (badRequest "attrs element is not an string")

def parseAttributeList : Json → Except OrionError (List String)
  | .array items => items.mapM parseAttribute
  | _ => .error (badRequest "attrs is not an array")

/-- The entity that is made of what is given; without an id it has the pattern for any id. -/
def makeEntityId (id idPattern type : Option String) : EntityId :=
  let given := idPattern.getD (id.getD "")
  { id := if given = "" then ".*" else given
    type := type.getD ""
    isPattern := if given = "" ∨ idPattern.isSome = true then "true" else "false" }

def parseEntity (element : Json) : Except OrionError EntityId :=
  match element with
  | .object _ =>
    if (element.member "id").isNone && (element.member "idPattern").isNone && (element.member "type").isNone then
      .error (badRequest "subject entities element has not id/idPattern")
    else if (element.member "id").isSome && (element.member "idPattern").isSome then
      .error (badRequest "subject entities element has id and idPattern")
    else do
      let id ← stringMember element "id" "subject entities element id is not a string"
      let idPattern ← stringMember element "idPattern" "subject entities element idPattern is not a string"
      let type ← stringMember element "type" "subject entities element type is not a string"
      return makeEntityId id idPattern type
  | _ => .error (badRequest "subject entities element is not an object")

/-- An entity that is in the vector already is left out. -/
def parseEntitiesVector : Json → Except OrionError (List EntityId)
  | .array items => do
    let entities ← items.mapM parseEntity
    return entities.foldl (fun eivP eiP => pushEntityIfAbsent eiP eivP) []
  | _ => .error (badRequest "subject entities is not an array")

section Parse

variable {Item : Type} (parser : SubscriptionParser Item)

/-- The scope for the member `q` of an expression. -/
def parseScope (q : Option String) : Except OrionError (List (Scope Item)) :=
  match q with
  | none => .ok []
  | some q =>
    match parser.stringFilter q with
    | .ok filters => .ok [{ type := SCOPE_TYPE_SIMPLE_QUERY, stringFilterP := some filters }]
    | .error errorString => .error (badRequest errorString)

/-- The fields of the request for the member `subject`. -/
structure SubjectFields (Item : Type) where
  entityIdVector : List EntityId := []
  notifyConditionVector : List SubscriptionCondition := []
  expressionIsSet : Bool := false
  expression : SubscriptionExpression := {}
  scopeVector : List (Scope Item) := []

/-- The fields of the request for the member `notification`. -/
structure NotificationFields where
  reference : String := ""
  attributeList : List String := []

def parseExpression (scrP : SubjectFields Item) (condition : Json) : Except OrionError (SubjectFields Item) :=
  match condition.member "expression" with
  | none => .ok scrP
  | some (.object members) => do
    let expression := Json.object members
    let q ← stringMember expression "q" "q is not a string"
    let scopes ← parseScope parser q
    let geometry ← stringMember expression "geometry" "geometry is not a string"
    let coords ← stringMember expression "coords" "coords is not a string"
    let georel ← stringMember expression "georel" "georel is not a string"
    return { scrP with
      expressionIsSet := true
      expression := { q := q.getD "", geometry := geometry.getD "", coords := coords.getD "", georel := georel.getD "" }
      scopeVector := scopes }
  | some _ => .error (badRequest "expression is not an object")

def parseNotifyConditionVector (entityIdVector : List EntityId) (condition : Json) :
    Except OrionError (SubjectFields Item) :=
  match condition.member "attrs" with
  | none => .error (badRequest "no condition attrs specified")
  | some attrs => do
    let condValueList ← parseAttributeList attrs
    let nc : SubscriptionCondition := { type := ON_CHANGE_CONDITION, condValueList := condValueList }
    parseExpression parser { entityIdVector := entityIdVector, notifyConditionVector := [nc] } condition

def parseSubject (subject : Json) : Except OrionError (SubjectFields Item) :=
  match subject with
  | .object _ =>
    match subject.member "entities" with
    | none => .error (badRequest "no subject entities specified")
    | some entities => do
      let entityIdVector ← parseEntitiesVector entities
      match subject.member "condition" with
      | none => throw (badRequest "no subject condition specified")
      | some (.object members) => parseNotifyConditionVector parser entityIdVector (.object members)
      | some _ => throw (badRequest "condition is not an object")
  | _ => .error (badRequest "subject is not an object")

def parseHttp (notification : Json) : Except OrionError String :=
  match notification.member "http" with
  | none => .error (badRequest "http notification is missing")
  | some (.object members) =>
    match (Json.object members).member "url" with
    | none => .error (badRequest "url http notification is missing")
    | some (.string url) =>
      if referenceCheck (cString url) = "OK" then .ok (cString url)
      else .error (badRequest (referenceCheck (cString url) ++ " parsing notification url"))
    | some _ => .error (badRequest "url http notification is not a string")
  | some _ => .error (badRequest "http notitication is not an object")

def parseNotification (notification : Json) : Except OrionError NotificationFields :=
  match notification with
  | .object _ => do
    let reference ← parseHttp notification
    match notification.member "attrs" with
    | none => return { reference := reference }
    | some attrs => do
      let attributeList ← parseAttributeList attrs
      return { reference := reference, attributeList := attributeList }
  | _ => .error (badRequest "notitication is not an object")

/-! The fields of the request for each member of the payload, if it has this member, or else what the request has. -/

def parseDescription (document : Json) : Except OrionError (Option String) :=
  match document.member "description" with
  | none => .ok none
  | some (.string s) =>
    if (cString s).utf8ByteSize > MAX_DESCRIPTION_LENGTH then .error (badRequest "max description length exceeded")
    else .ok (some (cString s))
  | some _ => .error (badRequest "description must be a string")

def parseSubjectMember (update : Bool) (document : Json) : Except OrionError (SubjectFields Item) :=
  match document.member "subject" with
  | some subject => parseSubject parser subject
  | none => if update then .ok {} else .error (badRequest "no subject for subscription specified")

def parseNotificationMember (update : Bool) (document : Json) : Except OrionError NotificationFields :=
  match document.member "notification" with
  | some notification => parseNotification notification
  | none => if update then .ok {} else .error (badRequest "no notification for subscription specified")

def parseExpires (update : Bool) (document : Json) : Except OrionError Int :=
  match document.member "expires" with
  | some (.string s) =>
    if s = "" then .ok PERMANENT_SUBS_DATETIME
    else if parser.parse8601Time (cString s) = -1 then .error (badRequest "expires has an invalid format")
    else .ok (parser.parse8601Time (cString s))
  | some _ => .error (badRequest "expires is not a string")
  | none => .ok (if update then -1 else PERMANENT_SUBS_DATETIME)

def parseStatus (document : Json) : Except OrionError String :=
  match document.member "status" with
  | some (.string s) =>
    if cString s ≠ STATUS_ACTIVE ∧ cString s ≠ STATUS_INACTIVE then
      .error (badRequest "status is not valid (it has to be either active or inactive)")
    else .ok (cString s)
  | some _ => .error (badRequest "status is not a string")
  | none => .ok ""

def parseThrottling (update : Bool) (document : Json) : Except OrionError Throttling :=
  match document.member "throttling" with
  | some throttling =>
    if throttling.isInt64 then .ok { seconds := throttling.integer } else .error (badRequest "throttling is not an int")
  | none => .ok (if update then {} else { seconds := 0 })

/-- The default is not only for a new subscription. -/
def parseAttrsFormat (document : Json) : Except OrionError RenderFormat :=
  match document.member "attrsFormat" with
  | some (.string s) =>
    if renderFormatOfString (cString s) = .NO_FORMAT then
      .error (badRequest "invalid attrsFormat (accepted values: legacy, normalized, keyValues, values)")
    else .ok (renderFormatOfString (cString s))
  | some _ => .error (badRequest "attrsFormat is not a string")
  | none => .ok DEFAULT_RENDER_FORMAT

def parseSubscription (document : Option Json) (update : Bool) : Except OrionError (DescribedRequest Item) :=
  match document with
  | none => .error (parseError "Errors found in incoming JSON buffer")
  | some (.object []) => .error (badRequest "empty payload")
  | some (.object (m :: ms)) => do
    let document := Json.object (m :: ms)
    let description ← parseDescription document
    let subject ← parseSubjectMember parser update document
    let notification ← parseNotificationMember update document
    let expires ← parseExpires parser update document
    let status ← parseStatus document
    let throttling ← parseThrottling update document
    let attrsFormat ← parseAttrsFormat document
    return {
      description := description.getD ""
      descriptionProvided := description.isSome
      entityIdVector := subject.entityIdVector
      notifyConditionVector := subject.notifyConditionVector
      expressionIsSet := subject.expressionIsSet
      expression := subject.expression
      scopeVector := subject.scopeVector
      reference := notification.reference
      attributeList := notification.attributeList
      expires := expires
      status := status
      throttling := throttling
      attrsFormat := attrsFormat }
  | some _ => .error (parseError "Error parsing incoming JSON buffer")

end Parse

/-! ### What is parsed -/

/-- The texts of an array, as they are read. -/
def parsedTexts (v : Json) : List String := v.texts.map cString

def parsedEntity (element : Json) : EntityId :=
  makeEntityId ((element.member "id").map fun v => cString v.text) ((element.member "idPattern").map fun v => cString v.text)
    ((element.member "type").map fun v => cString v.text)

def parsedEntities (v : Json) : List EntityId :=
  (v.items.map parsedEntity).foldl (fun eivP eiP => pushEntityIfAbsent eiP eivP) []

def parsedExpression (v : Json) : SubscriptionExpression where
  q := cString (v.textOf "q")
  geometry := cString (v.textOf "geometry")
  coords := cString (v.textOf "coords")
  georel := cString (v.textOf "georel")

/-- The date of the member `expires`. -/
def parsedExpires (parse8601Time : String → Int) (v : Json) : Int :=
  if v.text = "" then PERMANENT_SUBS_DATETIME else parse8601Time (cString v.text)

/-- The fields of the request for an accepted payload. -/
structure Parsed {Item : Type} (parser : SubscriptionParser Item) (update : Bool) (d : Json)
    (request : DescribedRequest Item) : Prop where
  descriptionProvided : request.descriptionProvided = (d.member "description").isSome
  description : request.description = ((d.member "description").map fun v => cString v.text).getD ""
  entityIdVector : request.entityIdVector = ((d.follow ["subject", "entities"]).map parsedEntities).getD []
  notifyConditionVector : request.notifyConditionVector =
    ((d.follow ["subject", "condition", "attrs"]).map fun v => [⟨ON_CHANGE_CONDITION, parsedTexts v⟩]).getD []
  expressionIsSet : request.expressionIsSet = (d.follow ["subject", "condition", "expression"]).isSome
  expression : request.expression = ((d.follow ["subject", "condition", "expression"]).map parsedExpression).getD {}
  reference : request.reference = ((d.follow ["notification", "http", "url"]).map fun v => cString v.text).getD ""
  attributeList : request.attributeList = ((d.follow ["notification", "attrs"]).map parsedTexts).getD []
  expires : request.expires = ((d.member "expires").map (parsedExpires parser.parse8601Time)).getD
    (if update then -1 else PERMANENT_SUBS_DATETIME)
  status : request.status = ((d.member "status").map fun v => cString v.text).getD ""
  throttling : request.throttling =
    { string := "", seconds := ((d.member "throttling").map Json.integer).getD (if update then -1 else 0) }
  attrsFormat : request.attrsFormat =
    ((d.member "attrsFormat").map fun v => renderFormatOfString (cString v.text)).getD DEFAULT_RENDER_FORMAT
  duration : request.duration = ""
  /-- Members that are there are not empty. -/
  url : ∀ v, d.follow ["notification", "http", "url"] = some v → cString v.text ≠ ""
  statusGiven : ∀ v, d.member "status" = some v → cString v.text ≠ ""
  formatGiven : ∀ v, d.member "attrsFormat" = some v → renderFormatOfString (cString v.text) ≠ .NO_FORMAT
  date : ∀ v, d.member "expires" = some v → parsedExpires parser.parse8601Time v ≠ -1
  /-- What a new subscription has. -/
  required : update = false → (d.follow ["subject", "entities"]).isSome = true ∧
    (d.follow ["subject", "condition", "attrs"]).isSome = true ∧ (d.follow ["notification", "http", "url"]).isSome = true

private theorem stringMember_ok {v : Json} {name details : String} {s : Option String}
    (h : stringMember v name details = .ok s) : s = (v.member name).map fun v => cString v.text := by
  unfold stringMember at h
  split at h
  · rename_i hm
    cases h
    rw [hm]
    rfl
  · rename_i hm
    cases h
    rw [hm]
    rfl
  · cases h

private theorem stringMember_getD {v : Json} {name details : String} {s : Option String}
    (h : stringMember v name details = .ok s) : s.getD "" = cString (v.textOf name) := by
  rw [stringMember_ok h]
  unfold Json.textOf
  cases v.member name <;> rfl

private theorem parseAttributeList_ok {v : Json} {l : List String} (h : parseAttributeList v = .ok l) :
    l = parsedTexts v := by
  have hitem : ∀ item s, parseAttribute item = .ok s → s = cString item.text := by
    intro item s hs
    unfold parseAttribute at hs
    split at hs
    · cases hs
      rfl
    · cases hs
  unfold parseAttributeList at h
  split at h
  · rw [Except.eq_map_of_mapM hitem h]
    unfold parsedTexts Json.texts Json.items
    rw [List.map_map]
    rfl
  · cases h

private theorem parseEntity_ok {element : Json} {en : EntityId} (h : parseEntity element = .ok en) :
    en = parsedEntity element := by
  unfold parseEntity at h
  split at h
  · split at h
    · cases h
    · split at h
      · cases h
      · obtain ⟨id, hid, h⟩ := Except.of_bind_ok h
        obtain ⟨idPattern, hidPattern, h⟩ := Except.of_bind_ok h
        obtain ⟨type, htype, h⟩ := Except.of_bind_ok h
        cases h
        unfold parsedEntity
        rw [stringMember_ok hid, stringMember_ok hidPattern, stringMember_ok htype]
  · cases h

private theorem parseEntitiesVector_ok {v : Json} {entities : List EntityId} (h : parseEntitiesVector v = .ok entities) :
    entities = parsedEntities v := by
  unfold parseEntitiesVector at h
  split at h
  · obtain ⟨l, hl, h⟩ := Except.of_bind_ok h
    cases h
    rw [Except.eq_map_of_mapM (fun _ _ => parseEntity_ok) hl]
    rfl
  · cases h

section Stages

variable {Item : Type} {parser : SubscriptionParser Item} {update : Bool} {d : Json}

/-- What is set by the members that are reached in these ways. -/
structure SubjectParsed (entities attrs expression : Option Json) (fields : SubjectFields Item) : Prop where
  entityIdVector : fields.entityIdVector = (entities.map parsedEntities).getD []
  notifyConditionVector : fields.notifyConditionVector =
    (attrs.map fun v => [⟨ON_CHANGE_CONDITION, parsedTexts v⟩]).getD []
  expressionIsSet : fields.expressionIsSet = expression.isSome
  expression : fields.expression = (expression.map parsedExpression).getD {}

private theorem parseExpression_ok {condition : Json} {r r' : SubjectFields Item}
    (h : parseExpression parser r condition = .ok r') (hset : r.expressionIsSet = false) (hnone : r.expression = {}) :
    r'.entityIdVector = r.entityIdVector ∧ r'.notifyConditionVector = r.notifyConditionVector ∧
      r'.expressionIsSet = (condition.member "expression").isSome ∧
      r'.expression = ((condition.member "expression").map parsedExpression).getD {} := by
  unfold parseExpression at h
  split at h
  · rename_i hm
    cases h
    rw [hm]
    exact ⟨rfl, rfl, hset, hnone⟩
  · rename_i members hm
    obtain ⟨q, hq, h⟩ := Except.of_bind_ok h
    obtain ⟨scopes, -, h⟩ := Except.of_bind_ok h
    obtain ⟨geometry, hgeometry, h⟩ := Except.of_bind_ok h
    obtain ⟨coords, hcoords, h⟩ := Except.of_bind_ok h
    obtain ⟨georel, hgeorel, h⟩ := Except.of_bind_ok h
    cases h
    rw [hm]
    refine ⟨rfl, rfl, rfl, ?_⟩
    rw [Option.map_some, Option.getD_some, stringMember_getD hq, stringMember_getD hgeometry, stringMember_getD hcoords,
      stringMember_getD hgeorel]
    rfl
  · cases h

private theorem parseSubject_ok {subject : Json} {fields : SubjectFields Item}
    (h : parseSubject parser subject = .ok fields) :
    SubjectParsed (subject.member "entities") (subject.follow ["condition", "attrs"])
        (subject.follow ["condition", "expression"]) fields ∧
      (subject.member "entities").isSome = true ∧ (subject.follow ["condition", "attrs"]).isSome = true := by
  unfold parseSubject at h
  split at h
  · split at h
    · cases h
    · rename_i entities he
      obtain ⟨entityIdVector, hentities, h⟩ := Except.of_bind_ok h
      split at h
      · cases h
      · rename_i members hc
        unfold parseNotifyConditionVector at h
        split at h
        · cases h
        · rename_i attrs ha
          obtain ⟨condValueList, hvalues, h⟩ := Except.of_bind_ok h
          obtain ⟨h1, h2, h3, h4⟩ := parseExpression_ok h rfl rfl
          simp only [Json.follow_cons_cons, Json.follow_singleton, hc, ha, he, Option.bind_some, Option.isSome_some,
            and_self, and_true]
          refine ⟨?_, ?_, h3, h4⟩
          · rw [h1, parseEntitiesVector_ok hentities]
            rfl
          · rw [h2, parseAttributeList_ok hvalues]
            rfl
      · cases h
  · cases h

private theorem parseSubjectMember_ok {fields : SubjectFields Item}
    (h : parseSubjectMember parser update d = .ok fields) :
    SubjectParsed (d.follow ["subject", "entities"]) (d.follow ["subject", "condition", "attrs"])
        (d.follow ["subject", "condition", "expression"]) fields ∧
      (update = false → (d.follow ["subject", "entities"]).isSome = true ∧
        (d.follow ["subject", "condition", "attrs"]).isSome = true) := by
  unfold parseSubjectMember at h
  split at h
  · rename_i subject hs
    obtain ⟨hparsed, he, ha⟩ := parseSubject_ok h
    simp only [Json.follow_cons_cons, Json.follow_singleton, hs, Option.bind_some] at hparsed he ha ⊢
    exact ⟨hparsed, fun _ => ⟨he, ha⟩⟩
  · rename_i hs
    split at h
    · rename_i hu
      cases h
      simp only [Json.follow_cons_cons, hs, Option.bind_none]
      exact ⟨⟨rfl, rfl, rfl, rfl⟩, fun hf => absurd (hu.symm.trans hf) (by decide)⟩
    · cases h

/-- A reference that is accepted is not empty. -/
private theorem ne_empty_of_referenceCheck {reference : String} (h : referenceCheck reference = "OK") : reference ≠ "" := by
  intro he
  rw [he] at h
  exact absurd h (by decide)

private theorem parseHttp_ok {notification : Json} {reference : String} (h : parseHttp notification = .ok reference) :
    ∃ url, notification.follow ["http", "url"] = some url ∧ reference = cString url.text ∧ reference ≠ "" := by
  unfold parseHttp at h
  split at h
  · cases h
  · rename_i members hhttp
    split at h
    · cases h
    · rename_i url hurl
      split at h
      · rename_i hcheck
        cases h
        refine ⟨.string url, ?_, rfl, ne_empty_of_referenceCheck hcheck⟩
        rw [Json.follow_cons_cons, hhttp, Option.bind_some, Json.follow_singleton, hurl]
      · cases h
    · cases h
  · cases h

private theorem parseNotification_ok {notification : Json} {fields : NotificationFields}
    (h : parseNotification notification = .ok fields) :
    ∃ url, notification.follow ["http", "url"] = some url ∧ cString url.text ≠ "" ∧ fields.reference = cString url.text ∧
      fields.attributeList = ((notification.member "attrs").map parsedTexts).getD [] := by
  unfold parseNotification at h
  split at h
  · obtain ⟨reference, hreference, h⟩ := Except.of_bind_ok h
    obtain ⟨url, hurl, rfl, hne⟩ := parseHttp_ok hreference
    refine ⟨url, hurl, hne, ?_⟩
    split at h
    · rename_i ha
      cases h
      rw [ha]
      exact ⟨rfl, rfl⟩
    · rename_i attrs ha
      obtain ⟨attributeList, hl, h⟩ := Except.of_bind_ok h
      cases h
      rw [ha]
      exact ⟨rfl, parseAttributeList_ok hl⟩
  · cases h

private theorem parseNotificationMember_ok {fields : NotificationFields}
    (h : parseNotificationMember update d = .ok fields) :
    fields.reference = ((d.follow ["notification", "http", "url"]).map fun v => cString v.text).getD "" ∧
      fields.attributeList = ((d.follow ["notification", "attrs"]).map parsedTexts).getD [] ∧
      (∀ v, d.follow ["notification", "http", "url"] = some v → cString v.text ≠ "") ∧
      (update = false → (d.follow ["notification", "http", "url"]).isSome = true) := by
  unfold parseNotificationMember at h
  split at h
  · rename_i notification hn
    obtain ⟨url, hurl, hne, hr, ha⟩ := parseNotification_ok h
    have hurl' : d.follow ["notification", "http", "url"] = some url := by
      rw [Json.follow_cons_cons, hn, Option.bind_some, hurl]
    have hattrs : d.follow ["notification", "attrs"] = notification.member "attrs" := by
      rw [Json.follow_cons_cons, hn, Option.bind_some, Json.follow_singleton]
    rw [hurl', hattrs]
    refine ⟨hr, ha, ?_, fun _ => rfl⟩
    intro v hv
    cases hv
    exact hne
  · rename_i hn
    split at h
    · rename_i hu
      cases h
      have hnone : ∀ name names, d.follow ("notification" :: name :: names) = none := by
        intro name names
        rw [Json.follow_cons_cons, hn, Option.bind_none]
      rw [hnone, hnone]
      refine ⟨rfl, rfl, ?_, fun hf => absurd (hu.symm.trans hf) (by decide)⟩
      intro v hv
      cases hv
    · cases h

private theorem parseDescription_ok {description : Option String} (h : parseDescription d = .ok description) :
    description = (d.member "description").map fun v => cString v.text := by
  unfold parseDescription at h
  split at h
  · rename_i hm
    cases h
    rw [hm]
    rfl
  · rename_i s hm
    split at h
    · cases h
    · cases h
      rw [hm]
      rfl
  · cases h

private theorem parseExpires_ok {expires : Int} (h : parseExpires parser update d = .ok expires) :
    expires = ((d.member "expires").map (parsedExpires parser.parse8601Time)).getD
        (if update then -1 else PERMANENT_SUBS_DATETIME) ∧
      ∀ v, d.member "expires" = some v → parsedExpires parser.parse8601Time v ≠ -1 := by
  unfold parseExpires at h
  split at h
  · rename_i s hm
    rw [hm]
    simp only [Option.some.injEq, forall_eq', Option.map_some, Option.getD_some]
    unfold parsedExpires Json.text
    split at h
    · rename_i he
      cases h
      dsimp only
      rw [if_pos he]
      exact ⟨rfl, by decide⟩
    · rename_i he
      split at h
      · cases h
      · rename_i hdate
        cases h
        dsimp only
        rw [if_neg he]
        exact ⟨rfl, hdate⟩
  · cases h
  · rename_i hm
    cases h
    rw [hm]
    exact ⟨rfl, fun v hv => by cases hv⟩

private theorem parseStatus_ok {status : String} (h : parseStatus d = .ok status) :
    status = ((d.member "status").map fun v => cString v.text).getD "" ∧
      ∀ v, d.member "status" = some v → cString v.text ≠ "" := by
  unfold parseStatus at h
  split at h
  · rename_i s hm
    rw [hm]
    split at h
    · cases h
    · rename_i hvalid
      cases h
      refine ⟨rfl, ?_⟩
      intro v hv
      cases hv
      intro he
      have hempty : cString s = "" := he
      refine hvalid ⟨?_, ?_⟩
      · rw [hempty]
        decide
      · rw [hempty]
        decide
  · cases h
  · rename_i hm
    cases h
    rw [hm]
    exact ⟨rfl, fun v hv => by cases hv⟩

private theorem parseThrottling_ok {throttling : Throttling} (h : parseThrottling update d = .ok throttling) :
    throttling =
      { string := "", seconds := ((d.member "throttling").map Json.integer).getD (if update then -1 else 0) } := by
  unfold parseThrottling at h
  split at h
  · rename_i v hm
    rw [hm]
    split at h
    · cases h
      rfl
    · cases h
  · rename_i hm
    cases h
    rw [hm]
    cases update <;> rfl

private theorem parseAttrsFormat_ok {attrsFormat : RenderFormat} (h : parseAttrsFormat d = .ok attrsFormat) :
    attrsFormat =
        ((d.member "attrsFormat").map fun v => renderFormatOfString (cString v.text)).getD DEFAULT_RENDER_FORMAT ∧
      ∀ v, d.member "attrsFormat" = some v → renderFormatOfString (cString v.text) ≠ .NO_FORMAT := by
  unfold parseAttrsFormat at h
  split at h
  · rename_i s hm
    rw [hm]
    split at h
    · cases h
    · rename_i hvalid
      cases h
      refine ⟨rfl, ?_⟩
      intro v hv
      cases hv
      exact hvalid
  · cases h
  · rename_i hm
    cases h
    rw [hm]
    exact ⟨rfl, fun v hv => by cases hv⟩

/-- The fields of the request are those that the members give, or else the defaults. -/
theorem parseSubscription_ok {document : Option Json} {request : DescribedRequest Item}
    (h : parseSubscription parser document update = .ok request) :
    ∃ d, document = some d ∧ Parsed parser update d request := by
  unfold parseSubscription at h
  split at h
  · cases h
  · cases h
  · rename_i m ms
    refine ⟨_, rfl, ?_⟩
    generalize Json.object (m :: ms) = d at h ⊢
    obtain ⟨description, hdescription, h⟩ := Except.of_bind_ok h
    obtain ⟨subject, hsubject, h⟩ := Except.of_bind_ok h
    obtain ⟨notification, hnotification, h⟩ := Except.of_bind_ok h
    obtain ⟨expires, hexpires, h⟩ := Except.of_bind_ok h
    obtain ⟨status, hstatus, h⟩ := Except.of_bind_ok h
    obtain ⟨throttling, hthrottling, h⟩ := Except.of_bind_ok h
    obtain ⟨attrsFormat, hformat, h⟩ := Except.of_bind_ok h
    cases h
    have hd := parseDescription_ok hdescription
    obtain ⟨hs, hsubjectGiven⟩ := parseSubjectMember_ok hsubject
    obtain ⟨hreference, hattrs, hurl, hurlGiven⟩ := parseNotificationMember_ok hnotification
    exact {
      descriptionProvided := by
        rw [hd, Option.isSome_map]
      description := by
        rw [hd]
      entityIdVector := hs.entityIdVector
      notifyConditionVector := hs.notifyConditionVector
      expressionIsSet := hs.expressionIsSet
      expression := hs.expression
      reference := hreference
      attributeList := hattrs
      expires := (parseExpires_ok hexpires).1
      status := (parseStatus_ok hstatus).1
      throttling := parseThrottling_ok hthrottling
      attrsFormat := (parseAttrsFormat_ok hformat).1
      duration := rfl
      url := hurl
      statusGiven := (parseStatus_ok hstatus).2
      formatGiven := (parseAttrsFormat_ok hformat).2
      date := (parseExpires_ok hexpires).2
      required := fun hu => ⟨(hsubjectGiven hu).1, (hsubjectGiven hu).2, hurlGiven hu⟩ }
  · cases h

end Stages

end OrionBroker
