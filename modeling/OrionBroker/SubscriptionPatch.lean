import OrionBroker.DescribedSubscription

/-!
# Updates as overlays (`parseSubscription.cpp`, `mongoUpdateContextSubscription.cpp`)

An update of a subscription should change what its payload has and keep the rest (`IsOverlay`).  The new document is
built field by field from the request, and where a field of the request is empty, or is not positive, the old one is
taken; the parser also gives the request a format that the payload does not have.  `patch_is_overlay_iff` says for which
payloads and which stored documents the update is an overlay.
-/

namespace OrionBroker

/-- The format of a document. -/
def DescribedCsub.renderFormat (sub : DescribedCsub) : RenderFormat :=
  stringToRenderFormat (sub.format.getD (renderFormatToString .NGSI_V1_LEGACY))

/-- What a payload has is in the new document, and the rest is as in the old one.  Fields that are not there are read as
the code does; a throttling of 0 and an empty description stand for none. -/
structure IsOverlay (parse8601Time : String → Int) (d : Json) (sub new : DescribedCsub) : Prop where
  description : new.description.getD "" = ((d.member "description").map Json.text).getD (sub.description.getD "")
  entities : (d.follow ["subject", "entities"]).elim (new.entities = sub.entities) fun v =>
    new.entities.map CsubEntity.toEntityId = v.items.map givenEntity
  conditions : (d.follow ["subject", "condition", "attrs"]).elim (new.conditions = sub.conditions) fun v =>
    new.conditions = [⟨ON_CHANGE_CONDITION, v.texts⟩]
  expression : (d.follow ["subject", "condition", "expression"]).elim (new.expression = sub.expression) fun v =>
    new.expression = some (givenExpression v)
  attributes : new.attrs = ((d.follow ["notification", "attrs"]).map Json.texts).getD sub.attrs
  reference : new.reference.getD "" = ((d.follow ["notification", "http", "url"]).map Json.text).getD (sub.reference.getD "")
  expiration : new.expiration.getD (-1) =
    ((d.member "expires").map (parsedExpires parse8601Time)).getD (sub.expiration.getD (-1))
  throttling : new.throttling.getD 0 = ((d.member "throttling").map Json.integer).getD (sub.throttling.getD 0)
  status : new.status.getD STATUS_ACTIVE = ((d.member "status").map Json.text).getD (sub.status.getD STATUS_ACTIVE)
  attrsFormat : new.renderFormat = ((d.member "attrsFormat").map fun v => renderFormatOfString v.text).getD sub.renderFormat

/-- The payload and the stored document for which an update is an overlay. -/
structure PatchApplies (parse8601Time : String → Int) (d : Json) (sub : DescribedCsub) : Prop where
  description : ∀ v, d.member "description" = some v → Plain v.text
  /-- No entity is given twice or with an empty id, and there are some, or there were none before. -/
  entities : ∀ v, d.follow ["subject", "entities"] = some v →
    ((v.items.map givenEntity).Nodup ∧ ∀ element ∈ v.items, PlainElement element) ∧ (v.items = [] → sub.entities = [])
  conditions : ∀ v, d.follow ["subject", "condition", "attrs"] = some v → ∀ s ∈ v.texts, Plain s
  expression : ∀ v, d.follow ["subject", "condition", "expression"] = some v → PlainExpression v
  /-- The list of attributes is not empty, or it was before. -/
  attributes : ∀ v, d.follow ["notification", "attrs"] = some v →
    (∀ s ∈ v.texts, Plain s) ∧ (v.texts = [] → sub.attrs = [])
  reference : ∀ v, d.follow ["notification", "http", "url"] = some v → Plain v.text
  /-- The date is after the epoch, or it is the stored one. -/
  expiration : ∀ v, d.member "expires" = some v →
    0 < parsedExpires parse8601Time v ∨ sub.expiration.getD (-1) = parsedExpires parse8601Time v
  /-- The throttling is positive, or it is the stored one. -/
  throttling : ∀ v, d.member "throttling" = some v → 0 < v.integer ∨ sub.throttling.getD 0 = v.integer
  status : ∀ v, d.member "status" = some v → Plain v.text
  attrsFormat : ∀ v, d.member "attrsFormat" = some v → Plain v.text
  /-- Without a format in the payload, the stored one is the default. -/
  noFormat : d.member "attrsFormat" = none → sub.renderFormat = DEFAULT_RENDER_FORMAT

section Overlay

variable {Item : Type} {parser : SubscriptionParser Item} {d : Json} {request : DescribedRequest Item}
  (call : Subscribing) (now : Int) (servicePath : String) (sub : DescribedCsub)
  (cSubP : Option (CachedSubscription Item))

private theorem description_iff (hp : Parsed parser true d request) :
    (Described.updatedCsub call now servicePath request sub cSubP).description.getD "" =
        ((d.member "description").map Json.text).getD (sub.description.getD "") ↔
      ∀ v, d.member "description" = some v → Plain v.text := by
  rw [← @text_getD_iff _ (sub.description.getD "")]
  have hnew : (Described.updatedCsub call now servicePath request sub cSubP).description.getD "" =
      ((d.member "description").map fun v => cString v.text).getD (sub.description.getD "") := by
    change (Described.updatedDescription request sub).getD "" = _
    unfold Described.updatedDescription
    rw [hp.descriptionProvided, hp.description]
    cases d.member "description" with
    | none => rfl
    | some v =>
      simp only [Option.isSome_some, if_true, Option.map_some, Option.getD_some]
      split
      · rfl
      · rename_i he
        exact (not_not.1 he).symm
  rw [hnew]

private theorem entities_iff (hp : Parsed parser true d request) :
    ((d.follow ["subject", "entities"]).elim
        ((Described.updatedCsub call now servicePath request sub cSubP).entities = sub.entities) fun v =>
          (Described.updatedCsub call now servicePath request sub cSubP).entities.map CsubEntity.toEntityId =
            v.items.map givenEntity) ↔
      ∀ v, d.follow ["subject", "entities"] = some v →
        ((v.items.map givenEntity).Nodup ∧ ∀ element ∈ v.items, PlainElement element) ∧
          (v.items = [] → sub.entities = []) := by
  have hnew : (Described.updatedCsub call now servicePath request sub cSubP).entities =
      if request.entityIdVector ≠ [] then entitiesOfRequest request.entityIdVector else sub.entities := by
    change request.updatedEntities .v2 sub.toCsub = _
    unfold SubscribeContextRequest.updatedEntities
    simp only [true_and]
  rw [hnew, hp.entityIdVector]
  cases d.follow ["subject", "entities"] with
  | none => simp
  | some v =>
    simp only [Option.map_some, Option.getD_some, Option.elim_some, Option.some.injEq, forall_eq']
    by_cases hitems : v.items = []
    · have hnil := parsedEntities_eq_nil_iff.2 hitems
      simp [hnil, hitems]
    · have hne : parsedEntities v ≠ [] := fun h => hitems (parsedEntities_eq_nil_iff.1 h)
      rw [if_pos hne, toEntityId_entitiesOfRequest, parsedEntities_eq_given_iff]
      simp [hitems]

private theorem conditions_iff (hp : Parsed parser true d request) :
    ((d.follow ["subject", "condition", "attrs"]).elim
        ((Described.updatedCsub call now servicePath request sub cSubP).conditions = sub.conditions) fun v =>
          (Described.updatedCsub call now servicePath request sub cSubP).conditions =
            [⟨ON_CHANGE_CONDITION, v.texts⟩]) ↔
      ∀ v, d.follow ["subject", "condition", "attrs"] = some v → ∀ s ∈ v.texts, Plain s := by
  have hnew : (Described.updatedCsub call now servicePath request sub cSubP).conditions =
      if request.notifyConditionVector = [] then sub.conditions
      else request.notifyConditionVector.filter fun nc => nc.type = ON_CHANGE_CONDITION := by
    change request.updatedConditions call sub.toCsub = _
    unfold SubscribeContextRequest.updatedConditions SubscribeContextRequest.updatedProcessed
    rw [conds_processConditionVector]
  rw [hnew, hp.notifyConditionVector]
  cases d.follow ["subject", "condition", "attrs"] with
  | none => simp
  | some v =>
    simp only [Option.map_some, Option.getD_some, Option.elim_some, Option.some.injEq, forall_eq']
    rw [if_neg (List.cons_ne_nil _ _), ← parsedTexts_eq_texts_iff]
    simp

private theorem expression_iff (hp : Parsed parser true d request) :
    ((d.follow ["subject", "condition", "expression"]).elim
        ((Described.updatedCsub call now servicePath request sub cSubP).expression = sub.expression) fun v =>
          (Described.updatedCsub call now servicePath request sub cSubP).expression = some (givenExpression v)) ↔
      ∀ v, d.follow ["subject", "condition", "expression"] = some v → PlainExpression v := by
  have hnew : (Described.updatedCsub call now servicePath request sub cSubP).expression =
      if request.expressionIsSet then some request.expression else sub.expression := rfl
  rw [hnew, hp.expressionIsSet, hp.expression]
  cases d.follow ["subject", "condition", "expression"] with
  | none => simp
  | some v =>
    simp only [Option.map_some, Option.getD_some, Option.elim_some, Option.some.injEq, forall_eq', Option.isSome_some,
      if_true]
    exact parsedExpression_eq_given_iff

private theorem attributes_iff (hp : Parsed parser true d request) :
    (Described.updatedCsub call now servicePath request sub cSubP).attrs =
        ((d.follow ["notification", "attrs"]).map Json.texts).getD sub.attrs ↔
      ∀ v, d.follow ["notification", "attrs"] = some v →
        (∀ s ∈ v.texts, Plain s) ∧ (v.texts = [] → sub.attrs = []) := by
  have hnew : (Described.updatedCsub call now servicePath request sub cSubP).attrs =
      if request.attributeList ≠ [] then request.attributeList else sub.attrs := by
    change request.updatedAttrs .v2 sub.toCsub = _
    unfold SubscribeContextRequest.updatedAttrs
    simp only [true_and]
  rw [hnew, hp.attributeList]
  cases d.follow ["notification", "attrs"] with
  | none => simp
  | some v =>
    simp only [Option.map_some, Option.getD_some, Option.some.injEq, forall_eq']
    by_cases htexts : v.texts = []
    · have hnil : parsedTexts v = [] := by
        unfold parsedTexts
        rw [htexts]
        rfl
      simp [hnil, htexts]
    · have hne : parsedTexts v ≠ [] := by
        unfold parsedTexts
        simpa using htexts
      rw [if_pos hne, parsedTexts_eq_texts_iff]
      simp [htexts]

private theorem reference_iff (hp : Parsed parser true d request) :
    (Described.updatedCsub call now servicePath request sub cSubP).reference.getD "" =
        ((d.follow ["notification", "http", "url"]).map Json.text).getD (sub.reference.getD "") ↔
      ∀ v, d.follow ["notification", "http", "url"] = some v → Plain v.text := by
  rw [← @text_getD_iff _ (sub.reference.getD "")]
  have hnew : (Described.updatedCsub call now servicePath request sub cSubP).reference.getD "" =
      ((d.follow ["notification", "http", "url"]).map fun v => cString v.text).getD (sub.reference.getD "") := by
    change request.updatedReference .v2 sub.toCsub = _
    unfold SubscribeContextRequest.updatedReference
    have hurl := hp.url
    rw [hp.reference]
    revert hurl
    cases d.follow ["notification", "http", "url"] with
    | none => simp
    | some v =>
      intro hurl
      have hne := hurl v rfl
      simp [hne]
  rw [hnew]

private theorem expiration_iff (hp : Parsed parser true d request) :
    (Described.updatedCsub call now servicePath request sub cSubP).expiration.getD (-1) =
        ((d.member "expires").map (parsedExpires parser.parse8601Time)).getD (sub.expiration.getD (-1)) ↔
      ∀ v, d.member "expires" = some v →
        0 < parsedExpires parser.parse8601Time v ∨ sub.expiration.getD (-1) = parsedExpires parser.parse8601Time v := by
  have hnew : (Described.updatedCsub call now servicePath request sub cSubP).expiration.getD (-1) =
      if 0 < request.expires then request.expires else sub.expiration.getD (-1) := rfl
  rw [hnew, hp.expires]
  cases d.member "expires" with
  | none => simp
  | some v =>
    simp only [Option.map_some, Option.getD_some, Option.some.injEq, forall_eq']
    by_cases hpos : 0 < parsedExpires parser.parse8601Time v
    · simp [hpos]
    · simp [hpos]

private theorem throttling_iff (hp : Parsed parser true d request) :
    (Described.updatedCsub call now servicePath request sub cSubP).throttling.getD 0 =
        ((d.member "throttling").map Json.integer).getD (sub.throttling.getD 0) ↔
      ∀ v, d.member "throttling" = some v → 0 < v.integer ∨ sub.throttling.getD 0 = v.integer := by
  have hnew : (Described.updatedCsub call now servicePath request sub cSubP).throttling =
      if 0 < request.throttling.seconds then some request.throttling.seconds else sub.throttling := by
    change request.updatedThrottling call sub.toCsub = _
    unfold SubscribeContextRequest.updatedThrottling
    rw [if_neg (by rw [hp.throttling]; exact not_not.2 rfl)]
  rw [hnew, hp.throttling]
  cases d.member "throttling" with
  | none => simp
  | some v =>
    simp only [Option.map_some, Option.getD_some, Option.some.injEq, forall_eq']
    by_cases hpos : 0 < v.integer
    · simp [hpos]
    · simp [hpos]

private theorem status_iff (hp : Parsed parser true d request) :
    (Described.updatedCsub call now servicePath request sub cSubP).status.getD STATUS_ACTIVE =
        ((d.member "status").map Json.text).getD (sub.status.getD STATUS_ACTIVE) ↔
      ∀ v, d.member "status" = some v → Plain v.text := by
  rw [← @text_getD_iff _ (sub.status.getD STATUS_ACTIVE)]
  have hnew : (Described.updatedCsub call now servicePath request sub cSubP).status.getD STATUS_ACTIVE =
      ((d.member "status").map fun v => cString v.text).getD (sub.status.getD STATUS_ACTIVE) := by
    change request.updatedStatus sub.toCsub = _
    unfold SubscribeContextRequest.updatedStatus
    have hgiven := hp.statusGiven
    rw [hp.status]
    revert hgiven
    cases d.member "status" with
    | none => simp
    | some v =>
      intro hgiven
      have hne := hgiven v rfl
      simp [hne]
  rw [hnew]

/-- A format is only known by a text that is read to its end. -/
private theorem plain_of_renderFormatOfString {s : String} (h : renderFormatOfString s ≠ .NO_FORMAT) : Plain s := by
  unfold renderFormatOfString at h
  unfold Plain
  split at h
  · subst s; decide
  · split at h
    · subst s; decide
    · split at h
      · subst s; decide
      · split at h
        · subst s; decide
        · split at h
          · subst s; decide
          · split at h
            · subst s; decide
            · exact absurd rfl h

private theorem attrsFormat_iff (hp : Parsed parser true d request) :
    (Described.updatedCsub call now servicePath request sub cSubP).renderFormat =
        ((d.member "attrsFormat").map fun v => renderFormatOfString v.text).getD sub.renderFormat ↔
      (∀ v, d.member "attrsFormat" = some v → Plain v.text) ∧
        (d.member "attrsFormat" = none → sub.renderFormat = DEFAULT_RENDER_FORMAT) := by
  have hgiven := hp.formatGiven
  have hformat := hp.attrsFormat
  have hne : request.attrsFormat ≠ .NO_FORMAT := by
    rw [hformat]
    cases hm : d.member "attrsFormat" with
    | none => decide
    | some v => exact hgiven v hm
  have hnew : (Described.updatedCsub call now servicePath request sub cSubP).renderFormat = request.attrsFormat := by
    change stringToRenderFormat (request.updatedFormatString sub.toCsub) = _
    unfold SubscribeContextRequest.updatedFormatString
    rw [if_pos hne, stringToRenderFormat_renderFormatToString hne]
  rw [hnew, hformat]
  cases hm : d.member "attrsFormat" with
  | none =>
    simp only [Option.map_none, Option.getD_none, reduceCtorEq, false_implies, implies_true, true_and, forall_const]
    exact eq_comm
  | some v =>
    simp only [Option.map_some, Option.getD_some, Option.some.injEq, forall_eq', reduceCtorEq, false_implies, and_true]
    constructor
    · intro he
      exact plain_of_renderFormatOfString (he ▸ hgiven v hm)
    · intro hplain
      rw [cString_eq_self_iff.2 hplain]

theorem isOverlay_iff (hp : Parsed parser true d request) :
    IsOverlay parser.parse8601Time d sub (Described.updatedCsub call now servicePath request sub cSubP) ↔
      PatchApplies parser.parse8601Time d sub := by
  have hdescription := description_iff call now servicePath sub cSubP hp
  have hentities := entities_iff call now servicePath sub cSubP hp
  have hconditions := conditions_iff call now servicePath sub cSubP hp
  have hexpression := expression_iff call now servicePath sub cSubP hp
  have hattributes := attributes_iff call now servicePath sub cSubP hp
  have hreference := reference_iff call now servicePath sub cSubP hp
  have hexpiration := expiration_iff call now servicePath sub cSubP hp
  have hthrottling := throttling_iff call now servicePath sub cSubP hp
  have hstatus := status_iff call now servicePath sub cSubP hp
  have hformat := attrsFormat_iff call now servicePath sub cSubP hp
  constructor
  · intro h
    exact ⟨hdescription.1 h.description, hentities.1 h.entities, hconditions.1 h.conditions,
      hexpression.1 h.expression, hattributes.1 h.attributes, hreference.1 h.reference, hexpiration.1 h.expiration,
      hthrottling.1 h.throttling, hstatus.1 h.status, (hformat.1 h.attrsFormat).1, (hformat.1 h.attrsFormat).2⟩
  · intro h
    exact ⟨hdescription.2 h.description, hentities.2 h.entities, hconditions.2 h.conditions,
      hexpression.2 h.expression, hattributes.2 h.attributes, hreference.2 h.reference, hexpiration.2 h.expiration,
      hthrottling.2 h.throttling, hstatus.2 h.status, hformat.2 ⟨h.attrsFormat, h.noFormat⟩⟩

end Overlay

section Patch

variable {Item : Type} (code : FilterCode Item) (call : Subscribing) (now : Int) (tenant servicePath : String)
  (parser : SubscriptionParser Item)

/-- An update of a stored subscription succeeds; it is an overlay of the old document exactly for these payloads. -/
theorem patch_is_overlay_iff {payload : Option Json} {request : DescribedRequest Item} {st : DescribedState Item}
    {subscriptionId id : String} {sub : DescribedCsub}
    (hparse : parseSubscription parser payload true = .ok request) (hid : safeGetSubId subscriptionId = some id)
    (hsub : KeyedList.get (fun sub : DescribedCsub => sub.id) id (st.csubs tenant) = some sub) :
    ∃ d st' sent new, payload = some d ∧
      Described.mongoUpdateContextSubscription code call now tenant servicePath request subscriptionId st =
        some (st', sent) ∧
      KeyedList.get (fun sub : DescribedCsub => sub.id) id (st'.csubs tenant) = some new ∧
      (IsOverlay parser.parse8601Time d sub new ↔ PatchApplies parser.parse8601Time d sub) := by
  obtain ⟨d, rfl, hp⟩ := parseSubscription_ok hparse
  have hkey := (KeyedList.mem_of_get hsub).2
  have hupdate : ∃ st' sent, Described.mongoUpdateContextSubscription code call now tenant servicePath request
        subscriptionId st = some (st', sent) ∧
      KeyedList.get (fun sub : DescribedCsub => sub.id) id (st'.csubs tenant) =
        some (Described.updatedCsub call now servicePath request sub
          (subCacheItemLookup tenant subscriptionId st.cache)) := by
    unfold Described.mongoUpdateContextSubscription
    rw [hid]
    dsimp only
    rw [hsub]
    refine ⟨_, _, rfl, ?_⟩
    dsimp only
    rw [Function.update_self, KeyedList.get_modify, if_pos rfl, hsub, Option.map_some]
    intro _ _
    exact hkey
  obtain ⟨st', sent, hst, hnew⟩ := hupdate
  exact ⟨d, st', sent, _, rfl, hst, hnew, isOverlay_iff call now servicePath sub _ hp⟩

end Patch

/-! ### A payload with a status only -/

section Example

/-- A parser of texts without filters and dates. -/
def noTexts : SubscriptionParser Empty where
  stringFilter := fun _ => .ok []
  parse8601Time := fun _ => 0

/-- A subscription whose notifications have the format `keyValues`. -/
def keyValuesCsub : DescribedCsub where
  id := exampleId
  entities := [{ id := some "Room1", type := some "Room", isPattern := some "false" }]
  attrs := ["temperature"]
  conditions := [⟨ON_CHANGE_CONDITION, ["temperature"]⟩]
  reference := some "http://localhost/notify"
  expiration := some PERMANENT_SUBS_DATETIME
  status := some "active"
  format := some "keyValues"

def keyValuesState : DescribedState Empty where
  cache := []
  csubs := fun _ => [keyValuesCsub]

def statusPatch : Json := .object [("status", .string "inactive")]

def formatPatch : Json := .object [("attrsFormat", .string "values")]

/-- An update of the status also changes the format. -/
theorem patch_changes_format :
    ¬ ∀ (payload : Json) (request : DescribedRequest Empty) (st st' : DescribedState Empty) (sent : Nat)
        (sub new : DescribedCsub),
      parseSubscription noTexts (some payload) true = .ok request →
      KeyedList.get (fun sub : DescribedCsub => sub.id) exampleId (st.csubs "") = some sub →
      Described.mongoUpdateContextSubscription noFilters noEntities 0 "" "" request exampleId st =
        some (st', sent) →
      KeyedList.get (fun sub : DescribedCsub => sub.id) exampleId (st'.csubs "") = some new →
      IsOverlay noTexts.parse8601Time payload sub new := by
  intro h
  have hoverlay := h statusPatch _ keyValuesState _ _ keyValuesCsub _ rfl rfl rfl rfl
  have hformat := hoverlay.attrsFormat
  revert hformat
  decide

/-- An update of the format, where the payload has nothing that is not applied. -/
theorem patch_is_overlay_format :
    parseSubscription noTexts (some formatPatch) true = .ok { attrsFormat := .NGSI_V2_VALUES } ∧
      ∃ d st' sent new, some formatPatch = some d ∧
        Described.mongoUpdateContextSubscription noFilters noEntities 0 "" "" { attrsFormat := .NGSI_V2_VALUES }
          exampleId keyValuesState = some (st', sent) ∧
        KeyedList.get (fun sub : DescribedCsub => sub.id) exampleId (st'.csubs "") = some new ∧
        (IsOverlay noTexts.parse8601Time d keyValuesCsub new ↔ PatchApplies noTexts.parse8601Time d keyValuesCsub) :=
  ⟨rfl, patch_is_overlay_iff noFilters noEntities 0 "" "" noTexts rfl rfl rfl⟩

end Example

end OrionBroker
