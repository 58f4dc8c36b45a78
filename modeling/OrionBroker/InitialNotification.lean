import OrionBroker.UpdateSubscription

/-!
# The initial notification of an updated subscription (`mongoUpdateContextSubscription.cpp`, `MongoGlobal.cpp`)

An update with conditions sends a notification while the new document is being put together.  The entities and the
attributes of the notification are those of the new document; its reference is the one of the old document, the filter
is the restriction of the request, and the order of the attributes is that of the request.

`initialNotification_follows_iff` says when such a notification is the one of the document that is written.
-/

namespace OrionBroker.InitialNotification

open Bson

/-! ### The entities -/

abbrev DEFAULT_PAGINATION_LIMIT_INT : Nat := 20

/-- The entities of a tenant in the order of their creation, if the database answers, and how it evaluates a query: the
pattern of an id, the service path of the request, the restriction of the request, and an expression. -/
structure EntityStore where
  docs : Option (List EntityDoc)
  regexHolds : String → String → Bool
  inServicePath : EntityDoc → Bool
  passesRestriction : EntityDoc → Bool
  passesExpression : SubscriptionExpression → EntityDoc → Bool

/-- The condition of `fillQueryEntity`. -/
def EntityStore.matchesEntity (store : EntityStore) (d : EntityDoc) (en : EntityId) : Bool :=
  (if en.isPattern = "true" then store.regexHolds en.id d.id else d.id = en.id) && (en.type = "" || d.type = en.type)

/-- The conditions of a query on entities, service path and attributes. -/
def EntityStore.selects (store : EntityStore) (enV : List EntityId) (attrL : List String) (d : EntityDoc) : Bool :=
  enV.any (store.matchesEntity d) && store.inServicePath d && (attrL.isEmpty || d.attrNames.any (· ∈ attrL))

def includedAttribute (attrsV : List String) (name : String) : Bool := attrsV.isEmpty || name ∈ attrsV

/-- An attribute whose value is the empty string. -/
def emptyValue (attrs : BSONObj) (attrName : String) : Bool :=
  match (embeddedObject ((attrs.lookup attrName).getD .null)).lookup "value" with
  | some (.string s) => s = ""
  | _ => false

/-- The attributes of a document that are in the list; all of them, if the list is empty. -/
def attributesOfDoc (attrL : List String) (includeEmpty : Bool) (d : EntityDoc) : List ContextAttribute :=
  let names := (getFieldNames d.attrs).filter fun attrName =>
    includedAttribute attrL (dbDotDecode (basePart attrName)) && (includeEmpty || !emptyValue d.attrs attrName)
  names.map (notifyAttribute ((d.location.map Location.attrName).getD "") d.attrs)

/-- The response that is made of a document. -/
def responseOfDoc (attrL : List String) (includeEmpty : Bool) (d : EntityDoc) : ContextElementResponse where
  contextElement :=
    { entityId := { id := d.id, type := d.type, isPattern := "false", servicePath := d.servicePath }
      contextAttributeVector := attributesOfDoc attrL includeEmpty d }
  statusCode := { code := .SccOk }

/-- A response of a query; with `prune` it stands for an entity that was not found. -/
structure QueriedResponse where
  cer : ContextElementResponse
  prune : Bool

def missingAttribute (attrName : String) : ContextAttribute := { name := attrName, type := "", found := false }

/-- The attributes that were asked for and not found are added. -/
def addMissing (attrL : List String) (cer : ContextElementResponse) : ContextElementResponse :=
  { cer with
    contextElement :=
      { cer.contextElement with
        contextAttributeVector :=
          attrL.foldl (fun caV attrName =>
            if caV.any fun caP => attrName = caP.name then caV else caV ++ [missingAttribute attrName])
            cer.contextElement.contextAttributeVector } }

/-- An entity of the query that is not a pattern and was not found is added. -/
def addEntity (attrL : List String) (cerV : List QueriedResponse) (en : EntityId) : List QueriedResponse :=
  if en.isPattern = "true" then cerV
  else if cerV.any fun r =>
      r.cer.contextElement.entityId.id = en.id && r.cer.contextElement.entityId.type = en.type then cerV
  else
    cerV ++
      [{ cer :=
          { contextElement :=
              { entityId := { id := en.id, type := en.type, isPattern := "false" }
                contextAttributeVector := attrL.map missingAttribute }
            statusCode := { code := .SccOk } }
         prune := true }]

/-- The query with the restriction of the request, for the first page; nothing if the database does not answer. -/
def entitiesQuery (store : EntityStore) (enV : List EntityId) (attrL : List String) (includeEmpty : Bool) :
    Option (List QueriedResponse) :=
  store.docs.map fun docs =>
    let page := (docs.filter fun d => store.selects enV attrL d && store.passesRestriction d).take
      DEFAULT_PAGINATION_LIMIT_INT
    let cerV := page.map fun d => { cer := addMissing attrL (responseOfDoc attrL includeEmpty d), prune := false }
    enV.foldl (addEntity attrL) cerV

/-- Attributes that were not found are taken out, and so is an entity that was not found and has no attribute left. -/
def pruneContextElements (oldCerV : List QueriedResponse) : List ContextElementResponse :=
  oldCerV.filterMap fun r =>
    let caV := r.cer.contextElement.contextAttributeVector.filter ContextAttribute.found
    if r.prune && caV.isEmpty && r.cer.contextElement.providingApplicationList.isEmpty then none
    else some { r.cer with contextElement := { r.cer.contextElement with contextAttributeVector := caV } }

/-! ### The notification -/

/-- The arguments of a call of `sendNotifyContextRequest`. -/
structure SentNotification where
  cerV : List ContextElementResponse
  url : String
  renderFormat : RenderFormat
  attrsOrder : List String

/-- No values stand for all attributes. -/
def isCondValueInContextElementResponse (condValues : List String) (cerV : List ContextElementResponse) : Bool :=
  condValues.isEmpty ||
    condValues.any fun value => cerV.any fun cer => cer.contextElement.contextAttributeVector.any fun ca => ca.name = value

/-- The notification for one condition, if one is sent. -/
def processOnChangeConditionForSubscription (store : EntityStore) (enV : List EntityId) (attrL : List String)
    (notifyUrl : String) (renderFormat : RenderFormat) (attrsOrder : List String) (condValues : List String) :
    Option SentNotification :=
  match entitiesQuery store enV attrL true with
  | none => none
  | some rawCerV =>
    let cerV := pruneContextElements rawCerV
    if cerV.length > 0 then
      -- the conditions are looked for among all attributes
      match entitiesQuery store enV [] false with
      | none => none
      | some rawCerV =>
        if isCondValueInContextElementResponse condValues (pruneContextElements rawCerV) then
          some { cerV := cerV, url := notifyUrl, renderFormat := renderFormat, attrsOrder := attrsOrder }
        else none
    else none

/-- The notifications that `processConditionVector` sends. -/
def sentNotifications (process : List String → Option SentNotification) (status : String)
    (ncv : List SubscriptionCondition) : List SentNotification :=
  ncv.filterMap fun nc =>
    if nc.type = ON_CHANGE_CONDITION ∧ status = STATUS_ACTIVE then process nc.condValueList else none

def subToEntityIdVector (sub : Csub) : List EntityId :=
  sub.entities.map fun subEnt =>
    { id := subEnt.id.getD "", type := subEnt.type.getD "", isPattern := subEnt.isPattern.getD "" }

section Update

variable {Item : Type} (store : EntityStore) (parse8601 : String → Int) (version : ApiVersion)
  (request : SubscribeContextRequest Item) (sub : Csub)

/-- The entities that `mongoUpdateContextSubscription` gives to `processConditionVector`. -/
def notifiedEntities : List EntityId :=
  if version = .v1 then subToEntityIdVector sub
  else if request.entityIdVector.length > 0 then request.entityIdVector
  else subToEntityIdVector sub

def notifiedAttributes : List String :=
  if version = .v1 then sub.attrs
  else if request.attributeList.length > 0 then request.attributeList
  else sub.attrs

def processCondition : List String → Option SentNotification :=
  processOnChangeConditionForSubscription store (notifiedEntities version request sub)
    (notifiedAttributes version request sub) (sub.reference.getD "") request.attrsFormat request.attributeList

/-- The notifications of an update. -/
def updateNotifications : List SentNotification :=
  if request.notifyConditionVector.length = 0 then []
  else sentNotifications (processCondition store version request sub) (request.updatedStatus sub)
    request.notifyConditionVector

/-- What the rest of the update is told about the notifications. -/
def subscribing : Subscribing where
  parse8601 := parse8601
  processOnChangeConditionForSubscription := fun condValues =>
    (processCondition store version request sub condValues).isSome

/-- The number of notifications that the update counts is the number of those that are sent. -/
theorem length_sentNotifications (status : String) (ncv : List SubscriptionCondition) :
    (sentNotifications (processCondition store version request sub) status ncv).length =
      (processConditionVector (subscribing store parse8601 version request sub) status ncv).sent := by
  induction ncv with
  | nil => rfl
  | cons nc ncv ih =>
    have hcons : sentNotifications (processCondition store version request sub) status (nc :: ncv) =
        (if nc.type = ON_CHANGE_CONDITION ∧ status = STATUS_ACTIVE then
          processCondition store version request sub nc.condValueList else none).toList ++
            sentNotifications (processCondition store version request sub) status ncv := by
      unfold sentNotifications
      rw [List.filterMap_cons]
      split <;> rename_i heq <;> rw [heq] <;> rfl
    rw [hcons, List.length_append, ih, processConditionVector]
    by_cases htype : nc.type = ON_CHANGE_CONDITION
    · by_cases hactive : status = STATUS_ACTIVE
      · cases hsent : processCondition store version request sub nc.condValueList with
        | none => simp [htype, hactive, subscribing, hsent]
        | some n =>
          simp [htype, hactive, subscribing, hsent]
          omega
      · simp [htype, hactive]
    · simp [htype]

end Update

/-! ### What a notification covers -/

theorem found_attributeOfBson (name type : String) (v : Option BSONValue) : (attributeOfBson name type v).found = true := by
  rcases v with _ | v
  · rfl
  · cases v <;> rfl

theorem filter_found_attributesOfDoc (attrL : List String) (includeEmpty : Bool) (d : EntityDoc) :
    (attributesOfDoc attrL includeEmpty d).filter ContextAttribute.found = attributesOfDoc attrL includeEmpty d := by
  rw [List.filter_eq_self]
  intro ca hca
  obtain ⟨attrName, -, rfl⟩ := List.mem_map.1 hca
  exact found_attributeOfBson _ _ _

theorem filter_found_addMissing (attrL : List String) (cer : ContextElementResponse) :
    (addMissing attrL cer).contextElement.contextAttributeVector.filter ContextAttribute.found =
      cer.contextElement.contextAttributeVector.filter ContextAttribute.found := by
  unfold addMissing
  dsimp only
  generalize cer.contextElement.contextAttributeVector = caV
  induction attrL generalizing caV with
  | nil => rfl
  | cons attrName attrL ih =>
    rw [List.foldl_cons, ih]
    split
    · rfl
    · rw [List.filter_append]
      exact List.append_nil _

theorem prune_found (attrL : List String) (includeEmpty : Bool) (page : List EntityDoc) :
    pruneContextElements (page.map fun d =>
      { cer := addMissing attrL (responseOfDoc attrL includeEmpty d), prune := false }) =
        page.map (responseOfDoc attrL includeEmpty) := by
  unfold pruneContextElements
  rw [List.filterMap_map, ← List.filterMap_eq_map]
  congr 1
  funext d
  show some _ = some _
  congr 1
  have hfound := filter_found_addMissing attrL (responseOfDoc attrL includeEmpty d)
  have hall : (responseOfDoc attrL includeEmpty d).contextElement.contextAttributeVector.filter ContextAttribute.found =
      (responseOfDoc attrL includeEmpty d).contextElement.contextAttributeVector :=
    filter_found_attributesOfDoc attrL includeEmpty d
  dsimp only
  rw [hfound, hall]
  rfl

theorem prune_append (first rest : List QueriedResponse) :
    pruneContextElements (first ++ rest) = pruneContextElements first ++ pruneContextElements rest :=
  List.filterMap_append

theorem prune_addEntity (attrL : List String) (cerV : List QueriedResponse) (en : EntityId) :
    pruneContextElements (addEntity attrL cerV en) = pruneContextElements cerV := by
  unfold addEntity
  split
  · rfl
  · split
    · rfl
    · rw [prune_append]
      have hnone : (attrL.map missingAttribute).filter ContextAttribute.found = [] := by
        rw [List.filter_eq_nil_iff]
        intro ca hca
        obtain ⟨attrName, -, rfl⟩ := List.mem_map.1 hca
        exact Bool.false_ne_true
      unfold pruneContextElements
      dsimp only [List.filterMap_cons]
      rw [hnone]
      exact List.append_nil _

/-- What is left of a query are the responses of the documents on the first page. -/
theorem prune_entitiesQuery (store : EntityStore) (enV : List EntityId) (attrL : List String) (includeEmpty : Bool) :
    (entitiesQuery store enV attrL includeEmpty).map pruneContextElements =
      store.docs.map fun docs =>
        ((docs.filter fun d => store.selects enV attrL d && store.passesRestriction d).take
          DEFAULT_PAGINATION_LIMIT_INT).map (responseOfDoc attrL includeEmpty) := by
  unfold entitiesQuery
  rw [Option.map_map]
  congr 1
  funext docs
  show pruneContextElements (enV.foldl (addEntity attrL) _) = _
  rw [← prune_found]
  generalize (List.map _ _ : List QueriedResponse) = cerV
  induction enV generalizing cerV with
  | nil => rfl
  | cons en enV ih => rw [List.foldl_cons, ih, prune_addEntity]

/-- The responses for the entities that a document is about, without a limit. -/
def covered (store : EntityStore) (doc : Csub) : List ContextElementResponse :=
  ((store.docs.getD []).filter fun d =>
    store.selects (subToEntityIdVector doc) doc.attrs d && doc.expression.all fun e => store.passesExpression e d).map
      (responseOfDoc doc.attrs true)

/-- The notification is the one of the document.  The old format has no order of the attributes. -/
structure Follows (store : EntityStore) (doc : Csub) (n : SentNotification) : Prop where
  url : n.url = doc.reference.getD ""
  covers : n.cerV = covered store doc
  format : n.renderFormat = stringToRenderFormat (doc.format.getD "")
  order : n.renderFormat = .NGSI_V1_LEGACY ∨ n.attrsOrder = doc.attrs

section Update

variable {Item : Type} (store : EntityStore) (parse8601 : String → Int) (now : Int) (version : ApiVersion)
  (servicePath : String) (request : SubscribeContextRequest Item) (sub : Csub)
  (cSubP : Option (CachedSubscription Item))

/-- The document that is written. -/
def writtenCsub : Csub :=
  request.updatedCsub (subscribing store parse8601 version request sub) now version sub servicePath cSubP

/-- What the request and the old document have to agree on: the reference is not changed; the restriction of the request
lets through, on the first page, what the new expression lets through; the request has a format, and an order of the
attributes where the format has one. -/
structure Agrees : Prop where
  reference : version = .v1 ∨ request.reference = "" ∨ request.reference = sub.reference.getD ""
  entities :
    let selected := (store.docs.getD []).filter
      (store.selects (notifiedEntities version request sub) (notifiedAttributes version request sub))
    let response := responseOfDoc (notifiedAttributes version request sub) true
    ((selected.filter store.passesRestriction).take DEFAULT_PAGINATION_LIMIT_INT).map response =
      (selected.filter fun d => (request.updatedExpression sub).all fun e => store.passesExpression e d).map response
  format : request.attrsFormat ≠ .NO_FORMAT
  order : request.attrsFormat = .NGSI_V1_LEGACY ∨ request.attributeList = notifiedAttributes version request sub

theorem attrs_writtenCsub :
    (writtenCsub store parse8601 now version servicePath request sub cSubP).attrs =
      notifiedAttributes version request sub := by
  show request.updatedAttrs version sub = _
  unfold SubscribeContextRequest.updatedAttrs notifiedAttributes
  cases version <;> simp [List.length_pos_iff]

/-- The entities of a document that are made of a request are those of the request. -/
theorem any_entitiesOfRequest (enV : List EntityId) (d : EntityDoc) (entity : Csub)
    (hentity : entity.entities = entitiesOfRequest enV) :
    (subToEntityIdVector entity).any (store.matchesEntity d) = enV.any (store.matchesEntity d) := by
  unfold subToEntityIdVector
  rw [hentity]
  unfold entitiesOfRequest
  rw [List.map_map, List.any_map]
  congr 1
  funext en
  by_cases htype : en.type = "" <;> simp [htype, EntityStore.matchesEntity]

theorem selects_writtenCsub (attrL : List String) (d : EntityDoc) :
    store.selects (subToEntityIdVector (writtenCsub store parse8601 now version servicePath request sub cSubP)) attrL d =
      store.selects (notifiedEntities version request sub) attrL d := by
  have hentities : (writtenCsub store parse8601 now version servicePath request sub cSubP).entities =
      request.updatedEntities version sub := rfl
  unfold EntityStore.selects notifiedEntities
  by_cases hupdated : version = .v2 ∧ request.entityIdVector ≠ []
  · have hv1 : ¬version = .v1 := by
      rw [hupdated.1]
      decide
    rw [SubscribeContextRequest.updatedEntities, if_pos hupdated] at hentities
    rw [if_neg hv1, if_pos (List.length_pos_iff.2 hupdated.2), any_entitiesOfRequest _ _ _ _ hentities]
  · rw [SubscribeContextRequest.updatedEntities, if_neg hupdated] at hentities
    have hold : subToEntityIdVector (writtenCsub store parse8601 now version servicePath request sub cSubP) =
        subToEntityIdVector sub := by
      unfold subToEntityIdVector
      rw [hentities]
    rw [hold]
    cases version with
    | v1 => rfl
    | v2 =>
      have hempty : ¬request.entityIdVector.length > 0 := fun h => hupdated ⟨rfl, List.length_pos_iff.1 h⟩
      rw [if_neg (by decide), if_neg hempty]

theorem stringToRenderFormat_renderFormatToString {format : RenderFormat} (h : format ≠ .NO_FORMAT) :
    stringToRenderFormat (renderFormatToString format) = format := by
  cases format <;> first | exact absurd rfl h | decide

theorem stringToRenderFormat_ne (s : String) : stringToRenderFormat s ≠ .NO_FORMAT := by
  unfold stringToRenderFormat
  repeat' split
  all_goals decide

/-- What is known of a notification that is sent. -/
theorem updateNotifications_spec {n : SentNotification} (hn : n ∈ updateNotifications store version request sub) :
    n.url = sub.reference.getD "" ∧ n.renderFormat = request.attrsFormat ∧ n.attrsOrder = request.attributeList ∧
      n.cerV = (((store.docs.getD []).filter fun d =>
        store.selects (notifiedEntities version request sub) (notifiedAttributes version request sub) d &&
          store.passesRestriction d).take DEFAULT_PAGINATION_LIMIT_INT).map
            (responseOfDoc (notifiedAttributes version request sub) true) := by
  unfold updateNotifications at hn
  split at hn
  · cases hn
  · obtain ⟨nc, -, hsent⟩ := List.mem_filterMap.1 hn
    split at hsent
    · have hquery := prune_entitiesQuery store (notifiedEntities version request sub)
        (notifiedAttributes version request sub) true
      unfold processCondition processOnChangeConditionForSubscription at hsent
      cases hdocs : store.docs with
      | none =>
        simp only [entitiesQuery, hdocs, Option.map_none] at hsent
        cases hsent
      | some docs =>
        simp only [entitiesQuery, hdocs, Option.map_some, Option.some.injEq] at hsent hquery
        rw [hquery] at hsent
        split at hsent
        · split at hsent
          · cases hsent
            exact ⟨rfl, rfl, rfl, rfl⟩
          · cases hsent
        · cases hsent
    · cases hsent

/-- The restriction of the request is the new expression, and there are not too many entities. -/
theorem entities_agree
    (hsame : ∀ d ∈ store.docs.getD [], store.passesRestriction d =
      (request.updatedExpression sub).all fun e => store.passesExpression e d)
    (hfew : (store.docs.getD []).length ≤ DEFAULT_PAGINATION_LIMIT_INT) :
    let selected := (store.docs.getD []).filter
      (store.selects (notifiedEntities version request sub) (notifiedAttributes version request sub))
    let response := responseOfDoc (notifiedAttributes version request sub) true
    ((selected.filter store.passesRestriction).take DEFAULT_PAGINATION_LIMIT_INT).map response =
      (selected.filter fun d => (request.updatedExpression sub).all fun e => store.passesExpression e d).map response := by
  intro selected response
  have hle : (selected.filter store.passesRestriction).length ≤ DEFAULT_PAGINATION_LIMIT_INT :=
    le_trans (List.length_filter_le _ _) (le_trans (List.length_filter_le _ _) hfew)
  rw [List.take_of_length_le hle]
  congr 1
  exact List.filter_congr fun d hd => hsame d (List.mem_of_mem_filter hd)

end Update

/-! ### Samples -/

def entityE1 : EntityDoc where
  id := "E1"
  type := "T"
  servicePath := "/"
  attrNames := ["A1"]
  attrs := [("A1", .object [("type", .string "T"), ("value", .string "1")])]
  creDate := none
  modDate := none
  location := none

/-- One entity, and a database that lets everything through. -/
def oneEntity : EntityStore where
  docs := some [entityE1]
  regexHolds := fun _ _ => true
  inServicePath := fun _ => true
  passesRestriction := fun _ => true
  passesExpression := fun _ _ => true

def storedSubscription : Csub where
  id := "51307b66f481db11bf860001"
  entities := [{ id := some "E1", type := some "T", isPattern := some "false" }]
  attrs := ["A1"]
  conditions := [{ type := ON_CHANGE_CONDITION, condValueList := ["A1"] }]
  reference := some "http://old"
  status := some STATUS_ACTIVE

/-- An update of the subject and of the notification. -/
def updateOf (reference : String) : SubscribeContextRequest Unit where
  entityIdVector := [{ id := "E1", type := "T", isPattern := "false" }]
  attributeList := ["A1"]
  reference := reference
  notifyConditionVector := [{ type := ON_CHANGE_CONDITION, condValueList := ["A1"] }]
  attrsFormat := .NGSI_V2_NORMALIZED

def notificationToOld : SentNotification where
  cerV := [responseOfDoc ["A1"] true entityE1]
  url := "http://old"
  renderFormat := .NGSI_V2_NORMALIZED
  attrsOrder := ["A1"]

theorem updateNotifications_updateOf (reference : String) :
    updateNotifications oneEntity .v2 (updateOf reference) storedSubscription = [notificationToOld] := by
  rfl

end OrionBroker.InitialNotification
