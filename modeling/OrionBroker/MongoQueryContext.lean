import OrionBroker.CursorLoops
import OrionBroker.InitialNotification
import OrionBroker.Pagination
import OrionBroker.PostQueryContext
import OrionBroker.RestoredEntity

/-!
# Queries and the providers that complete them (`mongoQueryContext.cpp`, `MongoGlobal.cpp`)

A query is answered with the entities of the database first.  What is missing is then looked up in the registrations,
and put into the same vector: a provider for an attribute that was asked for and not found, more attributes with a
provider, and entities that only a provider has.  At the end `pruneContextElements` takes out what no one has.

The functions that add something search the vector for the entity first.  `local_result_completed` says what they leave
of the entities of the database: their attributes stay as they are, and no entity is added twice, or at all when the
limit of the pagination was reached without it.
-/

namespace OrionBroker.MongoQueryContext

open Areas (atoi)
open Bson Buckets CursorLoops
open InitialNotification (EntityStore QueriedResponse addEntity pruneContextElements missingAttribute)

/-! ### The query on the entities -/

def DATE_TYPE : String := "date"
def DATE_CREATED : String := "dateCreated"
def DATE_MODIFIED : String := "dateModified"

/-- A date of the entity as an attribute; a document may be without it. -/
def dateAttribute (name : String) (date : Option Int) : List ContextAttribute :=
  date.toList.map fun n => { name := name, type := DATE_TYPE, valueType := .number, numberValue := .fin n }

/-- The constructor of a response from a document, and its status. -/
def responseOfDoc (attrL : List String) (includeCreDate includeModDate : Bool) (apiVersion : ApiVersion)
    (d : EntityDoc) : ContextElementResponse where
  contextElement :=
    { entityId := { id := d.id, type := d.type, isPattern := "false", servicePath := d.servicePath }
      contextAttributeVector :=
        ((getFieldNames d.attrs).filter fun attrName =>
            InitialNotification.includedAttribute attrL (dbDotDecode (basePart attrName))).map
          (attributeOfDoc apiVersion ((d.location.map Location.attrName).getD "") d.attrs) ++
        (if includeCreDate then dateAttribute DATE_CREATED d.creDate else []) ++
        (if includeModDate then dateAttribute DATE_MODIFIED d.modDate else []) }
  statusCode := { code := .SccOk }

/-- The two collections, and how the database and the C library evaluate a query.  `sort` is the order that the request
asks for, and `refused` what is raised if there is no answer; the cursor for the entities may stop after some documents,
when `more` fails or `nextSafe` raises something. -/
structure Database where
  store : EntityStore
  text : QueryText
  refused : String := ""
  sort : String → List EntityDoc → List EntityDoc
  stopped : Option (Nat × Option Thrown) := none
  registrations : Option (List BSONObj)
  regexec : String → String → Bool
  pcre : String → Option (String → Bool)
  getCurrentTime : Int

/-- The documents that were read, with what an `AssertionException` says, and the number of all that there are. -/
structure EntitiesRead where
  docs : List EntityDoc
  raised : Option String := none
  count : Nat

/-- The cursor ends when the limit is reached, and is not asked for more; a limit of 0 is none. -/
def Database.read (db : Database) (enV : List EntityId) (attrL : List String) (sortOrderList : String)
    (offset limit : Int) : Except String EntitiesRead :=
  match db.store.docs with
  | none => .error (db.text.databaseError db.refused)
  | some docs =>
    let selected := docs.filter fun d => db.store.selects enV attrL d && db.store.passesRestriction d
    let rest := (db.sort sortOrderList selected).drop offset.toNat
    let page := if limit = 0 then rest else rest.take limit.natAbs
    match db.stopped with
    | none => .ok { docs := page, count := selected.length }
    | some (turn, e) =>
      if limit ≠ 0 ∧ limit.natAbs ≤ turn then .ok { docs := page, count := selected.length }
      else
        match e with
        | none => .ok { docs := page.take turn, count := selected.length }
        | some (.assertion what) => .ok { docs := page.take turn, raised := some what, count := selected.length }
        | some (.std what) => .error what
        | some .other => .error "generic exception at nextSafe()"

/-- What `mongoQueryContext` reads of the parameters of the uri and its other arguments. -/
structure Query where
  requestP : QueryContextRequest
  servicePathV : List String
  uriParams : String → String
  options : String → Bool
  countP : Bool
  apiVersion : ApiVersion

namespace Query

variable (query : Query) (db : Database)

def offset : Int := atoi (query.uriParams "offset").toList
def limit : Int := atoi (query.uriParams "limit").toList

/-- The arguments of `entitiesQuery`; the limit is compared as an unsigned number. -/
def entitiesRequest : EntitiesRequest EntityDoc where
  text := db.text
  enV := query.requestP.entityIdVector
  attrL := query.requestP.attributeList
  limit := (query.limit % 2 ^ 32).toNat
  limitReached := true
  count := query.countP
  cer := responseOfDoc query.requestP.attributeList (query.options DATE_CREATED) (query.options DATE_MODIFIED)
    query.apiVersion

def read : Except String EntitiesRead :=
  db.read query.requestP.entityIdVector query.requestP.attributeList (query.uriParams "orderBy") query.offset query.limit

/-- The responses, whether the limit was reached, and the number of all entities. -/
def entitiesQuery : Except String (List QueriedResponse × Bool × Nat) :=
  match query.read db with
  | .error err => .error err
  | .ok found =>
    let req := query.entitiesRequest db
    let cerV := found.docs.map fun r => { cer := req.found r, prune := false }
    match found.raised with
    | some exErr => .ok (cerV ++ [{ cer := req.failed exErr, prune := false }], false, found.count)
    | none =>
      -- no potential entities are added when the limit is reached
      if req.limit ≤ cerV.length then .ok (cerV, true, found.count)
      else .ok (req.enV.foldl (addEntity req.attrL) cerV, false, found.count)

end Query

/-! ### The providers -/

/-- Is this response about the entity? -/
def isFor (en : EntityId) (r : QueriedResponse) : Bool :=
  r.cer.contextElement.entityId.id = en.id && r.cer.contextElement.entityId.type = en.type

def someContextElementNotFound (cerV : List QueriedResponse) : Bool :=
  cerV.any fun r => OrionBroker.someContextElementNotFound r.cer.contextElement.contextAttributeVector

/-- The registration as `cprLookupByAttribute` reads it. -/
def contextRegistration (crr : ContextRegistrationResponse) : ContextRegistration where
  entityIdVector := crr.entityIdVector
  contextRegistrationAttributeVector := crr.contextRegistrationAttributeVector.map ContextRegistrationAttribute.name
  providingApplication := crr.providingApplication

def withAttributes (r : QueriedResponse) (caV : List ContextAttribute) : QueriedResponse :=
  { r with cer := { r.cer with contextElement := { r.cer.contextElement with contextAttributeVector := caV } } }

def fillContextProviders (crrV : List ContextRegistrationResponse) (cerV : List QueriedResponse) :
    List QueriedResponse :=
  cerV.map fun r =>
    withAttributes r (OrionBroker.fillContextProviders r.cer.contextElement.entityId (crrV.map contextRegistration)
      r.cer.contextElement.contextAttributeVector)

/-- A response that is created for an entity of a registration. -/
def createdResponse (enP : EntityId) (caV : List ContextAttribute) (providingApplicationList : List String) :
    QueriedResponse where
  cer :=
    { contextElement :=
        { entityId := { id := enP.id, type := enP.type, isPattern := "false" }
          contextAttributeVector := caV
          providingApplicationList := providingApplicationList }
      statusCode := { code := .SccOk } }
  prune := false

def pushProvider (pa : String) (r : QueriedResponse) : QueriedResponse :=
  { r with cer := { r.cer with contextElement :=
      { r.cer.contextElement with
        providingApplicationList := r.cer.contextElement.providingApplicationList ++ [pa] } } }

def addContextProviderEntity (enP : EntityId) (pa : String) (cerV : List QueriedResponse) : List QueriedResponse :=
  place (isFor enP) (pushProvider pa) (createdResponse enP [] [pa]) cerV

def providedAttribute (name pa : String) : ContextAttribute :=
  { ContextAttribute.ofString name "" "" true with providingApplication := pa }

/-- No provider is needed for an attribute that is there. -/
def pushAttribute (name pa : String) (r : QueriedResponse) : QueriedResponse :=
  let caV := r.cer.contextElement.contextAttributeVector
  if caV.any fun ca => ca.name = name then r else withAttributes r (caV ++ [providedAttribute name pa])

def addContextProviderAttribute (enP : EntityId) (craP : ContextRegistrationAttribute) (pa : String)
    (limitReached : Bool) (cerV : List QueriedResponse) : List QueriedResponse :=
  if !cerV.any (isFor enP) && limitReached then cerV
  else
    place (isFor enP) (pushAttribute craP.name pa)
      (createdResponse enP [providedAttribute craP.name pa] []) cerV

section Lookups

variable (regexec : String → String → Bool) (limitReached : Bool)

def matchEntityInCrr (cr : ContextRegistrationResponse) (enP : EntityId) : Bool :=
  cr.entityIdVector.any fun crEnP => matchEntity regexec crEnP enP

/-- A turn of `addContextProviders`, for one registration. -/
def addRegistration (enP : Option EntityId) (cerV : List QueriedResponse) (cr : ContextRegistrationResponse) :
    List QueriedResponse :=
  if enP.any fun en => !matchEntityInCrr regexec cr en then cerV
  else if cr.contextRegistrationAttributeVector.length = 0 then
    if limitReached then cerV
    else cr.entityIdVector.foldl (fun cerV en => addContextProviderEntity en cr.providingApplication cerV) cerV
  else
    cr.entityIdVector.foldl (fun cerV en =>
      cr.contextRegistrationAttributeVector.foldl (fun cerV craP =>
        addContextProviderAttribute en craP cr.providingApplication limitReached cerV) cerV) cerV

def addContextProviders (enP : Option EntityId) (crrV : List ContextRegistrationResponse)
    (cerV : List QueriedResponse) : List QueriedResponse :=
  crrV.foldl (addRegistration regexec limitReached enP) cerV

/-- A generic entity is a pattern or has no type. -/
def processGenericEntities (enV : List EntityId) (crrV : List ContextRegistrationResponse)
    (cerV : List QueriedResponse) : List QueriedResponse :=
  enV.foldl (fun cerV enP =>
    if enP.type = "" || isTrue enP.isPattern then addContextProviders regexec limitReached (some enP) crrV cerV
    else cerV) cerV

end Lookups

/-- What is done with the registrations, if there are any. -/
def withRegistrations (found : Option (List ContextRegistrationResponse))
    (use : List ContextRegistrationResponse → List QueriedResponse → List QueriedResponse)
    (cerV : List QueriedResponse) : List QueriedResponse :=
  match found with
  | none => cerV
  | some crrV => if crrV.length > 0 then use crrV cerV else cerV

namespace Query

variable (query : Query) (db : Database)

def registrations (attrL : List String) : Option (List ContextRegistrationResponse) :=
  db.registrations.bind fun docs =>
    OrionBroker.registrationsQuery db.regexec db.pcre db.getCurrentTime query.requestP.entityIdVector attrL
      (query.servicePathV.headD "") query.servicePathV.tail 0 0 docs

/-- The lookups of providers, one after the other. -/
def lookUpProviders (limitReached : Bool) (rawCerV : List QueriedResponse) : List QueriedResponse :=
  let enV := query.requestP.entityIdVector
  let attrL := query.requestP.attributeList
  let generic := processGenericEntities db.regexec limitReached enV
  -- only generic processing is needed for an empty response
  let cerV := if rawCerV.length = 0 then withRegistrations (query.registrations db attrL) generic rawCerV else rawCerV
  let cerV :=
    if someContextElementNotFound cerV then
      withRegistrations (query.registrations db attrL) (fun crrV cerV => generic crrV (fillContextProviders crrV cerV)) cerV
    else cerV
  -- the registrations in the style "E-<null>"
  let cerV :=
    if someContextElementNotFound cerV then withRegistrations (query.registrations db []) fillContextProviders cerV
    else cerV
  -- all the attributes are asked for
  if attrL.length = 0 then
    withRegistrations (query.registrations db attrL) (addContextProviders db.regexec limitReached none) cerV
  else cerV

/-- The status of the response, which holds the number of all entities if this was asked for. -/
def errorCode (cerV : List ContextElementResponse) (count : Nat) : StatusCode :=
  if cerV.length = 0 then
    if query.countP ∧ count > 0 ∧ query.offset ≥ count then
      ⟨.SccContextElementNotFound,
        "Number of matching entities: " ++ toString count ++ ". Offset is " ++ toString query.offset⟩
    else ⟨.SccContextElementNotFound, ""⟩
  else if query.countP then ⟨.SccOk, "Count: " ++ toString count⟩
  else ⟨.SccOk, ""⟩

/-- The status is `SccOk` when it is called.  `entitiesQuery` never says that the input is bad. -/
def mongoQueryContext : QueryContextResponse :=
  match query.entitiesQuery db with
  | .error err => { errorCode := ⟨.SccReceiverInternalError, err⟩ }
  | .ok (rawCerV, limitReached, count) =>
    let cerV := pruneContextElements (query.lookUpProviders db limitReached rawCerV)
    { contextElementResponseVector := cerV, errorCode := query.errorCode cerV count }

end Query

/-! ### What the lookups leave -/

/-- What identifies an entity in the vector. -/
def entityKey (cer : ContextElementResponse) : String × String :=
  (cer.contextElement.entityId.id, cer.contextElement.entityId.type)

def attributeNames (cer : ContextElementResponse) : List String :=
  cer.contextElement.contextAttributeVector.map ContextAttribute.name

/-- The attributes of a local response are still there, as they were and without a provider; those behind them have other
names. -/
structure Completes (known cer : ContextElementResponse) : Prop where
  entity : cer.contextElement.entityId = known.contextElement.entityId
  status : cer.statusCode = known.statusCode
  unprovided : ∀ ca ∈ known.contextElement.contextAttributeVector, ca.found = true ∧ ca.providingApplication = ""
  attributes : ∃ others,
    cer.contextElement.contextAttributeVector = known.contextElement.contextAttributeVector ++ others ∧
      ∀ ca ∈ others, ca.name ∉ attributeNames known

/-- Entities that are not among the local ones, each of them once; none if the limit was reached. -/
structure NewEntities (known : List ContextElementResponse) (limitReached : Prop) (keys : List (String × String)) :
    Prop where
  distinct : keys.Nodup
  absent : ∀ key ∈ keys, key ∉ known.map entityKey
  limited : limitReached → keys = []

/-- The local responses are kept, and those that are added are for new entities. -/
structure Completed (known : List ContextElementResponse) (limitReached : Prop)
    (kept added : List ContextElementResponse) : Prop where
  kept : List.Forall₂ Completes known kept
  added : NewEntities known limitReached (added.map entityKey)

section Completes

variable {known cer : ContextElementResponse}

theorem Completes.entityKey_eq (h : Completes known cer) : entityKey cer = entityKey known := by
  unfold entityKey
  rw [h.entity]

/-- What is changed about the attributes that are not found does not concern the local ones. -/
theorem Completes.map (h : Completes known cer) {f : ContextAttribute → ContextAttribute}
    (hfound : ∀ ca, ca.found = true → f ca = ca) (hname : ∀ ca, (f ca).name = ca.name) :
    Completes known { cer with contextElement :=
      { cer.contextElement with contextAttributeVector := cer.contextElement.contextAttributeVector.map f } } := by
  obtain ⟨others, heq, hothers⟩ := h.attributes
  refine ⟨h.entity, h.status, h.unprovided, others.map f, ?_, ?_⟩
  · have hknown : known.contextElement.contextAttributeVector.map f = known.contextElement.contextAttributeVector :=
      List.map_congr_left (fun ca hca => hfound ca (h.unprovided ca hca).1) |>.trans (List.map_id _)
    show cer.contextElement.contextAttributeVector.map f = _
    rw [heq, List.map_append, hknown]
  · intro ca hca
    obtain ⟨ca, hmem, rfl⟩ := List.mem_map.1 hca
    rw [hname]
    exact hothers ca hmem

/-- An attribute with a new name comes behind. -/
theorem Completes.push (h : Completes known cer) {ca : ContextAttribute} (hname : ca.name ∉ attributeNames cer) :
    Completes known { cer with contextElement :=
      { cer.contextElement with
        contextAttributeVector := cer.contextElement.contextAttributeVector ++ [ca] } } := by
  obtain ⟨others, heq, hothers⟩ := h.attributes
  refine ⟨h.entity, h.status, h.unprovided, others ++ [ca], ?_, ?_⟩
  · show cer.contextElement.contextAttributeVector ++ [ca] = _
    rw [heq, List.append_assoc]
  · intro ca' hca'
    rcases List.mem_append.1 hca' with hmem | hmem
    · exact hothers ca' hmem
    · rw [List.mem_singleton.1 hmem]
      intro hknown
      apply hname
      unfold attributeNames
      rw [heq, List.map_append]
      exact List.mem_append_left _ hknown

theorem Completes.filter_found (h : Completes known cer) :
    Completes known { cer with contextElement :=
      { cer.contextElement with
        contextAttributeVector := cer.contextElement.contextAttributeVector.filter ContextAttribute.found } } := by
  obtain ⟨others, heq, hothers⟩ := h.attributes
  refine ⟨h.entity, h.status, h.unprovided, others.filter ContextAttribute.found, ?_, ?_⟩
  · have hknown : known.contextElement.contextAttributeVector.filter ContextAttribute.found =
        known.contextElement.contextAttributeVector := List.filter_eq_self.2 fun ca hca => (h.unprovided ca hca).1
    show cer.contextElement.contextAttributeVector.filter ContextAttribute.found = _
    rw [heq, List.filter_append, hknown]
  · intro ca hca
    exact hothers ca (List.mem_filter.1 hca).1

end Completes

/-- A change that keeps the entity of a response and leaves what is local as it is. -/
structure Keeps (f : QueriedResponse → QueriedResponse) : Prop where
  prune : ∀ r, (f r).prune = r.prune
  entityKey : ∀ r, entityKey (f r).cer = entityKey r.cer
  completes : ∀ known r, Completes known r.cer → Completes known (f r).cer

theorem keeps_pushProvider (pa : String) : Keeps (pushProvider pa) :=
  ⟨fun _ => rfl, fun _ => rfl, fun _ _ h => ⟨h.entity, h.status, h.unprovided, h.attributes⟩⟩

theorem keeps_pushAttribute (name pa : String) : Keeps (pushAttribute name pa) := by
  refine ⟨fun r => ?_, fun r => ?_, fun known r h => ?_⟩ <;> unfold pushAttribute <;> dsimp only <;> split
  · rfl
  · rfl
  · rfl
  · rfl
  · exact h
  · rename_i hnone
    apply h.push
    intro hmem
    obtain ⟨ca, hca, hname⟩ := List.mem_map.1 hmem
    exact hnone (List.any_eq_true.2 ⟨ca, hca, decide_eq_true hname⟩)

theorem keeps_fill (crrV : List ContextRegistration) : Keeps fun r =>
    withAttributes r (OrionBroker.fillContextProviders r.cer.contextElement.entityId crrV
      r.cer.contextElement.contextAttributeVector) := by
  refine ⟨fun _ => rfl, fun _ => rfl, fun known r h => ?_⟩
  refine h.map (fun ca hfound => if_pos hfound) fun ca => ?_
  split
  · rfl
  · rfl

/-! ### The vector during the lookups -/

/-- The local responses come first. -/
def Collected (known : List ContextElementResponse) (limitReached : Prop) (cerV : List QueriedResponse) : Prop :=
  ∃ kept added, cerV = kept ++ added ∧
    List.Forall₂ (fun k r => Completes k r.cer ∧ r.prune = false) known kept ∧
    NewEntities known limitReached (added.map fun r => entityKey r.cer)

section Collected

variable {known : List ContextElementResponse} {limitReached : Prop} {cerV kept : List QueriedResponse}
  {keys : List (String × String)}

theorem NewEntities.push (h : NewEntities known limitReached keys) {key : String × String} (hnot : ¬limitReached)
    (hknown : key ∉ known.map entityKey) (hkeys : key ∉ keys) : NewEntities known limitReached (keys ++ [key]) := by
  refine ⟨?_, ?_, fun hlimit => absurd hlimit hnot⟩
  · exact h.distinct.append (List.nodup_singleton key) (List.disjoint_singleton.2 hkeys)
  · intro key' hkey'
    rcases List.mem_append.1 hkey' with hmem | hmem
    · exact h.absent key' hmem
    · rwa [List.mem_singleton.1 hmem]

theorem entityKeys_kept (h : List.Forall₂ (fun k r => Completes k r.cer ∧ r.prune = false) known kept) :
    kept.map (fun r => entityKey r.cer) = known.map entityKey := by
  induction h with
  | nil => rfl
  | cons hr _ ih => rw [List.map_cons, List.map_cons, ih, hr.1.entityKey_eq]

/-- A change of all responses. -/
theorem Collected.map (h : Collected known limitReached cerV) {f : QueriedResponse → QueriedResponse} (hf : Keeps f) :
    Collected known limitReached (cerV.map f) := by
  obtain ⟨kept, added, rfl, hkept, hadded⟩ := h
  refine ⟨kept.map f, added.map f, List.map_append, ?_, ?_⟩
  · rw [List.forall₂_map_right_iff]
    exact hkept.imp fun k r hr => ⟨hf.completes k r hr.1, (hf.prune r).trans hr.2⟩
  · have hkeys : (added.map f).map (fun r => entityKey r.cer) = added.map fun r => entityKey r.cer := by
      rw [List.map_map]
      exact List.map_congr_left fun r _ => hf.entityKey r
    rwa [hkeys]

theorem isFor_iff {en : EntityId} {r : QueriedResponse} : isFor en r = true ↔ entityKey r.cer = (en.id, en.type) := by
  simp [isFor, entityKey]

theorem any_isFor_iff {en : EntityId} {cerV : List QueriedResponse} :
    cerV.any (isFor en) = true ↔ (en.id, en.type) ∈ cerV.map fun r => entityKey r.cer := by
  simp [isFor_iff]

/-- A response for an entity that has none is added. -/
theorem Collected.push (h : Collected known limitReached cerV) {en : EntityId} {r : QueriedResponse}
    (hr : isFor en r = true) (hnone : cerV.any (isFor en) = false) (hnot : ¬limitReached) :
    Collected known limitReached (cerV ++ [r]) := by
  obtain ⟨kept, added, rfl, hkept, hadded⟩ := h
  rw [← Bool.not_eq_true, any_isFor_iff, List.map_append, List.mem_append, not_or, entityKeys_kept hkept,
    ← isFor_iff.1 hr] at hnone
  refine ⟨kept, added ++ [r], List.append_assoc .., hkept, ?_⟩
  rw [List.map_append]
  exact hadded.push hnot hnone.1 hnone.2

/-- The first response for an entity is changed, or one is added if the limit was not reached. -/
theorem Collected.place (h : Collected known limitReached cerV) {en : EntityId} {add : QueriedResponse → QueriedResponse}
    {new : QueriedResponse} (hadd : Keeps add) (hnew : isFor en new = true)
    (hlimit : limitReached → cerV.any (isFor en) = true) :
    Collected known limitReached (Buckets.place (isFor en) add new cerV) := by
  cases hany : cerV.any (isFor en) with
  | false =>
    have hnot : ¬limitReached := fun hreached => Bool.false_ne_true (hany.symm.trans (hlimit hreached))
    rw [place_of_none (by simpa using hany)]
    exact h.push hnew hany hnot
  | true =>
    obtain ⟨kept, added, rfl, hkept, hadded⟩ := h
    rw [place_append]
    split
    · rename_i hfits
      refine ⟨_, added, rfl, ?_, hadded⟩
      exact forall₂_place (fun k r hr => ⟨hadd.completes k r hr.1, (hadd.prune r).trans hr.2⟩) hkept hfits
    · rename_i hfits
      refine ⟨kept, _, rfl, hkept, ?_⟩
      rw [List.any_append, Bool.not_eq_true _ |>.mp hfits, Bool.false_or] at hany
      rwa [map_place (fun r _ => hadd.entityKey r), if_pos hany]

theorem isFor_createdResponse (enP : EntityId) (caV : List ContextAttribute) (paV : List String) :
    isFor enP (createdResponse enP caV paV) = true := isFor_iff.2 rfl

theorem Collected.addContextProviderEntity (h : Collected known limitReached cerV) (hnot : ¬limitReached)
    (enP : EntityId) (pa : String) : Collected known limitReached (addContextProviderEntity enP pa cerV) :=
  h.place (keeps_pushProvider pa) (isFor_createdResponse enP _ _) fun hreached => absurd hreached hnot

theorem Collected.addContextProviderAttribute {limit : Bool} (h : Collected known (limit = true) cerV) (enP : EntityId)
    (craP : ContextRegistrationAttribute) (pa : String) :
    Collected known (limit = true) (addContextProviderAttribute enP craP pa limit cerV) := by
  unfold MongoQueryContext.addContextProviderAttribute
  split
  · exact h
  · rename_i hnew
    refine h.place (keeps_pushAttribute craP.name pa) (isFor_createdResponse enP _ _) fun hreached => ?_
    simpa [hreached] using hnew

/-- The steps of a loop keep what each of them keeps. -/
theorem Collected.foldl {α : Type} {op : List QueriedResponse → α → List QueriedResponse}
    (hop : ∀ cerV a, Collected known limitReached cerV → Collected known limitReached (op cerV a)) (l : List α)
    (h : Collected known limitReached cerV) : Collected known limitReached (l.foldl op cerV) := by
  induction l generalizing cerV with
  | nil => exact h
  | cons a l ih => exact ih (hop cerV a h)

theorem Collected.addRegistration {regexec : String → String → Bool} {limit : Bool} {enP : Option EntityId}
    (h : Collected known (limit = true) cerV) (cr : ContextRegistrationResponse) :
    Collected known (limit = true) (addRegistration regexec limit enP cerV cr) := by
  unfold MongoQueryContext.addRegistration
  split
  · exact h
  · split
    · -- a registration without attributes adds entities only
      split
      · exact h
      · rename_i hnot
        exact h.foldl (fun cerV en h => h.addContextProviderEntity hnot en cr.providingApplication) _
    · refine h.foldl (fun cerV en h => ?_) _
      exact h.foldl (fun cerV craP h => h.addContextProviderAttribute en craP cr.providingApplication) _

theorem Collected.addContextProviders {regexec : String → String → Bool} {limit : Bool} {enP : Option EntityId}
    (crrV : List ContextRegistrationResponse) (h : Collected known (limit = true) cerV) :
    Collected known (limit = true) (addContextProviders regexec limit enP crrV cerV) :=
  h.foldl (fun _ cr h => h.addRegistration cr) crrV

theorem Collected.processGenericEntities {regexec : String → String → Bool} {limit : Bool} {enV : List EntityId}
    (crrV : List ContextRegistrationResponse) (h : Collected known (limit = true) cerV) :
    Collected known (limit = true) (processGenericEntities regexec limit enV crrV cerV) := by
  refine h.foldl (fun cerV enP h => ?_) enV
  split
  · exact h.addContextProviders crrV
  · exact h

theorem Collected.fillContextProviders (crrV : List ContextRegistrationResponse)
    (h : Collected known limitReached cerV) : Collected known limitReached (fillContextProviders crrV cerV) :=
  h.map (keeps_fill (crrV.map contextRegistration))

/-- A lookup that is made under a condition. -/
theorem Collected.withRegistrations {p : Prop} [Decidable p] {found : Option (List ContextRegistrationResponse)}
    {use : List ContextRegistrationResponse → List QueriedResponse → List QueriedResponse}
    (huse : ∀ crrV cerV, Collected known limitReached cerV → Collected known limitReached (use crrV cerV))
    (h : Collected known limitReached cerV) :
    Collected known limitReached (if p then withRegistrations found use cerV else cerV) := by
  unfold MongoQueryContext.withRegistrations
  split
  · split
    · exact h
    · split
      · exact huse _ cerV h
      · exact h
  · exact h

/-- All the lookups, whatever the registrations are. -/
theorem Collected.lookUpProviders {limit : Bool} (h : Collected known (limit = true) cerV) (query : Query)
    (db : Database) : Collected known (limit = true) (query.lookUpProviders db limit cerV) := by
  unfold Query.lookUpProviders
  apply Collected.withRegistrations fun crrV cerV h => h.addContextProviders crrV
  apply Collected.withRegistrations fun crrV cerV h => h.fillContextProviders crrV
  apply Collected.withRegistrations fun crrV cerV h => (h.fillContextProviders crrV).processGenericEntities crrV
  apply Collected.withRegistrations fun crrV cerV h => h.processGenericEntities crrV
  exact h

end Collected

/-! ### The vector before and after the lookups -/

namespace Query

variable (query : Query) (db : Database)

/-- The documents that were read; none if the query failed. -/
def docs : List EntityDoc :=
  match query.read db with
  | .error _ => []
  | .ok found => found.docs

/-- The local result: the responses of the documents, and behind them the one for an exception that ended the reading. -/
def localResult : List ContextElementResponse :=
  let req := query.entitiesRequest db
  (query.docs db).map req.cer ++
    match query.read db with
    | .error _ => []
    | .ok found => (found.raised.map req.failed).toList

/-- There are as many documents as the limit, read as an unsigned number; a limit of 0 is none. -/
def LimitReached : Prop := query.limit ≠ 0 ∧ query.limit % 2 ^ 32 ≤ (query.docs db).length

end Query

section Documents

variable {attrL : List String} {includeCreDate includeModDate : Bool} {apiVersion : ApiVersion} {d : EntityDoc}

theorem unprovided_attributeOfBson (name type : String) (v : Option BSONValue) :
    (attributeOfBson name type v).providingApplication = "" := by
  rcases v with _ | v
  · rfl
  · cases v <;> rfl

theorem unprovided_attributeOfDoc (apiVersion : ApiVersion) (locAttr : String) (attrs : BSONObj) (attrName : String) :
    (attributeOfDoc apiVersion locAttr attrs attrName).found = true ∧
      (attributeOfDoc apiVersion locAttr attrs attrName).providingApplication = "" := by
  unfold attributeOfDoc
  exact ⟨InitialNotification.found_attributeOfBson _ _ _, unprovided_attributeOfBson _ _ _⟩

theorem unprovided_dateAttribute {name : String} {date : Option Int} {ca : ContextAttribute}
    (h : ca ∈ dateAttribute name date) : ca.found = true ∧ ca.providingApplication = "" := by
  obtain ⟨n, -, rfl⟩ := List.mem_map.1 h
  exact ⟨rfl, rfl⟩

theorem unprovided_responseOfDoc {ca : ContextAttribute}
    (h : ca ∈ (responseOfDoc attrL includeCreDate includeModDate apiVersion d).contextElement.contextAttributeVector) :
    ca.found = true ∧ ca.providingApplication = "" := by
  rcases List.mem_append.1 h with h | h
  · rcases List.mem_append.1 h with h | h
    · obtain ⟨attrName, -, rfl⟩ := List.mem_map.1 h
      exact unprovided_attributeOfDoc _ _ _ _
    · split at h
      · exact unprovided_dateAttribute h
      · cases h
  · split at h
    · exact unprovided_dateAttribute h
    · cases h

end Documents

theorem completes_refl {known : ContextElementResponse}
    (h : ∀ ca ∈ known.contextElement.contextAttributeVector, ca.found = true ∧ ca.providingApplication = "") :
    Completes known known :=
  ⟨rfl, rfl, h, [], (List.append_nil _).symm, List.forall_mem_nil _⟩

/-- The attributes that were asked for and not found. -/
theorem Completes.addAttributes {known cer : ContextElementResponse} (h : Completes known cer) (attrL : List String) :
    Completes known { cer with contextElement :=
      { cer.contextElement with
        contextAttributeVector :=
          attrL.foldl EntitiesRequest.addAttribute cer.contextElement.contextAttributeVector } } := by
  induction attrL generalizing cer with
  | nil => exact h
  | cons attrName attrL ih =>
    rw [List.foldl_cons, EntitiesRequest.addAttribute]
    split
    · exact ih h
    · rename_i hnone
      have hname : attrName ∉ attributeNames cer := by
        intro hmem
        obtain ⟨ca, hca, hname⟩ := List.mem_map.1 hmem
        exact hnone (List.any_eq_true.2 ⟨ca, hca, decide_eq_true hname.symm⟩)
      have hpush := h.push (show ContextAttribute.name { name := attrName, type := "", found := false } ∉ _ from hname)
      exact ih hpush

theorem Collected.addEntity {known : List ContextElementResponse} {limitReached : Prop} {cerV : List QueriedResponse}
    (h : Collected known limitReached cerV) (hnot : ¬limitReached) (attrL : List String) (en : EntityId) :
    Collected known limitReached (addEntity attrL cerV en) := by
  unfold InitialNotification.addEntity
  split
  · exact h
  · split
    · exact h
    · rename_i hnone
      exact h.push (isFor_iff.2 rfl) (Bool.eq_false_iff.2 hnone) hnot

theorem newEntities_nil (known : List ContextElementResponse) (limitReached : Prop) :
    NewEntities known limitReached [] := ⟨List.nodup_nil, List.forall_mem_nil _, fun _ => rfl⟩

/-- The reading can only be ended by an exception before the limit is reached. -/
theorem length_docs_lt {db : Database} {enV : List EntityId} {attrL : List String} {sortOrderList : String}
    {offset limit : Int} {found : EntitiesRead} (h : db.read enV attrL sortOrderList offset limit = .ok found)
    {exErr : String} (hraised : found.raised = some exErr) : limit = 0 ∨ found.docs.length < limit.natAbs := by
  unfold Database.read at h
  split at h
  · cases h
  · dsimp only at h
    split at h
    · cases h
      cases hraised
    · rename_i turn e hstopped
      split at h
      · cases h
        cases hraised
      · rename_i hbefore
        split at h
        · cases h
          cases hraised
        · cases h
          rw [not_and_or, not_not, not_le] at hbefore
          refine hbefore.imp_right fun hlt => lt_of_le_of_lt ?_ hlt
          exact List.length_take_le turn _
        · cases h
        · cases h

/-- What `entitiesQuery` hands over to the lookups. -/
theorem collected_entitiesQuery {query : Query} {db : Database} {rawCerV : List QueriedResponse} {limitReached : Bool}
    {count : Nat} (h : query.entitiesQuery db = .ok (rawCerV, limitReached, count)) :
    Collected (query.localResult db) (limitReached = true) rawCerV ∧
      (query.LimitReached db → limitReached = true) := by
  unfold Query.entitiesQuery at h
  unfold Query.LimitReached Query.localResult Query.docs
  cases hread : query.read db with
  | error err =>
    rw [hread] at h
    cases h
  | ok found =>
    rw [hread] at h
    dsimp only at h ⊢
    have hdocs : List.Forall₂ (fun k (r : QueriedResponse) => Completes k r.cer ∧ r.prune = false)
        (found.docs.map (query.entitiesRequest db).cer)
        (found.docs.map fun r => { cer := (query.entitiesRequest db).found r, prune := false }) := by
      rw [List.forall₂_map_left_iff, List.forall₂_map_right_iff, List.forall₂_same]
      intro d _
      exact ⟨(completes_refl fun ca => unprovided_responseOfDoc).addAttributes _, rfl⟩
    cases hraised : found.raised with
    | some exErr =>
      rw [hraised] at h
      cases h
      refine ⟨⟨_, [], (List.append_nil _).symm, ?_, newEntities_nil _ _⟩, ?_⟩
      · refine List.rel_append hdocs (.cons ⟨?_, rfl⟩ .nil)
        exact completes_refl (List.forall_mem_nil _)
      · rintro ⟨hne, hle⟩
        have hlt := (length_docs_lt hread hraised).resolve_left hne
        have hlimit : query.limit < 2 ^ 31 := Areas.atoi_lt _
        have hlimit' : -2 ^ 31 ≤ query.limit := Areas.le_atoi _
        omega
    | none =>
      rw [hraised] at h
      rw [Option.map_none, Option.toList_none, List.append_nil]
      dsimp only at h
      -- the responses of the documents, with nothing behind them
      have hlocal (limited : Prop) : Collected (found.docs.map (query.entitiesRequest db).cer) limited
          (found.docs.map fun r => { cer := (query.entitiesRequest db).found r, prune := false }) :=
        ⟨_, [], (List.append_nil _).symm, hdocs, newEntities_nil _ _⟩
      split at h
      · cases h
        exact ⟨hlocal _, fun _ => rfl⟩
      · rename_i hlimit
        cases h
        refine ⟨(hlocal _).foldl (fun cerV en h => h.addEntity Bool.false_ne_true _ en) _, ?_⟩
        rintro ⟨-, hle⟩
        rw [List.length_map] at hlimit
        exact absurd (Int.toNat_le.2 hle) hlimit

theorem localResult_of_failed {query : Query} {db : Database} {err : String} (h : query.entitiesQuery db = .error err) :
    query.localResult db = [] := by
  unfold Query.entitiesQuery at h
  unfold Query.localResult Query.docs
  cases hread : query.read db with
  | error err => rfl
  | ok found =>
    rw [hread] at h
    dsimp only at h
    split at h
    · cases h
    · split at h
      · cases h
      · cases h

/-! ### The loop over the cursor -/

/-- From a turn on, the cursor gives these documents; then it ends, or `nextSafe` raises an `AssertionException`. -/
inductive Reads (cursor : Cursor EntityDoc) : Nat → List EntityDoc → Option String → Prop
  | ends {turn : Nat} : moreSafe (cursor.more turn) = false → Reads cursor turn [] none
  | raises {turn : Nat} {what : String} : moreSafe (cursor.more turn) = true →
    cursor.nextSafe turn = .error (.assertion what) → Reads cursor turn [] (some what)
  | next {turn : Nat} {r : EntityDoc} {docs : List EntityDoc} {raised : Option String} :
    moreSafe (cursor.more turn) = true → cursor.nextSafe turn = .ok r → Reads cursor (turn + 1) docs raised →
    Reads cursor turn (r :: docs) raised

/-- What the loop makes of the documents. -/
theorem returns_of_reads (req : EntitiesRequest EntityDoc) {cursor : Cursor EntityDoc} {turn : Nat}
    {docs : List EntityDoc} {raised : Option String} (h : Reads cursor turn docs raised)
    (cerV : List ContextElementResponse) :
    ∃ out, WhileLoop.Returns (req.loop cursor) (turn, cerV) out ∧
      (raised = none → out.value = req.complete (cerV ++ docs.map req.found)) ∧
      ∀ what, raised = some what →
        out.value = { ok := true, cerV := cerV ++ docs.map req.found ++ [req.failed what] } := by
  induction h generalizing cerV with
  | @ends turn hmore =>
    have hturn : req.loop cursor (turn, cerV) =
        .inr { value := req.complete cerV, uses := [.releaseMongoConnection] } := by
      simp [EntitiesRequest.loop, documents, hmore]
    refine ⟨_, WhileLoop.returns_of_leaves hturn, fun _ => ?_, fun what hwhat => ?_⟩
    · rw [List.map_nil, List.append_nil]
    · cases hwhat
  | @raises turn what hmore hnext =>
    have hturn : req.loop cursor (turn, cerV) =
        .inr { value := { ok := true, cerV := cerV ++ [req.failed what] }, uses := [] } := by
      simp [EntitiesRequest.loop, documents, hmore, hnext, EntitiesRequest.caught]
    refine ⟨_, WhileLoop.returns_of_leaves hturn, fun hnone => ?_, fun what' hwhat => ?_⟩
    · cases hnone
    · cases hwhat
      rw [List.map_nil, List.append_nil]
  | @next turn r docs raised hmore hnext _ ih =>
    have hturn : req.loop cursor (turn, cerV) = .inl (turn + 1, cerV ++ [req.found r]) := by
      simp [EntitiesRequest.loop, documents, hmore, hnext]
    obtain ⟨out, hreturns, hnone, hsome⟩ := ih (cerV ++ [req.found r])
    rw [List.append_assoc] at hnone hsome
    exact ⟨out, (WhileLoop.returns_iff_of_goesOn hturn).2 hreturns, hnone, hsome⟩

theorem map_cer_addEntity (req : EntitiesRequest EntityDoc) (enV : List EntityId) (cerV : List QueriedResponse) :
    (enV.foldl (addEntity req.attrL) cerV).map QueriedResponse.cer =
      enV.foldl req.addEntity (cerV.map QueriedResponse.cer) := by
  induction enV generalizing cerV with
  | nil => rfl
  | cons en enV ih =>
    have hstep : (addEntity req.attrL cerV en).map QueriedResponse.cer =
        req.addEntity (cerV.map QueriedResponse.cer) en := by
      unfold addEntity EntitiesRequest.addEntity
      rw [List.any_map]
      split
      · rfl
      · split <;> rename_i hany
        · exact (if_pos hany).symm
        · rw [List.map_append]
          exact (if_neg hany).symm
    rw [List.foldl_cons, List.foldl_cons, ih, hstep]

/-- The vector that the lookups start with is the one that the loop over the cursor makes. -/
theorem entitiesQuery_of_reads {query : Query} {db : Database} {found : EntitiesRead} (hread : query.read db = .ok found)
    {cursor : Cursor EntityDoc} (h : Reads cursor 0 found.docs found.raised) :
    ∃ rawCerV limitReached out, query.entitiesQuery db = .ok (rawCerV, limitReached, found.count) ∧
      WhileLoop.Returns ((query.entitiesRequest db).loop cursor) (0, []) out ∧ out.value.ok = true ∧
      out.value.cerV = rawCerV.map QueriedResponse.cer ∧ out.value.limitReached.getD false = limitReached := by
  obtain ⟨out, hreturns, hnone, hsome⟩ := returns_of_reads (query.entitiesRequest db) h []
  rw [List.nil_append] at hnone hsome
  unfold Query.entitiesQuery
  rw [hread]
  dsimp only
  cases hraised : found.raised with
  | some what =>
    have hvalue := hsome what hraised
    refine ⟨_, _, out, rfl, hreturns, ?_, ?_, ?_⟩ <;> rw [hvalue]
    · rw [List.map_append, List.map_map]
      rfl
    · rfl
  | none =>
    have hvalue := hnone hraised
    unfold EntitiesRequest.complete at hvalue
    rw [if_pos (show (query.entitiesRequest db).limitReached = true from rfl), List.length_map] at hvalue
    dsimp only
    rw [List.length_map]
    split at hvalue <;> rename_i hlimit
    · rw [if_pos hlimit]
      refine ⟨_, _, out, rfl, hreturns, ?_, ?_, ?_⟩ <;> rw [hvalue]
      · rw [List.map_map]
        rfl
      · rfl
    · rw [if_neg hlimit]
      refine ⟨_, _, out, rfl, hreturns, ?_, ?_, ?_⟩ <;> rw [hvalue]
      · rw [map_cer_addEntity, List.map_map]
        rfl
      · rfl

/-! ### After the pruning -/

theorem NewEntities.sublist {known : List ContextElementResponse} {limitReached : Prop}
    {keys keys' : List (String × String)} (h : NewEntities known limitReached keys) (hsub : keys'.Sublist keys) :
    NewEntities known limitReached keys' := by
  refine ⟨h.distinct.sublist hsub, fun key hkey => h.absent key (hsub.subset hkey), fun hreached => ?_⟩
  rw [h.limited hreached] at hsub
  exact List.sublist_nil.1 hsub

/-- The responses that are no stand-ins are all left, without what was not found. -/
theorem forall₂_prune {known : List ContextElementResponse} {kept : List QueriedResponse}
    (h : List.Forall₂ (fun k r => Completes k r.cer ∧ r.prune = false) known kept) :
    List.Forall₂ Completes known (pruneContextElements kept) := by
  induction h with
  | nil => exact .nil
  | @cons k r known kept hr _ ih =>
    have hprune : pruneContextElements (r :: kept) =
        { r.cer with contextElement :=
          { r.cer.contextElement with
            contextAttributeVector := r.cer.contextElement.contextAttributeVector.filter ContextAttribute.found } } ::
          pruneContextElements kept := by
      unfold pruneContextElements
      rw [List.filterMap_cons_some]
      rw [hr.2]
      rfl
    rw [hprune]
    exact .cons hr.1.filter_found ih

theorem sublist_prune (cerV : List QueriedResponse) :
    ((pruneContextElements cerV).map entityKey).Sublist (cerV.map fun r => entityKey r.cer) := by
  induction cerV with
  | nil => exact .slnil
  | cons r cerV ih =>
    unfold pruneContextElements at ih ⊢
    rw [List.filterMap_cons]
    split
    · exact ih.cons _
    · rename_i cer hcer
      dsimp only at hcer
      split at hcer
      · cases hcer
      · cases hcer
        exact ih.cons_cons _

theorem Collected.prune {known : List ContextElementResponse} {limitReached : Prop} {cerV : List QueriedResponse}
    (h : Collected known limitReached cerV) :
    ∃ kept added, pruneContextElements cerV = kept ++ added ∧ Completed known limitReached kept added := by
  obtain ⟨kept, added, rfl, hkept, hadded⟩ := h
  exact ⟨_, _, InitialNotification.prune_append kept added, forall₂_prune hkept, hadded.sublist (sublist_prune added)⟩

theorem exists_of_mem_kept {known kept : List ContextElementResponse} (h : List.Forall₂ Completes known kept)
    {cer : ContextElementResponse} (hcer : cer ∈ kept) : ∃ k ∈ known, Completes k cer := by
  obtain ⟨n, hn, rfl⟩ := List.getElem_of_mem hcer
  have hlength : n < known.length := h.length_eq ▸ hn
  exact ⟨known[n], List.getElem_mem hlength, h.get hlength hn⟩

/-- If the local entities are different ones, whatever the response has for one of them completes it. -/
theorem Completed.completes_of_entityKey {known kept added : List ContextElementResponse} {limitReached : Prop}
    (h : Completed known limitReached kept added) (hdistinct : (known.map entityKey).Nodup)
    {k cer : ContextElementResponse} (hk : k ∈ known) (hcer : cer ∈ kept ++ added) (hkey : entityKey cer = entityKey k) :
    Completes k cer := by
  rcases List.mem_append.1 hcer with hkept | hadded
  · obtain ⟨k', hk', hcompletes⟩ := exists_of_mem_kept h.kept hkept
    have heq : k' = k := List.inj_on_of_nodup_map hdistinct hk' hk (hcompletes.entityKey_eq.symm.trans hkey)
    rwa [← heq]
  · have habsent := h.added.absent _ (List.mem_map_of_mem hadded)
    rw [hkey] at habsent
    exact absurd (List.mem_map_of_mem hk) habsent

/-- Whatever the collections hold, the lookups complete the local result. -/
theorem local_result_completed (query : Query) (db : Database) :
    ∃ kept added, (query.mongoQueryContext db).contextElementResponseVector = kept ++ added ∧
      Completed (query.localResult db) (query.LimitReached db) kept added := by
  unfold Query.mongoQueryContext
  cases hquery : query.entitiesQuery db with
  | error err =>
    rw [localResult_of_failed hquery]
    exact ⟨[], [], rfl, .nil, newEntities_nil _ _⟩
  | ok found =>
    obtain ⟨rawCerV, limitReached, count⟩ := found
    obtain ⟨hcollected, hlimit⟩ := collected_entitiesQuery hquery
    obtain ⟨kept, added, heq, hcompleted⟩ := (hcollected.lookUpProviders query db).prune
    refine ⟨kept, added, heq, hcompleted.kept, hcompleted.added.distinct, hcompleted.added.absent, fun hreached => ?_⟩
    exact hcompleted.added.limited (hlimit hreached)

/-! ### A room -/

def room : EntityDoc where
  id := "Room1"
  type := "Room"
  servicePath := "/"
  attrNames := ["temperature"]
  attrs := [("temperature", .object [("type", .string "T"), ("value", .string "20")])]
  creDate := none
  modDate := none
  location := none

def roomDatabase : Database where
  store :=
    { docs := some [room]
      regexHolds := fun _ _ => false
      inServicePath := fun _ => true
      passesRestriction := fun _ => true
      passesExpression := fun _ _ => true }
  text := { col := "orion.entities", q := "" }
  sort := fun _ docs => docs
  registrations := some
    [Registration.toBson
      { expiration := 1
        servicePath := none
        contextRegistration :=
          [{ entities := [{ id := "Room1", type := some "Room" }, { id := "Room2", type := some "Room" }]
             attrs := some [⟨"temperature", "T", "false"⟩, ⟨"humidity", "H", "false"⟩]
             providingApplication := "http://sensor" }] }]
  regexec := fun _ _ => false
  pcre := fun _ => some fun _ => true
  getCurrentTime := 0

def roomQuery (id limit : String) : Query where
  requestP :=
    { contextProvider := "", entityIdVector := [{ id := id, type := "Room", isPattern := "false" }], attributeList := [] }
  servicePathV := [""]
  uriParams := fun key => if key = "limit" then limit else "0"
  options := fun _ => false
  countP := false
  apiVersion := .v1

example : ((roomQuery "Room1" "20").mongoQueryContext roomDatabase).contextElementResponseVector.map (fun cer =>
    (entityKey cer, cer.contextElement.contextAttributeVector.map fun ca => (ca.name, ca.providingApplication))) =
      [(("Room1", "Room"), [("temperature", ""), ("humidity", "http://sensor")])] := by
  decide +kernel

end OrionBroker.MongoQueryContext
