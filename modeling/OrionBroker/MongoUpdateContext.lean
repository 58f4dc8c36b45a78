import OrionBroker.ReportedOk
import OrionBroker.SharedRequest

/-!
# A whole update request (`mongoUpdateContext.cpp`)

The elements of a request are processed one after the other.  What is answered does not have the values of the
attributes: they are in the request, and it is not left as it was.  An attribute that is copied, to an error response or
to an entity that is notified, loses its compound value there.

`RequestRun` has the responses and the request as it is left.  `answers` says for every attribute of the responses by
which attribute of the request it was given.
-/

namespace OrionBroker

open Bson

/-! ### What is left of an element -/

/-- The first attribute of a kind is copied. -/
def copiedFirst (p : ContextAttribute → Bool) : List ContextAttribute → List ContextAttribute
  | [] => []
  | ca :: caV => if p ca then (ca.copy false).2 :: caV else ca :: copiedFirst p caV

/-- The first attribute that occurs again is copied. -/
def copiedDuplicate : List ContextAttribute → List ContextAttribute
  | [] => []
  | ca :: caV =>
    if caV.any fun cb => ca.name = cb.name && ca.getId = cb.getId then (ca.copy false).2 :: caV
    else ca :: copiedDuplicate caV

/-- The attributes of an element that does not meet the preconditions. -/
def leftByPreconditions (ceP : ContextElement) (apiVersion : ApiVersion) : List ContextAttribute :=
  match duplicatedAttribute ceP.contextAttributeVector with
  | some _ => copiedDuplicate ceP.contextAttributeVector
  | none =>
    if isTrue ceP.entityId.isPattern then ceP.contextAttributeVector
    else copiedFirst (emptyAttribute apiVersion) ceP.contextAttributeVector

/-- An entity that was created is notified with the attributes of the request. -/
def leftByMissingEntity (env : Env) (apiVersion : ApiVersion) (action : String) (ceP : ContextElement) :
    List ContextAttribute :=
  match ActionType.ofString action with
  | .update | .replace | .delete => ceP.contextAttributeVector
  | _ =>
    match createEntity env ceP.entityId ceP.contextAttributeVector apiVersion with
    | .error _ => ceP.contextAttributeVector
    | .ok _ =>
      match env.addTriggeredSubscriptions ceP.entityId.id ceP.entityId.type
          (ceP.contextAttributeVector.map ContextAttribute.name) with
      | some _ => ceP.contextAttributeVector
      | none => ceP.contextAttributeVector.map fun ca => (ca.copy (apiVersion = .v2)).2

/-- The attributes of an element after `processContextElement`. -/
def elementLeft (env : Env) (apiVersion : ApiVersion) (flavour : Ngsiv2Flavour) (action : String) (ceP : ContextElement)
    (results : List EntityDoc) : List ContextAttribute :=
  match contextElementPreconditionsCheck ceP action apiVersion with
  | some _ => leftByPreconditions ceP apiVersion
  | none =>
    match if apiVersion = .v2 then ngsiv2Check env flavour ceP results.length else none with
    | some _ => ceP.contextAttributeVector
    | none =>
      match env.collectionQuery with
      | some _ => ceP.contextAttributeVector
      | none =>
        match results with
        | [] => leftByMissingEntity env apiVersion action ceP
        | _ :: _ => (updateEntities env apiVersion action ceP false "[ " results).attributes

/-! ### The request -/

/-- An element of a request, the documents that match it and what its processing obtains from outside. -/
structure ElementCall where
  env : Env
  ceP : ContextElement
  results : List EntityDoc

/-- `attributesToNotFound`. -/
def attributesToNotFound (calls : List ElementCall) : List ElementCall :=
  calls.map fun call =>
    { call with ceP :=
        { call.ceP with
          contextAttributeVector := call.ceP.contextAttributeVector.map fun aP => { aP with found := false } } }

/-- The responses, and the request as it is left. -/
structure RequestRun where
  responses : List ContextElementResponse
  left : List ContextElement

section Request

variable (apiVersion : ApiVersion) (flavour : Ngsiv2Flavour) (action : String)

def ElementCall.left (call : ElementCall) : ContextElement :=
  { call.ceP with contextAttributeVector := elementLeft call.env apiVersion flavour action call.ceP call.results }

/-- The loop over the elements; `old` are the responses so far. -/
def mongoUpdateContext (old : List ContextElementResponse) : List ElementCall → RequestRun
  | [] => ⟨old, []⟩
  | call :: calls =>
    let e := processContextElement call.env apiVersion flavour action call.ceP old call.results
    let run := mongoUpdateContext (old ++ e.responses) calls
    { run with left := call.left apiVersion flavour action :: run.left }

end Request

/-! ### Where the attributes come from -/

/-- An entry of the response, and the attributes of the request for which its attributes stand, one by one; there may be
more behind, for which the entry has nothing. -/
structure AnsweredEntry where
  cer : ContextElementResponse
  given : List ContextAttribute

section Entries

variable (env : Env) (apiVersion : ApiVersion) (action : String)

/-- The attributes of the request that the turn of a document processes, as they were given. -/
def processedGiven (r : EntityDoc) (caV given : List ContextAttribute) : List ContextAttribute :=
  (((requestAttributes action r caV).zip given).filter fun p => !p.1.skip).map Prod.snd

/-- The entries for the documents that match an element; `given` are its attributes before the first turn. -/
def entitiesEntries (ceP : ContextElement) (given : List ContextAttribute) : List EntityDoc → List AnsweredEntry
  | [] => []
  | r :: results =>
    let u := updateEntity env apiVersion action ceP r
    (u.responses.map fun cer => ⟨cer, processedGiven action r ceP.contextAttributeVector given⟩) ++
      entitiesEntries { ceP with contextAttributeVector := u.attributes } given results

/-- The entries for an element. -/
def elementEntries (flavour : Ngsiv2Flavour) (ceP : ContextElement) (old : List ContextElementResponse)
    (results : List EntityDoc) : List AnsweredEntry :=
  -- an error response has a copy of the attribute that it is about
  let error := (processContextElement env apiVersion flavour action ceP old results).responses.map fun cer =>
    (⟨cer, cer.contextElement.contextAttributeVector⟩ : AnsweredEntry)
  if checksPass env apiVersion flavour action ceP results then
    match results with
    | [] => (processMissingEntity env apiVersion action ceP old).responses.map fun cer => ⟨cer, ceP.contextAttributeVector⟩
    | _ :: _ =>
      entitiesEntries env apiVersion action ceP ceP.contextAttributeVector results ++
        (alreadyExistsResponse ceP (updateEntities env apiVersion action ceP false "[ " results)).map fun cer => ⟨cer, []⟩
  else error

end Entries

/-- The entries of the whole response. -/
def requestEntries (apiVersion : ApiVersion) (flavour : Ngsiv2Flavour) (action : String)
    (old : List ContextElementResponse) : List ElementCall → List AnsweredEntry
  | [] => []
  | call :: calls =>
    let e := processContextElement call.env apiVersion flavour action call.ceP old call.results
    elementEntries call.env apiVersion action flavour call.ceP old call.results ++
      requestEntries apiVersion flavour action (old ++ e.responses) calls

/-- An attribute of the response, its entity and the attribute of the request for which it stands. -/
structure Answer where
  eP : EntityId
  aP : ContextAttribute
  given : ContextAttribute

def AnsweredEntry.answers (entry : AnsweredEntry) : List Answer :=
  (entry.cer.contextElement.contextAttributeVector.zip entry.given).map fun p =>
    ⟨entry.cer.contextElement.entityId, p.1, p.2⟩

/-- All attributes of the response to a request. -/
def answers (apiVersion : ApiVersion) (flavour : Ngsiv2Flavour) (action : String) (calls : List ElementCall) :
    List Answer :=
  (requestEntries apiVersion flavour action [] calls).flatMap AnsweredEntry.answers

/-! ### The request keeps all but compound values -/

/-- The value of an attribute, unless it is compound. -/
def ContextAttribute.simpleValue (ca : ContextAttribute) : ValueType × String × Double × Bool :=
  (ca.valueType, ca.stringValue, ca.numberValue, ca.boolValue)

/-- The same attribute, perhaps without its compound value. -/
structure LeavesAttribute (ca ca' : ContextAttribute) : Prop where
  name : ca'.name = ca.name
  simpleValue : ca'.simpleValue = ca.simpleValue
  compound : ca'.compoundValueP = ca.compoundValueP ∨ ca'.compoundValueP = none

/-- The same attributes, perhaps without their compound values. -/
abbrev LeavesAttributes (caV caV' : List ContextAttribute) : Prop := List.Forall₂ LeavesAttribute caV caV'

section Keeps

variable {ca ca' ca'' : ContextAttribute} {caV caV' caV'' : List ContextAttribute}

theorem LeavesAttribute.rfl (ca : ContextAttribute) : LeavesAttribute ca ca := ⟨.refl _, .refl _, Or.inl (.refl _)⟩

theorem LeavesAttribute.trans (h : LeavesAttribute ca ca') (h' : LeavesAttribute ca' ca'') : LeavesAttribute ca ca'' := by
  refine ⟨h'.name.trans h.name, h'.simpleValue.trans h.simpleValue, ?_⟩
  rcases h'.compound with he | he
  · rw [he]
    exact h.compound
  · exact Or.inr he

theorem leavesAttribute_copy (ca : ContextAttribute) (useDefaultType : Bool) :
    LeavesAttribute ca (ca.copy useDefaultType).2 := ⟨rfl, rfl, Or.inr rfl⟩

theorem leavesAttributes_refl (caV : List ContextAttribute) : LeavesAttributes caV caV :=
  List.forall₂_same.2 fun ca _ => LeavesAttribute.rfl ca

theorem LeavesAttributes.trans (h : LeavesAttributes caV caV') (h' : LeavesAttributes caV' caV'') :
    LeavesAttributes caV caV'' := by
  induction h generalizing caV'' with
  | nil => exact h'
  | cons hca _ ih =>
    obtain ⟨ca'', rest, hca', hrest, rfl⟩ := List.forall₂_cons_left_iff.1 h'
    exact .cons (hca.trans hca') (ih hrest)

theorem LeavesAttributes.names (h : LeavesAttributes caV caV') :
    caV'.map ContextAttribute.name = caV.map ContextAttribute.name := by
  induction h with
  | nil => rfl
  | cons hca _ ih => rw [List.map_cons, List.map_cons, hca.name, ih]

theorem leavesAttributes_map {f : ContextAttribute → ContextAttribute} (hf : ∀ ca, LeavesAttribute ca (f ca))
    (caV : List ContextAttribute) : LeavesAttributes caV (caV.map f) := by
  unfold LeavesAttributes
  rw [List.forall₂_map_right_iff]
  exact List.forall₂_same.2 fun ca _ => hf ca

private theorem leaves_copiedFirst (p : ContextAttribute → Bool) (caV : List ContextAttribute) :
    LeavesAttributes caV (copiedFirst p caV) := by
  induction caV with
  | nil => exact .nil
  | cons ca caV ih =>
    unfold copiedFirst
    split
    · exact .cons (leavesAttribute_copy ca false) (leavesAttributes_refl caV)
    · exact .cons (LeavesAttribute.rfl ca) ih

private theorem leaves_copiedDuplicate (caV : List ContextAttribute) : LeavesAttributes caV (copiedDuplicate caV) := by
  induction caV with
  | nil => exact .nil
  | cons ca caV ih =>
    unfold copiedDuplicate
    split
    · exact .cons (leavesAttribute_copy ca false) (leavesAttributes_refl caV)
    · exact .cons (LeavesAttribute.rfl ca) ih

private theorem leaves_updateAttrInNotifyCer (ca : ContextAttribute) (useDefaultType : Bool)
    (caV : List ContextAttribute) : LeavesAttribute ca (updateAttrInNotifyCer ca useDefaultType caV).2 := by
  induction caV with
  | nil => exact leavesAttribute_copy ca useDefaultType
  | cons cb caV ih =>
    unfold updateAttrInNotifyCer
    split
    · exact LeavesAttribute.rfl ca
    · exact ih

variable {env : Env} {eP : EntityId} {attrs : BSONObj} {apiVersion : ApiVersion} {action : String}

private theorem leaves_attributeLoop (p : Processing) (caV : List ContextAttribute) :
    LeavesAttributes caV (attributeLoop env eP attrs apiVersion action p caV).attributes := by
  induction caV generalizing p with
  | nil => exact .nil
  | cons ca caV ih =>
    unfold attributeLoop
    split
    · exact .cons (LeavesAttribute.rfl ca) (ih p)
    · simp only
      split
      · rename_i hok
        obtain ⟨ha, l, hl⟩ := contextAttributeItem_ok_iff.1 hok
        rw [contextAttributeItem_ok ha hl]
        refine .cons ?_ (ih _)
        by_cases hdel : ActionType.ofString action = .delete
        · rw [hdel]
          exact LeavesAttribute.rfl ca
        · rw [notifyStep_eq hdel]
          exact leaves_updateAttrInNotifyCer ca _ _
      · rename_i hok
        rw [Bool.not_eq_true] at hok
        rw [(contextAttributeItem_fail (contextAttributeItem_rejected hok)).2.1]
        exact leavesAttributes_refl _

private theorem leaves_requestAttributes (action : String) (r : EntityDoc) (caV : List ContextAttribute) :
    LeavesAttributes caV (requestAttributes action r caV) := by
  unfold requestAttributes markExisting
  split
  · refine leavesAttributes_map (fun ca => ?_) caV
    split
    · exact ⟨rfl, rfl, Or.inl rfl⟩
    · exact LeavesAttribute.rfl ca
  · exact leavesAttributes_refl caV

theorem leaves_updateEntity (ceP : ContextElement) (r : EntityDoc) :
    LeavesAttributes ceP.contextAttributeVector (updateEntity env apiVersion action ceP r).attributes := by
  have hloop : LeavesAttributes ceP.contextAttributeVector
      (processAttributes env apiVersion action r ceP.contextAttributeVector).attributes := by
    refine (leaves_requestAttributes action r _).trans ?_
    unfold processAttributes processContextAttributeVector
    simp only
    split
    · split <;> exact leaves_attributeLoop _ _
    · exact leaves_attributeLoop _ _
  unfold updateEntity
  split
  · rename_i hdel
    rw [hdel.2]
    exact .nil
  · simp only
    split
    · split <;> exact hloop
    · split <;> exact hloop

private theorem leaves_updateEntities (ceP : ContextElement) (err : Bool) (list : String) (results : List EntityDoc) :
    LeavesAttributes ceP.contextAttributeVector
      (updateEntities env apiVersion action ceP err list results).attributes := by
  induction results generalizing ceP err list with
  | nil => exact leavesAttributes_refl _
  | cons r results ih => exact (leaves_updateEntity ceP r).trans (ih { ceP with contextAttributeVector := _ } _ _)

/-- An element keeps its attributes, but for compound values. -/
theorem leaves_elementLeft (env : Env) (apiVersion : ApiVersion) (flavour : Ngsiv2Flavour) (action : String)
    (ceP : ContextElement) (results : List EntityDoc) :
    LeavesAttributes ceP.contextAttributeVector (elementLeft env apiVersion flavour action ceP results) := by
  unfold elementLeft
  split
  · unfold leftByPreconditions
    split
    · exact leaves_copiedDuplicate _
    · split
      · exact leavesAttributes_refl _
      · exact leaves_copiedFirst _ _
  · split
    · exact leavesAttributes_refl _
    · split
      · exact leavesAttributes_refl _
      · split
        · unfold leftByMissingEntity
          split
          · exact leavesAttributes_refl _
          · exact leavesAttributes_refl _
          · exact leavesAttributes_refl _
          · split
            · exact leavesAttributes_refl _
            · split
              · exact leavesAttributes_refl _
              · exact leavesAttributes_map (fun ca => leavesAttribute_copy ca _) _
        · exact leaves_updateEntities _ _ _ _

/-- An element that matches no entity and is to be updated is left as it is. -/
theorem elementLeft_missing {flavour : Ngsiv2Flavour} {ceP : ContextElement}
    (hupdate : ActionType.ofString action = .update ∨ ActionType.ofString action = .replace)
    (hpre : contextElementPreconditionsCheck ceP action apiVersion = none) :
    elementLeft env apiVersion flavour action ceP [] = ceP.contextAttributeVector := by
  unfold elementLeft leftByMissingEntity
  rw [hpre]
  rcases hupdate with ha | ha
  · simp only [ha]
    split
    · rfl
    · split <;> rfl
  · simp only [ha]
    split
    · rfl
    · split <;> rfl

end Keeps

/-! ### Every attribute of the response stands for one of the request -/

section Trace

variable {env : Env} {apiVersion : ApiVersion} {flavour : Ngsiv2Flavour} {action : String} {ceP : ContextElement}
  {old : List ContextElementResponse} {results : List EntityDoc} {given : List ContextAttribute}

private theorem initial_listedUpTo (strtod : String → Strtod) (attrs : BSONObj) (a : ActionType) (cur : String)
    (caV : List ContextAttribute) : listedUpTo strtod attrs apiVersion a cur caV <+: caV := by
  induction caV generalizing cur with
  | nil => exact List.prefix_rfl
  | cons ca caV ih =>
    have hone : [ca] <+: ca :: caV := List.prefix_append [ca] caV
    unfold listedUpTo
    split
    · split
      · exact hone
      · exact List.cons_prefix_cons.2 ⟨rfl, ih _⟩
    · exact hone

private theorem names_fillContextProviders (en : EntityId) (crrV : List ContextRegistration)
    (caV : List ContextAttribute) :
    (fillContextProviders en crrV caV).map ContextAttribute.name = caV.map ContextAttribute.name := by
  unfold fillContextProviders
  rw [List.map_map]
  refine List.map_congr_left fun ca _ => ?_
  simp only [Function.comp_apply]
  split <;> rfl

private theorem names_searchContextProviders (en : EntityId) (caV : List ContextAttribute)
    (cer : ContextElementResponse) :
    (searchContextProviders env en caV cer).contextElement.contextAttributeVector.map ContextAttribute.name =
      cer.contextElement.contextAttributeVector.map ContextAttribute.name := by
  have hlookup : ∀ en cerEn attrL caV, (registrationsLookup env en cerEn attrL caV).map ContextAttribute.name =
      caV.map ContextAttribute.name := by
    intro en cerEn attrL caV
    unfold registrationsLookup
    split
    · split
      · exact names_fillContextProviders _ _ _
      · rfl
    · rfl
  unfold searchContextProviders
  simp only [hlookup]

private theorem names_responseAttrs (r : EntityDoc) (caV : List ContextAttribute) :
    (processAttributes env apiVersion action r caV).processing.responseAttrs.map ContextAttribute.name <+:
      (active (requestAttributes action r caV)).map ContextAttribute.name := by
  have hloop : (attributeLoop env (responseEntity r) r.attrs apiVersion action (initialProcessing r)
      (requestAttributes action r caV)).processing.responseAttrs.map ContextAttribute.name <+:
        (active (requestAttributes action r caV)).map ContextAttribute.name := by
    have hnil : (initialProcessing r).responseAttrs = [] := rfl
    rw [attributeLoop_listed, hnil, List.nil_append, List.map_map]
    exact (initial_listedUpTo _ _ _ _ _).map ContextAttribute.name
  unfold processAttributes processContextAttributeVector
  simp only
  split
  · split <;> exact hloop
  · exact hloop

private theorem names_processedGiven {r : EntityDoc} {caV : List ContextAttribute}
    (h : caV.map ContextAttribute.name = given.map ContextAttribute.name) :
    (processedGiven action r caV given).map ContextAttribute.name =
      (active (requestAttributes action r caV)).map ContextAttribute.name := by
  have hreq : (requestAttributes action r caV).map ContextAttribute.name = given.map ContextAttribute.name :=
    (leaves_requestAttributes action r caV).names.trans h
  unfold processedGiven active
  generalize requestAttributes action r caV = caV' at hreq
  clear h
  induction caV' generalizing given with
  | nil => rfl
  | cons ca caV' ih =>
    cases given with
    | nil => cases hreq
    | cons cb given =>
      obtain ⟨hname, hrest⟩ := List.cons.inj hreq
      have ih := ih hrest
      rw [List.zip_cons_cons, List.filter_cons, List.filter_cons]
      cases ca.skip with
      | true => exact ih
      | false =>
        simp only [Bool.not_false, if_true, List.map_cons]
        rw [ih, hname]

/-- The entry has the attributes of the request that it stands for, by their names. -/
def AnsweredEntry.Aligned (entry : AnsweredEntry) : Prop :=
  entry.cer.contextElement.contextAttributeVector.map ContextAttribute.name <+: entry.given.map ContextAttribute.name

private theorem names_updateEntity {r : EntityDoc} {cer : ContextElementResponse}
    (hcer : cer ∈ (updateEntity env apiVersion action ceP r).responses) :
    cer.contextElement.contextAttributeVector.map ContextAttribute.name <+:
      (active (requestAttributes action r ceP.contextAttributeVector)).map ContextAttribute.name := by
  have hprocessed := @names_responseAttrs env apiVersion action r ceP.contextAttributeVector
  unfold updateEntity at hcer
  split at hcer
  · rw [List.mem_singleton.1 hcer]
    exact List.nil_prefix
  · simp only at hcer
    split at hcer
    · split at hcer
      · rw [List.mem_singleton.1 hcer]
        exact hprocessed
      · rw [List.mem_singleton.1 hcer, names_searchContextProviders]
        exact hprocessed
    · split at hcer
      · cases hcer
      · rw [List.mem_singleton.1 hcer, names_searchContextProviders]
        exact hprocessed

private theorem entitiesEntries_spec (h : ceP.contextAttributeVector.map ContextAttribute.name =
      given.map ContextAttribute.name) (err : Bool) (list : String) :
    (entitiesEntries env apiVersion action ceP given results).map AnsweredEntry.cer =
        (updateEntities env apiVersion action ceP err list results).responses ∧
      ∀ entry ∈ entitiesEntries env apiVersion action ceP given results, entry.Aligned := by
  induction results generalizing ceP err list with
  | nil => exact ⟨rfl, nofun⟩
  | cons r results ih =>
    have hleft : (updateEntity env apiVersion action ceP r).attributes.map ContextAttribute.name =
        given.map ContextAttribute.name := (leaves_updateEntity ceP r).names.trans h
    obtain ⟨hcers, haligned⟩ := @ih { ceP with contextAttributeVector :=
      (updateEntity env apiVersion action ceP r).attributes } hleft
        (updateEntity env apiVersion action ceP r).attributeAlreadyExistsError
        (updateEntity env apiVersion action ceP r).attributeAlreadyExistsList
    constructor
    · simp only [entitiesEntries, updateEntities, List.map_append, List.map_map, hcers]
      congr 1
      exact List.map_id _
    · intro entry hentry
      simp only [entitiesEntries, List.mem_append, List.mem_map] at hentry
      rcases hentry with ⟨cer, hcer, rfl⟩ | hentry
      · unfold AnsweredEntry.Aligned
        rw [names_processedGiven h]
        exact names_updateEntity hcer
      · exact haligned entry hentry

private theorem names_missingEntity {cer : ContextElementResponse}
    (hcer : cer ∈ (processMissingEntity env apiVersion action ceP old).responses) :
    cer.contextElement.contextAttributeVector.map ContextAttribute.name =
      ceP.contextAttributeVector.map ContextAttribute.name := by
  have hnames : ∀ found, (ceP.contextAttributeVector.map fun caP => responseAttribute caP found).map
      ContextAttribute.name = ceP.contextAttributeVector.map ContextAttribute.name := by
    intro found
    rw [List.map_map]
    rfl
  unfold processMissingEntity at hcer
  simp only at hcer
  split at hcer
  · rw [List.mem_singleton.1 hcer]
    exact (names_searchContextProviders _ _ _).trans (hnames _)
  · rw [List.mem_singleton.1 hcer]
    exact (names_searchContextProviders _ _ _).trans (hnames _)
  · rw [List.mem_singleton.1 hcer]
    exact hnames _
  · split at hcer
    · rw [List.mem_singleton.1 hcer]
      exact hnames _
    · split at hcer
      · rw [List.mem_singleton.1 hcer]
        exact hnames _
      · rw [List.mem_singleton.1 hcer]
        exact hnames _

private theorem elementEntries_spec :
    (elementEntries env apiVersion action flavour ceP old results).map AnsweredEntry.cer =
        (processContextElement env apiVersion flavour action ceP old results).responses ∧
      ∀ entry ∈ elementEntries env apiVersion action flavour ceP old results, entry.Aligned := by
  have hcers : ∀ (cers : List ContextElementResponse) (f : ContextElementResponse → List ContextAttribute),
      (cers.map fun cer => (⟨cer, f cer⟩ : AnsweredEntry)).map AnsweredEntry.cer = cers := by
    intro cers f
    rw [List.map_map]
    exact List.map_id _
  unfold elementEntries
  simp only
  split
  · rename_i hchecks
    cases results with
    | nil =>
      rw [processContextElement_missing hchecks]
      refine ⟨hcers _ _, fun entry hentry => ?_⟩
      obtain ⟨cer, hcer, rfl⟩ := List.mem_map.1 hentry
      unfold AnsweredEntry.Aligned
      rw [names_missingEntity hcer]
    | cons r results =>
      obtain ⟨hentities, haligned⟩ := @entitiesEntries_spec env apiVersion action ceP (r :: results)
        ceP.contextAttributeVector rfl false "[ "
      constructor
      · rw [(processContextElement_matched old hchecks (List.cons_ne_nil r results)).1, List.map_append, hentities,
          hcers, updateEntities_responses]
      · intro entry hentry
        rcases List.mem_append.1 hentry with hentry | hentry
        · exact haligned entry hentry
        · obtain ⟨cer, hcer, rfl⟩ := List.mem_map.1 hentry
          unfold alreadyExistsResponse at hcer
          split at hcer
          · rw [List.mem_singleton.1 hcer]
            exact List.prefix_rfl
          · cases hcer
  · refine ⟨hcers _ _, fun entry hentry => ?_⟩
    obtain ⟨cer, -, rfl⟩ := List.mem_map.1 hentry
    exact List.prefix_rfl

end Trace

section Whole

variable {apiVersion : ApiVersion} {flavour : Ngsiv2Flavour} {action : String} {calls : List ElementCall}
  {old : List ContextElementResponse}

/-- The entries are the responses, and every entry stands for attributes of the request. -/
theorem requestEntries_spec :
    old ++ (requestEntries apiVersion flavour action old calls).map AnsweredEntry.cer =
        (mongoUpdateContext apiVersion flavour action old calls).responses ∧
      ∀ entry ∈ requestEntries apiVersion flavour action old calls, entry.Aligned := by
  induction calls generalizing old with
  | nil => exact ⟨List.append_nil _, nofun⟩
  | cons call calls ih =>
    obtain ⟨hcers, haligned⟩ := @elementEntries_spec call.env apiVersion flavour action call.ceP old call.results
    obtain ⟨hrest, hrestAligned⟩ := @ih (old ++
      (processContextElement call.env apiVersion flavour action call.ceP old call.results).responses)
    constructor
    · simp only [requestEntries, mongoUpdateContext, List.map_append]
      rw [hcers, ← List.append_assoc]
      exact hrest
    · intro entry hentry
      rcases List.mem_append.1 hentry with hentry | hentry
      · exact haligned entry hentry
      · exact hrestAligned entry hentry

theorem mongoUpdateContext_left :
    (mongoUpdateContext apiVersion flavour action old calls).left =
      calls.map fun call => call.left apiVersion flavour action := by
  induction calls generalizing old with
  | nil => rfl
  | cons call calls ih => simp only [mongoUpdateContext, List.map_cons, ih]

/-- The attributes of an entry with their entity. -/
def ContextElementResponse.items (cer : ContextElementResponse) : List (EntityId × ContextAttribute) :=
  cer.contextElement.contextAttributeVector.map fun aP => (cer.contextElement.entityId, aP)

private theorem items_of_aligned {entry : AnsweredEntry} (h : entry.Aligned) :
    entry.answers.map (fun a => (a.eP, a.aP)) = entry.cer.items := by
  have hlength : entry.cer.contextElement.contextAttributeVector.length ≤ entry.given.length := by
    have hle := h.length_le
    rwa [List.length_map, List.length_map] at hle
  unfold AnsweredEntry.answers ContextElementResponse.items
  rw [List.map_map]
  conv => rhs; rw [← List.map_fst_zip hlength, List.map_map]
  rfl

/-- The answers are all the attributes of the responses. -/
theorem items_answers :
    (answers apiVersion flavour action calls).map (fun a => (a.eP, a.aP)) =
      (mongoUpdateContext apiVersion flavour action [] calls).responses.flatMap ContextElementResponse.items := by
  obtain ⟨hcers, haligned⟩ := @requestEntries_spec apiVersion flavour action calls []
  rw [List.nil_append] at hcers
  rw [← hcers, List.flatMap_map, answers, List.map_flatMap]
  exact List.flatMap_congr fun entry hentry => items_of_aligned (haligned entry hentry)

/-- An answer has the name of the attribute that it stands for. -/
theorem name_given {a : Answer} (ha : a ∈ answers apiVersion flavour action calls) : a.given.name = a.aP.name := by
  obtain ⟨entry, hentry, ha⟩ := List.mem_flatMap.1 ha
  obtain ⟨p, hp, rfl⟩ := List.mem_map.1 ha
  have haligned := requestEntries_spec.2 entry hentry
  obtain ⟨k, hk, hget⟩ := List.getElem_of_mem hp
  rw [List.length_zip, Nat.lt_min] at hk
  rw [List.getElem_zip] at hget
  rw [← hget]
  have hname := haligned.getElem (by simpa using hk.1)
  simp only [List.getElem_map] at hname
  exact hname.symm

end Whole

end OrionBroker
