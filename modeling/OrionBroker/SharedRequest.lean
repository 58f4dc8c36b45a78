import OrionBroker.AttrNames
import OrionBroker.ElementTurns

/-!
# One request and several matching entities

A request without entity type may match several documents.  They are updated one after the other, with the same
request, and a turn leaves two traces in it: APPEND_STRICT marks the attributes that exist already, and an attribute
that the notified entity does not have yet loses its compound value to the notification.  A turn after it then works
on a different request.  In addition, the error about existing attributes is the one of the last turn.

`entities_independent` shows that the documents and the responses are those of one request for each entity, if no turn
leaves anything that a later one would notice.
-/

namespace OrionBroker

open Bson

/-! ### What a turn leaves in the request -/

/-- A compound value is moved to the notification: some attribute that is processed has one, and there is no notified
attribute of its name yet. -/
def movesCompound (strtod : String → Strtod) (attrs : BSONObj) (apiVersion : ApiVersion) (a : ActionType) :
    List String → String → List ContextAttribute → Bool
  | _, _, [] => false
  | names, cur, ca :: caV =>
    accepts attrs a ca &&
      match locationStep strtod attrs apiVersion cur a ca with
      | .error _ => false
      | .ok l =>
        (ca.compoundValueP.isSome && a ≠ .delete && ca.name ∉ names) ||
          movesCompound strtod attrs apiVersion a (ca.name :: names) l.currentLocAttrName caV

theorem name_updateAttrInNotifyCer (ca : ContextAttribute) (useDefaultType : Bool) (caV : List ContextAttribute)
    (n : String) :
    n ∈ (updateAttrInNotifyCer ca useDefaultType caV).1.map ContextAttribute.name ↔
      n = ca.name ∨ n ∈ caV.map ContextAttribute.name := by
  induction caV with
  | nil => simp [updateAttrInNotifyCer, ContextAttribute.copy]
  | cons cb caV ih =>
    unfold updateAttrInNotifyCer
    split
    · rename_i h
      have hname : (updateNotifyAttribute ca useDefaultType cb).name = cb.name := by
        unfold updateNotifyAttribute
        simp only
        split <;> rfl
      simp only [List.map_cons, List.mem_cons, hname, h]
      tauto
    · simp only [List.map_cons, List.mem_cons, ih]
      tauto

/-- The attribute of the request keeps its compound value if a notified attribute has its name. -/
theorem request_updateAttrInNotifyCer (ca : ContextAttribute) (useDefaultType : Bool) (caV : List ContextAttribute)
    (h : ca.compoundValueP.isSome = true → ca.name ∈ caV.map ContextAttribute.name) :
    (updateAttrInNotifyCer ca useDefaultType caV).2 = ca := by
  induction caV with
  | nil =>
    have hnone : ca.compoundValueP = none := by
      rcases hc : ca.compoundValueP with _ | t
      · rfl
      · have := h (by simp [hc])
        cases this
    unfold updateAttrInNotifyCer ContextAttribute.copy
    simp only [← hnone]
  | cons cb caV ih =>
    unfold updateAttrInNotifyCer
    split
    · rfl
    · rename_i hne
      refine ih fun hc => ?_
      rcases List.mem_cons.1 (h hc) with he | hm
      · exact absurd he.symm hne
      · exact hm

theorem notifyStep_eq {apiVersion : ApiVersion} {a : ActionType} (h : a ≠ .delete) (ca : ContextAttribute)
    (caV : List ContextAttribute) :
    notifyStep apiVersion a ca caV = updateAttrInNotifyCer ca (apiVersion = .v2) caV := by
  cases a with
  | delete => exact absurd rfl h
  | _ => rfl

section Loop

variable {env : Env} {eP : EntityId} {attrs : BSONObj} {apiVersion : ApiVersion} {action : String}

/-- A loop that moves no compound value leaves the attributes of the request as they are. -/
theorem attributeLoop_attributes {p : Processing} {names : List String} {caV : List ContextAttribute}
    (hnames : ActionType.ofString action ≠ .delete → ∀ n, n ∈ names ↔ n ∈ p.notifyAttrs.map ContextAttribute.name)
    (h : movesCompound env.strtod attrs apiVersion (ActionType.ofString action) names p.currentLocAttrName
      (active caV) = false) :
    (attributeLoop env eP attrs apiVersion action p caV).attributes = caV := by
  induction caV generalizing p names with
  | nil => rfl
  | cons ca caV ih =>
    unfold attributeLoop
    rcases hs : ca.skip with _ | _
    · have hact : active (ca :: caV) = ca :: active caV := by simp [active, hs]
      rw [hact] at h
      simp only [Bool.false_eq_true, if_false]
      split
      · rename_i hok
        obtain ⟨ha, l, hl⟩ := contextAttributeItem_ok_iff.1 hok
        simp only [movesCompound, ha, Bool.true_and, hl, Bool.or_eq_false_iff] at h
        obtain ⟨hmove, hrest⟩ := h
        rw [contextAttributeItem_ok ha hl]
        have hkeep : (notifyStep apiVersion (ActionType.ofString action) ca p.notifyAttrs).2 = ca := by
          by_cases hdel : ActionType.ofString action = .delete
          · rw [hdel]
            rfl
          · rw [notifyStep_eq hdel]
            refine request_updateAttrInNotifyCer ca _ _ fun hc => ?_
            rw [← hnames hdel]
            by_contra hcon
            simp [hc, hdel, hcon] at hmove
        rw [ih ?_ hrest, hkeep]
        intro hdel n
        rw [List.mem_cons, hnames hdel]
        simp only [Processing.next, notifyStep_eq hdel]
        rw [name_updateAttrInNotifyCer]
      · rename_i hok
        rw [Bool.not_eq_true] at hok
        rw [(contextAttributeItem_fail (contextAttributeItem_rejected hok)).2.1]
    · have hact : active (ca :: caV) = active caV := by simp [active, hs]
      rw [hact] at h
      simp only [if_true]
      rw [ih hnames h]

end Loop

section Request

variable {env : Env} {apiVersion : ApiVersion} {action : String} {ceP ceP' : ContextElement} {r r' : EntityDoc}

private theorem names_requestAttributes (action : String) (r : EntityDoc) (caV : List ContextAttribute) :
    (requestAttributes action r caV).map ContextAttribute.name = caV.map ContextAttribute.name := by
  unfold requestAttributes markExisting
  split
  · rw [List.map_map]
    apply List.map_congr_left
    intro ca _
    simp only [Function.comp_apply]
    split <;> rfl
  · rfl

private theorem existingNames_eq (action : String) (attrs : BSONObj) (caV : List ContextAttribute) :
    existingNames action attrs caV =
      if ActionType.ofString action = .appendStrict then
        (caV.map ContextAttribute.name).filter fun n => howManyAttrs attrs n ≠ 0
      else [] := by
  unfold existingNames
  rw [List.filter_map]
  rfl

/-- The marks of a turn make no difference to another one that finds the same existing attributes. -/
private theorem requestAttributes_twice (caV : List ContextAttribute)
    (h : existingNames action r.attrs caV = [] ∨
      existingNames action r'.attrs caV = existingNames action r.attrs caV) :
    requestAttributes action r' (requestAttributes action r caV) = requestAttributes action r' caV := by
  unfold requestAttributes markExisting
  split
  · rename_i ha
    simp only [existingNames_eq, ha, if_true] at h
    rw [List.map_map]
    apply List.map_congr_left
    intro ca hca
    simp only [Function.comp_apply]
    by_cases hm : howManyAttrs r.attrs ca.name = 0
    · simp [hm]
    · have hmem : ca.name ∈ (caV.map ContextAttribute.name).filter fun n => howManyAttrs r.attrs n ≠ 0 :=
        List.mem_filter.2 ⟨List.mem_map_of_mem hca, by simpa using hm⟩
      have hm' : howManyAttrs r'.attrs ca.name ≠ 0 := by
        rcases h with h | h
        · rw [h] at hmem
          cases hmem
        · rw [← h] at hmem
          simpa using (List.mem_filter.1 hmem).2
      simp [hm, hm']
  · rfl

/-- The compound values that the turn of a document moves out of the request. -/
def movesIn (env : Env) (apiVersion : ApiVersion) (action : String) (ceP : ContextElement) (r : EntityDoc) : Bool :=
  movesCompound env.strtod r.attrs apiVersion (ActionType.ofString action) ((getFieldNames r.attrs).map keyName)
    ((r.location.map Location.attrName).getD "") (processed action r ceP)

/-- The request after a turn that moves no compound value. -/
private theorem updateEntity_attributes (h : movesIn env apiVersion action ceP r = false) :
    (updateEntity env apiVersion action ceP r).attributes = requestAttributes action r ceP.contextAttributeVector := by
  have hattrs : (processAttributes env apiVersion action r ceP.contextAttributeVector).attributes =
      requestAttributes action r ceP.contextAttributeVector := by
    have hloop : (attributeLoop env (responseEntity r) r.attrs apiVersion action (initialProcessing r)
        (requestAttributes action r ceP.contextAttributeVector)).attributes =
        requestAttributes action r ceP.contextAttributeVector := by
      refine attributeLoop_attributes ?_ h
      intro _ n
      simp only [initialProcessing, ContextElementResponse.ofDoc, List.map_map]
      rw [show (ContextAttribute.name ∘ notifyAttribute ((r.location.map Location.attrName).getD "") r.attrs) = keyName
        from funext fun k => name_notifyAttribute _ _ k]
    unfold processAttributes processContextAttributeVector
    simp only
    split
    · split <;> exact hloop
    · exact hloop
  unfold updateEntity
  split
  · rename_i hdel
    rw [hdel.2]
    unfold requestAttributes markExisting
    split <;> rfl
  · simp only
    split
    · split <;> exact hattrs
    · split <;> exact hattrs

variable (env apiVersion) in
/-- A turn depends on the request through the attributes it processes, the names of all of them and the entity. -/
private theorem updateEntity_congr (hen : ceP'.entityId = ceP.entityId)
    (hnames : ceP'.contextAttributeVector.map ContextAttribute.name =
      ceP.contextAttributeVector.map ContextAttribute.name)
    (hreq : requestAttributes action r ceP'.contextAttributeVector =
      requestAttributes action r ceP.contextAttributeVector) :
    updateEntity env apiVersion action ceP' r = updateEntity env apiVersion action ceP r := by
  have hempty : ceP'.contextAttributeVector = [] ↔ ceP.contextAttributeVector = [] := by
    rw [← List.map_eq_nil_iff (f := ContextAttribute.name), hnames, List.map_eq_nil_iff]
  have hproc : processAttributes env apiVersion action r ceP'.contextAttributeVector =
      processAttributes env apiVersion action r ceP.contextAttributeVector := by
    unfold processAttributes
    rw [hreq]
  have hexist : existingNames action r.attrs ceP'.contextAttributeVector =
      existingNames action r.attrs ceP.contextAttributeVector := by
    rw [existingNames_eq, existingNames_eq, hnames]
  unfold updateEntity attributeAlreadyExistsList
  rw [hproc, hexist, hen]
  simp only [hempty]

/-- The turn of `r` leaves nothing in the request that the turn of `r'` notices: it finds no existing attributes, or
those that the later turn finds as well, and it moves no compound value. -/
def Undisturbed (env : Env) (action : String) (ceP : ContextElement) (r r' : EntityDoc) : Prop :=
  (existingNames action r.attrs ceP.contextAttributeVector = [] ∨
    existingNames action r'.attrs ceP.contextAttributeVector =
      existingNames action r.attrs ceP.contextAttributeVector) ∧
    movesIn env .v1 action ceP r = false

instance (env : Env) (action : String) (ceP : ContextElement) (r r' : EntityDoc) :
    Decidable (Undisturbed env action ceP r r') := by
  unfold Undisturbed; infer_instance

/-- Every turn is the one that the document would have with the request as it came. -/
private theorem turns_undisturbed {results : List EntityDoc} (hpair : results.Pairwise (Undisturbed env action ceP))
    (hen : ceP'.entityId = ceP.entityId)
    (hnames : ceP'.contextAttributeVector.map ContextAttribute.name =
      ceP.contextAttributeVector.map ContextAttribute.name)
    (hreq : ∀ r ∈ results, requestAttributes action r ceP'.contextAttributeVector =
      requestAttributes action r ceP.contextAttributeVector) :
    (entityTurns env .v1 action ceP' results).map (fun t => updateEntity env .v1 action t.1 t.2) =
      results.map (updateEntity env .v1 action ceP) := by
  induction results generalizing ceP' with
  | nil => rfl
  | cons r results ih =>
    obtain ⟨hr, hpair⟩ := List.pairwise_cons.1 hpair
    have hturn := updateEntity_congr env .v1 hen hnames (hreq r (List.mem_cons_self ..))
    simp only [entityTurns, List.map_cons, hturn]
    cases results with
    | nil => rfl
    | cons r' results =>
      have hattrs := updateEntity_attributes (hr r' (List.mem_cons_self ..)).2
      congr 1
      refine ih hpair hen ?_ ?_
      · rw [hattrs, names_requestAttributes]
      · intro r'' hr''
        rw [hattrs]
        exact requestAttributes_twice _ (hr r'' hr'').1

end Request

/-! ### The element -/

/-- The documents and the responses of an element are those of the same request for each matching document alone. -/
def Independent (env : Env) (flavour : Ngsiv2Flavour) (action : String) (ceP : ContextElement)
    (old : List ContextElementResponse) (results : List EntityDoc) : Prop :=
  (processContextElement env .v1 flavour action ceP old results).docs =
      results.flatMap (fun r => (processContextElement env .v1 flavour action ceP old [r]).docs) ∧
    ∀ cer, cer ∈ (processContextElement env .v1 flavour action ceP old results).responses ↔
      ∃ r ∈ results, cer ∈ (processContextElement env .v1 flavour action ceP old [r]).responses

section Element

variable {env : Env} {flavour : Ngsiv2Flavour} {action : String} {ceP : ContextElement}
  {old : List ContextElementResponse}

private theorem checksPass_v1 (results results' : List EntityDoc) :
    checksPass env .v1 flavour action ceP results = checksPass env .v1 flavour action ceP results' := by
  simp [checksPass]

/-- An element that does not pass the checks gets the same response whatever it matches. -/
private theorem refused_responses {results : List EntityDoc} (results' : List EntityDoc)
    (h : checksPass env .v1 flavour action ceP results = false) :
    (processContextElement env .v1 flavour action ceP old results).responses =
      (processContextElement env .v1 flavour action ceP old results').responses := by
  unfold processContextElement
  cases hpre : contextElementPreconditionsCheck ceP action .v1 with
  | some cer => rfl
  | none =>
    cases hq : env.collectionQuery with
    | some err => rfl
    | none => simp [checksPass, hpre, hq] at h

/-- The error about existing attributes that a turn gives rise to when it is the last one. -/
private def existsError (ceP : ContextElement) (u : UpdateResult) : List ContextElementResponse :=
  if u.attributeAlreadyExistsError then
    [generalErrorResponse ceP [] .SccBadRequest
      ("one or more of the attributes in the request already exist: " ++ u.attributeAlreadyExistsList)]
  else []

variable (env action ceP) in
private theorem alreadyExistsResponse_last (results : List EntityDoc) (hne : results ≠ []) :
    ∃ t, (entityTurns env .v1 action ceP results).getLast? = some t ∧
      alreadyExistsResponse ceP (updateEntities env .v1 action ceP false "[ " results) =
        existsError ceP (updateEntity env .v1 action t.1 t.2) := by
  obtain ⟨t, hlast, herr, hlist⟩ := updateEntities_last env .v1 action ceP false "[ " hne
  refine ⟨t, hlast, ?_⟩
  unfold alreadyExistsResponse existsError
  rw [herr, hlist]

variable (old) in
/-- The responses of an element that matches one document. -/
private theorem single_responses (h : checksPass env .v1 flavour action ceP [] = true) (r : EntityDoc) :
    (processContextElement env .v1 flavour action ceP old [r]).responses =
        (updateEntity env .v1 action ceP r).responses ++ existsError ceP (updateEntity env .v1 action ceP r) ∧
      (processContextElement env .v1 flavour action ceP old [r]).docs = [(updateEntity env .v1 action ceP r).doc] := by
  rw [checksPass_v1 [] [r]] at h
  obtain ⟨hresp, hdocs⟩ := processContextElement_matched old h (by simp)
  obtain ⟨t, hlast, hgeneral⟩ := alreadyExistsResponse_last env action ceP [r] (by simp)
  rw [hgeneral] at hresp
  cases hlast
  refine ⟨?_, hdocs⟩
  simpa [entityTurns] using hresp

private theorem existsError_eq_nil {r : EntityDoc}
    (h : existingNames action r.attrs ceP.contextAttributeVector = []) :
    existsError ceP (updateEntity env .v1 action ceP r) = [] := by
  unfold existsError
  rw [if_neg fun hflag => (updateEntity_alreadyExists r).1 hflag h]

private theorem existsError_congr {r r' : EntityDoc}
    (h : existingNames action r'.attrs ceP.contextAttributeVector =
      existingNames action r.attrs ceP.contextAttributeVector) :
    existsError ceP (updateEntity env .v1 action ceP r') = existsError ceP (updateEntity env .v1 action ceP r) := by
  have hflag : (updateEntity env .v1 action ceP r').attributeAlreadyExistsError =
      (updateEntity env .v1 action ceP r).attributeAlreadyExistsError := by
    rw [Bool.eq_iff_iff, updateEntity_alreadyExists, updateEntity_alreadyExists, h]
  unfold existsError
  rw [hflag, updateEntity_alreadyExistsList, updateEntity_alreadyExistsList, attributeAlreadyExistsList,
    attributeAlreadyExistsList, h]

/-- If no turn leaves anything that a later one would notice, the documents and the responses are those of the same
request for each entity alone. -/
theorem entities_independent {results : List EntityDoc} (hne : results ≠ [])
    (hpair : results.Pairwise (Undisturbed env action ceP)) :
    Independent env flavour action ceP old results := by
  unfold Independent
  rcases hchecks : checksPass env .v1 flavour action ceP results with _ | _
  · obtain ⟨-, -, -, hdocs⟩ := processContextElement_refused old hchecks
    refine ⟨?_, fun cer => ?_⟩
    · rw [hdocs, List.map_eq_flatMap]
      congr 1
      funext r
      rw [checksPass_v1 results [r]] at hchecks
      obtain ⟨-, -, -, hsingle⟩ := processContextElement_refused old hchecks
      rw [hsingle]
      rfl
    · obtain ⟨r, hr⟩ := List.exists_mem_of_ne_nil _ hne
      constructor
      · intro hcer
        exact ⟨r, hr, by rwa [← refused_responses [r] hchecks]⟩
      · rintro ⟨r', -, hcer⟩
        rwa [refused_responses [r'] hchecks]
  · have hsingle := fun r => single_responses old (by rwa [checksPass_v1 results []] at hchecks) r
    obtain ⟨hresp, hdocs⟩ := processContextElement_matched old hchecks hne
    obtain ⟨t, hlast, hgeneral⟩ := alreadyExistsResponse_last env action ceP results hne
    have hturns := turns_undisturbed hpair (rfl : ceP.entityId = ceP.entityId) rfl fun _ _ => rfl
    -- the last turn is the one of the last document
    obtain ⟨rn, hrn, ht⟩ : ∃ rn, results.getLast? = some rn ∧
        updateEntity env .v1 action t.1 t.2 = updateEntity env .v1 action ceP rn := by
      have h := congrArg List.getLast? hturns
      rw [List.getLast?_map, List.getLast?_map, hlast, Option.map_some] at h
      obtain ⟨rn, hrn, hf⟩ := Option.map_eq_some_iff.1 h.symm
      exact ⟨rn, hrn, hf.symm⟩
    obtain ⟨init, rfl⟩ := List.getLast?_eq_some_iff.1 hrn
    have hown : (entityTurns env .v1 action ceP (init ++ [rn])).flatMap
        (fun t => (updateEntity env .v1 action t.1 t.2).responses) =
        (init ++ [rn]).flatMap fun r => (updateEntity env .v1 action ceP r).responses := by
      rw [← List.flatMap_map (fun t : ContextElement × EntityDoc => updateEntity env .v1 action t.1 t.2)
        UpdateResult.responses, hturns, List.flatMap_map]
    refine ⟨?_, fun cer => ?_⟩
    · rw [hdocs, ← Function.comp_def UpdateResult.doc, ← List.map_map, hturns, List.map_map, List.map_eq_flatMap]
      simp only [(hsingle _).2, Function.comp_apply]
    · rw [hresp, hown, hgeneral, ht, List.mem_append, List.mem_flatMap]
      simp only [(hsingle _).1, List.mem_append]
      constructor
      · rintro (⟨r, hr, hcer⟩ | hcer)
        · exact ⟨r, hr, Or.inl hcer⟩
        · exact ⟨rn, Or.inr (List.mem_singleton.2 rfl), Or.inr hcer⟩
      · rintro ⟨r, hr, hcer | hcer⟩
        · exact Or.inl ⟨r, hr, hcer⟩
        · right
          rcases hr with hr | hr
          · obtain ⟨hnone | hsame, -⟩ := (List.pairwise_append.1 hpair).2.2 r hr rn (List.mem_singleton.2 rfl)
            · rw [existsError_eq_nil hnone] at hcer
              cases hcer
            · rwa [existsError_congr hsame]
          · rwa [← List.mem_singleton.1 hr]

end Element

/-- An entity of a given type with one attribute. -/
def typedEntity (type name : String) : EntityDoc := { createdWith name "1" with type := type }

/-- A request for the entities `E` of all types. -/
def untypedRequest (caV : List ContextAttribute) : ContextElement :=
  { entityId := { id := "E", type := "" }, contextAttributeVector := caV }

/-- Two entities that have the same one of two attributes are updated as if each were alone. -/
theorem entities_independent_strict :
    Independent (.quiet 2) .noFlavour "APPEND_STRICT"
      (untypedRequest [{ name := "c", type := "T", stringValue := "2" }, { name := "d", type := "T", stringValue := "2" }])
      [] [typedEntity "T1" "c", typedEntity "T2" "c"] :=
  entities_independent (by decide) (by decide)

/-- The first entity has the attribute `c`, the second one has not: alone it would get it. -/
theorem entities_dependent :
    ¬ Independent (.quiet 2) .noFlavour "APPEND_STRICT"
      (untypedRequest [{ name := "c", type := "T", stringValue := "2" }]) []
      [typedEntity "T1" "c", typedEntity "T2" "b"] := by
  intro h
  have hdocs : (processContextElement (.quiet 2) .v1 .noFlavour "APPEND_STRICT"
      (untypedRequest [{ name := "c", type := "T", stringValue := "2" }]) []
      [typedEntity "T1" "c", typedEntity "T2" "b"]).docs ≠
      [typedEntity "T1" "c", typedEntity "T2" "b"].flatMap fun r =>
        (processContextElement (.quiet 2) .v1 .noFlavour "APPEND_STRICT"
          (untypedRequest [{ name := "c", type := "T", stringValue := "2" }]) [] [r]).docs := by
    decide
  exact hdocs h.1

end OrionBroker
