import OrionBroker.UpdateEntity

/-!
# What a request adds

The turns of the loop over the attributes of a request share nothing but the name of the location attribute and the
entity to notify.  `contextAttributeItem_ok` and `contextAttributeItem_fail` say once what a turn can do.  From them
`attributeLoop_fold` gives every variable of a completed loop as a fold over the attributes that are not skipped, and
`attributeLoop_fail` splits an interrupted one at the attribute that was rejected.
-/

namespace OrionBroker

open Bson

/-! ### One attribute -/

section Attribute

variable (now : Int) (strtod : String → Strtod) (attrs : BSONObj) (apiVersion : ApiVersion)

/-- What an attribute adds to the update document. -/
def attributeUpdate : ActionType → ContextAttribute → AttributeUpdate
  | .update, ca => updateAttribute now attrs ca false apiVersion
  | .replace, ca => updateAttribute now attrs ca true apiVersion
  | .append, ca | .appendStrict, ca => appendAttribute now attrs ca apiVersion
  | .delete, ca => { found := hasField attrs ca.key, actualUpdate := true }
  | .unknown, _ => { found := true, actualUpdate := false }

/-- The path that an attribute removes. -/
def attributeUnset : ActionType → ContextAttribute → List String
  | .delete, ca => [composedName ca.key]
  | _, _ => []

/-- The effect of an attribute on the location, or the reason why it is rejected. -/
def locationStep (cur : String) : ActionType → ContextAttribute → Except String LocationStep
  | .update, ca | .replace, ca => processLocationAtUpdateAttribute strtod cur ca apiVersion
  | .append, ca | .appendStrict, ca =>
    processLocationAtAppendAttribute strtod cur ca (!hasField attrs ca.key) apiVersion
  | .delete, ca =>
    if ca.getLocation apiVersion ≠ "" then .error "location attribute has to be defined at creation time, with APPEND"
    else .ok ⟨if cur = ca.name then "" else cur, []⟩
  | .unknown, _ => .error ""

/-- The tests on an attribute that are not about the location. -/
def accepts : ActionType → ContextAttribute → Bool
  | .update, _ | .replace, _ => true
  | .append, ca | .appendStrict, ca => legalIdUsage attrs ca
  | .delete, ca => hasField attrs ca.key
  | .unknown, _ => false

/-- An attribute that is not there and that the action needs to be there. -/
def missing : ActionType → ContextAttribute → Bool
  | .update, ca | .delete, ca => !hasField attrs ca.key
  | _, _ => false

/-- The attributes of the entity to notify, and the attribute of the request, after a turn. -/
def notifyStep : ActionType → ContextAttribute → List ContextAttribute → List ContextAttribute × ContextAttribute
  | .delete, ca, notifyAttrs => (deleteAttrInNotifyCer ca notifyAttrs, ca)
  | _, ca, notifyAttrs => updateAttrInNotifyCer ca (apiVersion = .v2) notifyAttrs

def countDeleted (ca : ContextAttribute) (deleted : List (String × Nat)) : List (String × Nat) :=
  setField ca.name ((deleted.lookup ca.name).getD 0 + 1) deleted

end Attribute

theorem updateAttribute_found (now : Int) (attrs : BSONObj) (ca : ContextAttribute) (apiVersion : ApiVersion) :
    (updateAttribute now attrs ca false apiVersion).found = hasField attrs ca.key := by
  unfold updateAttribute hasField
  rcases h : attrs.lookup ca.key with _ | attr <;> simp [h]

theorem appendAttribute_found (now : Int) (attrs : BSONObj) (ca : ContextAttribute) (apiVersion : ApiVersion) :
    (appendAttribute now attrs ca apiVersion).found = hasField attrs ca.key := by
  unfold appendAttribute
  split
  · rw [updateAttribute_found]
  · rename_i h
    simpa using h

/-! ### One turn -/

section Turn

variable {env : Env} {eP : EntityId} {attrs : BSONObj} {apiVersion : ApiVersion} {action : String}

/-- The variables after a turn that goes on. -/
def Processing.next (env : Env) (eP : EntityId) (attrs : BSONObj) (apiVersion : ApiVersion) (a : ActionType)
    (p : Processing) (l : LocationStep) (ca : ContextAttribute) : Processing :=
  let u := attributeUpdate env.getCurrentTime attrs apiVersion a ca
  { notifyAttrs := (notifyStep apiVersion a ca p.notifyAttrs).1
    currentLocAttrName := l.currentLocAttrName
    geoJson := p.geoJson ++ l.geoJson
    toSet := p.toSet ++ u.toSet
    toUnset := p.toUnset ++ attributeUnset a ca
    toPush := p.toPush ++ u.toPush
    responseAttrs := p.responseAttrs ++ [responseAttribute ca (!missing attrs a ca)]
    statusCode :=
      if missing attrs a ca then ⟨.SccInvalidParameter, offendingAttribute "UPDATE" eP ca⟩ else p.statusCode
    entityModified := u.actualUpdate || p.entityModified
    deletedAttributesCounter :=
      if a = .delete then countDeleted ca p.deletedAttributesCounter else p.deletedAttributesCounter
    modifiedAttrs := if u.actualUpdate then p.modifiedAttrs ++ [ca.name] else p.modifiedAttrs }

private theorem updateItem_ok {p : Processing} {ca : ContextAttribute} {l : LocationStep} (isReplace : Bool)
    (hl : processLocationAtUpdateAttribute env.strtod p.currentLocAttrName ca apiVersion = .ok l) :
    updateContextAttributeItem env eP attrs apiVersion isReplace p ca =
      ⟨true, p.next env eP attrs apiVersion (if isReplace then .replace else .update) l ca,
        (notifyStep apiVersion (if isReplace then .replace else .update) ca p.notifyAttrs).2⟩ := by
  unfold updateContextAttributeItem
  simp only [hl, Processing.finish, Processing.next]
  cases isReplace with
  | true => simp [attributeUpdate, missing, notifyStep, attributeUnset, updateAttribute, Processing.addUpdate]
  | false =>
    have hf := updateAttribute_found env.getCurrentTime attrs ca apiVersion
    rcases h : hasField attrs ca.key with _ | _ <;>
      simp [attributeUpdate, missing, notifyStep, attributeUnset, Processing.addUpdate, Processing.fail, hf, h]

private theorem appendItem_ok {p : Processing} {ca : ContextAttribute} {l : LocationStep} {a : ActionType}
    (ha : a = .append ∨ a = .appendStrict) (hid : legalIdUsage attrs ca = true)
    (hl : processLocationAtAppendAttribute env.strtod p.currentLocAttrName ca (!hasField attrs ca.key) apiVersion =
      .ok l) :
    appendContextAttributeItem env eP attrs apiVersion p ca =
      ⟨true, p.next env eP attrs apiVersion a l ca, (notifyStep apiVersion a ca p.notifyAttrs).2⟩ := by
  unfold appendContextAttributeItem
  rw [if_pos hid]
  simp only [appendAttribute_found, hl, Processing.finish, Processing.next]
  rcases ha with rfl | rfl
  · simp only [attributeUpdate, missing, notifyStep, attributeUnset, Processing.addUpdate, List.append_nil]
    rfl
  · simp only [attributeUpdate, missing, notifyStep, attributeUnset, Processing.addUpdate, List.append_nil]
    rfl

private theorem deleteItem_ok {p : Processing} {ca : ContextAttribute} (hk : hasField attrs ca.key = true)
    (hl : ca.getLocation apiVersion = "") :
    deleteContextAttributeItem eP attrs apiVersion p ca =
      ⟨true, p.next env eP attrs apiVersion .delete
        ⟨if p.currentLocAttrName = ca.name then "" else p.currentLocAttrName, []⟩ ca, ca⟩ := by
  unfold deleteContextAttributeItem deleteAttribute
  simp [hk, hl, Processing.next, attributeUpdate, missing, notifyStep, attributeUnset, countDeleted]

/-- A turn that goes on. -/
theorem contextAttributeItem_ok {p : Processing} {ca : ContextAttribute} {l : LocationStep}
    (ha : accepts attrs (ActionType.ofString action) ca = true)
    (hl : locationStep env.strtod attrs apiVersion p.currentLocAttrName (ActionType.ofString action) ca = .ok l) :
    contextAttributeItem env eP attrs apiVersion action p ca =
      ⟨true, p.next env eP attrs apiVersion (ActionType.ofString action) l ca,
        (notifyStep apiVersion (ActionType.ofString action) ca p.notifyAttrs).2⟩ := by
  unfold contextAttributeItem
  cases h : ActionType.ofString action with
  | update =>
    rw [h] at hl
    exact updateItem_ok false hl
  | replace =>
    rw [h] at hl
    exact updateItem_ok true hl
  | append =>
    rw [h] at ha hl
    exact appendItem_ok (Or.inl rfl) ha hl
  | appendStrict =>
    rw [h] at ha hl
    exact appendItem_ok (Or.inr rfl) ha hl
  | delete =>
    rw [h] at ha hl
    simp only [locationStep] at hl
    split at hl
    · cases hl
    · rename_i hloc
      cases hl
      simp only [ne_eq, not_not] at hloc
      exact deleteItem_ok ha hloc
  | unknown =>
    rw [h] at ha
    cases ha

/-- A turn that ends the loop: the attribute is listed in the response, and the status is an error. -/
theorem contextAttributeItem_fail {p : Processing} {ca : ContextAttribute}
    (h : accepts attrs (ActionType.ofString action) ca = true →
      ∃ e, locationStep env.strtod attrs apiVersion p.currentLocAttrName (ActionType.ofString action) ca = .error e) :
    (contextAttributeItem env eP attrs apiVersion action p ca).ok = false ∧
      (contextAttributeItem env eP attrs apiVersion action p ca).targetAttr = ca ∧
      (contextAttributeItem env eP attrs apiVersion action p ca).processing.responseAttrs =
        p.responseAttrs ++ [responseAttribute ca (!missing attrs (ActionType.ofString action) ca)] ∧
      (contextAttributeItem env eP attrs apiVersion action p ca).processing.statusCode.code = .SccInvalidParameter := by
  unfold contextAttributeItem
  cases ha : ActionType.ofString action with
  | update =>
    rw [ha] at h
    obtain ⟨e, he⟩ := h rfl
    simp only [locationStep] at he
    unfold updateContextAttributeItem
    have hf := updateAttribute_found env.getCurrentTime attrs ca apiVersion
    rcases hk : hasField attrs ca.key with _ | _ <;>
      simp [he, Processing.fail, Processing.addUpdate, missing, hf, hk]
  | replace =>
    rw [ha] at h
    obtain ⟨e, he⟩ := h rfl
    simp only [locationStep] at he
    unfold updateContextAttributeItem
    simp [he, Processing.fail, Processing.addUpdate, missing, updateAttribute]
  | append =>
    rw [ha] at h
    unfold appendContextAttributeItem
    by_cases hid : legalIdUsage attrs ca = true
    · obtain ⟨e, he⟩ := h hid
      simp only [locationStep] at he
      simp [hid, appendAttribute_found, he, Processing.fail, Processing.addUpdate, missing]
    · simp [hid, Processing.fail, missing]
  | appendStrict =>
    rw [ha] at h
    unfold appendContextAttributeItem
    by_cases hid : legalIdUsage attrs ca = true
    · obtain ⟨e, he⟩ := h hid
      simp only [locationStep] at he
      simp [hid, appendAttribute_found, he, Processing.fail, Processing.addUpdate, missing]
    · simp [hid, Processing.fail, missing]
  | delete =>
    rw [ha] at h
    unfold deleteContextAttributeItem deleteAttribute
    by_cases hk : hasField attrs ca.key = true
    · obtain ⟨e, he⟩ := h hk
      simp only [locationStep] at he
      split at he
      · rename_i hloc
        simp [hk, hloc, Processing.fail, missing]
      · cases he
    · simp [hk, Processing.fail, missing]
  | unknown => simp [missing]

/-- Whether a turn goes on is decided by the attribute and the name of the location attribute. -/
theorem contextAttributeItem_ok_iff {p : Processing} {ca : ContextAttribute} :
    (contextAttributeItem env eP attrs apiVersion action p ca).ok = true ↔
      accepts attrs (ActionType.ofString action) ca = true ∧
        ∃ l, locationStep env.strtod attrs apiVersion p.currentLocAttrName (ActionType.ofString action) ca = .ok l := by
  constructor
  · intro h
    by_contra hcon
    have hrejected : accepts attrs (ActionType.ofString action) ca = true →
        ∃ e, locationStep env.strtod attrs apiVersion p.currentLocAttrName (ActionType.ofString action) ca = .error e := by
      intro ha
      cases hl : locationStep env.strtod attrs apiVersion p.currentLocAttrName (ActionType.ofString action) ca with
      | error e => exact ⟨e, rfl⟩
      | ok l => exact absurd ⟨ha, l, hl⟩ hcon
    have hfail : (contextAttributeItem env eP attrs apiVersion action p ca).ok = false :=
      (contextAttributeItem_fail hrejected).1
    rw [h] at hfail
    cases hfail
  · intro h
    obtain ⟨ha, l, hl⟩ := h
    rw [contextAttributeItem_ok ha hl]

theorem contextAttributeItem_rejected {p : Processing} {ca : ContextAttribute}
    (h : (contextAttributeItem env eP attrs apiVersion action p ca).ok = false) :
    accepts attrs (ActionType.ofString action) ca = true →
      ∃ e, locationStep env.strtod attrs apiVersion p.currentLocAttrName (ActionType.ofString action) ca = .error e := by
  intro ha
  cases hl : locationStep env.strtod attrs apiVersion p.currentLocAttrName (ActionType.ofString action) ca with
  | error e => exact ⟨e, rfl⟩
  | ok l =>
    rw [contextAttributeItem_ok_iff.2 ⟨ha, l, hl⟩] at h
    cases h

end Turn

/-! ### The loop -/

/-- The attributes of a request that are processed. -/
def active (caV : List ContextAttribute) : List ContextAttribute := caV.filter fun ca => !ca.skip

section Loop

variable {env : Env} {eP : EntityId} {attrs : BSONObj} {apiVersion : ApiVersion} {action : String}

private theorem attributeLoop_skip {p : Processing} {ca : ContextAttribute} {caV : List ContextAttribute}
    (h : ca.skip = true) :
    attributeLoop env eP attrs apiVersion action p (ca :: caV) =
      { attributeLoop env eP attrs apiVersion action p caV with
        attributes := ca :: (attributeLoop env eP attrs apiVersion action p caV).attributes } := by
  conv => lhs; unfold attributeLoop
  rw [if_pos h]

/-- A completed loop starts with a turn that goes on. -/
private theorem attributeLoop_cons_ok {p : Processing} {ca : ContextAttribute} {caV : List ContextAttribute}
    (hs : ca.skip = false) (h : (attributeLoop env eP attrs apiVersion action p (ca :: caV)).ok = true) :
    accepts attrs (ActionType.ofString action) ca = true ∧
      ∃ l, locationStep env.strtod attrs apiVersion p.currentLocAttrName (ActionType.ofString action) ca = .ok l ∧
        attributeLoop env eP attrs apiVersion action p (ca :: caV) =
          { attributeLoop env eP attrs apiVersion action
              (p.next env eP attrs apiVersion (ActionType.ofString action) l ca) caV with
            attributes := (notifyStep apiVersion (ActionType.ofString action) ca p.notifyAttrs).2 ::
              (attributeLoop env eP attrs apiVersion action
                (p.next env eP attrs apiVersion (ActionType.ofString action) l ca) caV).attributes } := by
  have hunfold : attributeLoop env eP attrs apiVersion action p (ca :: caV) =
      let t := contextAttributeItem env eP attrs apiVersion action p ca
      if t.ok then
        { attributeLoop env eP attrs apiVersion action t.processing caV with
          attributes := t.targetAttr :: (attributeLoop env eP attrs apiVersion action t.processing caV).attributes }
      else ⟨false, t.processing, t.targetAttr :: caV⟩ := by
    conv => lhs; unfold attributeLoop
    rw [if_neg (by simp [hs])]
  by_cases hok : (contextAttributeItem env eP attrs apiVersion action p ca).ok = true
  · obtain ⟨ha, l, hl⟩ := contextAttributeItem_ok_iff.1 hok
    refine ⟨ha, l, hl, ?_⟩
    rw [hunfold, contextAttributeItem_ok ha hl]
    rfl
  · rw [hunfold] at h
    simp only at h
    rw [if_neg hok] at h
    cases h

/-- The rule for an invariant of the loop, together with the attributes processed so far. -/
theorem attributeLoop_induct {P : List ContextAttribute → Processing → Prop} (done : List ContextAttribute)
    {caV : List ContextAttribute} {p : Processing} (h₀ : P done p)
    (hstep : ∀ done p ca l, P done p → ca ∈ active caV →
      accepts attrs (ActionType.ofString action) ca = true →
      locationStep env.strtod attrs apiVersion p.currentLocAttrName (ActionType.ofString action) ca = .ok l →
      P (done ++ [ca]) (p.next env eP attrs apiVersion (ActionType.ofString action) l ca))
    (h : (attributeLoop env eP attrs apiVersion action p caV).ok = true) :
    P (done ++ active caV) (attributeLoop env eP attrs apiVersion action p caV).processing := by
  induction caV generalizing p done with
  | nil => simpa [active, attributeLoop] using h₀
  | cons ca caV ih =>
    rcases hs : ca.skip with _ | _
    · obtain ⟨ha, l, hl, heq⟩ := attributeLoop_cons_ok hs h
      have hmem : ca ∈ active (ca :: caV) := by simp [active, hs]
      have hnext := ih (done ++ [ca]) (hstep done p ca l h₀ hmem ha hl)
        (fun done p cb l hp hcb => hstep done p cb l hp (by simp only [active, List.mem_filter] at hcb ⊢; exact
          ⟨List.mem_cons_of_mem _ hcb.1, hcb.2⟩)) (by rw [heq] at h; exact h)
      rw [heq]
      have hact : active (ca :: caV) = ca :: active caV := by simp [active, hs]
      rw [hact]
      simpa using hnext
    · rw [attributeLoop_skip hs] at h ⊢
      have hact : active (ca :: caV) = active caV := by simp [active, hs]
      rw [hact]
      exact ih done h₀ (fun done p cb l hp hcb => hstep done p cb l hp (by rw [hact]; exact hcb)) h

/-- Every variable of a completed loop that a turn changes by itself is a fold. -/
theorem attributeLoop_fold {α : Type} (F : Processing → α) (g : α → ContextAttribute → α) {p : Processing}
    {caV : List ContextAttribute}
    (hstep : ∀ p ca l, F (p.next env eP attrs apiVersion (ActionType.ofString action) l ca) = g (F p) ca)
    (h : (attributeLoop env eP attrs apiVersion action p caV).ok = true) :
    F (attributeLoop env eP attrs apiVersion action p caV).processing = (active caV).foldl g (F p) := by
  have key := attributeLoop_induct [] (P := fun done q => F q = done.foldl g (F p)) rfl
    (fun done q ca l hq _ _ _ => by rw [hstep, hq, List.foldl_append]; rfl) h
  simpa using key

theorem attributeLoop_accepts {p : Processing} {caV : List ContextAttribute}
    (h : (attributeLoop env eP attrs apiVersion action p caV).ok = true) :
    ∀ ca ∈ active caV, accepts attrs (ActionType.ofString action) ca = true := by
  have key := attributeLoop_induct []
    (P := fun done _ => ∀ ca ∈ done, accepts attrs (ActionType.ofString action) ca = true) (by simp)
    (fun done q ca l hq _ ha _ cb hcb => by
      rcases List.mem_append.1 hcb with hcb | hcb
      · exact hq cb hcb
      · rw [List.mem_singleton.1 hcb]; exact ha) h
  simpa using key

/-- A list to which every turn appends. -/
private theorem attributeLoop_flatMap {β : Type} (F : Processing → List β) (f : ContextAttribute → List β)
    {p : Processing} {caV : List ContextAttribute}
    (hstep : ∀ p ca l, F (p.next env eP attrs apiVersion (ActionType.ofString action) l ca) = F p ++ f ca)
    (h : (attributeLoop env eP attrs apiVersion action p caV).ok = true) :
    F (attributeLoop env eP attrs apiVersion action p caV).processing = F p ++ (active caV).flatMap f := by
  rw [attributeLoop_fold F (fun l ca => l ++ f ca) hstep h, List.foldl_append_eq_append, List.flatMap_def]

theorem attributeLoop_toSet {p : Processing} {caV : List ContextAttribute}
    (h : (attributeLoop env eP attrs apiVersion action p caV).ok = true) :
    (attributeLoop env eP attrs apiVersion action p caV).processing.toSet =
      p.toSet ++ (active caV).flatMap fun ca =>
        (attributeUpdate env.getCurrentTime attrs apiVersion (ActionType.ofString action) ca).toSet :=
  attributeLoop_flatMap Processing.toSet _ (fun _ _ _ => rfl) h

theorem attributeLoop_toPush {p : Processing} {caV : List ContextAttribute}
    (h : (attributeLoop env eP attrs apiVersion action p caV).ok = true) :
    (attributeLoop env eP attrs apiVersion action p caV).processing.toPush =
      p.toPush ++ (active caV).flatMap fun ca =>
        (attributeUpdate env.getCurrentTime attrs apiVersion (ActionType.ofString action) ca).toPush :=
  attributeLoop_flatMap Processing.toPush _ (fun _ _ _ => rfl) h

theorem attributeLoop_toUnset {p : Processing} {caV : List ContextAttribute}
    (h : (attributeLoop env eP attrs apiVersion action p caV).ok = true) :
    (attributeLoop env eP attrs apiVersion action p caV).processing.toUnset =
      p.toUnset ++ (active caV).flatMap (attributeUnset (ActionType.ofString action)) :=
  attributeLoop_flatMap Processing.toUnset _ (fun _ _ _ => rfl) h

theorem attributeLoop_entityModified {p : Processing} {caV : List ContextAttribute}
    (h : (attributeLoop env eP attrs apiVersion action p caV).ok = true) :
    (attributeLoop env eP attrs apiVersion action p caV).processing.entityModified =
      (p.entityModified || (active caV).any fun ca =>
        (attributeUpdate env.getCurrentTime attrs apiVersion (ActionType.ofString action) ca).actualUpdate) := by
  rw [attributeLoop_fold Processing.entityModified
    (fun b ca => (attributeUpdate env.getCurrentTime attrs apiVersion (ActionType.ofString action) ca).actualUpdate || b)
    (fun _ _ _ => rfl) h]
  generalize p.entityModified = b
  induction active caV generalizing b with
  | nil => simp
  | cons ca caV ih =>
    rw [List.foldl_cons, ih, List.any_cons]
    cases b <;> simp

/-- The location after a list of attributes. -/
def locationRun (strtod : String → Strtod) (attrs : BSONObj) (apiVersion : ApiVersion) (a : ActionType) (cur : String) :
    List ContextAttribute → Except String LocationStep
  | [] => .ok ⟨cur, []⟩
  | ca :: caV =>
    match locationStep strtod attrs apiVersion cur a ca with
    | .error e => .error e
    | .ok l =>
      match locationRun strtod attrs apiVersion a l.currentLocAttrName caV with
      | .error e => .error e
      | .ok l' => .ok ⟨l'.currentLocAttrName, l.geoJson ++ l'.geoJson⟩

private theorem locationRun_snoc {strtod : String → Strtod} {a : ActionType} {cur : String} {g : BSONObj}
    {caV : List ContextAttribute} {ca : ContextAttribute} {l l' : LocationStep}
    (h : locationRun strtod attrs apiVersion a cur caV = .ok l)
    (h' : locationStep strtod attrs apiVersion l.currentLocAttrName a ca = .ok l') (hg : g = l.geoJson ++ l'.geoJson) :
    locationRun strtod attrs apiVersion a cur (caV ++ [ca]) = .ok ⟨l'.currentLocAttrName, g⟩ := by
  subst hg
  induction caV generalizing cur l with
  | nil =>
    cases h
    simp only at h'
    simp [locationRun, h']
  | cons cb caV ih =>
    simp only [locationRun, List.cons_append] at h ⊢
    split at h
    · cases h
    · split at h
      · cases h
      · rename_i l₁ _ l₂ h₂
        cases h
        rw [ih h₂ h']
        simp

/-- The location after a completed loop. -/
theorem attributeLoop_location {p : Processing} {caV : List ContextAttribute}
    (h : (attributeLoop env eP attrs apiVersion action p caV).ok = true) :
    ∃ g, locationRun env.strtod attrs apiVersion (ActionType.ofString action) p.currentLocAttrName (active caV) =
        .ok ⟨(attributeLoop env eP attrs apiVersion action p caV).processing.currentLocAttrName, g⟩ ∧
      (attributeLoop env eP attrs apiVersion action p caV).processing.geoJson = p.geoJson ++ g := by
  have key := attributeLoop_induct []
    (P := fun done q => ∃ g, locationRun env.strtod attrs apiVersion (ActionType.ofString action) p.currentLocAttrName
      done = .ok ⟨q.currentLocAttrName, g⟩ ∧ q.geoJson = p.geoJson ++ g) ⟨[], rfl, by simp⟩ ?_ h
  · simpa using key
  · intro done q ca l hq _ _ hl
    obtain ⟨g, hrun, hgeo⟩ := hq
    refine ⟨g ++ l.geoJson, locationRun_snoc hrun hl rfl, ?_⟩
    simp [Processing.next, hgeo]

/-- The loop comes to its end exactly if every attribute is accepted and none is rejected because of the location. -/
theorem attributeLoop_ok_iff {p : Processing} {caV : List ContextAttribute} :
    (attributeLoop env eP attrs apiVersion action p caV).ok = true ↔
      (∀ ca ∈ active caV, accepts attrs (ActionType.ofString action) ca = true) ∧
        ∃ l, locationRun env.strtod attrs apiVersion (ActionType.ofString action) p.currentLocAttrName (active caV) =
          .ok l := by
  constructor
  · intro h
    obtain ⟨g, hrun, -⟩ := attributeLoop_location h
    exact ⟨attributeLoop_accepts h, _, hrun⟩
  · intro h
    induction caV generalizing p with
    | nil => rfl
    | cons ca caV ih =>
      rcases hs : ca.skip with _ | _
      · have hact : active (ca :: caV) = ca :: active caV := by simp [active, hs]
        rw [hact] at h
        obtain ⟨hacc, l', hrun⟩ := h
        simp only [locationRun] at hrun
        split at hrun
        · cases hrun
        · rename_i l hl
          have ha := hacc ca (List.mem_cons_self ..)
          have hrest : (attributeLoop env eP attrs apiVersion action
              (p.next env eP attrs apiVersion (ActionType.ofString action) l ca) caV).ok = true := by
            refine ih ⟨fun cb hcb => hacc cb (List.mem_cons_of_mem _ hcb), ?_⟩
            split at hrun
            · cases hrun
            · exact ⟨_, ‹_›⟩
          unfold attributeLoop
          rw [if_neg (by simp [hs]), contextAttributeItem_ok ha hl]
          exact hrest
      · have hact : active (ca :: caV) = active caV := by simp [active, hs]
        rw [hact] at h
        rw [attributeLoop_skip hs]
        exact ih h

/-- The names of the attributes that change. -/
theorem attributeLoop_modifiedAttrs {p : Processing} {caV : List ContextAttribute}
    (h : (attributeLoop env eP attrs apiVersion action p caV).ok = true) :
    (attributeLoop env eP attrs apiVersion action p caV).processing.modifiedAttrs =
      p.modifiedAttrs ++ ((active caV).filter fun ca =>
        (attributeUpdate env.getCurrentTime attrs apiVersion (ActionType.ofString action) ca).actualUpdate).map
          ContextAttribute.name := by
  have key := attributeLoop_flatMap Processing.modifiedAttrs
    (fun ca => if (attributeUpdate env.getCurrentTime attrs apiVersion (ActionType.ofString action) ca).actualUpdate then
      [ca.name] else []) ?_ h
  · rw [key]
    congr 1
    induction active caV with
    | nil => rfl
    | cons ca caV ih =>
      rw [List.flatMap_cons, ih]
      split <;> simp [*]
  · intro p ca l
    simp only [Processing.next]
    split <;> simp

/-- The status of a completed loop is the one it started with, unless an attribute was missing. -/
theorem attributeLoop_status {p : Processing} {caV : List ContextAttribute}
    (h : (attributeLoop env eP attrs apiVersion action p caV).ok = true) :
    (attributeLoop env eP attrs apiVersion action p caV).processing.statusCode.code =
      if (active caV).any (missing attrs (ActionType.ofString action)) then .SccInvalidParameter
      else p.statusCode.code := by
  rw [attributeLoop_fold (fun q => q.statusCode.code)
    (fun code ca => if missing attrs (ActionType.ofString action) ca then .SccInvalidParameter else code) ?_ h]
  · generalize p.statusCode.code = code
    induction active caV generalizing code with
    | nil => simp
    | cons ca caV ih =>
      rw [List.foldl_cons, ih, List.any_cons]
      by_cases hm : missing attrs (ActionType.ofString action) ca = true <;> simp [hm]
  · intro q ca l
    simp only [Processing.next]
    split <;> rfl

/-- An interrupted loop: the turns before the rejected attribute go on, and the variables are those its turn left. -/
theorem attributeLoop_fail {p : Processing} {caV : List ContextAttribute}
    (h : (attributeLoop env eP attrs apiVersion action p caV).ok = false) :
    ∃ pre ca post, caV = pre ++ ca :: post ∧ ca.skip = false ∧
      (attributeLoop env eP attrs apiVersion action p pre).ok = true ∧
      (contextAttributeItem env eP attrs apiVersion action
        (attributeLoop env eP attrs apiVersion action p pre).processing ca).ok = false ∧
      (attributeLoop env eP attrs apiVersion action p caV).processing =
        (contextAttributeItem env eP attrs apiVersion action
          (attributeLoop env eP attrs apiVersion action p pre).processing ca).processing := by
  induction caV generalizing p with
  | nil => cases h
  | cons ca caV ih =>
    rcases hs : ca.skip with _ | _
    · rcases hok : (contextAttributeItem env eP attrs apiVersion action p ca).ok with _ | _
      · refine ⟨[], ca, caV, rfl, hs, rfl, hok, ?_⟩
        conv => lhs; unfold attributeLoop
        simp [hs, hok, attributeLoop]
      · have hstep : ∀ l, attributeLoop env eP attrs apiVersion action p (ca :: l) =
            { attributeLoop env eP attrs apiVersion action
                (contextAttributeItem env eP attrs apiVersion action p ca).processing l with
              attributes := (contextAttributeItem env eP attrs apiVersion action p ca).targetAttr ::
                (attributeLoop env eP attrs apiVersion action
                  (contextAttributeItem env eP attrs apiVersion action p ca).processing l).attributes } := by
          intro l
          conv => lhs; unfold attributeLoop
          simp [hs, hok]
        rw [hstep] at h
        obtain ⟨pre, cb, post, rfl, hcb, hpre, hfail, heq⟩ := ih h
        refine ⟨ca :: pre, cb, post, rfl, hcb, ?_, ?_, ?_⟩
        · rw [hstep]; exact hpre
        · rw [hstep]; exact hfail
        · rw [hstep, hstep]; exact heq
    · rw [attributeLoop_skip hs] at h
      obtain ⟨pre, cb, post, rfl, hcb, hpre, hfail, heq⟩ := ih h
      refine ⟨ca :: pre, cb, post, rfl, hcb, ?_, ?_, ?_⟩
      · rw [attributeLoop_skip hs]; exact hpre
      · rw [attributeLoop_skip hs]; exact hfail
      · rw [attributeLoop_skip hs, attributeLoop_skip hs]; exact heq

theorem attributeLoop_fail_status {p : Processing} {caV : List ContextAttribute}
    (h : (attributeLoop env eP attrs apiVersion action p caV).ok = false) :
    (attributeLoop env eP attrs apiVersion action p caV).processing.statusCode.code = .SccInvalidParameter := by
  obtain ⟨pre, ca, post, -, -, -, hfail, heq⟩ := attributeLoop_fail h
  rw [heq]
  exact (contextAttributeItem_fail (contextAttributeItem_rejected hfail)).2.2.2

end Loop

end OrionBroker
