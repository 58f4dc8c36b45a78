import OrionBroker.RequestLoop

/-!
# What an update writes

The effect of `updateEntity` on the document.  Either nothing is written, or the loop over the attributes came to its
end and the composed update was applied; `updateEntity_written` and `updateEntity_replaced` give the document in the
second case, for the actions that write single attributes and for the replacement.
-/

namespace OrionBroker

open Bson

/-! ### The attributes that are written -/

/-- The key and the sub-document that an attribute of a request writes, if it writes one. -/
def attributeEntry (now : Int) (attrs : BSONObj) (apiVersion : ApiVersion) (a : ActionType) (ca : ContextAttribute) :
    List (String × BSONValue) :=
  match a, attrs.lookup ca.key with
  | .update, some attr | .append, some attr | .appendStrict, some attr =>
    if actualUpdate (embeddedObject attr) ca apiVersion then
      [(ca.key, .object (mergeAttrInfo now (embeddedObject attr) ca apiVersion).1)]
    else []
  | .append, none | .appendStrict, none => [(ca.key, .object (appendedAttribute now ca apiVersion))]
  | _, _ => []

/-- The key that an attribute of a request removes. -/
def attributeRemoved (a : ActionType) (ca : ContextAttribute) : List String := if a = .delete then [ca.key] else []

private theorem updateAttribute_toSet (now : Int) (attrs : BSONObj) (apiVersion : ApiVersion) (ca : ContextAttribute) :
    (updateAttribute now attrs ca false apiVersion).toSet =
      (attributeEntry now attrs apiVersion .update ca).map fun e => (composedName e.1, e.2) := by
  unfold updateAttribute attributeEntry
  rcases h : attrs.lookup ca.key with _ | attr
  · simp [h]
  · simp only [h, Bool.false_eq_true, if_false]
    show (if actualUpdate (embeddedObject attr) ca apiVersion then _ else _) = _
    split <;> rfl

theorem attributeUpdate_toSet (now : Int) (attrs : BSONObj) (apiVersion : ApiVersion) {a : ActionType}
    (ha : a ≠ .replace) (ca : ContextAttribute) :
    (attributeUpdate now attrs apiVersion a ca).toSet =
      (attributeEntry now attrs apiVersion a ca).map fun e => (composedName e.1, e.2) := by
  have happend : (appendAttribute now attrs ca apiVersion).toSet =
      (attributeEntry now attrs apiVersion .append ca).map fun e => (composedName e.1, e.2) := by
    unfold appendAttribute
    rcases h : attrs.lookup ca.key with _ | attr
    · simp [hasField, h, attributeEntry]
    · rw [if_pos (by simp [hasField, h]), updateAttribute_toSet]
      simp [attributeEntry, h]
  cases a with
  | update => exact updateAttribute_toSet now attrs apiVersion ca
  | append => exact happend
  | appendStrict =>
    rw [show attributeUpdate now attrs apiVersion .appendStrict ca = appendAttribute now attrs ca apiVersion from rfl,
      happend]
    rcases h : attrs.lookup ca.key with _ | attr <;> simp [attributeEntry, h]
  | delete => simp [attributeUpdate, attributeEntry]
  | replace => exact absurd rfl ha
  | unknown => simp [attributeUpdate, attributeEntry]

/-- The name that an attribute of a request adds to `attrNames`. -/
def attributePush (attrs : BSONObj) (a : ActionType) (ca : ContextAttribute) : List String :=
  if (a = .append ∨ a = .appendStrict) ∧ hasField attrs ca.key = false then [ca.name] else []

theorem attributeUpdate_toPush (now : Int) (attrs : BSONObj) (apiVersion : ApiVersion) {a : ActionType}
    (ha : a ≠ .replace) (ca : ContextAttribute) :
    (attributeUpdate now attrs apiVersion a ca).toPush = attributePush attrs a ca := by
  have hupdate : (updateAttribute now attrs ca false apiVersion).toPush = [] := by
    unfold updateAttribute
    rcases h : attrs.lookup ca.key with _ | attr <;> simp [h]
  have happend : (appendAttribute now attrs ca apiVersion).toPush =
      if hasField attrs ca.key = false then [ca.name] else [] := by
    unfold appendAttribute
    split
    · rename_i h
      rw [hupdate]
      simp [h]
    · rename_i h
      simp [h]
  unfold attributePush
  cases a with
  | update => simpa [attributeUpdate] using hupdate
  | append => simpa [attributeUpdate] using happend
  | appendStrict => simpa [attributeUpdate] using happend
  | delete => simp [attributeUpdate]
  | replace => exact absurd rfl ha
  | unknown => simp [attributeUpdate]

theorem attributeUnset_eq (a : ActionType) (ca : ContextAttribute) :
    attributeUnset a ca = (attributeRemoved a ca).map composedName := by
  cases a <;> rfl

/-- An entry is for the key of the attribute. -/
theorem attributeEntry_key {now : Int} {attrs : BSONObj} {apiVersion : ApiVersion} {a : ActionType}
    {ca : ContextAttribute} {e : String × BSONValue} (he : e ∈ attributeEntry now attrs apiVersion a ca) :
    e.1 = ca.key := by
  unfold attributeEntry at he
  split at he
  all_goals first
    | (split at he <;> simp_all)
    | simp_all

/-- The entry of an attribute that is not stored. -/
theorem attributeEntry_new {now : Int} {attrs : BSONObj} {apiVersion : ApiVersion} {a : ActionType}
    {ca : ContextAttribute} (ha : a = .append ∨ a = .appendStrict) (hk : hasField attrs ca.key = false) :
    attributeEntry now attrs apiVersion a ca = [(ca.key, .object (appendedAttribute now ca apiVersion))] := by
  have hnone : attrs.lookup ca.key = none := by simpa [hasField] using hk
  rcases ha with rfl | rfl <;> simp [attributeEntry, hnone]

/-- An attribute that makes no change has no entry. -/
theorem attributeEntry_unchanged {now : Int} {attrs : BSONObj} {apiVersion : ApiVersion} {a : ActionType}
    {ca : ContextAttribute} (h : (attributeUpdate now attrs apiVersion a ca).actualUpdate = false) :
    attributeEntry now attrs apiVersion a ca = [] := by
  have hupdate : ∀ attr, attrs.lookup ca.key = some attr →
      (updateAttribute now attrs ca false apiVersion).actualUpdate = false →
      actualUpdate (embeddedObject attr) ca apiVersion = false := by
    intro attr hk hu
    simpa [updateAttribute, hk, mergeAttrInfo] using hu
  have happend : (appendAttribute now attrs ca apiVersion).actualUpdate = false →
      ∃ attr, attrs.lookup ca.key = some attr ∧ actualUpdate (embeddedObject attr) ca apiVersion = false := by
    intro hu
    unfold appendAttribute at hu
    split at hu
    · rename_i hf
      obtain ⟨attr, hk⟩ := Option.isSome_iff_exists.1 hf
      exact ⟨attr, hk, hupdate attr hk hu⟩
    · cases hu
  cases a with
  | update =>
    rcases hk : attrs.lookup ca.key with _ | attr
    · simp [attributeEntry, hk]
    · simp [attributeEntry, hk, hupdate attr hk h]
  | append =>
    obtain ⟨attr, hk, hact⟩ := happend h
    simp [attributeEntry, hk, hact]
  | appendStrict =>
    obtain ⟨attr, hk, hact⟩ := happend h
    simp [attributeEntry, hk, hact]
  | delete => cases h
  | replace => simp [attributeEntry]
  | unknown => simp [attributeEntry]

/-- Only APPEND and APPEND_STRICT write attributes that are not stored. -/
theorem hasField_of_mem_attributeEntry {now : Int} {attrs : BSONObj} {apiVersion : ApiVersion} {a : ActionType}
    {ca : ContextAttribute} {e : String × BSONValue} (he : e ∈ attributeEntry now attrs apiVersion a ca)
    (ha : ¬ (a = .append ∨ a = .appendStrict)) : hasField attrs ca.key = true := by
  unfold attributeEntry at he
  unfold hasField
  rcases h : attrs.lookup ca.key with _ | attr
  · rw [h] at he
    cases a <;> simp at he ha
  · rfl

/-! ### The result of an update -/

section Result

variable {env : Env} {apiVersion : ApiVersion} {action : String} {ceP : ContextElement} {r : EntityDoc}

/-- The attributes of a request that `updateEntity` processes. -/
def processed (action : String) (r : EntityDoc) (ceP : ContextElement) : List ContextAttribute :=
  active (requestAttributes action r ceP.contextAttributeVector)

/-- The attributes that are processed are as they were in the request. -/
theorem processed_sublist : (processed action r ceP).Sublist ceP.contextAttributeVector := by
  unfold processed active requestAttributes markExisting
  split
  · induction ceP.contextAttributeVector with
    | nil => exact List.Sublist.slnil
    | cons ca caV ih =>
      rw [List.map_cons]
      split
      · exact ih.cons ca
      · rw [List.filter_cons]
        split
        · exact ih.cons_cons ca
        · exact ih.cons ca
  · exact List.filter_sublist

theorem mem_of_mem_processed {ca : ContextAttribute} (h : ca ∈ processed action r ceP) :
    ca ∈ ceP.contextAttributeVector :=
  processed_sublist.subset h

/-- Either the document is not written, or the loop was completed and the update applied. -/
theorem updateEntity_cases (env : Env) (apiVersion : ApiVersion) (action : String) (ceP : ContextElement)
    (r : EntityDoc) :
    ((updateEntity env apiVersion action ceP r).notified = none ∧
      ((updateEntity env apiVersion action ceP r).doc = some r ∨
        (updateEntity env apiVersion action ceP r).doc = none ∧ ActionType.ofString action = .delete)) ∨
    ∃ d, (updateEntity env apiVersion action ceP r).doc = some d ∧
      (updateEntity env apiVersion action ceP r).notified =
        some (notifyCer env r (processAttributes env apiVersion action r ceP.contextAttributeVector).processing) ∧
      (attributeLoop env (responseEntity r) r.attrs apiVersion action (initialProcessing r)
        (requestAttributes action r ceP.contextAttributeVector)).ok = true ∧
      (processAttributes env apiVersion action r ceP.contextAttributeVector).modified = true ∧
      applyUpdate r (updatedEntity env.getCurrentTime action r
        (processAttributes env apiVersion action r ceP.contextAttributeVector)) = some d := by
  have hloop : (processAttributes env apiVersion action r ceP.contextAttributeVector).modified = true →
      (attributeLoop env (responseEntity r) r.attrs apiVersion action (initialProcessing r)
        (requestAttributes action r ceP.contextAttributeVector)).ok = true := by
    intro h
    unfold processAttributes processContextAttributeVector at h
    simp only at h
    split at h
    · assumption
    · cases h
  unfold updateEntity
  split
  · rename_i hdel
    left
    unfold removedEntity removeEntity
    rcases env.collectionRemove r with _ | err
    · exact ⟨rfl, Or.inr ⟨rfl, hdel.1⟩⟩
    · exact ⟨rfl, Or.inl rfl⟩
  · simp only
    split
    · rename_i hmod
      unfold collectionUpdate
      rcases env.collectionUpdate r _ with _ | err
      · rcases applyUpdate r _ with _ | d
        · left
          exact ⟨rfl, Or.inl rfl⟩
        · right
          exact ⟨d, rfl, rfl, hloop hmod, hmod, rfl⟩
      · left
        exact ⟨rfl, Or.inl rfl⟩
    · left
      split
      · exact ⟨rfl, Or.inl rfl⟩
      · exact ⟨rfl, Or.inl rfl⟩

theorem processAttributes_processing
    (h : (attributeLoop env (responseEntity r) r.attrs apiVersion action (initialProcessing r)
      (requestAttributes action r ceP.contextAttributeVector)).ok = true) :
    ∃ statusCode, (processAttributes env apiVersion action r ceP.contextAttributeVector).processing =
      { (attributeLoop env (responseEntity r) r.attrs apiVersion action (initialProcessing r)
          (requestAttributes action r ceP.contextAttributeVector)).processing with statusCode := statusCode } := by
  unfold processAttributes processContextAttributeVector
  simp only [h, if_true]
  split
  · exact ⟨_, rfl⟩
  · exact ⟨_, rfl⟩

/-- The processing ends with the status OK exactly if no attribute was rejected or missing and the subscriptions could
be read. -/
theorem processAttributes_status_iff :
    (processAttributes env apiVersion action r ceP.contextAttributeVector).processing.statusCode.code = .SccOk ↔
      (attributeLoop env (responseEntity r) r.attrs apiVersion action (initialProcessing r)
        (requestAttributes action r ceP.contextAttributeVector)).ok = true ∧
      (∀ ca ∈ processed action r ceP, missing r.attrs (ActionType.ofString action) ca = false) ∧
      env.addTriggeredSubscriptions r.id r.type
        (attributeLoop env (responseEntity r) r.attrs apiVersion action (initialProcessing r)
          (requestAttributes action r ceP.contextAttributeVector)).processing.modifiedAttrs = none := by
  rcases hok : (attributeLoop env (responseEntity r) r.attrs apiVersion action (initialProcessing r)
      (requestAttributes action r ceP.contextAttributeVector)).ok with _ | _
  · have hstatus := attributeLoop_fail_status hok
    unfold processAttributes processContextAttributeVector
    simp [hok, hstatus]
  · have hstatus := attributeLoop_status hok
    have hmissing : (processed action r ceP).any (missing r.attrs (ActionType.ofString action)) = false ↔
        ∀ ca ∈ processed action r ceP, missing r.attrs (ActionType.ofString action) ca = false := by
      rw [List.any_eq_false]
      simp
    unfold processAttributes processContextAttributeVector
    simp only [hok, if_true]
    split
    · rename_i err herr
      have herr' : env.addTriggeredSubscriptions r.id r.type
          (attributeLoop env (responseEntity r) r.attrs apiVersion action (initialProcessing r)
            (requestAttributes action r ceP.contextAttributeVector)).processing.modifiedAttrs = some err := herr
      simp [herr']
    · rename_i herr
      have herr' : env.addTriggeredSubscriptions r.id r.type
          (attributeLoop env (responseEntity r) r.attrs apiVersion action (initialProcessing r)
            (requestAttributes action r ceP.contextAttributeVector)).processing.modifiedAttrs = none := herr
      simp only [herr', and_true, true_and]
      rw [← hmissing]
      change _ = if (processed action r ceP).any (missing r.attrs (ActionType.ofString action)) = true then _ else
        HttpStatusCode.SccNone at hstatus
      rcases hany : (processed action r ceP).any (missing r.attrs (ActionType.ofString action)) with _ | _
      · rw [hany] at hstatus
        simp [hstatus]
      · rw [hany] at hstatus
        simp [hstatus]

/-- The entity is modified exactly if the loop came to its end, the subscriptions could be read and some attribute
makes a change. -/
theorem processAttributes_modified_iff :
    (processAttributes env apiVersion action r ceP.contextAttributeVector).modified = true ↔
      (attributeLoop env (responseEntity r) r.attrs apiVersion action (initialProcessing r)
        (requestAttributes action r ceP.contextAttributeVector)).ok = true ∧
      env.addTriggeredSubscriptions r.id r.type
        (attributeLoop env (responseEntity r) r.attrs apiVersion action (initialProcessing r)
          (requestAttributes action r ceP.contextAttributeVector)).processing.modifiedAttrs = none ∧
      ∃ ca ∈ processed action r ceP,
        (attributeUpdate env.getCurrentTime r.attrs apiVersion (ActionType.ofString action) ca).actualUpdate = true := by
  rcases hok : (attributeLoop env (responseEntity r) r.attrs apiVersion action (initialProcessing r)
      (requestAttributes action r ceP.contextAttributeVector)).ok with _ | _
  · unfold processAttributes processContextAttributeVector
    simp [hok]
  · have hmod := attributeLoop_entityModified hok
    change _ = (false || (processed action r ceP).any _) at hmod
    rw [Bool.false_or] at hmod
    unfold processAttributes processContextAttributeVector
    simp only [hok, if_true, true_and]
    split
    · rename_i err herr
      have herr' : env.addTriggeredSubscriptions r.id r.type
          (attributeLoop env (responseEntity r) r.attrs apiVersion action (initialProcessing r)
            (requestAttributes action r ceP.contextAttributeVector)).processing.modifiedAttrs = some err := herr
      simp [herr']
    · rename_i herr
      have herr' : env.addTriggeredSubscriptions r.id r.type
          (attributeLoop env (responseEntity r) r.attrs apiVersion action (initialProcessing r)
            (requestAttributes action r ceP.contextAttributeVector)).processing.modifiedAttrs = none := herr
      simp only [hmod, herr', true_and, List.any_eq_true]

/-- An unknown action modifies nothing. -/
theorem action_known_of_modified
    (h : (processAttributes env apiVersion action r ceP.contextAttributeVector).modified = true) :
    ActionType.ofString action ≠ .unknown := by
  obtain ⟨hok, -, ca, hca, -⟩ := processAttributes_modified_iff.1 h
  intro ha
  have hacc := attributeLoop_accepts hok ca hca
  rw [ha] at hacc
  cases hacc

/-- The entries that a request writes, the keys it removes and the names it adds. -/
def writtenEntries (env : Env) (apiVersion : ApiVersion) (action : String) (r : EntityDoc) (ceP : ContextElement) :
    List (String × BSONValue) :=
  (processed action r ceP).flatMap
    (attributeEntry env.getCurrentTime r.attrs apiVersion (ActionType.ofString action))

def removedKeys (action : String) (r : EntityDoc) (ceP : ContextElement) : List String :=
  (processed action r ceP).flatMap (attributeRemoved (ActionType.ofString action))

def pushedNames (action : String) (r : EntityDoc) (ceP : ContextElement) : List String :=
  (processed action r ceP).flatMap (attributePush r.attrs (ActionType.ofString action))

/-- The document after an update that writes single attributes. -/
theorem updateEntity_written {d : EntityDoc} (ha : ActionType.ofString action ≠ .replace)
    (hok : (attributeLoop env (responseEntity r) r.attrs apiVersion action (initialProcessing r)
      (requestAttributes action r ceP.contextAttributeVector)).ok = true)
    (h : applyUpdate r (updatedEntity env.getCurrentTime action r
      (processAttributes env apiVersion action r ceP.contextAttributeVector)) = some d) :
    UpdatedAttrs r.attrs d.attrs (writtenEntries env apiVersion action r ceP) (removedKeys action r ceP) ∧
      d = { r with
        attrs := d.attrs
        attrNames := pullAll (processAttributes env apiVersion action r ceP.contextAttributeVector).toPull
          (addToSet (pushedNames action r ceP) r.attrNames)
        modDate := some env.getCurrentTime
        location :=
          finalLocation r (processAttributes env apiVersion action r ceP.contextAttributeVector).processing } := by
  obtain ⟨statusCode, hp⟩ := processAttributes_processing hok
  have hset : (processAttributes env apiVersion action r ceP.contextAttributeVector).processing.toSet =
      (writtenEntries env apiVersion action r ceP).map fun e => (composedName e.1, e.2) := by
    rw [hp]
    show (attributeLoop _ _ _ _ _ _ _).processing.toSet = _
    rw [attributeLoop_toSet hok, writtenEntries, processed, List.map_flatMap]
    simp only [attributeUpdate_toSet _ _ _ ha, initialProcessing, List.nil_append]
  have hunset : (processAttributes env apiVersion action r ceP.contextAttributeVector).processing.toUnset =
      (removedKeys action r ceP).map composedName := by
    rw [hp]
    show (attributeLoop _ _ _ _ _ _ _).processing.toUnset = _
    rw [attributeLoop_toUnset hok, removedKeys, processed, List.map_flatMap]
    simp only [← attributeUnset_eq, initialProcessing, List.nil_append]
  have hpush : (processAttributes env apiVersion action r ceP.contextAttributeVector).processing.toPush =
      pushedNames action r ceP := by
    rw [hp]
    show (attributeLoop _ _ _ _ _ _ _).processing.toPush = _
    rw [attributeLoop_toPush hok, pushedNames, processed]
    simp only [attributeUpdate_toPush _ _ _ ha, initialProcessing, List.nil_append]
  have hupdate : updatedEntity env.getCurrentTime action r
      (processAttributes env apiVersion action r ceP.contextAttributeVector) =
      composedUpdate (writtenEntries env apiVersion action r ceP) env.getCurrentTime
        (finalLocation r (processAttributes env apiVersion action r ceP.contextAttributeVector).processing)
        (removedKeys action r ceP) (pushedNames action r ceP)
        (processAttributes env apiVersion action r ceP.contextAttributeVector).toPull := by
    unfold updatedEntity composedUpdate
    simp only [ha, if_false, hset, hunset, hpush]
  rw [hupdate] at h
  exact applyUpdate_compose h

/-- The document after a replacement. -/
theorem updateEntity_replaced {d : EntityDoc} (ha : ActionType.ofString action = .replace)
    (hok : (attributeLoop env (responseEntity r) r.attrs apiVersion action (initialProcessing r)
      (requestAttributes action r ceP.contextAttributeVector)).ok = true)
    (h : applyUpdate r (updatedEntity env.getCurrentTime action r
      (processAttributes env apiVersion action r ceP.contextAttributeVector)) = some d) :
    d = { r with
      attrs := ((processed action r ceP).map fun ca =>
          (ca.key, .object (replacedAttribute env.getCurrentTime ca apiVersion))) ++
        ((finalLocation r (processAttributes env apiVersion action r
          ceP.contextAttributeVector).processing).toList.map fun l => ("location", l.toBson))
      attrNames := (processed action r ceP).map ContextAttribute.name
      modDate := some env.getCurrentTime } := by
  obtain ⟨statusCode, hp⟩ := processAttributes_processing hok
  have hset : (processAttributes env apiVersion action r ceP.contextAttributeVector).processing.toSet =
      (processed action r ceP).map fun ca => (ca.key, .object (replacedAttribute env.getCurrentTime ca apiVersion)) := by
    rw [hp]
    show (attributeLoop _ _ _ _ _ _ _).processing.toSet = _
    rw [attributeLoop_toSet hok, ha, List.map_eq_flatMap]
    rfl
  have hpush : (processAttributes env apiVersion action r ceP.contextAttributeVector).processing.toPush =
      (processed action r ceP).map ContextAttribute.name := by
    rw [hp]
    show (attributeLoop _ _ _ _ _ _ _).processing.toPush = _
    rw [attributeLoop_toPush hok, ha, List.map_eq_flatMap]
    rfl
  unfold applyUpdate updatedEntity at h
  simp only [ha, if_true, hset, hpush] at h
  split at h
  · obtain ⟨d₁, h₁, rfl⟩ := Option.map_eq_some_iff.1 h
    simp only [EntityDoc.setPaths, EntityDoc.setPath, splitPath_of_no_dot (show '.' ∉ "attrs".toList by decide),
      splitPath_of_no_dot (show '.' ∉ "attrNames".toList by decide),
      splitPath_of_no_dot (show '.' ∉ "modDate".toList by decide), Option.bind_some, Option.some.injEq] at h₁
    subst h₁
    simp [pullAll, addToSet]
  · cases h

/-- What `createEntity` inserts. -/
theorem createEntity_doc {eP : EntityId} {caV : List ContextAttribute} {c : EntityDoc}
    (h : createEntity env eP caV apiVersion = .ok c) :
    c.attrs = caV.map (fun ca => (ca.key, .object (createdAttribute env.getCurrentTime ca apiVersion))) ∧
      c.attrNames = caV.map ContextAttribute.name ∧ (caV = [] → c.location = none) := by
  unfold createEntity at h
  split at h
  · split at h
    · cases h
    · rename_i l hl
      simp only at h
      split at h
      · cases h
      · cases h
        refine ⟨rfl, rfl, ?_⟩
        rintro rfl
        cases hl
        simp
  · cases h

/-- The location of the document that `createEntity` inserts. -/
theorem createEntity_location {eP : EntityId} {caV : List ContextAttribute} {c : EntityDoc}
    (h : createEntity env eP caV apiVersion = .ok c) :
    ∃ l, processLocationAtEntityCreation env.strtod caV apiVersion = .ok l ∧
      c.location = if l.currentLocAttrName ≠ "" then some ⟨l.currentLocAttrName, l.geoJson⟩ else none := by
  unfold createEntity at h
  split at h
  · split at h
    · cases h
    · rename_i l hl
      simp only at h
      split at h
      · cases h
      · cases h
        exact ⟨l, hl, rfl⟩
  · cases h

/-- The location after a completed loop is removed when no location attribute is left. -/
theorem finalLocation_eq_none_of_run {g : BSONObj}
    (hok : (attributeLoop env (responseEntity r) r.attrs apiVersion action (initialProcessing r)
      (requestAttributes action r ceP.contextAttributeVector)).ok = true)
    (hrun : locationRun env.strtod r.attrs apiVersion (ActionType.ofString action)
      ((r.location.map Location.attrName).getD "") (processed action r ceP) = .ok ⟨"", g⟩) :
    finalLocation r (processAttributes env apiVersion action r ceP.contextAttributeVector).processing = none := by
  obtain ⟨statusCode, hp⟩ := processAttributes_processing hok
  obtain ⟨g', hrun', -⟩ := attributeLoop_location hok
  change locationRun _ _ _ _ ((r.location.map Location.attrName).getD "") (processed action r ceP) = _ at hrun'
  rw [hrun] at hrun'
  have hname := congrArg (fun x => match x with | .ok l => l.currentLocAttrName | .error _ => "") hrun'
  simp only at hname
  rw [hp]
  unfold finalLocation
  simp [← hname]

end Result

end OrionBroker
