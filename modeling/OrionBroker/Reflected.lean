import OrionBroker.AttrNames

/-!
# What of a request is in the document

After an update was written, an attribute of the request is reflected in the document if its key is there with the
requested value and type.  For an attribute that makes no change this is so because it says what is stored already;
for one that is written, because its path is its key (the metadata ID has no dots) and no other attribute of the
request writes to the same key.
-/

namespace OrionBroker

open Bson

/-! ### The fields of a stored attribute -/

theorem valueBson_cases (ca : ContextAttribute) : ca.valueBson = [] ∨ ∃ v, ca.valueBson = [("value", v)] := by
  unfold ContextAttribute.valueBson ContextAttribute.bsonAppendAttrValue
  rcases ca.compoundValueP with _ | t
  · rcases ca.valueType <;> simp
  · exact Or.inr ⟨_, rfl⟩

private theorem lookup_type_valueBson (ca : ContextAttribute) : ca.valueBson.lookup "type" = none := by
  rcases valueBson_cases ca with h | ⟨v, h⟩ <;> rw [h] <;> simp

/-- A stored attribute with the value of a request and a given type. -/
def HasForm (o : BSONObj) (ca : ContextAttribute) (type : String) : Prop :=
  o.lookup "value" = ca.valueBson.lookup "value" ∧ getStringFieldF o "type" = type

private theorem lookup_append_eq (l l' : BSONObj) (k : String) : (l ++ l').lookup k = (l.lookup k).or (l'.lookup k) :=
  List.lookup_append

theorem hasForm_createdAttribute (now : Int) (ca : ContextAttribute) (apiVersion : ApiVersion) :
    HasForm (createdAttribute now ca apiVersion) ca (newAttributeType ca apiVersion) := by
  unfold HasForm getStringFieldF createdAttribute
  rcases contextAttributeCustomMetadataToBson ca (apiVersion = .v2) with _ | mdV <;>
    simp [lookup_append_eq, lookup_cons_eq]

theorem hasForm_replacedAttribute (now : Int) (ca : ContextAttribute) (apiVersion : ApiVersion) :
    HasForm (replacedAttribute now ca apiVersion) ca (newAttributeType ca apiVersion) := by
  unfold HasForm getStringFieldF replacedAttribute
  simp [lookup_append_eq, lookup_cons_eq]

theorem hasForm_appendedAttribute (now : Int) (ca : ContextAttribute) (apiVersion : ApiVersion) :
    HasForm (appendedAttribute now ca apiVersion) ca (newAttributeType ca apiVersion) := by
  unfold HasForm getStringFieldF appendedAttribute
  rcases contextAttributeCustomMetadataToBson ca (apiVersion = .v2) with _ | mdV <;>
    simp [lookup_append_eq, lookup_cons_eq, lookup_type_valueBson]

/-! ### The merged attribute -/

section Merge

variable {now : Int} {attr : BSONObj} {ca : ContextAttribute} {apiVersion : ApiVersion}

theorem lookup_keptDate (attr : BSONObj) (k l : String) (h : l ≠ k) : (keptDate attr k).lookup l = none := by
  unfold keptDate
  split
  · simp [lookup_cons_eq, h]
  · rfl

theorem lookup_value_mergeAttrInfo :
    (mergeAttrInfo now attr ca apiVersion).1.lookup "value" = (mergedValue attr ca apiVersion).lookup "value" := by
  have htype : (mergedType attr ca).lookup "value" = none := by
    unfold mergedType
    split
    · simp
    · split <;> simp
  unfold mergeAttrInfo
  simp only [lookup_append_eq, htype, lookup_keptDate attr "creDate" "value" (by decide), Option.or_none]
  split <;> split <;> simp [lookup_cons_eq, lookup_keptDate attr "modDate" "value" (by decide)]

theorem getStringFieldF_type_mergeAttrInfo :
    getStringFieldF (mergeAttrInfo now attr ca apiVersion).1 "type" =
      if ca.type ≠ "" then ca.type else getStringFieldF attr "type" := by
  have hvalue : (mergedValue attr ca apiVersion).lookup "type" = none := by
    unfold mergedValue
    split
    · split <;> simp
    · exact lookup_type_valueBson ca
  have hrest : (keptDate attr "creDate" ++
      if actualUpdate attr ca apiVersion then [("modDate", BSONValue.int now)] else keptDate attr "modDate").lookup "type" =
      none := by
    rw [lookup_append_eq, lookup_keptDate attr "creDate" "type" (by decide)]
    split
    · simp
    · rw [lookup_keptDate attr "modDate" "type" (by decide)]
      rfl
  unfold getStringFieldF mergeAttrInfo
  simp only [List.append_assoc]
  rw [lookup_append_eq, hvalue, Option.none_or, lookup_append_eq, lookup_append_eq, hrest]
  unfold mergedType
  by_cases ht : ca.type = ""
  · simp only [ht, ne_eq, not_true, if_false]
    by_cases hf : hasField attr "type" = true
    · simp [hf, getStringFieldF]
    · rw [lookup_of_not_hasField hf, if_neg hf]
      by_cases hmd : (mergedMetadata attr ca apiVersion).length > 0 <;> simp [hmd, lookup_cons_eq]
  · simp [ht]

theorem mergedValue_of_given (h : attributeValueAbsent ca apiVersion = false) :
    mergedValue attr ca apiVersion = ca.valueBson := by
  simp [mergedValue, h]

/-- A stored value that does not change is the requested one; a missing value counts as the empty string. -/
private theorem value_of_not_changes (hcv : ca.compoundValueP = none) (hint : ∀ n, attr.lookup "value" ≠ some (.int n))
    (habs : attributeValueAbsent ca apiVersion = false) (h : attrValueChanges attr ca apiVersion = false)
    {v : BSONValue} (hv : ca.valueBson.lookup "value" = some v) : (attr.lookup "value").getD (.string "") = v := by
  have hvalue : ca.valueBson = ca.bsonAppendAttrValue := by simp [ContextAttribute.valueBson, hcv]
  rw [hvalue] at hv
  unfold attrValueChanges at h
  rcases hs : attr.lookup "value" with _ | w
  · rw [hs] at h
    simp only [Bool.or_eq_false_iff, decide_eq_false_iff_not, ne_eq, not_not] at h
    simp [ContextAttribute.bsonAppendAttrValue, h.1, h.2] at hv
    simpa using hv
  · rw [hs] at h
    have hnone : ¬ (ca.valueType = .none ∧ apiVersion ≠ .v2) := by
      rintro ⟨h1, h2⟩
      cases apiVersion with
      | v1 => simp [attributeValueAbsent, h1] at habs
      | v2 => exact h2 rfl
    simp only [hnone, if_false] at h
    cases w with
    | object o => cases h
    | array items => cases h
    | int n => exact absurd hs (hint n)
    | null =>
      have ht : ca.valueType = .none := by simpa using h
      simp [ContextAttribute.bsonAppendAttrValue, ht] at hv
      simpa using hv
    | bool b =>
      simp only [Bool.or_eq_false_iff, decide_eq_false_iff_not, ne_eq, not_not] at h
      simp [ContextAttribute.bsonAppendAttrValue, h.1, h.2] at hv
      simpa using hv
    | string s =>
      simp only [Bool.or_eq_false_iff, decide_eq_false_iff_not, ne_eq, not_not] at h
      simp [ContextAttribute.bsonAppendAttrValue, h.1, h.2] at hv
      simpa using hv
    | double d =>
      simp only [Bool.or_eq_false_iff, decide_eq_false_iff_not, ne_eq, not_not, Bool.not_eq_false'] at h
      have he := Double.eq_of_eq h.2
      simp [ContextAttribute.bsonAppendAttrValue, h.1, he] at hv
      simpa using hv

/-- An attribute that makes no change says what is stored. -/
theorem stored_of_not_actualUpdate (hint : ∀ n, attr.lookup "value" ≠ some (.int n))
    (h : actualUpdate attr ca apiVersion = false) :
    (attributeValueAbsent ca apiVersion = false → ∀ v, ca.valueBson.lookup "value" = some v →
      (attr.lookup "value").getD (.string "") = v) ∧
    (ca.type ≠ "" → getStringFieldF attr "type" = ca.type) := by
  unfold actualUpdate at h
  split at h
  · cases h
  · rename_i hcv
    simp only [Bool.or_eq_false_iff, decide_eq_false_iff_not, ne_eq, Bool.and_eq_false_iff, not_not] at h
    obtain ⟨⟨⟨hval, htype⟩, -⟩, -⟩ := h
    refine ⟨fun habs v hv => value_of_not_changes (by simpa using hcv) hint habs hval hv, fun hne => ?_⟩
    rcases htype with ht | ht
    · exact absurd ht hne
    · simpa using ht.2

end Merge

/-! ### The attributes after an update -/

section Written

variable {env : Env} {apiVersion : ApiVersion} {action : String} {ceP : ContextElement} {r d : EntityDoc}

/-- What is stored under the key of an attribute after it was updated, appended or deleted. -/
def attributeAfter (now : Int) (attrs : BSONObj) (apiVersion : ApiVersion) (a : ActionType) (ca : ContextAttribute) :
    Option BSONValue :=
  if a = .delete then none
  else ((attributeEntry now attrs apiVersion a ca).head?.map Prod.snd).or (attrs.lookup ca.key)

/-- The keys of the attributes are all different and are themselves the paths of the update. -/
def SimpleKeys (caV : List ContextAttribute) : Prop :=
  (∀ ca ∈ caV, '.' ∉ ca.getId.toList) ∧ (caV.map ContextAttribute.key).Nodup

instance (caV : List ContextAttribute) : Decidable (SimpleKeys caV) := by unfold SimpleKeys; infer_instance

private theorem length_attributeEntry (now : Int) (attrs : BSONObj) (apiVersion : ApiVersion) (a : ActionType)
    (ca : ContextAttribute) :
    attributeEntry now attrs apiVersion a ca = [] ∨ ∃ v, attributeEntry now attrs apiVersion a ca = [(ca.key, v)] := by
  unfold attributeEntry
  split
  all_goals first
    | (split <;> simp)
    | simp

/-- What is stored afterwards is what was stored, merged with the attribute or not, or the attribute itself. -/
theorem attributeAfter_cases {now : Int} {attrs : BSONObj} {a : ActionType} {ca : ContextAttribute} {w : BSONValue}
    (h : attributeAfter now attrs apiVersion a ca = some w) :
    attrs.lookup ca.key = some w ∨
      (∃ attr, attrs.lookup ca.key = some attr ∧ w = .object (mergeAttrInfo now (embeddedObject attr) ca apiVersion).1) ∨
      w = .object (appendedAttribute now ca apiVersion) := by
  unfold attributeAfter at h
  split at h
  · cases h
  · rcases hentry : attributeEntry now attrs apiVersion a ca with _ | ⟨e, es⟩
    · rw [hentry] at h
      exact Or.inl h
    · rw [hentry] at h
      obtain rfl : e.2 = w := by simpa using h
      have he : e ∈ attributeEntry now attrs apiVersion a ca := by
        rw [hentry]
        exact List.mem_cons_self ..
      unfold attributeEntry at he
      split at he
      all_goals first
        | (split at he
           · rw [List.mem_singleton.1 he]
             exact Or.inr (Or.inl ⟨_, ‹_›, rfl⟩)
           · cases he)
        | (rw [List.mem_singleton.1 he]
           exact Or.inr (Or.inr rfl))
        | cases he

private theorem lookup_deleted (ha : ActionType.ofString action = .delete)
    (hkeys : SimpleKeys (processed action r ceP))
    (h : UpdatedAttrs r.attrs d.attrs (writtenEntries env apiVersion action r ceP) (removedKeys action r ceP)) :
    (∀ ca ∈ processed action r ceP, d.attrs.lookup ca.key = none) ∧
      ∀ k, k ∉ (processed action r ceP).map ContextAttribute.key → d.attrs.lookup k = r.attrs.lookup k := by
  obtain ⟨-, o, hset, hunset⟩ := h
  have hwritten : writtenEntries env apiVersion action r ceP = [] := by
    simp [writtenEntries, attributeEntry, ha]
  have hpaths : (removedKeys action r ceP).map splitPath = (processed action r ceP).map fun ca => [ca.key] := by
    unfold removedKeys attributeRemoved
    simp only [ha, if_true, ← List.map_eq_flatMap, List.map_map]
    apply List.map_congr_left
    intro ca hca
    exact splitPath_key (hkeys.1 ca hca)
  rw [hwritten] at hset
  cases hset
  rw [hpaths] at hunset
  have hne : ∀ p ∈ (processed action r ceP).map fun ca => [ca.key], p ≠ [] := by simp
  obtain ⟨o', ho', hlook, hmem⟩ := unsetAll_object (o := r.attrs) hne
  rw [hunset] at ho'
  cases ho'
  refine ⟨fun ca hca => ?_, fun k hk => hlook k ?_⟩
  · have hnot : ca.key ∉ d.attrs.map Prod.fst := by
      rw [hmem]
      exact fun h => h.2 (List.mem_map_of_mem (f := fun ca : ContextAttribute => [ca.key]) hca)
    rw [← hasField_iff_mem, Bool.not_eq_true] at hnot
    simpa [hasField] using hnot
  · intro p hp
    obtain ⟨ca, hca, rfl⟩ := List.mem_map.1 hp
    rw [List.head?_cons]
    intro he
    cases he
    exact hk (List.mem_map_of_mem hca)

private theorem lookup_set (ha : ActionType.ofString action ≠ .delete) (hkeys : SimpleKeys (processed action r ceP))
    (h : UpdatedAttrs r.attrs d.attrs (writtenEntries env apiVersion action r ceP) (removedKeys action r ceP)) :
    (∀ ca ∈ processed action r ceP, d.attrs.lookup ca.key =
      attributeAfter env.getCurrentTime r.attrs apiVersion (ActionType.ofString action) ca) ∧
      ∀ k, k ∉ (processed action r ceP).map ContextAttribute.key → d.attrs.lookup k = r.attrs.lookup k := by
  obtain ⟨hconf, o, hset, hunset⟩ := h
  have hremoved : removedKeys action r ceP = [] := by simp [removedKeys, attributeRemoved, ha]
  rw [hremoved] at hunset hconf
  obtain rfl : o = d.attrs := by simpa [unsetAll] using hunset
  have hne : ∀ e ∈ attrPaths (writtenEntries env apiVersion action r ceP), e.1 ≠ [] := by
    intro e he
    obtain ⟨f, -, rfl⟩ := List.mem_map.1 he
    exact splitPath_ne_nil _
  obtain ⟨o', ho', hlook, -⟩ := setAll_object hne hset
  cases ho'
  -- an entry that goes into a key is the one of the attribute with this key
  have hhead : ∀ k, ∀ e ∈ attrPaths (writtenEntries env apiVersion action r ceP), e.1.head? = some k →
      ∃ cb ∈ processed action r ceP, cb.key = k ∧
        (k, e.2) ∈ attributeEntry env.getCurrentTime r.attrs apiVersion (ActionType.ofString action) cb := by
    intro k e he hk
    obtain ⟨f, hf, rfl⟩ := List.mem_map.1 he
    obtain ⟨cb, hcb, hfe⟩ := List.mem_flatMap.1 hf
    have hkey := attributeEntry_key hfe
    rw [hkey, splitPath_key (hkeys.1 cb hcb)] at hk
    obtain rfl : cb.key = k := by simpa using hk
    refine ⟨cb, hcb, rfl, ?_⟩
    rw [← hkey]
    exact hfe
  refine ⟨fun ca hca => ?_, fun k hk => hlook k ?_⟩
  · unfold attributeAfter
    rw [if_neg ha]
    rcases length_attributeEntry env.getCurrentTime r.attrs apiVersion (ActionType.ofString action) ca with
      hentry | ⟨v, hentry⟩
    · rw [hentry]
      refine hlook ca.key fun e he hk => ?_
      obtain ⟨cb, hcb, hkey, hmem⟩ := hhead ca.key e he hk
      rw [List.inj_on_of_nodup_map hkeys.2 hcb hca hkey, hentry] at hmem
      cases hmem
    · have hmem : (splitPath ca.key, v) ∈ attrPaths (writtenEntries env apiVersion action r ceP) := by
        refine List.mem_map.2 ⟨(ca.key, v), List.mem_flatMap.2 ⟨ca, hca, ?_⟩, rfl⟩
        rw [hentry]
        exact List.mem_singleton.2 rfl
      have hget := getIn_setAll_mem (by simpa using hconf) hset hmem
      rw [splitPath_key (hkeys.1 ca hca)] at hget
      rw [hentry]
      rcases hl : d.attrs.lookup ca.key with _ | w
      · simp [getIn, hl] at hget
      · simpa [getIn, hl] using hget
  · intro e he hhk
    obtain ⟨cb, hcb, rfl, -⟩ := hhead k e he hhk
    exact hk (List.mem_map_of_mem hcb)

/-- The attributes after an update that writes single attributes: those of the request as they are updated, and the
others as they were. -/
theorem lookup_updated (ha : ActionType.ofString action ≠ .replace) (hkeys : SimpleKeys (processed action r ceP))
    (hok : (attributeLoop env (responseEntity r) r.attrs apiVersion action (initialProcessing r)
      (requestAttributes action r ceP.contextAttributeVector)).ok = true)
    (happ : applyUpdate r (updatedEntity env.getCurrentTime action r
      (processAttributes env apiVersion action r ceP.contextAttributeVector)) = some d) :
    (∀ ca ∈ processed action r ceP, d.attrs.lookup ca.key =
      attributeAfter env.getCurrentTime r.attrs apiVersion (ActionType.ofString action) ca) ∧
      ∀ k, k ∉ (processed action r ceP).map ContextAttribute.key → d.attrs.lookup k = r.attrs.lookup k := by
  have hupdated := (updateEntity_written ha hok happ).1
  by_cases hdel : ActionType.ofString action = .delete
  · simp only [attributeAfter, hdel, if_true]
    exact lookup_deleted hdel hkeys hupdated
  · exact lookup_set hdel hkeys hupdated

end Written

/-! ### What is reflected -/

/-- The sub-document of an attribute has the requested value and type, as far as they are given.  A value that is not
stored is read as the empty string. -/
def Says (apiVersion : ApiVersion) (o : BSONObj) (ca : ContextAttribute) : Prop :=
  (attributeValueAbsent ca apiVersion = false → ∀ v, ca.valueBson.lookup "value" = some v →
    (o.lookup "value").getD (.string "") = v) ∧
  (ca.type ≠ "" → getStringFieldF o "type" = ca.type)

/-- The key of an attribute is there with the requested value and type. -/
def Reflected (apiVersion : ApiVersion) (attrs : BSONObj) (ca : ContextAttribute) : Prop :=
  ∃ w, attrs.lookup ca.key = some w ∧ Says apiVersion (embeddedObject w) ca

/-- No stored value is an integer; the broker writes all numbers as doubles. -/
def NoIntValues (attrs : BSONObj) : Prop :=
  ∀ k w, attrs.lookup k = some w → ∀ n, (embeddedObject w).lookup "value" ≠ some (.int n)

/-- The type of an attribute without one is empty, or the default one in v2. -/
def TypeParsed (apiVersion : ApiVersion) (ca : ContextAttribute) : Prop :=
  apiVersion = .v2 → ca.typeGiven = false → ca.type = "" ∨ ca.type = DEFAULT_TYPE

section Says

variable {now : Int} {attrs : BSONObj} {apiVersion : ApiVersion} {a : ActionType} {ca : ContextAttribute}

theorem newAttributeType_eq (h : TypeParsed apiVersion ca) (hne : ca.type ≠ "") :
    newAttributeType ca apiVersion = ca.type := by
  unfold newAttributeType
  split
  · rename_i hdef
    simp only [Bool.and_eq_true, Bool.not_eq_true', decide_eq_true_eq] at hdef
    rcases h hdef.2 hdef.1 with h | h
    · exact absurd h hne
    · exact h.symm
  · rfl

theorem says_of_hasForm {o : BSONObj} (htype : TypeParsed apiVersion ca)
    (h : HasForm o ca (newAttributeType ca apiVersion)) : Says apiVersion o ca := by
  refine ⟨fun _ v hv => ?_, fun hne => ?_⟩
  · rw [h.1, hv]
    rfl
  · rw [h.2, newAttributeType_eq htype hne]

theorem says_mergeAttrInfo (attr : BSONObj) : Says apiVersion (mergeAttrInfo now attr ca apiVersion).1 ca := by
  refine ⟨fun habs v hv => ?_, fun hne => ?_⟩
  · rw [lookup_value_mergeAttrInfo, mergedValue_of_given habs, hv]
    rfl
  · rw [getStringFieldF_type_mergeAttrInfo, if_pos hne]

/-- An attribute that is not missing is stored with what it says, whether it was written or not. -/
theorem attributeAfter_says (ha : a = .update ∨ a = .append ∨ a = .appendStrict) (hmiss : missing attrs a ca = false)
    (htype : TypeParsed apiVersion ca) (hint : NoIntValues attrs) :
    ∃ w, attributeAfter now attrs apiVersion a ca = some w ∧ Says apiVersion (embeddedObject w) ca := by
  have hdel : a ≠ .delete := by rcases ha with rfl | rfl | rfl <;> decide
  unfold attributeAfter
  rw [if_neg hdel]
  rcases hk : attrs.lookup ca.key with _ | attr
  · -- an update of a missing attribute is excluded
    have happend : a = .append ∨ a = .appendStrict := by
      refine ha.resolve_left ?_
      rintro rfl
      simp [missing, hasField, hk] at hmiss
    rw [attributeEntry_new happend (by simp [hasField, hk])]
    exact ⟨_, rfl, says_of_hasForm htype (hasForm_appendedAttribute now ca apiVersion)⟩
  · have hentry : attributeEntry now attrs apiVersion a ca =
        if actualUpdate (embeddedObject attr) ca apiVersion then
          [(ca.key, .object (mergeAttrInfo now (embeddedObject attr) ca apiVersion).1)]
        else [] := by
      rcases ha with rfl | rfl | rfl <;> simp only [attributeEntry, hk]
    rw [hentry]
    split
    · exact ⟨_, rfl, says_mergeAttrInfo _⟩
    · rename_i hact
      rw [Bool.not_eq_true] at hact
      exact ⟨attr, rfl, stored_of_not_actualUpdate (hint _ _ hk) hact⟩

end Says

end OrionBroker
