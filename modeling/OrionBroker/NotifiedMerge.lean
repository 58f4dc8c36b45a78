import OrionBroker.NotifiedAttribute

/-!
# The two merges of one attribute

An attribute of a request is merged twice: into the update document and into the entity to notify.  A new attribute is
the same in both, except for member names of a compound value that are changed when it is stored (`shows_new`).  The
merges into an attribute that exists differ in more ways, which `MergeAgrees` and `ReplaceAgrees` exclude.
-/

namespace OrionBroker

open Bson

/-- An attribute as the parsers make it, without two metadata of the same name. -/
structure PlainAttribute (apiVersion : ApiVersion) (ca : ContextAttribute) : Prop where
  value : ca.valueBson ≠ []
  null : ca.valueType = .none → ca.compoundValueP = none
  type : TypeParsed apiVersion ca
  metadata : PlainMetadata apiVersion ca.metadataVector

/-! ### The metadata that are written -/

section Written

variable {ca : ContextAttribute} {o : BSONObj} {apiVersion : ApiVersion} {now : Int}

/-- The metadata of the request that are written. -/
def customOf (ca : ContextAttribute) : List Metadata := ca.metadataVector.filter fun md => !isNotCustomMetadata md.name

/-- The stored metadata that are written again. -/
def keptOf (o : BSONObj) (ca : ContextAttribute) : List Metadata :=
  (storedMetadata o).filter fun s => !hasMetadata s.name ca

/-- A custom metadata of the attribute has a value. -/
def CustomValues (ca : ContextAttribute) : Prop :=
  ∀ md ∈ ca.metadataVector, isNotCustomMetadata md.name = false → md.valueBson.isSome = true

theorem customMetadata_eq (h : CustomValues ca) (useDefaultType : Bool) :
    customMetadata ca.metadataVector useDefaultType =
      (customOf ca).map fun md => .object (metadataItem md useDefaultType) := by
  unfold customMetadata
  rw [List.map_eq_flatMap]
  change (customOf ca).flatMap _ = _
  unfold List.flatMap
  congr 1
  apply List.map_congr_left
  intro md hmd
  obtain ⟨hmem, hc⟩ := List.mem_filter.1 hmd
  exact appendMetadata_eq (h md hmem (by simpa using hc)) useDefaultType

theorem mergedMetadata_eq (h : CustomValues ca) (ho : ∀ s ∈ storedMetadata o, s.valueBson.isSome = true) :
    mergedMetadata o ca apiVersion =
      (customOf ca ++ keptOf o ca).map fun md => .object (metadataItem md (apiVersion = .v2)) := by
  have hkept : ∀ l : List Metadata, (∀ s ∈ l, s.valueBson.isSome = true) →
      (l.flatMap fun md => if hasMetadata md.name ca then [] else appendMetadata md (apiVersion = .v2)) =
        (l.filter fun s => !hasMetadata s.name ca).map fun md => .object (metadataItem md (apiVersion = .v2)) := by
    intro l hl
    induction l with
    | nil => rfl
    | cons s l ih =>
      rw [List.flatMap_cons, ih fun t ht => hl t (List.mem_cons_of_mem _ ht),
        appendMetadata_eq (hl s (List.mem_cons_self ..))]
      by_cases hs : hasMetadata s.name ca = true <;> simp [hs]
  unfold mergedMetadata
  rw [customMetadata_eq h, List.map_append]
  congr 1
  exact hkept _ ho

private theorem arrayItems_append (l l' : BSONObj) (k : String) :
    arrayItems (l ++ l') k = if hasField l k then arrayItems l k else arrayItems l' k := by
  unfold arrayItems hasField
  rw [List.lookup_append]
  rcases l.lookup k <;> rfl

private theorem hasField_md_valueBson (ca : ContextAttribute) : hasField ca.valueBson "md" = false := by
  rcases valueBson_cases ca with h | ⟨v, h⟩ <;> rw [h] <;> simp [hasField, lookup_cons_eq]

private theorem arrayItems_customMetadataToBson (useDefaultType : Bool) (l : BSONObj) (hl : arrayItems l "md" = []) :
    arrayItems ((match contextAttributeCustomMetadataToBson ca useDefaultType with
      | some mdV => [("md", BSONValue.array mdV)]
      | none => []) ++ l) "md" = customMetadata ca.metadataVector useDefaultType := by
  unfold contextAttributeCustomMetadataToBson
  simp only
  split
  · rename_i h
    split at h
    · cases h
      simp [arrayItems]
    · cases h
  · rename_i h
    split at h
    · cases h
    · rename_i hlen
      rw [List.nil_append, hl, List.eq_nil_of_length_eq_zero (Nat.eq_zero_of_not_pos hlen)]

private theorem storedMetadata_items (l : List Metadata) (useDefaultType : Bool)
    (h : arrayItems o "md" = l.map fun md => .object (metadataItem md useDefaultType)) :
    storedMetadata o = l.map (readBack useDefaultType) := by
  unfold storedMetadata
  rw [h, List.map_map]
  rfl

variable (now) in
theorem arrayItems_appendedAttribute (h : CustomValues ca) :
    arrayItems (appendedAttribute now ca apiVersion) "md" =
      (customOf ca).map fun md => .object (metadataItem md (apiVersion = .v2)) := by
  rw [← customMetadata_eq h]
  unfold appendedAttribute
  rw [List.append_assoc, List.append_assoc, arrayItems_append, hasField_md_valueBson, if_neg Bool.false_ne_true,
    arrayItems_append]
  exact arrayItems_customMetadataToBson _ _ (by simp [arrayItems, lookup_cons_eq])

variable (now) in
theorem storedMetadata_appendedAttribute (h : PlainMetadata apiVersion ca.metadataVector) :
    storedMetadata (appendedAttribute now ca apiVersion) = (customOf ca).map (readBack (apiVersion = .v2)) :=
  storedMetadata_items _ _ (arrayItems_appendedAttribute now h.value)

variable (now) in
theorem arrayItems_createdAttribute (h : CustomValues ca) :
    arrayItems (createdAttribute now ca apiVersion) "md" =
      (customOf ca).map fun md => .object (metadataItem md (apiVersion = .v2)) := by
  have hfirst : hasField [("type", BSONValue.string (newAttributeType ca apiVersion)), ("creDate", .int now),
      ("modDate", .int now)] "md" = false := by simp [hasField, lookup_cons_eq]
  rw [← customMetadata_eq h]
  unfold createdAttribute
  rw [List.append_assoc, arrayItems_append, hfirst, if_neg Bool.false_ne_true, arrayItems_append, hasField_md_valueBson,
    if_neg Bool.false_ne_true]
  have hlast := @arrayItems_customMetadataToBson ca (apiVersion = .v2) [] rfl
  rwa [List.append_nil] at hlast

variable (now) in
theorem storedMetadata_createdAttribute (h : CustomValues ca) :
    storedMetadata (createdAttribute now ca apiVersion) = (customOf ca).map (readBack (apiVersion = .v2)) :=
  storedMetadata_items _ _ (arrayItems_createdAttribute now h)

variable (now) in
theorem arrayItems_replacedAttribute (h : CustomValues ca) :
    arrayItems (replacedAttribute now ca apiVersion) "md" =
      (customOf ca).map fun md => .object (metadataItem md (apiVersion = .v2)) := by
  rw [← customMetadata_eq h]
  unfold replacedAttribute
  rw [List.append_assoc, arrayItems_append, arrayItems_append, hasField_md_valueBson, if_neg Bool.false_ne_true]
  have hget : (contextAttributeCustomMetadataToBson ca (apiVersion = .v2)).getD [] =
      customMetadata ca.metadataVector (apiVersion = .v2) := by
    unfold contextAttributeCustomMetadataToBson
    simp only
    split
    · rfl
    · rename_i hlen
      rw [List.eq_nil_of_length_eq_zero (Nat.eq_zero_of_not_pos hlen)]
      rfl
  simp [arrayItems, hasField, lookup_cons_eq, hget]

variable (now) in
theorem storedMetadata_replacedAttribute (h : PlainMetadata apiVersion ca.metadataVector) :
    storedMetadata (replacedAttribute now ca apiVersion) = (customOf ca).map (readBack (apiVersion = .v2)) :=
  storedMetadata_items _ _ (arrayItems_replacedAttribute now h.value)

variable (now) in
theorem arrayItems_mergeAttrInfo (h : CustomValues ca) (ho : ∀ s ∈ storedMetadata o, s.valueBson.isSome = true) :
    arrayItems (mergeAttrInfo now o ca apiVersion).1 "md" =
      (customOf ca ++ keptOf o ca).map fun md => .object (metadataItem md (apiVersion = .v2)) := by
  rw [← mergedMetadata_eq h ho]
  have hvalue : hasField (mergedValue o ca apiVersion) "md" = false := by
    unfold mergedValue
    split
    · split <;> simp [hasField, lookup_cons_eq]
    · exact hasField_md_valueBson ca
  have htype : hasField (mergedType o ca) "md" = false := by
    unfold mergedType
    split
    · simp [hasField, lookup_cons_eq]
    · split <;> simp [hasField, lookup_cons_eq]
  have hrest : arrayItems (keptDate o "creDate" ++
      if actualUpdate o ca apiVersion then [("modDate", .int now)] else keptDate o "modDate") "md" = [] := by
    unfold keptDate
    split <;> split <;> (try split) <;> simp [arrayItems, lookup_cons_eq]
  unfold mergeAttrInfo
  simp only [List.append_assoc]
  rw [arrayItems_append, hvalue, if_neg Bool.false_ne_true, arrayItems_append, htype, if_neg Bool.false_ne_true,
    arrayItems_append, hrest]
  by_cases hlen : (mergedMetadata o ca apiVersion).length > 0
  · simp [hlen, hasField, arrayItems]
  · rw [List.eq_nil_of_length_eq_zero (Nat.eq_zero_of_not_pos hlen)]
    rfl

variable (now) in
theorem storedMetadata_mergeAttrInfo (h : CustomValues ca) (ho : ∀ s ∈ storedMetadata o, s.valueBson.isSome = true) :
    storedMetadata (mergeAttrInfo now o ca apiVersion).1 =
      (customOf ca ++ keptOf o ca).map (readBack (apiVersion = .v2)) :=
  storedMetadata_items _ _ (arrayItems_mergeAttrInfo now h ho)

end Written

/-! ### A new attribute -/

section Compare

variable {ca y : ContextAttribute} {o : BSONObj} {apiVersion : ApiVersion} {now : Int}

private theorem get_readBack (useDefaultType : Bool) (n : String) (l : List Metadata) :
    KeyedList.get Metadata.name n (l.map (readBack useDefaultType)) =
      (KeyedList.get Metadata.name n l).map (readBack useDefaultType) := by
  rw [KeyedList.get_map]
  congr 2
  funext md
  exact readBack_name useDefaultType md

private theorem nodup_readBack (useDefaultType : Bool) {l : List Metadata} (h : (l.map Metadata.name).Nodup) :
    ((l.map (readBack useDefaultType)).map Metadata.name).Nodup := by
  have hname : Metadata.name ∘ readBack useDefaultType = Metadata.name := funext (readBack_name useDefaultType)
  rw [List.map_map, hname]
  exact h

/-- The notified attribute has what is stored for a new attribute, whether it was appended or replaced, exactly if the
member names of its value are kept. -/
theorem shows_new (hca : PlainAttribute apiVersion ca) (hform : HasForm o ca (newAttributeType ca apiVersion))
    (hmd : storedMetadata o = (customOf ca).map (readBack (apiVersion = .v2))) :
    Shows (ca.copy (apiVersion = .v2)).1 o ↔ KeepsMembers ca := by
  have htype : (ca.copy (apiVersion = .v2)).1.type = getStringFieldF o "type" := by
    rw [hform.2]
    unfold ContextAttribute.copy newAttributeType
    rw [Bool.and_comm]
  have hjson : (ca.copy (apiVersion = .v2)).1.json = ca.json := rfl
  have hviews : customViews (ca.copy (apiVersion = .v2)).1.metadataVector = customViews (storedMetadata o) := by
    rw [hmd]
    unfold customViews ContextAttribute.copy customOf
    simp only [List.filter_map, List.map_map]
    have hcopy : ((fun md : Metadata => !isNotCustomMetadata md.name) ∘ fun md : Metadata => md.copy (apiVersion = .v2)) =
        fun md : Metadata => !isNotCustomMetadata md.name := by
      funext md
      simp only [Function.comp_apply, Metadata.copy]
      split <;> rfl
    have hread : ((fun md : Metadata => !isNotCustomMetadata md.name) ∘ readBack (apiVersion = .v2)) =
        fun md : Metadata => !isNotCustomMetadata md.name := by
      funext md
      simp only [Function.comp_apply, readBack_name]
    rw [hcopy, hread, List.filter_filter]
    simp only [Bool.and_self]
    apply List.map_congr_left
    intro md hmem
    obtain ⟨hmem, hc⟩ := List.mem_filter.1 hmem
    simp only [Function.comp_apply]
    rw [view_readBack (hca.metadata.value md hmem (by simpa using hc)), view_copy]
  rw [← storedJson_valueBson hca.value, ← hform.1]
  constructor
  · intro h
    exact hjson.symm.trans h.value
  · intro h
    exact ⟨htype, hjson.trans h, fun m => by rw [hviews]⟩

/-! ### An attribute that exists -/

private theorem json_updateNotifyAttribute (useDefaultType : Bool) :
    (updateNotifyAttribute ca useDefaultType y).json = if ca.valueType ≠ .none then ca.json else y.json := by
  unfold updateNotifyAttribute
  by_cases h : ca.valueType = .none <;> simp [h] <;> rfl

private theorem type_updateNotifyAttribute (useDefaultType : Bool) :
    (updateNotifyAttribute ca useDefaultType y).type = if ca.type ≠ "" then ca.type else y.type := by
  unfold updateNotifyAttribute
  rfl

private theorem json_of_null (hca : PlainAttribute apiVersion ca) (h : ca.valueType = .none) :
    ca.valueBson = [("value", .null)] ∧ KeepsMembers ca := by
  have hc := hca.null h
  refine ⟨?_, fun t ht => ?_⟩
  · simp [ContextAttribute.valueBson, hc, ContextAttribute.bsonAppendAttrValue, h]
  · rw [hc] at ht
    cases ht

/-- The notified value is the one of the request, exactly if the member names are kept and a null is the stored one. -/
private theorem value_given_iff (hca : PlainAttribute apiVersion ca) (hy : y.json = storedJson (o.lookup "value"))
    (useDefaultType : Bool) :
    (updateNotifyAttribute ca useDefaultType y).json = storedJson (ca.valueBson.lookup "value") ↔
      KeepsMembers ca ∧ (ca.valueType = .none → o.lookup "value" = some .null) := by
  rw [json_updateNotifyAttribute]
  by_cases h : ca.valueType = .none
  · obtain ⟨hnull, hkeeps⟩ := json_of_null hca h
    have hstored : storedJson (ca.valueBson.lookup "value") = some .null := by
      rw [hnull, storedJson_eq_null]
      rfl
    rw [if_neg (not_not.2 h), hy, hstored, storedJson_eq_null]
    simp [hkeeps, h]
  · rw [if_pos h, storedJson_valueBson hca.value]
    simp [h]

/-- When the notification of an update agrees with what is stored: member names are kept, a null is not a change, a
type that is not given for a metadata is the stored one, and no metadata without type gets the default one. -/
structure MergeAgrees (apiVersion : ApiVersion) (o : BSONObj) (ca : ContextAttribute) : Prop where
  members : KeepsMembers ca
  null : ca.valueType = .none → apiVersion = .v2 → o.lookup "value" = some .null
  metadata : MetadataAgrees apiVersion o ca fun s =>
    actualUpdate o ca apiVersion = true → apiVersion = .v2 → s.type ≠ ""

/-- When the notification of a replacement agrees with what is stored: nothing of the stored attribute is left out of
the request. -/
structure ReplaceAgrees (apiVersion : ApiVersion) (o : BSONObj) (ca : ContextAttribute) : Prop where
  members : KeepsMembers ca
  null : ca.valueType = .none → o.lookup "value" = some .null
  type : ca.type = "" → getStringFieldF o "type" = newAttributeType ca apiVersion
  metadata : MetadataAgrees apiVersion o ca fun _ => False

private theorem hasMetadata_iff {n : String} :
    hasMetadata n ca = true ↔ (KeyedList.get Metadata.name n ca.metadataVector).isSome = true := by
  simp [hasMetadata, KeyedList.get]

private theorem get_customOf {n : String} (hn : isNotCustomMetadata n = false) :
    KeyedList.get Metadata.name n (customOf ca) = KeyedList.get Metadata.name n ca.metadataVector := by
  unfold customOf
  rw [KeyedList.get_filter (b := true) fun md _ hk => by rw [hk, hn]; rfl]
  rfl

private theorem get_keptOf (n : String) :
    KeyedList.get Metadata.name n (keptOf o ca) =
      if hasMetadata n ca then none else KeyedList.get Metadata.name n (storedMetadata o) := by
  unfold keptOf
  rw [KeyedList.get_filter (b := !hasMetadata n ca) fun md _ hk => by rw [hk]]
  by_cases h : hasMetadata n ca = true <;> simp [h]

private theorem nodup_customOf (hca : PlainMetadata apiVersion ca.metadataVector) :
    ((customOf ca).map Metadata.name).Nodup :=
  hca.nodup.sublist (List.filter_sublist.map _)

private theorem nodup_merged (hca : PlainMetadata apiVersion ca.metadataVector) (ho : PlainStored o) :
    ((customOf ca ++ keptOf o ca).map Metadata.name).Nodup := by
  rw [List.map_append, List.nodup_append]
  refine ⟨nodup_customOf hca, ho.nodup.sublist (List.filter_sublist.map _), ?_⟩
  intro n hn n' hn' he
  obtain ⟨md, hmd, rfl⟩ := List.mem_map.1 hn
  obtain ⟨s, hs, rfl⟩ := List.mem_map.1 hn'
  have hkept := (List.mem_filter.1 hs).2
  have hmem : hasMetadata s.name ca = true := by
    rw [← he]
    exact List.any_eq_true.2 ⟨md, (List.mem_filter.1 hmd).1, by simp⟩
  simp [hmem] at hkept

/-- The metadata of a merged attribute, read as a function of the name. -/
private theorem view_get_merged (hca : PlainMetadata apiVersion ca.metadataVector) (ho : PlainStored o) {n : String}
    (hn : isNotCustomMetadata n = false) :
    (KeyedList.get Metadata.name n ((customOf ca ++ keptOf o ca).map (readBack (apiVersion = .v2)))).map Metadata.view =
      match KeyedList.get Metadata.name n ca.metadataVector with
      | some md => some (md.name, md.effectiveType (apiVersion = .v2), md.valueBson)
      | none => (KeyedList.get Metadata.name n (storedMetadata o)).bind fun s =>
          some (s.name, s.effectiveType (apiVersion = .v2), s.valueBson) := by
  rw [get_readBack, KeyedList.get_append, get_customOf hn, get_keptOf]
  rcases hm : KeyedList.get Metadata.name n ca.metadataVector with _ | md
  · have hnot : hasMetadata n ca = false := by
      rw [← Bool.not_eq_true, hasMetadata_iff, hm]
      exact Bool.false_ne_true
    rw [hnot, if_neg Bool.false_ne_true, Option.none_or]
    rcases hs : KeyedList.get Metadata.name n (storedMetadata o) with _ | s
    · rfl
    · simp only [Option.map_some, Option.bind_some, view_readBack (ho.value s (KeyedList.mem_of_get hs).1)]
  · obtain ⟨hmem, hname⟩ := KeyedList.mem_of_get hm
    simp only [Option.some_or, Option.map_some]
    rw [view_readBack (hca.value md hmem (by rw [hname]; exact hn))]

/-- A metadata that is written again keeps its type, unless it has none and the default one is used. -/
theorem effectiveType_stored {s : Metadata} (hs : s ∈ storedMetadata o) :
    s.type = s.effectiveType (apiVersion = .v2) ↔ (apiVersion = .v2 → s.type ≠ "") := by
  obtain ⟨v, -, rfl⟩ := List.mem_map.1 hs
  obtain ⟨-, ht, hg⟩ := fields_ofBson (embeddedObject v)
  unfold Metadata.effectiveType
  rw [hg, ht]
  by_cases hv : apiVersion = .v2
  · by_cases he : getStringFieldF (embeddedObject v) "type" = ""
    · have hne : DEFAULT_TYPE ≠ "" := by decide
      simp [hv, he, hne]
    · simp [hv, he]
  · simp [hv]

variable (now) in
/-- The notification of an attribute that was merged. -/
theorem shows_merged (hca : PlainAttribute apiVersion ca) (ho : PlainStored o) (hy : ReadFrom y o)
    (h : actualUpdate o ca apiVersion = true) :
    Shows (updateNotifyAttribute ca (apiVersion = .v2) y) (mergeAttrInfo now o ca apiVersion).1 ↔
      MergeAgrees apiVersion o ca := by
  have htype : (updateNotifyAttribute ca (apiVersion = .v2) y).type =
      getStringFieldF (mergeAttrInfo now o ca apiVersion).1 "type" := by
    rw [type_updateNotifyAttribute, getStringFieldF_type_mergeAttrInfo, hy.type]
  have hvalue : (updateNotifyAttribute ca (apiVersion = .v2) y).json =
      storedJson ((mergeAttrInfo now o ca apiVersion).1.lookup "value") ↔
        KeepsMembers ca ∧ (ca.valueType = .none → apiVersion = .v2 → o.lookup "value" = some .null) := by
    rw [lookup_value_mergeAttrInfo]
    rcases habs : attributeValueAbsent ca apiVersion with _ | _
    · rw [mergedValue_of_given habs, value_given_iff hca hy.value]
      refine and_congr_right fun _ => ?_
      refine imp_congr_right fun hnone => ?_
      cases apiVersion with
      | v1 => simp [attributeValueAbsent, hnone] at habs
      | v2 => simp
    · simp only [attributeValueAbsent, Bool.and_eq_true, decide_eq_true_eq] at habs
      have hkept : (mergedValue o ca apiVersion).lookup "value" = o.lookup "value" := by
        unfold mergedValue
        rw [if_pos (by simp [attributeValueAbsent, habs])]
        rcases hl : o.lookup "value" with _ | v
        · rfl
        · cases v with
          | int n => exact absurd hl (ho.number n)
          | _ => rfl
      rw [hkept, json_updateNotifyAttribute, if_neg (not_not.2 habs.1), hy.value]
      simp [(json_of_null hca habs.1).2, habs.2]
  have hmd := customViews_notified_iff hca.metadata ho hy (nodup_readBack (apiVersion = .v2) (nodup_merged hca.metadata ho)) _
    fun n hn => view_get_merged hca.metadata ho hn
  rw [← storedMetadata_mergeAttrInfo now hca.metadata.value ho.value] at hmd
  have hagrees : (MetadataAgrees apiVersion o ca fun s =>
      some s.view = some (s.name, s.effectiveType (apiVersion = .v2), s.valueBson)) ↔
      MetadataAgrees apiVersion o ca fun s => actualUpdate o ca apiVersion = true → apiVersion = .v2 → s.type ≠ "" := by
    refine forall_congr' fun s => forall_congr' fun hs => ?_
    rcases KeyedList.get Metadata.name s.name ca.metadataVector with _ | md
    · simp [Metadata.view, effectiveType_stored hs, h]
    · rfl
  rw [hagrees] at hmd
  constructor
  · intro hs
    exact ⟨(hvalue.1 hs.value).1, (hvalue.1 hs.value).2, hmd.1 hs.metadata⟩
  · intro ha
    exact ⟨htype, hvalue.2 ⟨ha.members, ha.null⟩, hmd.2 ha.metadata⟩

/-! ### An attribute that does not change -/

theorem eq_of_sameScalar {v w : Option BSONValue} (h : sameScalar v w = true) : v = w := by
  unfold sameScalar at h
  split at h
  · rw [Double.eq_of_eq h]
  all_goals simp_all

theorem equalMetadataValues_fields {mdB mdB' : BSONObj} (h : equalMetadataValues mdB mdB' = true) :
    getStringFieldF mdB "type" = getStringFieldF mdB' "type" ∧ mdB.lookup "value" = mdB'.lookup "value" := by
  unfold equalMetadataValues at h
  split at h
  · cases h
  · rename_i hf
    split at h
    · cases h
    · rename_i ht
      refine ⟨?_, eq_of_sameScalar h⟩
      simp only [ne_eq, not_not] at hf
      by_cases hfield : hasField mdB "type" = true
      · have hs : sameScalar (mdB.lookup "type") (mdB'.lookup "type") = true := by
          by_contra hcon
          exact ht ⟨hfield, by simpa using hcon⟩
        unfold getStringFieldF
        rw [eq_of_sameScalar hs]
      · have hnone := lookup_of_not_hasField hfield
        rw [hf] at hfield
        unfold getStringFieldF
        rw [hnone, lookup_of_not_hasField hfield]

/-- Every metadata of a request that changes nothing is stored: otherwise there would be more of them afterwards. -/
private theorem stored_name (hca : PlainMetadata apiVersion ca.metadataVector) (ho : PlainStored o)
    (hlen : (mergedMetadata o ca apiVersion).length = (arrayItems o "md").length) {md : Metadata}
    (hmd : md ∈ customOf ca) : ∃ s ∈ storedMetadata o, s.name = md.name := by
  have hcount : (customOf ca).length = ((storedMetadata o).filter fun s => hasMetadata s.name ca).length := by
    have hsplit := List.length_eq_length_filter_add (l := storedMetadata o) fun s => hasMetadata s.name ca
    have hS : (storedMetadata o).length = (arrayItems o "md").length := by simp [storedMetadata]
    rw [mergedMetadata_eq hca.value ho.value, List.length_map, List.length_append] at hlen
    unfold keptOf at hlen
    omega
  have hsub : ((storedMetadata o).filter fun s => hasMetadata s.name ca).map Metadata.name ⊆
      (customOf ca).map Metadata.name := by
    intro n hn
    obtain ⟨s, hs, rfl⟩ := List.mem_map.1 hn
    obtain ⟨hs, hhas⟩ := List.mem_filter.1 hs
    obtain ⟨md', hmem, hname⟩ := List.any_eq_true.1 hhas
    simp only [decide_eq_true_eq] at hname
    refine List.mem_map.2 ⟨md', List.mem_filter.2 ⟨hmem, ?_⟩, hname⟩
    rw [hname, ho.custom s hs]
    rfl
  have hperm := (List.subperm_of_subset (ho.nodup.sublist (List.filter_sublist.map _)) hsub).perm_of_length_le
    (by rw [List.length_map, List.length_map, hcount])
  obtain ⟨s, hs, hname⟩ := List.mem_map.1 (hperm.mem_iff.2 (List.mem_map_of_mem hmd))
  exact ⟨s, (List.mem_filter.1 hs).1, hname⟩

/-- A metadata of a request that changes nothing is stored with its type and value. -/
private theorem metadata_of_not_actualUpdate (hca : PlainMetadata apiVersion ca.metadataVector) (ho : PlainStored o)
    (h : actualUpdate o ca apiVersion = false) {md s : Metadata} (hmd : md ∈ customOf ca) (hs : s ∈ storedMetadata o)
    (hname : s.name = md.name) : s.type = md.effectiveType (apiVersion = .v2) ∧ s.valueBson = md.valueBson := by
  have hequal : equalMetadataVectors ((arrayItems o "md").map embeddedObject)
      ((mergedMetadata o ca apiVersion).map embeddedObject) = true := by
    unfold actualUpdate at h
    split at h
    · cases h
    · simp only [Bool.or_eq_false_iff, Bool.not_eq_false'] at h
      exact h.2
  obtain ⟨v, hv, rfl⟩ := List.mem_map.1 hs
  have hfound := List.all_eq_true.1 hequal (embeddedObject v) (List.mem_map_of_mem hv)
  rw [mergedMetadata_eq hca.value ho.value, List.map_map] at hfound
  have hitem : ∀ mdB ∈ (customOf ca ++ keptOf o ca).map (embeddedObject ∘ fun md =>
      .object (metadataItem md (apiVersion = .v2))), matchMetadata (embeddedObject v) mdB = true →
        mdB = metadataItem md (apiVersion = .v2) := by
    intro mdB hmem hmatch
    obtain ⟨md', hmd', rfl⟩ := List.mem_map.1 hmem
    have hmn : md'.name = md.name := by
      simp only [matchMetadata, decide_eq_true_eq] at hmatch
      rw [← hname, (fields_ofBson _).1, hmatch]
      exact (fields_metadataItem md' (apiVersion = .v2)).1.symm
    rw [List.inj_on_of_nodup_map (nodup_merged hca ho) hmd' (List.mem_append_left _ hmd) hmn]
    rfl
  have hmatch : matchMetadata (embeddedObject v) (metadataItem md (apiVersion = .v2)) = true := by
    simp only [matchMetadata, decide_eq_true_eq]
    rw [(fields_metadataItem md (apiVersion = .v2)).1, ← hname, (fields_ofBson _).1]
  split at hfound
  · rename_i mdB hfind
    rw [hitem mdB (List.mem_of_find?_eq_some hfind) (List.find?_some hfind)] at hfound
    obtain ⟨ht, hval⟩ := equalMetadataValues_fields hfound
    obtain ⟨-, hti, hvi⟩ := fields_metadataItem md (apiVersion = .v2)
    obtain ⟨hmem, hc⟩ := List.mem_filter.1 hmd
    exact ⟨(fields_ofBson _).2.1.trans (ht.trans hti),
      valueBson_ofBson (hca.value md hmem (by simpa using hc)) (hval.trans hvi)⟩
  · rename_i hnone
    refine absurd hmatch (List.find?_eq_none.1 hnone _ ?_)
    exact List.mem_map.2 ⟨md, List.mem_append_left _ hmd, rfl⟩

/-- The notification of an attribute that changes nothing says what is stored. -/
theorem shows_unchanged (hca : PlainAttribute apiVersion ca) (ho : PlainStored o) (hy : ReadFrom y o)
    (h : actualUpdate o ca apiVersion = false) :
    Shows (updateNotifyAttribute ca (apiVersion = .v2) y) o ∧ MergeAgrees apiVersion o ca := by
  have hlen : (mergedMetadata o ca apiVersion).length = (arrayItems o "md").length := by
    unfold actualUpdate at h
    split at h
    · cases h
    · simp only [Bool.or_eq_false_iff, decide_eq_false_iff_not, ne_eq, not_not] at h
      exact h.1.2
  have hcompound : ca.compoundValueP = none := by
    unfold actualUpdate at h
    split at h
    · cases h
    · rename_i hc
      simpa using hc
  have hkeeps : KeepsMembers ca := by
    intro t ht
    rw [hcompound] at ht
    cases ht
  obtain ⟨hvalue, htype⟩ := stored_of_not_actualUpdate ho.number h
  have hnull : ca.valueType = .none → apiVersion = .v2 → o.lookup "value" = some .null := by
    intro hnone hv2
    have hv := hvalue (by simp [attributeValueAbsent, hv2]) .null (by rw [(json_of_null hca hnone).1]; rfl)
    rcases hl : o.lookup "value" with _ | v
    · rw [hl] at hv
      cases hv
    · rw [hl] at hv
      rw [← hv]
      rfl
  have hview : ∀ n md, isNotCustomMetadata n = false → KeyedList.get Metadata.name n ca.metadataVector = some md →
      ∃ s, KeyedList.get Metadata.name n (storedMetadata o) = some s ∧
        s.type = md.effectiveType (apiVersion = .v2) ∧ s.valueBson = md.valueBson := by
    intro n md hn hget
    obtain ⟨hmem, hname⟩ := KeyedList.mem_of_get hget
    have hmd : md ∈ customOf ca := by
      refine List.mem_filter.2 ⟨hmem, ?_⟩
      rw [hname, hn]
      rfl
    obtain ⟨s, hs, hsn⟩ := stored_name hca.metadata ho hlen hmd
    refine ⟨s, ?_, metadata_of_not_actualUpdate hca.metadata ho h hmd hs hsn⟩
    rw [← hname, ← hsn]
    exact KeyedList.get_of_mem (fun _ ha _ hb => List.inj_on_of_nodup_map ho.nodup ha hb) hs
  refine ⟨⟨?_, ?_, ?_⟩, hkeeps, hnull, ?_⟩
  · rw [type_updateNotifyAttribute, hy.type]
    by_cases ht : ca.type = ""
    · simp [ht]
    · rw [if_pos ht, htype ht]
  · rw [json_updateNotifyAttribute, hy.value]
    by_cases hnone : ca.valueType = .none
    · rw [if_neg (not_not.2 hnone)]
    · rw [if_pos hnone]
      obtain ⟨v, hv⟩ := (valueBson_cases ca).resolve_left hca.value
      have hlook : ca.valueBson.lookup "value" = some v := by
        rw [hv]
        rfl
      have hstored := hvalue (by simp [attributeValueAbsent, hnone]) v hlook
      rw [(storedJson_valueBson hca.value).2 hkeeps, hlook, ← hstored, storedJson_getD]
  · rw [customViews_iff (nodup_updateNotifyAttribute hy.nodup _) ho.nodup]
    intro n hn
    rw [get_updateNotifyAttribute hca.metadata.nodup, hy.metadata n hn]
    rcases hm : KeyedList.get Metadata.name n ca.metadataVector with _ | md
    · rfl
    · obtain ⟨s, hs, hst, hsv⟩ := hview n md hn hm
      obtain ⟨hmem, hname⟩ := KeyedList.mem_of_get hm
      rw [hs]
      simp only [Option.map_some, Option.elim_some, Option.some_or, Option.some.injEq]
      rw [(view_changed_iff (hca.metadata.type md hmem) (hname.trans (KeyedList.mem_of_get hs).2.symm)).2 fun _ => hst]
      rw [Metadata.view, hst, hsv, hname, (KeyedList.mem_of_get hs).2]
  · intro s hs
    split
    · rename_i md hm
      intro _
      obtain ⟨s', hs', hst, -⟩ := hview s.name md (ho.custom s hs) hm
      rw [KeyedList.get_of_mem (fun _ ha _ hb => List.inj_on_of_nodup_map ho.nodup ha hb) hs] at hs'
      cases hs'
      exact hst
    · intro hcon
      rw [h] at hcon
      cases hcon

variable (now) in
/-- The notification of an attribute that was replaced. -/
theorem shows_replacedAttribute (hca : PlainAttribute apiVersion ca) (ho : PlainStored o) (hy : ReadFrom y o) :
    Shows (updateNotifyAttribute ca (apiVersion = .v2) y) (replacedAttribute now ca apiVersion) ↔
      ReplaceAgrees apiVersion o ca := by
  have hform := hasForm_replacedAttribute now ca apiVersion
  have htype : (updateNotifyAttribute ca (apiVersion = .v2) y).type =
      getStringFieldF (replacedAttribute now ca apiVersion) "type" ↔
        (ca.type = "" → getStringFieldF o "type" = newAttributeType ca apiVersion) := by
    rw [type_updateNotifyAttribute, hform.2, hy.type]
    by_cases ht : ca.type = ""
    · simp [ht]
    · simp [ht, newAttributeType_eq hca.type ht]
  have hvalue := value_given_iff hca hy.value (apiVersion = .v2)
  rw [← hform.1] at hvalue
  have hmd := customViews_notified_iff hca.metadata ho hy
    (nodup_readBack (apiVersion = .v2) (nodup_customOf hca.metadata)) (fun _ => none) fun n hn => by
      rw [get_readBack, get_customOf hn]
      rcases hm : KeyedList.get Metadata.name n ca.metadataVector with _ | md
      · rcases KeyedList.get Metadata.name n (storedMetadata o) with _ | s <;> rfl
      · obtain ⟨hmem, hname⟩ := KeyedList.mem_of_get hm
        simp only [Option.map_some]
        rw [view_readBack (hca.metadata.value md hmem (by rw [hname]; exact hn))]
  rw [← storedMetadata_replacedAttribute now hca.metadata] at hmd
  simp only [reduceCtorEq] at hmd
  constructor
  · intro hs
    exact ⟨(hvalue.1 hs.value).1, (hvalue.1 hs.value).2, htype.1 hs.type, hmd.1 hs.metadata⟩
  · intro ha
    exact ⟨htype.2 ha.type, hvalue.2 ⟨ha.members, ha.null⟩, hmd.2 ha.metadata⟩

end Compare

end OrionBroker
