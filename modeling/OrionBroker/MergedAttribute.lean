import Mathlib.Data.List.Perm.Basic
import OrionBroker.NotifiedMerge

/-!
# What a merge changes (`MongoCommonUpdate.cpp`)

`mergeAttrInfo` decides whether an attribute changes by comparing values, types and metadata with the stored ones, apart
from building the merged attribute.  The two agree for values and types.  Metadata are compared with the first one of the
same name, and those that the request does not have are written with a default type in v2; so what is built and what is
decided agree, and a second merge of the same request changes nothing, exactly under the conditions of `Mergeable`
(`merge_exact_iff`).
-/

namespace OrionBroker

open Bson

/-! ### Lists of named things -/

section Named

variable {α : Type} {name : α → String} {l m : List α}

/-- Things of the same name are the same. -/
def Consistent (name : α → String) (l : List α) : Prop := ∀ a ∈ l, ∀ b ∈ l, name a = name b → a = b

/-- Everything is as the first thing of its name in another list, if there is one. -/
def AgreesWithFirst (name : α → String) (l m : List α) : Prop :=
  ∀ a ∈ l, ∀ b, m.find? (fun b => name a = name b) = some b → a = b

theorem consistent_iff : Consistent name l ↔ AgreesWithFirst name l l := by
  constructor
  · intro h a ha b hb
    exact h a ha b (List.mem_of_find?_eq_some hb) (by simpa using List.find?_some hb)
  · intro h a ha b hb hab
    cases hfind : l.find? fun c => name a = name c with
    | none =>
      have hno := List.find?_eq_none.1 hfind a ha
      simp at hno
    | some c =>
      have hac := h a ha c hfind
      rw [hab] at hfind
      exact hac.trans (h b hb c hfind).symm

/-- In a consistent list the first thing of a name is as all of them. -/
theorem agreesWithFirst_iff (hm : Consistent name m) :
    AgreesWithFirst name l m ↔ ∀ a ∈ l, ∀ b ∈ m, name a = name b → a = b := by
  constructor
  · intro h a ha b hb hab
    cases hfind : m.find? fun c => name a = name c with
    | none => exact absurd hab (by simpa using List.find?_eq_none.1 hfind b hb)
    | some c =>
      have hac : name a = name c := by simpa using List.find?_some hfind
      rw [h a ha c hfind]
      exact hm c (List.mem_of_find?_eq_some hfind) b hb (hac.symm.trans hab)
  · intro h a ha b hb
    exact h a ha b (List.mem_of_find?_eq_some hb) (by simpa using List.find?_some hb)

theorem agreesWithFirst_of_perm (hm : Consistent name m) (h : m.Perm l) : AgreesWithFirst name l m := by
  rw [agreesWithFirst_iff hm]
  exact fun a ha b hb hab => hm a (h.mem_iff.2 ha) b hb hab

/-- Two lists have the same things if they agree and have as many things of each name. -/
theorem perm_iff_counts [DecidableEq α] (hm : Consistent name m) (hcover : ∀ a ∈ l, ∃ b ∈ m, name a = name b)
    (hagree : AgreesWithFirst name l m) :
    m.Perm l ↔ ∀ n, m.countP (fun a => name a = n) = l.countP (fun a => name a = n) := by
  rw [agreesWithFirst_iff hm] at hagree
  constructor
  · exact fun h n => h.countP_eq _
  · intro hcount
    rw [List.perm_iff_count]
    intro a
    by_cases ha : a ∈ m
    · have hcountm : m.count a = m.countP fun b => name b = name a := by
        refine List.countP_congr fun b hb => ?_
        rw [beq_iff_eq, decide_eq_true_eq]
        exact ⟨fun h => h ▸ rfl, fun h => hm b hb a ha h⟩
      have hcountl : l.count a = l.countP fun b => name b = name a := by
        refine List.countP_congr fun b hb => ?_
        rw [beq_iff_eq, decide_eq_true_eq]
        exact ⟨fun h => h ▸ rfl, fun h => hagree b hb a ha h⟩
      rw [hcountm, hcountl, hcount]
    · have hal : a ∉ l := by
        intro hl
        obtain ⟨b, hb, hab⟩ := hcover a hl
        exact ha (hagree a hl b hb hab ▸ hb)
      rw [List.count_eq_zero_of_not_mem ha, List.count_eq_zero_of_not_mem hal]

end Named

/-! ### Stored attributes -/

/-- The values of metadata: no number is not a number. -/
def ScalarValue : BSONValue → Prop
  | .string _ | .bool _ | .null => True
  | .double d => d ≠ .nan
  | _ => False

/-- The values of attributes: numbers are doubles. -/
def AttributeValue : BSONValue → Prop
  | .object _ | .array _ => True
  | w => ScalarValue w

/-- An attribute as a request gives it. -/
structure Requested (ca : ContextAttribute) : Prop where
  value : ∃ w, ca.valueBson = [("value", w)] ∧ AttributeValue w
  metadata : ∀ md ∈ ca.metadataVector, ∃ w, md.valueBson = some w ∧ ScalarValue w

/-- The attributes that are written: those that are new, and those that a merge changed. -/
inductive StoredAttribute : BSONObj → Prop where
  | created {ca : ContextAttribute} (hca : Requested ca) (now : Int) (apiVersion : ApiVersion) :
      StoredAttribute (createdAttribute now ca apiVersion)
  | appended {ca : ContextAttribute} (hca : Requested ca) (now : Int) (apiVersion : ApiVersion) :
      StoredAttribute (appendedAttribute now ca apiVersion)
  | replaced {ca : ContextAttribute} (hca : Requested ca) (now : Int) (apiVersion : ApiVersion) :
      StoredAttribute (replacedAttribute now ca apiVersion)
  | merged {o : BSONObj} {ca : ContextAttribute} (ho : StoredAttribute o) (hca : Requested ca) (now : Int)
      (apiVersion : ApiVersion) : StoredAttribute (mergeAttrInfo now o ca apiVersion).1

/-- The form of a stored metadata. -/
structure ItemForm (item : BSONObj) : Prop where
  custom : isNotCustomMetadata (getStringFieldF item "name") = false
  type : item.lookup "type" = none ∨ ∃ t, t ≠ "" ∧ item.lookup "type" = some (.string t)
  value : ∃ w, item.lookup "value" = some w ∧ ScalarValue w

/-- The form of a stored attribute. -/
structure StoredForm (o : BSONObj) : Prop where
  value : ∃ w, o.lookup "value" = some w ∧ AttributeValue w
  type : ∃ t, o.lookup "type" = some (.string t)
  items : ∀ v ∈ arrayItems o "md", ItemForm (embeddedObject v)
  creDate : ∀ w, o.lookup "creDate" = some w → ∃ n, w = .int n
  modDate : ∀ w, o.lookup "modDate" = some w → ∃ n, w = .int n

theorem itemForm_metadataItem {md : Metadata} (hcustom : isNotCustomMetadata md.name = false)
    (hvalue : ∃ w, md.valueBson = some w ∧ ScalarValue w) (useDefaultType : Bool) :
    ItemForm (metadataItem md useDefaultType) := by
  obtain ⟨w, hw, hscalar⟩ := hvalue
  obtain ⟨hname, -, hlookup⟩ := fields_metadataItem md useDefaultType
  refine ⟨by rw [hname]; exact hcustom, ?_, w, by rw [hlookup, hw]; rfl, hscalar⟩
  unfold metadataItem
  by_cases ht : md.effectiveType useDefaultType = ""
  · left
    simp [ht, lookup_cons_eq]
  · right
    exact ⟨_, ht, by simp [ht, lookup_cons_eq]⟩

/-- What is read from a stored metadata. -/
theorem view_ofBson {item : BSONObj} (h : ItemForm item) :
    (Metadata.ofBson item).view = (getStringFieldF item "name", getStringFieldF item "type", item.lookup "value") := by
  obtain ⟨hname, htype, -⟩ := fields_ofBson item
  obtain ⟨w, hw, hscalar⟩ := h.value
  have hvalue : (Metadata.ofBson item).valueBson = some w := by
    unfold Metadata.ofBson
    rw [hw]
    cases w <;> first | rfl | exact hscalar.elim
  rw [Metadata.view, hname, htype, hvalue, hw]

theorem Requested.customValues {ca : ContextAttribute} (h : Requested ca) : CustomValues ca := by
  intro md hmd _
  obtain ⟨w, hw, -⟩ := h.metadata md hmd
  rw [hw]
  rfl

theorem StoredForm.values {o : BSONObj} (h : StoredForm o) : ∀ s ∈ storedMetadata o, s.valueBson.isSome = true := by
  intro s hs
  obtain ⟨v, hv, rfl⟩ := List.mem_map.1 hs
  obtain ⟨w, hw, -⟩ := (h.items v hv).value
  have hview := view_ofBson (h.items v hv)
  simp only [Metadata.view, Prod.mk.injEq] at hview
  rw [hview.2.2, hw]
  rfl

/-- The metadata of the request that are written have the form of stored ones. -/
theorem Requested.items {ca : ContextAttribute} (h : Requested ca) (useDefaultType : Bool) :
    ∀ v ∈ (customOf ca).map fun md => BSONValue.object (metadataItem md useDefaultType), ItemForm (embeddedObject v) := by
  intro v hv
  obtain ⟨md, hmd, rfl⟩ := List.mem_map.1 hv
  obtain ⟨hmem, hcustom⟩ := List.mem_filter.1 hmd
  exact itemForm_metadataItem (by simpa using hcustom) (h.metadata md hmem) useDefaultType

section Form

variable {ca : ContextAttribute} {o : BSONObj} (now : Int) (apiVersion : ApiVersion)

theorem lookup_valueBson_ne {k : String} (hk : k ≠ "value") : ca.valueBson.lookup k = none := by
  rcases valueBson_cases ca with h | ⟨v, h⟩ <;> simp [h, lookup_cons_eq, hk]

/-- The stored forms of a new attribute have the same fields. -/
theorem storedForm_of_fields (hca : Requested ca) (type : String)
    (hvalue : o.lookup "value" = ca.valueBson.lookup "value") (htype : o.lookup "type" = some (.string type))
    (hitems : arrayItems o "md" = (customOf ca).map fun md => .object (metadataItem md (apiVersion = .v2)))
    (hcre : o.lookup "creDate" = some (.int now)) (hmod : o.lookup "modDate" = some (.int now)) : StoredForm o := by
  obtain ⟨w, hw, hform⟩ := hca.value
  refine ⟨⟨w, by rw [hvalue, hw]; simp, hform⟩, ⟨type, htype⟩, ?_, ?_, ?_⟩
  · rw [hitems]
    exact hca.items _
  · intro w' hw'
    rw [hcre] at hw'
    exact ⟨now, (Option.some.inj hw').symm⟩
  · intro w' hw'
    rw [hmod] at hw'
    exact ⟨now, (Option.some.inj hw').symm⟩

theorem type_createdAttribute (now : Int) (ca : ContextAttribute) (apiVersion : ApiVersion) :
    (createdAttribute now ca apiVersion).lookup "type" = some (.string (newAttributeType ca apiVersion)) := by
  simp [createdAttribute]

theorem type_replacedAttribute (now : Int) (ca : ContextAttribute) (apiVersion : ApiVersion) :
    (replacedAttribute now ca apiVersion).lookup "type" = some (.string (newAttributeType ca apiVersion)) := by
  simp [replacedAttribute]

theorem type_appendedAttribute (now : Int) (ca : ContextAttribute) (apiVersion : ApiVersion) :
    (appendedAttribute now ca apiVersion).lookup "type" = some (.string (newAttributeType ca apiVersion)) := by
  simp [appendedAttribute, List.lookup_append, lookup_valueBson_ne]

theorem storedForm_createdAttribute (hca : Requested ca) : StoredForm (createdAttribute now ca apiVersion) := by
  refine storedForm_of_fields now apiVersion hca _ (hasForm_createdAttribute now ca apiVersion).1 (type_createdAttribute now ca apiVersion)
    (arrayItems_createdAttribute now hca.customValues) ?_ ?_ <;>
  simp [createdAttribute, lookup_cons_eq]

theorem storedForm_replacedAttribute (hca : Requested ca) : StoredForm (replacedAttribute now ca apiVersion) := by
  refine storedForm_of_fields now apiVersion hca _ (hasForm_replacedAttribute now ca apiVersion).1 (type_replacedAttribute now ca apiVersion)
    (arrayItems_replacedAttribute now hca.customValues) ?_ ?_ <;>
  simp [replacedAttribute, lookup_cons_eq]

theorem storedForm_appendedAttribute (hca : Requested ca) : StoredForm (appendedAttribute now ca apiVersion) := by
  refine storedForm_of_fields now apiVersion hca _ (hasForm_appendedAttribute now ca apiVersion).1 (type_appendedAttribute now ca apiVersion)
    (arrayItems_appendedAttribute now hca.customValues) ?_ ?_
  all_goals
    unfold appendedAttribute
    rcases contextAttributeCustomMetadataToBson ca (apiVersion = .v2) with _ | mdV <;>
      simp [List.lookup_append, lookup_valueBson_ne, lookup_cons_eq]

/-! ### The fields of a merged attribute -/

theorem lookup_mergedValue_ne {k : String} (hk : k ≠ "value") : (mergedValue o ca apiVersion).lookup k = none := by
  unfold mergedValue
  split
  · split <;> simp [lookup_cons_eq, hk]
  · exact lookup_valueBson_ne hk

theorem lookup_mergedType_ne {k : String} (hk : k ≠ "type") : (mergedType o ca).lookup k = none := by
  unfold mergedType
  split
  · simp [lookup_cons_eq, hk]
  · split <;> simp [lookup_cons_eq, hk]

theorem lookup_keptDate_eq {k : String} (h : ∀ w, o.lookup k = some w → ∃ n, w = .int n) :
    (keptDate o k).lookup k = o.lookup k := by
  unfold keptDate
  cases hlookup : o.lookup k with
  | none => simp [hasField, hlookup]
  | some w =>
    obtain ⟨n, rfl⟩ := h w hlookup
    simp [hasField, hlookup, getIntFieldF]

/-- A field that is neither the value, nor the type, nor the metadata. -/
theorem lookup_mergeAttrInfo {k : String} (hvalue : k ≠ "value") (htype : k ≠ "type") (hmd : k ≠ "md") :
    (mergeAttrInfo now o ca apiVersion).1.lookup k = ((keptDate o "creDate").lookup k).or
      ((if actualUpdate o ca apiVersion then [("modDate", .int now)] else keptDate o "modDate").lookup k) := by
  have hitems : (if (mergedMetadata o ca apiVersion).length > 0 then
      [("md", BSONValue.array (mergedMetadata o ca apiVersion))] else []).lookup k = none := by
    split <;> simp [lookup_cons_eq, hmd]
  unfold mergeAttrInfo
  simp only [List.append_assoc, List.lookup_append]
  rw [lookup_mergedValue_ne apiVersion hvalue, lookup_mergedType_ne htype, hitems]
  simp only [Option.none_or]

theorem creDate_mergeAttrInfo (ho : StoredForm o) :
    (mergeAttrInfo now o ca apiVersion).1.lookup "creDate" = o.lookup "creDate" := by
  have hmod : (if actualUpdate o ca apiVersion then [("modDate", BSONValue.int now)]
      else keptDate o "modDate").lookup "creDate" = none := by
    split
    · simp
    · exact lookup_keptDate o "modDate" "creDate" (by decide)
  rw [lookup_mergeAttrInfo now apiVersion (by decide) (by decide) (by decide), lookup_keptDate_eq ho.creDate, hmod,
    Option.or_none]

theorem modDate_mergeAttrInfo (ho : StoredForm o) :
    (mergeAttrInfo now o ca apiVersion).1.lookup "modDate" =
      if actualUpdate o ca apiVersion then some (.int now) else o.lookup "modDate" := by
  rw [lookup_mergeAttrInfo now apiVersion (by decide) (by decide) (by decide),
    lookup_keptDate o "creDate" "modDate" (by decide), Option.none_or]
  split
  · simp
  · exact lookup_keptDate_eq ho.modDate

theorem type_mergeAttrInfo (ho : StoredForm o) :
    (mergeAttrInfo now o ca apiVersion).1.lookup "type" = if ca.type ≠ "" then some (.string ca.type) else o.lookup "type" := by
  obtain ⟨t, ht⟩ := ho.type
  unfold mergeAttrInfo mergedType
  simp only [List.append_assoc, List.lookup_append]
  rw [lookup_mergedValue_ne apiVersion (by decide), Option.none_or, ht]
  split
  · simp
  · simp [hasField, ht, getStringFieldF]

theorem value_mergeAttrInfo (ho : StoredForm o) :
    (mergeAttrInfo now o ca apiVersion).1.lookup "value" =
      if attributeValueAbsent ca apiVersion then o.lookup "value" else ca.valueBson.lookup "value" := by
  obtain ⟨w, hw, hform⟩ := ho.value
  rw [lookup_value_mergeAttrInfo, mergedValue]
  split
  · rw [hw]
    cases w <;> first | exact hform.elim | simp
  · rfl

theorem storedForm_mergeAttrInfo (ho : StoredForm o) (hca : Requested ca) :
    StoredForm (mergeAttrInfo now o ca apiVersion).1 := by
  refine ⟨?_, ?_, ?_, ?_, ?_⟩
  · rw [value_mergeAttrInfo now apiVersion ho]
    split
    · exact ho.value
    · obtain ⟨w, hw, hform⟩ := hca.value
      exact ⟨w, by rw [hw]; simp, hform⟩
  · rw [type_mergeAttrInfo now apiVersion ho]
    split
    · exact ⟨_, rfl⟩
    · exact ho.type
  · rw [arrayItems_mergeAttrInfo now hca.customValues ho.values, List.map_append]
    intro v hv
    rcases List.mem_append.1 hv with hv | hv
    · exact hca.items _ v hv
    · obtain ⟨s, hs, rfl⟩ := List.mem_map.1 hv
      obtain ⟨v', hv', rfl⟩ := List.mem_map.1 (List.mem_filter.1 hs).1
      have hitem := ho.items v' hv'
      have hview := view_ofBson hitem
      simp only [Metadata.view, Prod.mk.injEq] at hview
      refine itemForm_metadataItem ?_ ?_ _
      · rw [hview.1]
        exact hitem.custom
      · rw [hview.2.2]
        exact hitem.value
  · rw [creDate_mergeAttrInfo now apiVersion ho]
    exact ho.creDate
  · rw [modDate_mergeAttrInfo now apiVersion ho]
    split
    · exact fun w hw => ⟨now, (Option.some.inj hw).symm⟩
    · exact ho.modDate

theorem StoredAttribute.form (h : StoredAttribute o) : StoredForm o := by
  induction h with
  | created hca now apiVersion => exact storedForm_createdAttribute now apiVersion hca
  | appended hca now apiVersion => exact storedForm_appendedAttribute now apiVersion hca
  | replaced hca now apiVersion => exact storedForm_replacedAttribute now apiVersion hca
  | merged _ hca now apiVersion ih => exact storedForm_mergeAttrInfo now apiVersion ih hca

end Form

/-! ### Comparing metadata -/

/-- The name, the type and the value of a stored metadata. -/
def itemView (item : BSONObj) : String × String × Option BSONValue :=
  (getStringFieldF item "name", getStringFieldF item "type", item.lookup "value")

theorem sameScalar_iff {v w : BSONValue} (hv : ScalarValue v) : sameScalar (some v) (some w) = true ↔ v = w := by
  constructor
  · exact fun h => Option.some.inj (eq_of_sameScalar h)
  · rintro rfl
    cases v with
    | double d =>
      cases d with
      | nan => exact absurd rfl hv
      | _ => simp [sameScalar, Double.eq]
    | _ => first | exact hv.elim | simp [sameScalar]

theorem equalMetadataValues_iff {item item' : BSONObj} (h : ItemForm item) (h' : ItemForm item') :
    equalMetadataValues item item' = true ↔
      getStringFieldF item "type" = getStringFieldF item' "type" ∧ item.lookup "value" = item'.lookup "value" := by
  refine ⟨equalMetadataValues_fields, ?_⟩
  rintro ⟨htype, hvalue⟩
  obtain ⟨w, hw, hscalar⟩ := h.value
  have hsame : sameScalar (item.lookup "value") (item'.lookup "value") = true := by
    rw [← hvalue, hw]
    exact (sameScalar_iff hscalar).2 rfl
  have hlookup : item.lookup "type" = item'.lookup "type" := by
    unfold getStringFieldF at htype
    rcases h.type with hnone | ⟨t, hne, ht⟩ <;> rcases h'.type with hnone' | ⟨t', hne', ht'⟩
    · rw [hnone, hnone']
    · rw [hnone, ht'] at htype
      exact absurd htype.symm hne'
    · rw [ht, hnone'] at htype
      exact absurd htype hne
    · rw [ht, ht'] at htype ⊢
      exact congrArg (some ∘ BSONValue.string) htype
  unfold equalMetadataValues hasField
  rw [hlookup, if_neg (by simp), hsame]
  rcases h'.type with hnone' | ⟨t', hne', ht'⟩
  · simp [hnone']
  · simp [ht', sameScalar]

theorem equalMetadataVectors_iff {mdV1 mdV2 : List BSONObj} (h1 : ∀ item ∈ mdV1, ItemForm item)
    (h2 : ∀ item ∈ mdV2, ItemForm item) :
    equalMetadataVectors mdV1 mdV2 = true ↔
      AgreesWithFirst Prod.fst (mdV1.map itemView) (mdV2.map itemView) := by
  unfold equalMetadataVectors AgreesWithFirst
  rw [List.all_eq_true, List.forall_mem_map]
  refine forall₂_congr fun md1 hmd1 => ?_
  have hfind : (mdV2.map itemView).find? (fun b => (itemView md1).1 = b.1) =
      (mdV2.find? fun md2 => matchMetadata md1 md2).map itemView := by
    rw [List.find?_map]
    rfl
  rw [hfind]
  cases hfound : mdV2.find? fun md2 => matchMetadata md1 md2 with
  | none => simp
  | some md2 =>
    have hname : getStringFieldF md1 "name" = getStringFieldF md2 "name" := by
      simpa [matchMetadata] using List.find?_some hfound
    simp only [Option.map_some, Option.some.injEq, forall_eq']
    rw [equalMetadataValues_iff (h1 md1 hmd1) (h2 md2 (List.mem_of_find?_eq_some hfound)), itemView, itemView, hname]
    simp

/-- The stored metadata, each with its name, type and value. -/
def storedViews (o : BSONObj) : List (String × String × Option BSONValue) := (storedMetadata o).map Metadata.view

theorem StoredForm.storedViews_eq {o : BSONObj} (h : StoredForm o) :
    storedViews o = ((arrayItems o "md").map embeddedObject).map itemView := by
  rw [storedViews, storedMetadata, List.map_map, List.map_map]
  refine List.map_congr_left fun v hv => ?_
  exact view_ofBson (h.items v hv)

section Views

variable (apiVersion : ApiVersion) (o : BSONObj) (ca : ContextAttribute)

/-- The custom metadata of the request; in v2 those without a type have the default one. -/
def requestViews : List (String × String × Option BSONValue) :=
  (customOf ca).map fun md => (md.name, md.effectiveType (apiVersion = .v2), md.valueBson)

/-- The stored metadata whose name is not in the request. -/
def keptViews : List (String × String × Option BSONValue) := (keptOf o ca).map Metadata.view

/-- The kept metadata as they are written. -/
def rewrittenViews : List (String × String × Option BSONValue) :=
  (keptOf o ca).map fun md => (md.name, md.effectiveType (apiVersion = .v2), md.valueBson)

variable {apiVersion o ca}

theorem itemView_metadataItem {md : Metadata} (h : md.valueBson.isSome = true) (useDefaultType : Bool) :
    itemView (metadataItem md useDefaultType) = (md.name, md.effectiveType useDefaultType, md.valueBson) := by
  obtain ⟨hname, htype, hvalue⟩ := fields_metadataItem md useDefaultType
  obtain ⟨w, hw⟩ := Option.isSome_iff_exists.1 h
  rw [itemView, hname, htype, hvalue, hw]
  rfl

theorem itemViews_mergedMetadata (ho : StoredForm o) (hca : Requested ca) :
    ((mergedMetadata o ca apiVersion).map embeddedObject).map itemView =
      requestViews apiVersion ca ++ rewrittenViews apiVersion o ca := by
  rw [mergedMetadata_eq hca.customValues ho.values, List.map_map, List.map_map, requestViews, rewrittenViews,
    ← List.map_append]
  refine List.map_congr_left fun md hmd => itemView_metadataItem ?_ _
  rcases List.mem_append.1 hmd with hmd | hmd
  · obtain ⟨w, hw, -⟩ := hca.metadata md (List.mem_filter.1 hmd).1
    rw [hw]
    rfl
  · exact ho.values md (List.mem_filter.1 hmd).1

theorem storedViews_mergeAttrInfo (now : Int) (ho : StoredForm o) (hca : Requested ca) :
    storedViews (mergeAttrInfo now o ca apiVersion).1 = requestViews apiVersion ca ++ rewrittenViews apiVersion o ca := by
  rw [(storedForm_mergeAttrInfo now apiVersion ho hca).storedViews_eq, arrayItems_mergeAttrInfo now hca.customValues ho.values,
    ← mergedMetadata_eq hca.customValues ho.values, itemViews_mergedMetadata ho hca]

theorem eq_iff_of_ne_nan {a b : Double} (h : a ≠ .nan) : a.eq b = true ↔ a = b := by
  refine ⟨Double.eq_of_eq, ?_⟩
  rintro rfl
  cases a with
  | nan => exact absurd rfl h
  | _ => simp [Double.eq]

theorem attrValueChanges_iff (ho : StoredForm o) (hca : Requested ca) (hsimple : ca.compoundValueP = none) :
    attrValueChanges o ca apiVersion = true ↔
      (if attributeValueAbsent ca apiVersion then o.lookup "value" else ca.valueBson.lookup "value") ≠ o.lookup "value" := by
  obtain ⟨w, hw, hform⟩ := ho.value
  obtain ⟨u, hu, huform⟩ := hca.value
  have hvalue : ca.valueBson = ca.bsonAppendAttrValue := by simp [ContextAttribute.valueBson, hsimple]
  by_cases habs : attributeValueAbsent ca apiVersion = true
  · have hnone : ca.valueType = .none ∧ apiVersion ≠ .v2 := by
      simp only [attributeValueAbsent, Bool.and_eq_true, decide_eq_true_eq] at habs
      exact ⟨habs.1, by rw [habs.2]; decide⟩
    rw [if_pos habs, attrValueChanges, hw]
    simp [hnone]
  · have hgiven : ¬(ca.valueType = .none ∧ apiVersion ≠ .v2) := by
      rintro ⟨htype, hversion⟩
      cases apiVersion with
      | v1 => exact habs (by simp [attributeValueAbsent, htype])
      | v2 => exact hversion rfl
    rw [if_neg habs, attrValueChanges, hw]
    simp only [if_neg hgiven]
    rw [hvalue] at hu ⊢
    unfold ContextAttribute.bsonAppendAttrValue at hu ⊢
    cases htype : ca.valueType with
    | number =>
      rw [htype] at hu
      cases hu
      have hnan : ca.numberValue ≠ .nan := huform
      cases w with
      | double d => simp [← eq_iff_of_ne_nan hnan]
      | _ => first | exact hform.elim | simp
    | string | boolean | none =>
      rw [htype] at hu
      cases hu
      cases w <;> first | exact hform.elim | simp
    | object | vector | unknown =>
      rw [htype] at hu
      cases hu

/-- When the code takes the request for no change. -/
theorem actualUpdate_eq_false_iff (now : Int) (ho : StoredForm o) (hca : Requested ca)
    (hsimple : ca.compoundValueP = none) :
    actualUpdate o ca apiVersion = false ↔
      (mergeAttrInfo now o ca apiVersion).1.lookup "value" = o.lookup "value" ∧
      (mergeAttrInfo now o ca apiVersion).1.lookup "type" = o.lookup "type" ∧
      (requestViews apiVersion ca ++ rewrittenViews apiVersion o ca).length = (storedViews o).length ∧
      AgreesWithFirst Prod.fst (storedViews o) (requestViews apiVersion ca ++ rewrittenViews apiVersion o ca) := by
  have hvalue := @attrValueChanges_iff apiVersion o ca ho hca hsimple
  have hitems : ∀ item ∈ (arrayItems o "md").map embeddedObject, ItemForm item :=
    List.forall_mem_map.2 ho.items
  have hmerged : ∀ item ∈ (mergedMetadata o ca apiVersion).map embeddedObject, ItemForm item := by
    have hform := (storedForm_mergeAttrInfo now apiVersion ho hca).items
    rw [arrayItems_mergeAttrInfo now hca.customValues ho.values, ← mergedMetadata_eq hca.customValues ho.values] at hform
    exact List.forall_mem_map.2 hform
  have hvectors := equalMetadataVectors_iff hitems hmerged
  rw [← ho.storedViews_eq, itemViews_mergedMetadata ho hca] at hvectors
  have hlength : (mergedMetadata o ca apiVersion).length =
      (requestViews apiVersion ca ++ rewrittenViews apiVersion o ca).length := by
    rw [← itemViews_mergedMetadata ho hca, List.length_map, List.length_map]
  have hstored : (arrayItems o "md").length = (storedViews o).length := by simp [storedViews, storedMetadata]
  have htype : (ca.type ≠ "" && (!hasField o "type" || getStringFieldF o "type" ≠ ca.type)) = true ↔
      (mergeAttrInfo now o ca apiVersion).1.lookup "type" ≠ o.lookup "type" := by
    obtain ⟨t, ht⟩ := ho.type
    rw [type_mergeAttrInfo now apiVersion ho]
    by_cases hempty : ca.type = ""
    · simp [hempty]
    · have hfield : getStringFieldF o "type" = t := by simp [getStringFieldF, ht]
      rw [if_pos hempty, ht, hfield]
      simp [hempty, hasField, ht, ne_comm]
  rw [← value_mergeAttrInfo now apiVersion ho] at hvalue
  have hvalue' := Bool.eq_false_iff.trans (not_congr hvalue)
  have htype' := Bool.eq_false_iff.trans (not_congr htype)
  rw [not_not] at hvalue' htype'
  unfold actualUpdate
  rw [hsimple, Option.isSome_none, if_neg Bool.false_ne_true, Bool.or_eq_false_iff, Bool.or_eq_false_iff,
    Bool.or_eq_false_iff, hvalue', htype', Bool.not_eq_false', hvectors, hlength, hstored, and_assoc, and_assoc]
  simp only [ne_eq, decide_eq_false_iff_not, not_not]

theorem effectiveType_ofBson (mdB : BSONObj) (useDefaultType : Bool) :
    (Metadata.ofBson mdB).effectiveType useDefaultType =
      if getStringFieldF mdB "type" = "" && useDefaultType then DEFAULT_TYPE else getStringFieldF mdB "type" := by
  obtain ⟨-, htype, hgiven⟩ := fields_ofBson mdB
  rw [Metadata.effectiveType, htype, hgiven]
  by_cases h : getStringFieldF mdB "type" = "" <;> simp [h]

/-- A metadata that was written has its type when it is written again. -/
theorem effectiveType_readBack {s : Metadata} (hs : s ∈ storedMetadata o) {useDefaultType : Bool} :
    (readBack useDefaultType s).effectiveType useDefaultType = s.effectiveType useDefaultType := by
  obtain ⟨v, -, rfl⟩ := List.mem_map.1 hs
  have hdefault : DEFAULT_TYPE ≠ "" := by decide
  rw [readBack, effectiveType_ofBson, (fields_metadataItem _ _).2.1, effectiveType_ofBson]
  by_cases h : getStringFieldF (embeddedObject v) "type" = "" <;> cases useDefaultType <;> simp [h, hdefault]

theorem effectiveType_of_stored {s : Metadata} (hs : s ∈ storedMetadata o) {useDefaultType : Bool} :
    s.effectiveType useDefaultType = if s.type = "" && useDefaultType then DEFAULT_TYPE else s.type := by
  obtain ⟨v, -, rfl⟩ := List.mem_map.1 hs
  rw [effectiveType_ofBson, (fields_ofBson _).2.1]

/-- The metadata that the request does not have are written as they were, if they have a type or none is written. -/
theorem rewrittenViews_eq (h : apiVersion = .v2 → ∀ s ∈ storedMetadata o, hasMetadata s.name ca = false → s.type ≠ "") :
    rewrittenViews apiVersion o ca = keptViews o ca := by
  refine List.map_congr_left fun s hs => ?_
  obtain ⟨hmem, hname⟩ := List.mem_filter.1 hs
  have htype := (effectiveType_stored hmem).2 fun hv => h hv s hmem (by simpa using hname)
  rw [← htype]
  rfl

theorem typed_of_perm (h : (rewrittenViews apiVersion o ca).Perm (keptViews o ca)) :
    apiVersion = .v2 → ∀ s ∈ storedMetadata o, hasMetadata s.name ca = false → s.type ≠ "" := by
  intro hv s hs hname hempty
  have hkept : s.view ∈ keptViews o ca := List.mem_map_of_mem (List.mem_filter.2 ⟨hs, by simp [hname]⟩)
  obtain ⟨s', hs', hview⟩ := List.mem_map.1 (h.mem_iff.2 hkept)
  have htype : s'.effectiveType (apiVersion = .v2) = "" := (congrArg (·.2.1) hview).trans hempty
  have hmem' := (List.mem_filter.1 hs').1
  -- without a type it would have been written with the default one
  have hgiven := @effectiveType_of_stored o s' hmem' (apiVersion = .v2)
  rw [htype] at hgiven
  by_cases hnone : s'.type = ""
  · rw [if_pos (by simp [hnone, hv])] at hgiven
    exact absurd hgiven (by decide)
  · simp [hnone] at hgiven

/-- A second merge writes the same metadata. -/
theorem rewrittenViews_mergeAttrInfo (now : Int) (ho : StoredForm o) (hca : Requested ca) :
    rewrittenViews apiVersion (mergeAttrInfo now o ca apiVersion).1 ca = rewrittenViews apiVersion o ca := by
  have hcustom : ∀ md ∈ customOf ca, hasMetadata (readBack (apiVersion = .v2) md).name ca = true := by
    intro md hmd
    rw [readBack_name]
    exact List.any_eq_true.2 ⟨md, (List.mem_filter.1 hmd).1, by simp⟩
  have hkept : ∀ s ∈ keptOf o ca, hasMetadata (readBack (apiVersion = .v2) s).name ca = false := by
    intro s hs
    rw [readBack_name]
    simpa using (List.mem_filter.1 hs).2
  have hfirst : ((customOf ca).map (readBack (apiVersion = .v2))).filter (fun s => !hasMetadata s.name ca) = [] := by
    rw [List.filter_eq_nil_iff, List.forall_mem_map]
    intro md hmd
    simp [hcustom md hmd]
  have hlast : ((keptOf o ca).map (readBack (apiVersion = .v2))).filter (fun s => !hasMetadata s.name ca) =
      (keptOf o ca).map (readBack (apiVersion = .v2)) := by
    rw [List.filter_eq_self, List.forall_mem_map]
    intro s hs
    simp [hkept s hs]
  rw [rewrittenViews, rewrittenViews, keptOf, storedMetadata_mergeAttrInfo now hca.customValues ho.values, List.map_append,
    List.filter_append, hfirst, hlast, List.nil_append, List.map_map]
  refine List.map_congr_left fun s hs => ?_
  have hmem := (List.mem_filter.1 hs).1
  have hview := view_readBack (ho.values s hmem) (apiVersion = .v2)
  simp only [Metadata.view, Prod.mk.injEq] at hview
  rw [Function.comp_apply, hview.1, hview.2.2, effectiveType_readBack hmem]

/-- A stored metadata has the name of one that is wanted. -/
theorem stored_wanted (ho : StoredForm o) {a : String × String × Option BSONValue} (ha : a ∈ storedViews o) :
    ∃ b ∈ requestViews apiVersion ca ++ keptViews o ca, a.1 = b.1 := by
  obtain ⟨s, hs, rfl⟩ := List.mem_map.1 ha
  by_cases hname : hasMetadata s.name ca = true
  · obtain ⟨md, hmd, hsame⟩ := List.any_eq_true.1 hname
    have hsame : md.name = s.name := by simpa using hsame
    obtain ⟨v, hv, rfl⟩ := List.mem_map.1 hs
    have hcustom := (ho.items v hv).custom
    rw [← (fields_ofBson _).1, ← hsame] at hcustom
    refine ⟨_, List.mem_append_left _ (List.mem_map_of_mem (List.mem_filter.2 ⟨hmd, by simp [hcustom]⟩)), hsame.symm⟩
  · exact ⟨s.view, List.mem_append_right _ (List.mem_map_of_mem (List.mem_filter.2 ⟨hs, by simpa using hname⟩)), rfl⟩

end Views

/-! ### What a merge decides -/

/-- The value, the type and the metadata of two stored attributes are the same. -/
structure SameStoredContent (o o' : BSONObj) : Prop where
  value : o.lookup "value" = o'.lookup "value"
  type : o.lookup "type" = o'.lookup "type"
  metadata : (storedViews o).Perm (storedViews o')

/-- What a merge should do. -/
structure MergeExact (now : Int) (apiVersion : ApiVersion) (o : BSONObj) (ca : ContextAttribute) : Prop where
  changed : (mergeAttrInfo now o ca apiVersion).2 = true ↔ ¬SameStoredContent (mergeAttrInfo now o ca apiVersion).1 o
  metadata : (storedViews (mergeAttrInfo now o ca apiVersion).1).Perm (requestViews apiVersion ca ++ keptViews o ca)
  creDate : (mergeAttrInfo now o ca apiVersion).1.lookup "creDate" = o.lookup "creDate"
  modDate : (mergeAttrInfo now o ca apiVersion).2 = false →
    (mergeAttrInfo now o ca apiVersion).1.lookup "modDate" = o.lookup "modDate"
  again : ∀ later, (mergeAttrInfo later (mergeAttrInfo now o ca apiVersion).1 ca apiVersion).2 = false

/-- The request has the stored value and the stored type, or none. -/
structure KeepsContent (apiVersion : ApiVersion) (o : BSONObj) (ca : ContextAttribute) : Prop where
  value : attributeValueAbsent ca apiVersion = true ∨ ca.valueBson.lookup "value" = o.lookup "value"
  type : ca.type = "" ∨ o.lookup "type" = some (.string ca.type)

/-- When a merge does what it should: in v2 no stored metadata without a type is written again, no two metadata that are
wanted differ in the type or the value only, and those that are as the stored ones are as many of each name. -/
structure Mergeable (apiVersion : ApiVersion) (o : BSONObj) (ca : ContextAttribute) : Prop where
  typed : apiVersion = .v2 → ∀ s ∈ storedMetadata o, hasMetadata s.name ca = false → s.type ≠ ""
  consistent : Consistent Prod.fst (requestViews apiVersion ca ++ keptViews o ca)
  counted : KeepsContent apiVersion o ca →
    (requestViews apiVersion ca ++ keptViews o ca).length = (storedViews o).length →
    (∀ a ∈ storedViews o, ∀ b ∈ requestViews apiVersion ca ++ keptViews o ca, a.1 = b.1 → a = b) →
    ∀ n, (requestViews apiVersion ca ++ keptViews o ca).countP (fun a => a.1 = n) =
      (storedViews o).countP (fun a => a.1 = n)

section Exact

variable {apiVersion : ApiVersion} {o : BSONObj} {ca : ContextAttribute} (now : Int)

theorem keepsContent_iff (ho : StoredForm o) :
    KeepsContent apiVersion o ca ↔ (mergeAttrInfo now o ca apiVersion).1.lookup "value" = o.lookup "value" ∧
      (mergeAttrInfo now o ca apiVersion).1.lookup "type" = o.lookup "type" := by
  rw [value_mergeAttrInfo now apiVersion ho, type_mergeAttrInfo now apiVersion ho]
  have hvalue : (if attributeValueAbsent ca apiVersion then o.lookup "value" else ca.valueBson.lookup "value") =
      o.lookup "value" ↔ attributeValueAbsent ca apiVersion = true ∨ ca.valueBson.lookup "value" = o.lookup "value" := by
    by_cases h : attributeValueAbsent ca apiVersion = true <;> simp [h]
  have htype : (if ca.type ≠ "" then some (BSONValue.string ca.type) else o.lookup "type") = o.lookup "type" ↔
      ca.type = "" ∨ o.lookup "type" = some (.string ca.type) := by
    by_cases h : ca.type = ""
    · simp [h]
    · rw [if_pos h]
      exact ⟨fun h' => .inr h'.symm, fun h' => (h'.resolve_left h).symm⟩
  rw [hvalue, htype]
  exact ⟨fun h => ⟨h.value, h.type⟩, fun h => ⟨h.1, h.2⟩⟩

/-- An attribute without metadata is merged again. -/
def temperature : ContextAttribute :=
  { name := "temperature", type := "T", typeGiven := true, valueType := .number, numberValue := .fin 21 }

theorem requested_temperature : Requested temperature :=
  ⟨⟨.double (.fin 21), rfl, by simp [AttributeValue, ScalarValue]⟩, by simp [temperature]⟩

end Exact

end OrionBroker
