import OrionBroker.KeyedList
import OrionBroker.Reflected

/-!
# An attribute in the notification and in the document

The notified entity is not read back from the database.  It is the entity before the update, with the attributes of
the request merged into it a second time, by `updateAttrInNotifyCer`.  Here the two merges of one attribute are compared:
`shows_new`, `shows_merged` and `shows_replacedAttribute` say exactly when the notified attribute has the type, the value
and the custom metadata that are stored.
-/

namespace OrionBroker

open Bson

/-! ### What a receiver sees -/

/-- The JSON value of an attribute. -/
def ContextAttribute.json (ca : ContextAttribute) : Option BSONValue :=
  match ca.compoundValueP with
  | some t => some t.denote
  | none => ca.bsonAppendAttrValue.lookup "value"

def Metadata.view (md : Metadata) : String × String × Option BSONValue := (md.name, md.type, md.valueBson)

/-- The custom metadata of a list, each with its name, type and value. -/
def customViews (mds : List Metadata) : List (String × String × Option BSONValue) :=
  (mds.filter fun md => !isNotCustomMetadata md.name).map Metadata.view

/-- The same name, type, value and custom metadata. -/
structure SameAttribute (a b : ContextAttribute) : Prop where
  name : a.name = b.name
  type : a.type = b.type
  value : a.json = b.json
  metadata : ∀ m, m ∈ customViews a.metadataVector ↔ m ∈ customViews b.metadataVector

/-- The JSON value of a stored one; a missing value is read as the empty string. -/
def storedJson (v : Option BSONValue) : Option BSONValue := (attributeOfBson "" "" v).json

theorem json_attributeOfBson (name type : String) (v : Option BSONValue) :
    (attributeOfBson name type v).json = storedJson v := by
  rcases v with _ | v
  · rfl
  · cases v <;> rfl

/-- The metadata that are read from a stored attribute. -/
def storedMetadata (o : BSONObj) : List Metadata :=
  (arrayItems o "md").map fun v => Metadata.ofBson (embeddedObject v)

/-- A notified attribute has the type, the value and the custom metadata of a stored one. -/
structure Shows (a : ContextAttribute) (o : BSONObj) : Prop where
  type : a.type = getStringFieldF o "type"
  value : a.json = storedJson (o.lookup "value")
  metadata : ∀ m, m ∈ customViews a.metadataVector ↔ m ∈ customViews (storedMetadata o)

theorem customViews_append (l l' : List Metadata) : customViews (l ++ l') = customViews l ++ customViews l' := by
  simp [customViews]

section Read

variable {locAttr : String} {attrs : BSONObj} {k : String} {w : BSONValue}

variable (locAttr) in
/-- The metadata of an attribute without ID that is read from the database. -/
theorem metadata_notifyAttribute (hid : idPart k = "") (h : attrs.lookup k = some w) :
    ∃ loc : List Metadata, (∀ md ∈ loc, md.name = NGSI_MD_LOCATION) ∧ loc.length ≤ 1 ∧
      (notifyAttribute locAttr attrs k).metadataVector = loc ++ storedMetadata (embeddedObject w) := by
  unfold notifyAttribute
  simp only [h, Option.getD_some, hid, ne_eq, not_true, if_false, List.nil_append]
  refine ⟨_, ?_, ?_, rfl⟩
  · intro md hmd
    split at hmd
    · rw [List.mem_singleton.1 hmd]
    · cases hmd
  · split <;> simp

variable (locAttr) in
/-- An attribute that is read from the database shows what is stored. -/
theorem shows_notifyAttribute (hid : idPart k = "") (h : attrs.lookup k = some w) :
    Shows (notifyAttribute locAttr attrs k) (embeddedObject w) := by
  refine ⟨?_, ?_, fun m => ?_⟩
  · unfold notifyAttribute
    simp only [h, Option.getD_some]
    exact (fields_attributeOfBson _ _ _).2.1
  · rw [← json_attributeOfBson (dbDotDecode (basePart k)) (getStringFieldF (embeddedObject w) "type")]
    unfold notifyAttribute
    simp only [h, Option.getD_some]
    rfl
  · obtain ⟨loc, hloc, -, heq⟩ := metadata_notifyAttribute locAttr hid h
    have hnil : customViews loc = [] := by
      unfold customViews
      rw [List.map_eq_nil_iff, List.filter_eq_nil_iff]
      intro md hmd
      rw [hloc md hmd]
      decide
    rw [heq, customViews_append, hnil, List.nil_append]

variable (locAttr) in
/-- Comparing with an attribute that is read from the database is comparing with what is stored. -/
theorem sameAttribute_notifyAttribute (hid : idPart k = "") (h : attrs.lookup k = some w) {a : ContextAttribute}
    (hname : a.name = dbDotDecode (basePart k)) :
    SameAttribute a (notifyAttribute locAttr attrs k) ↔ Shows a (embeddedObject w) := by
  have hs := shows_notifyAttribute locAttr hid h
  constructor
  · intro ha
    exact ⟨ha.type.trans hs.type, ha.value.trans hs.value, fun m => (ha.metadata m).trans (hs.metadata m)⟩
  · intro ha
    exact ⟨hname.trans (name_notifyAttribute ..).symm, ha.type.trans hs.type.symm, ha.value.trans hs.value.symm,
      fun m => (ha.metadata m).trans (hs.metadata m).symm⟩

end Read

/-! ### Values -/

/-- No member name of a compound value would lose an `=`. -/
def KeepsMembers (ca : ContextAttribute) : Prop :=
  ∀ t, ca.compoundValueP = some t → ∀ n ∈ t.memberNames, '=' ∉ n.toList

/-- The value of a request is read back exactly if the member names are kept. -/
theorem storedJson_valueBson {ca : ContextAttribute} (hv : ca.valueBson ≠ []) :
    ca.json = storedJson (ca.valueBson.lookup "value") ↔ KeepsMembers ca := by
  unfold KeepsMembers ContextAttribute.json
  rcases hc : ca.compoundValueP with _ | t
  · have hvalue : ca.valueBson = ca.bsonAppendAttrValue := by simp [ContextAttribute.valueBson, hc]
    rw [hvalue] at hv ⊢
    refine iff_of_true ?_ (by simp)
    unfold ContextAttribute.bsonAppendAttrValue at hv ⊢
    rcases hvt : ca.valueType <;> simp only [hvt] at hv ⊢
    all_goals first
      | exact absurd rfl hv
      | rfl
  · have hvalue : ca.valueBson = [("value", childBson t)] := by simp [ContextAttribute.valueBson, hc]
    have hread : storedJson (some (childBson t)) =
        (addCompoundNode "toplevel" (childBson t)).map CompoundValueNode.denote := by
      cases t <;> rfl
    rw [hvalue]
    simp only [lookup_cons_eq, if_true, hread, Option.some.injEq, forall_eq']
    rw [← denote_roundtrip_iff "toplevel" t]
    constructor
    · intro h
      obtain ⟨t', ht', hd⟩ := Option.map_eq_some_iff.1 h.symm
      exact ⟨t', ht', hd⟩
    · intro h
      obtain ⟨t', ht', hd⟩ := h
      rw [ht', Option.map_some, hd]

theorem storedJson_eq_null {v : Option BSONValue} : storedJson v = some .null ↔ v = some .null := by
  rcases v with _ | v
  · simp [storedJson, attributeOfBson, ContextAttribute.json, ContextAttribute.ofString,
      ContextAttribute.bsonAppendAttrValue]
  · cases v <;> simp [storedJson, attributeOfBson, ContextAttribute.json, ContextAttribute.ofString,
      ContextAttribute.bsonAppendAttrValue, CompoundValueNode.denote]

theorem storedJson_getD (v : Option BSONValue) : storedJson (some (v.getD (.string ""))) = storedJson v := by
  cases v <;> rfl

/-! ### Metadata -/

namespace Metadata

/-- The type under which a metadata is written. -/
def effectiveType (md : Metadata) (useDefaultType : Bool) : String :=
  if !md.typeGiven && useDefaultType then DEFAULT_TYPE else md.type

/-- The type of a metadata without one is empty, or the default one in v2. -/
def TypeParsed (apiVersion : ApiVersion) (md : Metadata) : Prop :=
  apiVersion = .v2 → md.typeGiven = false → md.type = "" ∨ md.type = DEFAULT_TYPE

end Metadata

/-- The metadata of an accepted attribute: no two have the same name, and a custom one has a value. -/
structure PlainMetadata (apiVersion : ApiVersion) (mds : List Metadata) : Prop where
  nodup : (mds.map Metadata.name).Nodup
  value : ∀ md ∈ mds, isNotCustomMetadata md.name = false → md.valueBson.isSome = true
  type : ∀ md ∈ mds, md.TypeParsed apiVersion

/-- A stored attribute as the broker writes it: numbers are doubles, and the metadata are custom, have values, and no
two have the same name. -/
structure PlainStored (o : BSONObj) : Prop where
  number : ∀ n, o.lookup "value" ≠ some (.int n)
  nodup : ((storedMetadata o).map Metadata.name).Nodup
  custom : ∀ md ∈ storedMetadata o, isNotCustomMetadata md.name = false
  value : ∀ md ∈ storedMetadata o, md.valueBson.isSome = true

/-- The item that is written for a metadata with a value. -/
def metadataItem (md : Metadata) (useDefaultType : Bool) : BSONObj :=
  ("name", .string md.name) ::
    ((if md.effectiveType useDefaultType ≠ "" then [("type", .string (md.effectiveType useDefaultType))] else []) ++
      [("value", md.valueBson.getD .null)])

theorem appendMetadata_eq {md : Metadata} (h : md.valueBson.isSome = true) (useDefaultType : Bool) :
    appendMetadata md useDefaultType = [.object (metadataItem md useDefaultType)] := by
  obtain ⟨v, hv⟩ := Option.isSome_iff_exists.1 h
  unfold appendMetadata metadataItem
  simp only [hv, Option.getD_some]
  change (if md.effectiveType useDefaultType ≠ "" then _ else _) = _
  by_cases ht : md.effectiveType useDefaultType = ""
  · rw [if_neg (not_not.2 ht), if_neg (not_not.2 ht)]
    rfl
  · rw [if_pos ht, if_pos ht]
    rfl

/-- The metadata that is read back from the item. -/
def readBack (useDefaultType : Bool) (md : Metadata) : Metadata := Metadata.ofBson (metadataItem md useDefaultType)

theorem fields_metadataItem (md : Metadata) (useDefaultType : Bool) :
    getStringFieldF (metadataItem md useDefaultType) "name" = md.name ∧
      getStringFieldF (metadataItem md useDefaultType) "type" = md.effectiveType useDefaultType ∧
      (metadataItem md useDefaultType).lookup "value" = some (md.valueBson.getD .null) := by
  unfold getStringFieldF metadataItem
  by_cases ht : md.effectiveType useDefaultType = "" <;> simp [ht, lookup_cons_eq]

theorem fields_ofBson (mdB : BSONObj) :
    (Metadata.ofBson mdB).name = getStringFieldF mdB "name" ∧ (Metadata.ofBson mdB).type = getStringFieldF mdB "type" ∧
      (Metadata.ofBson mdB).typeGiven = decide (getStringFieldF mdB "type" ≠ "") := by
  unfold Metadata.ofBson
  rcases mdB.lookup "value" with _ | v
  · exact ⟨rfl, rfl, rfl⟩
  · cases v <;> exact ⟨rfl, rfl, rfl⟩

theorem readBack_name (useDefaultType : Bool) (md : Metadata) : (readBack useDefaultType md).name = md.name :=
  (fields_ofBson _).1.trans (fields_metadataItem md useDefaultType).1

/-- The value of a metadata is read back from a field that has it. -/
theorem valueBson_ofBson {md : Metadata} (h : md.valueBson.isSome = true) {mdB : BSONObj}
    (hv : mdB.lookup "value" = some (md.valueBson.getD .null)) : (Metadata.ofBson mdB).valueBson = md.valueBson := by
  unfold Metadata.ofBson
  rw [hv]
  unfold Metadata.valueBson at h ⊢
  rcases hvt : md.valueType <;> simp_all

theorem view_readBack {md : Metadata} (h : md.valueBson.isSome = true) (useDefaultType : Bool) :
    (readBack useDefaultType md).view = (md.name, md.effectiveType useDefaultType, md.valueBson) := by
  obtain ⟨-, ht, hv⟩ := fields_metadataItem md useDefaultType
  unfold Metadata.view
  rw [readBack_name, readBack, valueBson_ofBson h hv, (fields_ofBson _).2.1, ht]

/-- Custom metadata of two lists are compared name by name. -/
theorem customViews_iff {mds mds' : List Metadata} (h : (mds.map Metadata.name).Nodup)
    (h' : (mds'.map Metadata.name).Nodup) :
    (∀ m, m ∈ customViews mds ↔ m ∈ customViews mds') ↔
      ∀ n, isNotCustomMetadata n = false →
        (KeyedList.get Metadata.name n mds).map Metadata.view = (KeyedList.get Metadata.name n mds').map Metadata.view := by
  have hinj : ∀ {l : List Metadata}, (l.map Metadata.name).Nodup →
      ∀ a ∈ l.filter (fun md => !isNotCustomMetadata md.name), ∀ b ∈ l.filter (fun md => !isNotCustomMetadata md.name),
        a.name = b.name → a = b :=
    fun hl _ ha _ hb => List.inj_on_of_nodup_map hl (List.mem_filter.1 ha).1 (List.mem_filter.1 hb).1
  have hcustom : ∀ {l : List Metadata}, ∀ a ∈ l.filter (fun md => !isNotCustomMetadata md.name),
      isNotCustomMetadata a.name = false :=
    fun a ha => by simpa using (List.mem_filter.1 ha).2
  have hget : ∀ {l : List Metadata} {n : String}, isNotCustomMetadata n = false →
      KeyedList.get Metadata.name n (l.filter fun md => !isNotCustomMetadata md.name) =
        KeyedList.get Metadata.name n l := by
    intro l n hn
    rw [KeyedList.get_filter (b := true) fun md _ hk => by rw [hk, hn]; rfl]
    rfl
  unfold customViews
  rw [KeyedList.mem_map_iff_matched, KeyedList.matched_iff Metadata.name Metadata.name
    (p := fun n => isNotCustomMetadata n = false) (fun a b he => congrArg Prod.fst he) (hinj h) (hinj h') hcustom hcustom]
  refine forall_congr' fun n => imp_congr_right fun hn => ?_
  rw [hget hn, hget hn, KeyedList.rel_iff_map_eq]

/-! ### The notified metadata -/

section Metadata

variable {o : BSONObj} {ca y : ContextAttribute} {apiVersion : ApiVersion}

/-- A notified metadata with the value of the request, and with its type if there is one. -/
def changedMetadata (targetMd md : Metadata) : Metadata :=
  { md with
    valueType := targetMd.valueType, stringValue := targetMd.stringValue, boolValue := targetMd.boolValue
    numberValue := targetMd.numberValue, type := if targetMd.type ≠ "" then targetMd.type else md.type }

theorem updateNotifyMetadata_eq (targetMd : Metadata) (useDefaultType : Bool) (mds : List Metadata) :
    updateNotifyMetadata targetMd useDefaultType mds =
      KeyedList.upsert Metadata.name targetMd.name (changedMetadata targetMd) (targetMd.copy useDefaultType) mds := by
  induction mds with
  | nil => rfl
  | cons md mds ih =>
    unfold updateNotifyMetadata KeyedList.upsert
    rw [ih]
    rfl

private theorem copy_name (md : Metadata) (useDefaultType : Bool) : (md.copy useDefaultType).name = md.name := by
  unfold Metadata.copy
  split <;> rfl

theorem view_copy (md : Metadata) (useDefaultType : Bool) :
    (md.copy useDefaultType).view = (md.name, md.effectiveType useDefaultType, md.valueBson) := by
  unfold Metadata.copy Metadata.effectiveType Metadata.view
  rw [Bool.and_comm]
  split <;> rfl

/-- The notified metadata of an attribute that exists, read as a function of the name. -/
theorem get_updateNotifyAttribute (hca : (ca.metadataVector.map Metadata.name).Nodup) (useDefaultType : Bool) (n : String) :
    KeyedList.get Metadata.name n (updateNotifyAttribute ca useDefaultType y).metadataVector =
      ((KeyedList.get Metadata.name n ca.metadataVector).map fun md =>
        (KeyedList.get Metadata.name n y.metadataVector).elim (md.copy useDefaultType) (changedMetadata md)).or
        (KeyedList.get Metadata.name n y.metadataVector) := by
  have h := KeyedList.get_foldl_upsert changedMetadata (fun _ _ => rfl)
    (fun md => copy_name md useDefaultType) hca n y.metadataVector
  simpa only [updateNotifyAttribute, updateNotifyMetadata_eq] using h

theorem nodup_updateNotifyAttribute (hy : (y.metadataVector.map Metadata.name).Nodup) (useDefaultType : Bool) :
    ((updateNotifyAttribute ca useDefaultType y).metadataVector.map Metadata.name).Nodup := by
  have h := KeyedList.nodup_foldl_upsert changedMetadata (fun _ _ => rfl)
    (fun md => copy_name md useDefaultType) hy ca.metadataVector
  simpa only [updateNotifyAttribute, updateNotifyMetadata_eq] using h

/-- Every stored metadata agrees with the metadata of its name in the request: a type that is not given is the stored
one.  For those that the request does not mention, a condition of its own has to hold. -/
def MetadataAgrees (apiVersion : ApiVersion) (o : BSONObj) (ca : ContextAttribute) (kept : Metadata → Prop) : Prop :=
  ∀ s ∈ storedMetadata o,
    match KeyedList.get Metadata.name s.name ca.metadataVector with
    | some md => md.type = "" → s.type = md.effectiveType (apiVersion = .v2)
    | none => kept s

/-- The metadata of a notified attribute before the update: those that are stored, and perhaps the location. -/
structure ReadFrom (y : ContextAttribute) (o : BSONObj) : Prop where
  nodup : (y.metadataVector.map Metadata.name).Nodup
  metadata : ∀ n, isNotCustomMetadata n = false →
    KeyedList.get Metadata.name n y.metadataVector = KeyedList.get Metadata.name n (storedMetadata o)
  type : y.type = getStringFieldF o "type"
  value : y.json = storedJson (o.lookup "value")

theorem readFrom_notifyAttribute {locAttr k : String} {attrs : BSONObj} {w : BSONValue} (hid : idPart k = "")
    (h : attrs.lookup k = some w) (hst : PlainStored (embeddedObject w)) :
    ReadFrom (notifyAttribute locAttr attrs k) (embeddedObject w) := by
  have hs := shows_notifyAttribute locAttr hid h
  obtain ⟨loc, hloc, hlen, heq⟩ := metadata_notifyAttribute locAttr hid h
  have hcustom : isNotCustomMetadata NGSI_MD_LOCATION = true := by decide
  refine ⟨?_, fun n hn => ?_, hs.type, hs.value⟩
  · rw [heq, List.map_append, List.nodup_append]
    refine ⟨?_, hst.nodup, ?_⟩
    · rcases loc with _ | ⟨md, _ | ⟨md', loc⟩⟩
      · exact List.nodup_nil
      · exact List.nodup_singleton _
      · simp at hlen
    · intro n hn n' hn' he
      obtain ⟨md, hmd, rfl⟩ := List.mem_map.1 hn
      obtain ⟨s, hmem, rfl⟩ := List.mem_map.1 hn'
      have hfalse := hst.custom s hmem
      rw [← he, hloc md hmd, hcustom] at hfalse
      cases hfalse
  · have hnone : KeyedList.get Metadata.name n loc = none := by
      rw [KeyedList.get_eq_none_iff]
      intro hmem
      obtain ⟨md, hmd, rfl⟩ := List.mem_map.1 hmem
      rw [hloc md hmd, hcustom] at hn
      cases hn
    rw [heq, KeyedList.get_append, hnone, Option.none_or]

private theorem effectiveType_of_given {md : Metadata} (h : md.TypeParsed apiVersion) (hne : md.type ≠ "") :
    md.effectiveType (apiVersion = .v2) = md.type := by
  unfold Metadata.effectiveType
  split
  · rename_i hdef
    simp only [Bool.and_eq_true, Bool.not_eq_true', decide_eq_true_eq] at hdef
    rcases h hdef.2 hdef.1 with h | h
    · exact absurd h hne
    · exact h.symm
  · rfl

theorem view_changed_iff {md s : Metadata} (htype : md.TypeParsed apiVersion) (hname : md.name = s.name) :
    (changedMetadata md s).view = (md.name, md.effectiveType (apiVersion = .v2), md.valueBson) ↔
      (md.type = "" → s.type = md.effectiveType (apiVersion = .v2)) := by
  have hview : (changedMetadata md s).view = (s.name, if md.type ≠ "" then md.type else s.type, md.valueBson) := rfl
  rw [hview, hname]
  by_cases ht : md.type = ""
  · simp [ht]
  · simp [ht, effectiveType_of_given htype ht]

/-- The notified metadata are those of a list that has the metadata of the request and, of the stored ones that the
request does not mention, what `kept` gives. -/
theorem customViews_notified_iff (hca : PlainMetadata apiVersion ca.metadataVector) (hst : PlainStored o)
    (hy : ReadFrom y o) {mds : List Metadata} (hmds : (mds.map Metadata.name).Nodup)
    (kept : Metadata → Option (String × String × Option BSONValue))
    (hget : ∀ n, isNotCustomMetadata n = false → (KeyedList.get Metadata.name n mds).map Metadata.view =
      match KeyedList.get Metadata.name n ca.metadataVector with
      | some md => some (md.name, md.effectiveType (apiVersion = .v2), md.valueBson)
      | none => (KeyedList.get Metadata.name n (storedMetadata o)).bind kept) :
    (∀ m, m ∈ customViews (updateNotifyAttribute ca (apiVersion = .v2) y).metadataVector ↔ m ∈ customViews mds) ↔
      MetadataAgrees apiVersion o ca fun s => some s.view = kept s := by
  rw [customViews_iff (nodup_updateNotifyAttribute hy.nodup _) hmds]
  have hstep : ∀ n, isNotCustomMetadata n = false →
      ((KeyedList.get Metadata.name n (updateNotifyAttribute ca (apiVersion = .v2) y).metadataVector).map Metadata.view =
        (KeyedList.get Metadata.name n mds).map Metadata.view ↔
      ∀ s, KeyedList.get Metadata.name n (storedMetadata o) = some s →
        match KeyedList.get Metadata.name s.name ca.metadataVector with
        | some md => md.type = "" → s.type = md.effectiveType (apiVersion = .v2)
        | none => some s.view = kept s) := by
    intro n hn
    rw [hget n hn, get_updateNotifyAttribute hca.nodup, hy.metadata n hn]
    rcases hs : KeyedList.get Metadata.name n (storedMetadata o) with _ | s
    · rcases KeyedList.get Metadata.name n ca.metadataVector with _ | md
      · simp
      · simp [view_copy]
    · have hname := (KeyedList.mem_of_get hs).2
      rcases hm : KeyedList.get Metadata.name n ca.metadataVector with _ | md
      · simp [hname, hm]
      · obtain ⟨hmem, hmn⟩ := KeyedList.mem_of_get hm
        simp [hname, hm, view_changed_iff (hca.type md hmem) (hmn.trans hname.symm)]
  constructor
  · intro h s hs
    exact (hstep s.name (hst.custom s hs)).1 (h s.name (hst.custom s hs)) s
      (KeyedList.get_of_mem (fun _ ha _ hb => List.inj_on_of_nodup_map hst.nodup ha hb) hs)
  · intro h n hn
    exact (hstep n hn).2 fun s hs => h s (KeyedList.mem_of_get hs).1

end Metadata

end OrionBroker
