import OrionBroker.NotifiedMerge
import OrionBroker.StoredForm

/-!
# Entities that are stored and read back (`createEntity`, `ContextElementResponse.cpp`)

`createEntity` writes the attributes of a request under their keys, and the location in a field of its own.  The
constructor of `ContextElementResponse` reads the name and the ID of an attribute from its key and the location metadata
from the name in the location field.  `entity_restored_iff` says for which accepted requests the attributes that are
read are those that were written.

A pair of name and ID that is not splittable comes back as a pair with a shorter name.  No other pair of the request can
make up for that in the set of all pairs (`splittable_of_pairs`), since the lengths of the names add up to the same sum.
-/

namespace OrionBroker

open Bson

/-! ### The attributes of a document -/

/-- One attribute of the entity, read from its key and its sub-document for the given version of the API. -/
def attributeOfDoc (apiVersion : ApiVersion) (locAttr : String) (attrs : BSONObj) (attrName : String) :
    ContextAttribute :=
  let attr := embeddedObject ((attrs.lookup attrName).getD .null)
  let name := dbDotDecode (basePart attrName)
  let mdId := idPart attrName
  let type := getStringFieldF attr "type"
  { attributeOfBson name type (attr.lookup "value") with
    metadataVector :=
      (if mdId ≠ "" then [{ name := NGSI_MD_ID, type := "string", stringValue := mdId }] else []) ++
        (if apiVersion = .v1 ∧ locAttr = name ∧ type ≠ GEO_POINT then
          [{ name := NGSI_MD_LOCATION, type := "string", stringValue := LOCATION_WGS84 }]
        else []) ++
        (arrayItems attr "md").map fun v => Metadata.ofBson (embeddedObject v) }

/-- The attributes of a document, with an empty attribute list and empty values. -/
def attributesOfDoc (apiVersion : ApiVersion) (entityDoc : EntityDoc) : List ContextAttribute :=
  (getFieldNames entityDoc.attrs).map
    (attributeOfDoc apiVersion ((entityDoc.location.map Location.attrName).getD "") entityDoc.attrs)

/-- In the first version these are the attributes that the notifications are made of. -/
theorem attributesOfDoc_v1 (entityDoc : EntityDoc) :
    attributesOfDoc .v1 entityDoc = (ContextElementResponse.ofDoc entityDoc).contextElement.contextAttributeVector := by
  refine List.map_congr_left fun attrName _ => ?_
  unfold attributeOfDoc notifyAttribute
  simp only [true_and]

/-! ### What is restored -/

/-- The values of the metadata ID. -/
def idValues (mds : List Metadata) : List (Option BSONValue) :=
  (mds.filter fun md => md.name = NGSI_MD_ID).map Metadata.valueBson

def hasLocation (mds : List Metadata) : Prop := ∃ md ∈ mds, md.name = NGSI_MD_LOCATION

/-- The custom metadata of a request attribute; a type that is not given is the default one in v2. -/
def givenViews (apiVersion : ApiVersion) (mds : List Metadata) : List (String × String × Option BSONValue) :=
  (mds.filter fun md => !isNotCustomMetadata md.name).map fun md =>
    (md.name, md.effectiveType (apiVersion = .v2), md.valueBson)

/-- An attribute that is read has the name, type, value and metadata of one of the request. -/
structure Restored (apiVersion : ApiVersion) (ca a : ContextAttribute) : Prop where
  name : a.name = ca.name
  type : a.type = newAttributeType ca apiVersion
  value : a.json = ca.json
  custom : ∀ m, m ∈ customViews a.metadataVector ↔ m ∈ givenViews apiVersion ca.metadataVector
  ids : ∀ v, v ∈ idValues a.metadataVector ↔ v ∈ idValues ca.metadataVector
  location : apiVersion = .v1 → (hasLocation a.metadataVector ↔ hasLocation ca.metadataVector ∧ ca.type ≠ GEO_POINT)

/-- As a set, the attributes that are read are those of the request. -/
structure EntityRestored (apiVersion : ApiVersion) (attrsV : List ContextAttribute) (d : EntityDoc) : Prop where
  all : ∀ ca ∈ attrsV, ∃ a ∈ attributesOfDoc apiVersion d, Restored apiVersion ca a
  only : ∀ a ∈ attributesOfDoc apiVersion d, ∃ ca ∈ attrsV, Restored apiVersion ca a

/-- The name of the attribute with a location, or an empty text. -/
def locationName (apiVersion : ApiVersion) (attrsV : List ContextAttribute) : String :=
  ((attrsV.filter fun ca => ca.getLocation apiVersion ≠ "").getLast?.map ContextAttribute.name).getD ""

/-- The request attribute is kept by its key, its value and the location field. -/
structure Restorable (apiVersion : ApiVersion) (attrsV : List ContextAttribute) (ca : ContextAttribute) : Prop where
  splittable : Splittable ca.name ca.getId
  /-- There is a value for its type. -/
  value : ca.valueBson ≠ []
  members : KeepsMembers ca
  /-- Its metadata ID are the same text, and it is not empty. -/
  ids : ∀ md ∈ ca.metadataVector, md.name = NGSI_MD_ID → md.valueBson = some (.string ca.getId) ∧ ca.getId ≠ ""
  /-- It carries a location exactly if it has the name of the location attribute. -/
  location : apiVersion = .v1 → ca.type ≠ GEO_POINT →
    (hasLocation ca.metadataVector ↔ ca.name = locationName apiVersion attrsV)

/-! ### Names and IDs -/

/-- The name and the ID that are read from a key. -/
def pairOfKey (k : String) : String × String := (dbDotDecode (basePart k), idPart k)

/-- A rearrangement of a list that makes nothing larger makes nothing smaller. -/
private theorem eq_of_perm_map {α : Type} {l : List α} {change : α → α} {size : α → Nat} (hperm : l.Perm (l.map change))
    (hle : ∀ a ∈ l, size (change a) ≤ size a) : ∀ a ∈ l, size (change a) = size a := by
  have hsum : (l.map size).sum = (l.map fun a => size (change a)).sum := by
    have hmap := (hperm.map size).sum_eq
    rwa [List.map_map] at hmap
  intro a ha
  by_contra hne
  have hlt : size (change a) < size a := lt_of_le_of_ne (hle a ha) hne
  have := List.sum_lt_sum _ _ hle ⟨a, ha, hlt⟩
  omega

/-- If the pairs are those of the keys, each is splittable. -/
theorem splittable_of_pairs {pairs : List (String × String)} (hnodup : pairs.Nodup)
    (hall : ∀ p ∈ pairs, ∃ q ∈ pairs, pairOfKey (effectiveName q.1 q.2) = p) :
    ∀ p ∈ pairs, Splittable p.1 p.2 := by
  have hsubset : pairs ⊆ pairs.map fun p => pairOfKey (effectiveName p.1 p.2) := by
    intro p hp
    obtain ⟨q, hq, he⟩ := hall p hp
    exact he ▸ List.mem_map_of_mem hq
  have hperm : pairs.Perm (pairs.map fun p => pairOfKey (effectiveName p.1 p.2)) :=
    (hnodup.subperm hsubset).perm_of_length_le (by rw [List.length_map])
  have hle : ∀ p ∈ pairs, (pairOfKey (effectiveName p.1 p.2)).1.toList.length ≤ p.1.toList.length := by
    intro p _
    unfold pairOfKey
    rw [length_dbDotDecode]
    exact length_basePart_le p.1 p.2
  intro p hp
  have hlength := @eq_of_perm_map _ _ _ (fun p : String × String => p.1.toList.length) hperm hle p hp
  unfold pairOfKey at hlength
  rw [length_dbDotDecode] at hlength
  exact splittable_of_length hlength

/-! ### One attribute -/

section Attribute

variable {apiVersion : ApiVersion} {attrsV : List ContextAttribute} {attrs : BSONObj} {now : Int} {ca : ContextAttribute}

private theorem idValues_append (l l' : List Metadata) : idValues (l ++ l') = idValues l ++ idValues l' := by
  simp [idValues]

private theorem hasLocation_append {l l' : List Metadata} :
    hasLocation (l ++ l') ↔ hasLocation l ∨ hasLocation l' := by
  unfold hasLocation
  simp only [List.mem_append, or_and_right, exists_or]

/-- Custom metadata that are read back are neither IDs nor locations. -/
private theorem custom_readBack (useDefaultType : Bool) :
    customViews ((customOf ca).map (readBack useDefaultType)) =
        (customOf ca).map (fun md => (readBack useDefaultType md).view) ∧
      idValues ((customOf ca).map (readBack useDefaultType)) = [] ∧
      ¬ hasLocation ((customOf ca).map (readBack useDefaultType)) := by
  have hname : ∀ md ∈ (customOf ca).map (readBack useDefaultType), isNotCustomMetadata md.name = false := by
    intro md hmd
    obtain ⟨md', hmd', rfl⟩ := List.mem_map.1 hmd
    rw [readBack_name]
    simpa using (List.mem_filter.1 hmd').2
  refine ⟨?_, ?_, ?_⟩
  · unfold customViews
    rw [List.filter_eq_self.2 (fun md hmd => by rw [hname md hmd]; rfl), List.map_map]
    rfl
  · unfold idValues
    rw [List.map_eq_nil_iff, List.filter_eq_nil_iff]
    intro md hmd he
    have := hname md hmd
    rw [of_decide_eq_true he] at this
    exact absurd this (by decide)
  · rintro ⟨md, hmd, he⟩
    have := hname md hmd
    rw [he] at this
    exact absurd this (by decide)

/-- The metadata that are read: the ID, the location and the custom ones. -/
private theorem metadata_attributeOfDoc {k locAttr : String} (hcustom : CustomValues ca)
    (hlookup : attrs.lookup k = some (.object (createdAttribute now ca apiVersion))) :
    (attributeOfDoc apiVersion locAttr attrs k).metadataVector =
      (if idPart k ≠ "" then [{ name := NGSI_MD_ID, type := "string", stringValue := idPart k }] else []) ++
        (if apiVersion = .v1 ∧ locAttr = dbDotDecode (basePart k) ∧ newAttributeType ca apiVersion ≠ GEO_POINT then
          [{ name := NGSI_MD_LOCATION, type := "string", stringValue := LOCATION_WGS84 }]
        else []) ++
        (customOf ca).map (readBack (apiVersion = .v2)) := by
  have hmd : storedMetadata (createdAttribute now ca apiVersion) = _ := storedMetadata_createdAttribute now hcustom
  unfold storedMetadata at hmd
  have hobj : embeddedObject (.object (createdAttribute now ca apiVersion)) = createdAttribute now ca apiVersion := rfl
  unfold attributeOfDoc
  simp only [hlookup, Option.getD_some, hobj, hmd, (hasForm_createdAttribute now ca apiVersion).2]

private theorem ids_attributeOfDoc {k locAttr : String} (hcustom : CustomValues ca)
    (hlookup : attrs.lookup k = some (.object (createdAttribute now ca apiVersion))) :
    idValues (attributeOfDoc apiVersion locAttr attrs k).metadataVector =
      if idPart k ≠ "" then [some (BSONValue.string (idPart k))] else [] := by
  have hloc : idValues (if apiVersion = .v1 ∧ locAttr = dbDotDecode (basePart k) ∧
        newAttributeType ca apiVersion ≠ GEO_POINT then
      [{ name := NGSI_MD_LOCATION, type := "string", stringValue := LOCATION_WGS84 }] else []) = [] := by
    split <;> rfl
  rw [metadata_attributeOfDoc hcustom hlookup, idValues_append, idValues_append, hloc, (custom_readBack _).2.1,
    List.append_nil, List.append_nil]
  split <;> rfl

private theorem mem_idValues {mds : List Metadata} {v : Option BSONValue} :
    v ∈ idValues mds ↔ ∃ md ∈ mds, md.name = NGSI_MD_ID ∧ md.valueBson = v := by
  unfold idValues
  simp only [List.mem_map, List.mem_filter, decide_eq_true_eq, and_assoc]

/-- Without a metadata ID the ID is empty; with one it is the text of the first. -/
private theorem getId_cases (ca : ContextAttribute) :
    (ca.getId = "" ∧ idValues ca.metadataVector = []) ∨
      ∃ md ∈ ca.metadataVector, md.name = NGSI_MD_ID ∧ md.stringValue = ca.getId := by
  unfold ContextAttribute.getId
  cases hfind : ca.metadataVector.find? fun md => md.name = NGSI_MD_ID with
  | none =>
    refine Or.inl ⟨rfl, ?_⟩
    unfold idValues
    rw [List.map_eq_nil_iff, List.filter_eq_nil_iff]
    exact List.find?_eq_none.1 hfind
  | some md =>
    have hname : md.name = NGSI_MD_ID := by simpa using List.find?_some hfind
    exact Or.inr ⟨md, List.mem_of_find?_eq_some hfind, hname, rfl⟩

/-- The ID that is restored is the one of the attribute. -/
private theorem idPart_of_ids {k : String}
    (h : ∀ v, v ∈ (if idPart k ≠ "" then [some (BSONValue.string (idPart k))] else []) ↔
      v ∈ idValues ca.metadataVector) : idPart k = ca.getId := by
  rcases getId_cases ca with ⟨hid, hnone⟩ | ⟨md, hmd, hname, hvalue⟩
  · by_contra hne
    have hk : idPart k ≠ "" := fun he => hne (he.trans hid.symm)
    have hmem := (h (some (.string (idPart k)))).1 (by rw [if_pos hk]; exact List.mem_singleton.2 rfl)
    rw [hnone] at hmem
    cases hmem
  · have hmem := (h md.valueBson).2 (mem_idValues.2 ⟨md, hmd, hname, rfl⟩)
    split at hmem
    · have hbson := List.mem_singleton.1 hmem
      unfold Metadata.valueBson at hbson
      split at hbson
      · simp only [Option.some.injEq, BSONValue.string.injEq] at hbson
        rw [← hbson, hvalue]
      · cases hbson
      · cases hbson
      · cases hbson
      · cases hbson
    · cases hmem

private theorem value_iff {a : ContextAttribute} (ha : a.json = storedJson (ca.valueBson.lookup "value")) :
    a.json = ca.json ↔ ca.valueBson ≠ [] ∧ KeepsMembers ca := by
  rw [ha]
  by_cases hv : ca.valueBson = []
  · refine iff_of_false ?_ fun h => h.1 hv
    have hnone : ca.json = none := by
      unfold ContextAttribute.valueBson at hv
      unfold ContextAttribute.json
      cases hc : ca.compoundValueP with
      | none =>
        rw [hc] at hv
        have hempty : ca.bsonAppendAttrValue = [] := hv
        dsimp only
        rw [hempty]
        rfl
      | some t =>
        rw [hc] at hv
        exact absurd hv (List.cons_ne_nil _ _)
    rw [hv, hnone]
    have hempty : storedJson (([] : BSONObj).lookup "value") = some (.string "") := rfl
    rw [hempty]
    exact Option.some_ne_none _
  · rw [eq_comm, storedJson_valueBson hv]
    exact (and_iff_right hv).symm

private theorem ids_iff : (∀ v, v ∈ (if ca.getId ≠ "" then [some (BSONValue.string ca.getId)] else []) ↔
      v ∈ idValues ca.metadataVector) ↔
    ∀ md ∈ ca.metadataVector, md.name = NGSI_MD_ID → md.valueBson = some (.string ca.getId) ∧ ca.getId ≠ "" := by
  have hgiven : ∀ v, v ∈ (if ca.getId ≠ "" then [some (BSONValue.string ca.getId)] else []) ↔
      ca.getId ≠ "" ∧ v = some (.string ca.getId) := by
    intro v
    by_cases hid : ca.getId = ""
    · simp [hid]
    · simp [hid]
  simp only [mem_idValues, hgiven]
  constructor
  · intro h md hmd hname
    obtain ⟨hid, hv⟩ := (h md.valueBson).2 ⟨md, hmd, hname, rfl⟩
    exact ⟨hv, hid⟩
  · intro h v
    constructor
    · rintro ⟨hid, rfl⟩
      rcases getId_cases ca with ⟨he, -⟩ | ⟨md, hmd, hname, -⟩
      · exact absurd he hid
      · exact ⟨md, hmd, hname, (h md hmd hname).1⟩
    · rintro ⟨md, hmd, hname, rfl⟩
      obtain ⟨hv, hid⟩ := h md hmd hname
      exact ⟨hid, hv⟩

/-- What is read of an attribute of the request is what was given exactly if its ID, its value and its location are
kept. -/
theorem restored_iff {locAttr : String} (hcustom : CustomValues ca)
    (hlookup : attrs.lookup ca.key = some (.object (createdAttribute now ca apiVersion)))
    (hpair : pairOfKey ca.key = (ca.name, ca.getId)) :
    Restored apiVersion ca (attributeOfDoc apiVersion locAttr attrs ca.key) ↔
      ca.valueBson ≠ [] ∧ KeepsMembers ca ∧
        (∀ md ∈ ca.metadataVector, md.name = NGSI_MD_ID → md.valueBson = some (.string ca.getId) ∧ ca.getId ≠ "") ∧
        (apiVersion = .v1 → ca.type ≠ GEO_POINT → (hasLocation ca.metadataVector ↔ ca.name = locAttr)) := by
  obtain ⟨hbase, hpart⟩ := Prod.mk.inj hpair
  have hmetadata := @metadata_attributeOfDoc _ _ _ _ _ locAttr hcustom hlookup
  rw [hbase, hpart] at hmetadata
  obtain ⟨hviews, hnoId, hnoLocation⟩ := @custom_readBack ca (apiVersion = .v2)
  have hform := hasForm_createdAttribute now ca apiVersion
  have hname : (attributeOfDoc apiVersion locAttr attrs ca.key).name = ca.name :=
    (fields_attributeOfBson _ _ _).1.trans hbase
  have htype : (attributeOfDoc apiVersion locAttr attrs ca.key).type = newAttributeType ca apiVersion := by
    refine (fields_attributeOfBson _ _ _).2.1.trans ?_
    rw [hlookup, Option.getD_some, embeddedObject, hform.2]
  have hvalue : (attributeOfDoc apiVersion locAttr attrs ca.key).json = storedJson (ca.valueBson.lookup "value") := by
    refine (json_attributeOfBson _ _ _).trans ?_
    rw [hlookup, Option.getD_some, embeddedObject, hform.1]
  have hcustomViews : customViews (attributeOfDoc apiVersion locAttr attrs ca.key).metadataVector =
      givenViews apiVersion ca.metadataVector := by
    have hid : customViews (if ca.getId ≠ "" then
        [{ name := NGSI_MD_ID, type := "string", stringValue := ca.getId }] else []) = [] := by
      split <;> rfl
    have hloc : customViews (if apiVersion = .v1 ∧ locAttr = ca.name ∧ newAttributeType ca apiVersion ≠ GEO_POINT then
        [{ name := NGSI_MD_LOCATION, type := "string", stringValue := LOCATION_WGS84 }] else []) = [] := by
      split <;> rfl
    rw [hmetadata, customViews_append, customViews_append, hid, hloc, List.nil_append, List.nil_append, hviews]
    unfold givenViews
    refine List.map_congr_left fun md hmd => ?_
    obtain ⟨hmem, hcust⟩ := List.mem_filter.1 hmd
    exact view_readBack (hcustom md hmem (by simpa using hcust)) _
  have hids : idValues (attributeOfDoc apiVersion locAttr attrs ca.key).metadataVector =
      if ca.getId ≠ "" then [some (BSONValue.string ca.getId)] else [] := by
    rw [ids_attributeOfDoc hcustom hlookup, hpart]
  have hlocation : apiVersion = .v1 →
      (hasLocation (attributeOfDoc apiVersion locAttr attrs ca.key).metadataVector ↔
        locAttr = ca.name ∧ ca.type ≠ GEO_POINT) := by
    intro hv1
    have htype1 : newAttributeType ca apiVersion = ca.type := by
      unfold newAttributeType
      rw [hv1, if_neg]
      simp
    have hid : ¬ hasLocation (if ca.getId ≠ "" then
        [{ name := NGSI_MD_ID, type := "string", stringValue := ca.getId }] else []) := by
      split
      · rintro ⟨md, hmd, he⟩
        rw [List.mem_singleton.1 hmd] at he
        have hnames : NGSI_MD_ID = NGSI_MD_LOCATION := he
        exact absurd hnames (by decide)
      · rintro ⟨md, hmd, -⟩
        cases hmd
    rw [hmetadata, hasLocation_append, hasLocation_append, or_iff_right hid, or_iff_left hnoLocation, htype1]
    by_cases hloc : locAttr = ca.name ∧ ca.type ≠ GEO_POINT
    · rw [if_pos ⟨hv1, hloc⟩]
      exact iff_of_true ⟨_, List.mem_singleton.2 rfl, rfl⟩ hloc
    · rw [if_neg fun h => hloc h.2]
      refine iff_of_false ?_ hloc
      rintro ⟨md, hmd, -⟩
      cases hmd
  rw [← and_assoc, ← value_iff hvalue, ← ids_iff, ← hids]
  constructor
  · intro h
    refine ⟨h.value, h.ids, ?_⟩
    intro hv1 hgeo
    have hloc := (hlocation hv1).symm.trans (h.location hv1)
    rw [and_iff_left hgeo, and_iff_left hgeo] at hloc
    rw [← hloc]
    exact eq_comm
  · rintro ⟨hjson, hvalues, hloc⟩
    refine ⟨hname, htype, hjson, fun m => by rw [hcustomViews], hvalues, ?_⟩
    intro hv1
    rw [hlocation hv1]
    refine and_congr_left fun hgeo => ?_
    rw [hloc hv1 hgeo]
    exact eq_comm

end Attribute

/-! ### The entity -/

section Entity

variable {env : Env} {apiVersion : ApiVersion} {d : EntityDoc}

/-- The location attribute is the one of this name. -/
private theorem locationAtCreation_name {locAttr : String} {geoJson : BSONObj} {caV : List ContextAttribute}
    {l : LocationStep} (h : locationAtCreation env.strtod apiVersion locAttr geoJson caV = .ok l) :
    l.currentLocAttrName =
      ((caV.filter fun ca => ca.getLocation apiVersion ≠ "").getLast?.map ContextAttribute.name).getD locAttr := by
  induction caV generalizing locAttr geoJson with
  | nil =>
    cases h
    rfl
  | cons ca caV ih =>
    simp only [locationAtCreation] at h
    split at h
    · rename_i hnone
      rw [ih h, List.filter_cons_of_neg (by simpa using hnone)]
    · rename_i hsome
      rw [List.filter_cons_of_pos (by simpa using hsome)]
      split at h
      · cases h
      · split at h
        · cases h
        · split at h
          · cases h
          · rw [ih h, List.getLast?_cons]
            cases (caV.filter fun ca => ca.getLocation apiVersion ≠ "").getLast? <;> rfl

/-- The name in the location field. -/
private theorem locAttr_createEntity {eP : EntityId} {attrsV : List ContextAttribute}
    (h : createEntity env eP attrsV apiVersion = .ok d) :
    (d.location.map Location.attrName).getD "" = locationName apiVersion attrsV := by
  obtain ⟨l, hl, hlocation⟩ := createEntity_location h
  have hname : l.currentLocAttrName = locationName apiVersion attrsV := locationAtCreation_name hl
  rw [hlocation, ← hname]
  split
  · rfl
  · rename_i he
    exact (not_not.1 he).symm

/-- Under each key of the document is an attribute of the request with this key. -/
private theorem lookup_createEntity {eP : EntityId} {attrsV : List ContextAttribute}
    (h : createEntity env eP attrsV apiVersion = .ok d) {k : String} (hk : k ∈ getFieldNames d.attrs) :
    ∃ ca ∈ attrsV, ca.key = k ∧
      d.attrs.lookup k = some (.object (createdAttribute env.getCurrentTime ca apiVersion)) := by
  rw [mem_getFieldNames, (createEntity_doc h).1] at hk
  rw [(createEntity_doc h).1]
  clear h
  induction attrsV with
  | nil => cases hk
  | cons ca attrsV ih =>
    rw [List.map_cons, lookup_cons_eq]
    by_cases he : k = ca.key
    · rw [if_pos he]
      exact ⟨ca, List.mem_cons_self, he.symm, rfl⟩
    · rw [if_neg he]
      rw [List.map_cons, List.map_cons, List.mem_cons, or_iff_right he] at hk
      obtain ⟨cb, hcb, hkey, hlookup⟩ := ih hk
      exact ⟨cb, List.mem_cons_of_mem _ hcb, hkey, hlookup⟩

variable {ceP : ContextElement} {action : String} {checkIdv1 : Bool} {requestType : RequestType}

/-- Where the pairs are splittable, each attribute of the request is found under its key. -/
private theorem lookup_key
    (hcheck : ∀ ca ∈ ceP.contextAttributeVector, ca.check checkIdv1 apiVersion requestType = "OK")
    (hpre : contextElementPreconditionsCheck ceP action apiVersion = none)
    (hcreate : createEntity env ceP.entityId ceP.contextAttributeVector apiVersion = .ok d)
    (hsplit : ∀ ca ∈ ceP.contextAttributeVector, Splittable ca.name ca.getId) {ca : ContextAttribute}
    (hca : ca ∈ ceP.contextAttributeVector) :
    ca.key ∈ getFieldNames d.attrs ∧
      d.attrs.lookup ca.key = some (.object (createdAttribute env.getCurrentTime ca apiVersion)) := by
  have hk : ca.key ∈ getFieldNames d.attrs := by
    rw [mem_getFieldNames, (createEntity_doc hcreate).1, List.map_map]
    exact List.mem_map_of_mem hca
  refine ⟨hk, ?_⟩
  obtain ⟨cb, hcb, hkey, hlookup⟩ := lookup_createEntity hcreate hk
  have hpair : cb.name = ca.name ∧ cb.getId = ca.getId :=
    effectiveName_inj (ContextAttribute.no_equals_of_check (hcheck cb hcb))
      (ContextAttribute.no_equals_of_check (hcheck ca hca)) (hsplit cb hcb) (hsplit ca hca) hkey
  obtain rfl := unique_of_preconditions hpre hcb hca hpair.1 hpair.2
  exact hlookup

end Entity

/-- The attribute `p` with an ID, and with a location if `located`. -/
def pOf (id value : String) (located : Bool) : ContextAttribute :=
  { name := "p", type := "coords", stringValue := value
    metadataVector :=
      { name := NGSI_MD_ID, type := "string", stringValue := id } ::
        if located then [{ name := NGSI_MD_LOCATION, type := "string", stringValue := LOCATION_WGS84 }] else [] }

/-- The document of an entity that is created with the located `p` of ID `a` and other values of `p`. -/
def docOf (others : List ContextAttribute) : EntityDoc :=
  { id := "E", type := "T", servicePath := "/", attrNames := "p" :: others.map ContextAttribute.name
    attrs := (pOf "a" "1, 2" true :: others).map fun ca => (ca.key, .object (createdAttribute 1 ca .v1))
    creDate := some 1, modDate := some 1
    location := some ⟨"p", geometry "Point" [.double (.fin 2), .double (.fin 1)]⟩ }

end OrionBroker
