import OrionBroker.EntityRun
import OrionBroker.StoredGeoJson

/-!
# The location of the entities

The field `location` of a document is a copy of what is stored in one of its attributes, kept for the geographical
index.  `LocationMatches` says that the copy is right.  It is changed together with the attributes by a cascade of
cases, turn by turn, and some of these leave it behind: an attribute that is not stored is made the location by an
UPDATE, an existing attribute that is appended keeps the old coordinates, a REPLACE keeps the old location, and the
GeoJSON of two attributes with the same name, or an empty one, is not what is written.

`location_matches_of_reachable` shows that the copy is right over every run whose requests avoid these cases; the
condition on a request, `FollowsValues`, goes along with the loop over its attributes.
-/

namespace OrionBroker

open Bson

/-- The GeoJSON that is computed from a stored attribute. -/
def storedGeoJson (strtod : String → Strtod) (apiVersion : ApiVersion) (k : String) (v : BSONValue) :
    Except String BSONObj :=
  getGeoJson strtod
    (attributeOfBson (keyName k) (getStringFieldF (embeddedObject v) "type") ((embeddedObject v).lookup "value")) apiVersion

/-- The location names a stored attribute and has its GeoJSON. -/
def LocationMatches (strtod : String → Strtod) (apiVersion : ApiVersion) (d : EntityDoc) : Prop :=
  ∀ l, d.location = some l → ∃ k v, d.attrs.lookup k = some v ∧ keyName k = l.attrName ∧
    storedGeoJson strtod apiVersion k v = .ok l.coords

/-! ### Conditions -/

/-- A request as the parsers deliver it: the attributes are accepted, have different names or IDs and can be told from
their keys. -/
structure WellFormedRequest (apiVersion : ApiVersion) (caV : List ContextAttribute) : Prop where
  accepted : Accepted apiVersion caV
  plain : ∀ ca ∈ caV, ca.PlainString
  typed : ∀ ca ∈ caV, TypeParsed apiVersion ca
  splittable : ∀ ca ∈ caV, Splittable ca.name ca.getId
  distinct : duplicatedAttribute caV = none

/-- The turn of an attribute computes a GeoJSON. -/
def computesGeoJson (attrs : BSONObj) (apiVersion : ApiVersion) (cur : String) : ActionType → ContextAttribute → Bool
  | .update, ca => ca.getLocation apiVersion ≠ "" || (apiVersion = .v1 && cur = ca.name)
  | .append, ca | .appendStrict, ca => ca.getLocation apiVersion ≠ "" && !hasField attrs ca.key
  | _, _ => false

/-- A GeoJSON is computed once in a request, is not empty and comes from an attribute that is stored afterwards; an
existing attribute that is appended as the location has the coordinates that the location has already. -/
def TurnFollows (strtod : String → Strtod) (attrs : BSONObj) (apiVersion : ApiVersion) (a : ActionType)
    (coords : BSONObj) (cur : String) (geoJson : BSONObj) (ca : ContextAttribute) : Prop :=
  (computesGeoJson attrs apiVersion cur a ca = true →
    geoJson = [] ∧ missing attrs a ca = false ∧ getGeoJson strtod ca apiVersion ≠ .ok []) ∧
  (a = .append ∨ a = .appendStrict → ca.getLocation apiVersion ≠ "" → hasField attrs ca.key = true → geoJson = [] →
    getGeoJson strtod ca apiVersion = .ok coords)

/-- The turns of a request follow the values of its attributes. -/
def FollowsValues (strtod : String → Strtod) (attrs : BSONObj) (apiVersion : ApiVersion) (a : ActionType)
    (coords : BSONObj) : String → BSONObj → List ContextAttribute → Prop
  | _, _, [] => True
  | cur, geoJson, ca :: caV =>
    ∀ l, locationStep strtod attrs apiVersion cur a ca = .ok l →
      TurnFollows strtod attrs apiVersion a coords cur geoJson ca ∧
        FollowsValues strtod attrs apiVersion a coords l.currentLocAttrName (geoJson ++ l.geoJson) caV

/-- The condition on the attributes that are processed: a REPLACE writes an attribute with the location that the
document keeps, and the other actions follow the values. -/
def LocationCondition (strtod : String → Strtod) (apiVersion : ApiVersion) (r : EntityDoc)
    (caV : List ContextAttribute) : ActionType → Prop
  | .replace => ∀ l, r.location = some l →
      ∃ ca ∈ caV, ca.name = l.attrName ∧ getGeoJson strtod ca apiVersion = .ok l.coords
  | a => (∀ ca ∈ caV, '.' ∉ ca.getId.toList) ∧
      FollowsValues strtod r.attrs apiVersion a ((r.location.map Location.coords).getD [])
        ((r.location.map Location.attrName).getD "") [] caV

/-- The conditions on a run in one version of the API. -/
def locationConditions (strtod : String → Strtod) (apiVersion : ApiVersion) : StepConditions where
  create := fun env v caV => v = apiVersion ∧ env.strtod = strtod ∧ WellFormedRequest apiVersion caV
  update := fun env v action ceP r =>
    v = apiVersion ∧ env.strtod = strtod ∧ WellFormedRequest apiVersion ceP.contextAttributeVector ∧
      LocationCondition strtod apiVersion r (processed action r ceP) (ActionType.ofString action)

theorem WellFormedRequest.keys_nodup {apiVersion : ApiVersion} {caV : List ContextAttribute}
    (h : WellFormedRequest apiVersion caV) : (caV.map ContextAttribute.key).Nodup := by
  rw [List.Nodup, List.pairwise_map]
  refine (duplicatedAttribute_eq_none.1 h.distinct).imp_of_mem ?_
  intro ca cb hca hcb hne he
  exact hne (effectiveName_inj (h.accepted.no_equals hca) (h.accepted.no_equals hcb) (h.splittable ca hca)
    (h.splittable cb hcb) he)

theorem WellFormedRequest.keyName {apiVersion : ApiVersion} {caV : List ContextAttribute}
    (h : WellFormedRequest apiVersion caV) {ca : ContextAttribute} (hca : ca ∈ caV) :
    OrionBroker.keyName ca.key = ca.name :=
  keyName_key (h.accepted.no_equals hca) (h.splittable ca hca)

/-! ### The turns -/

section Turns

variable {strtod : String → Strtod} {attrs : BSONObj} {apiVersion : ApiVersion} {a : ActionType}
  {location : Option Location}

/-- What is known about the location after some turns: there is none, or it is the one of an attribute that was
processed, or it is still the one of the document, and the attributes of this name that were processed do not change
it. -/
def LocationSound (strtod : String → Strtod) (attrs : BSONObj) (apiVersion : ApiVersion) (a : ActionType)
    (location : Option Location) (cur : String) (geoJson : BSONObj) (done : List ContextAttribute) : Prop :=
  cur = "" ∨
  (geoJson ≠ [] ∧ a ≠ .delete ∧ ∃ ca ∈ done, ca.name = cur ∧ missing attrs a ca = false ∧
    getGeoJson strtod ca apiVersion = .ok geoJson) ∨
  (geoJson = [] ∧ ∃ l, location = some l ∧ cur = l.attrName ∧ ∀ ca ∈ done, ca.name = cur →
    a ≠ .delete ∧ (hasField attrs ca.key = true → getGeoJson strtod ca apiVersion = .ok l.coords))

private theorem parseLocation_ok {locAttr message : String} {ca : ContextAttribute} {l : LocationStep}
    (h : parseLocation strtod locAttr ca message apiVersion = .ok l) :
    l.currentLocAttrName = locAttr ∧ getGeoJson strtod ca apiVersion = .ok l.geoJson := by
  unfold parseLocation at h
  split at h
  · cases h
  · rename_i g hg
    cases h
    exact ⟨rfl, hg⟩

/-- A turn that computes a GeoJSON. -/
private theorem sound_of_computed {coords : BSONObj} {cur : String} {geoJson : BSONObj} {done : List ContextAttribute}
    {ca : ContextAttribute} {l : LocationStep} (ha : a ≠ .delete)
    (hturn : TurnFollows strtod attrs apiVersion a coords cur geoJson ca)
    (hc : computesGeoJson attrs apiVersion cur a ca = true) (hname : l.currentLocAttrName = ca.name)
    (hgeo : getGeoJson strtod ca apiVersion = .ok l.geoJson) :
    LocationSound strtod attrs apiVersion a location l.currentLocAttrName (geoJson ++ l.geoJson) (done ++ [ca]) := by
  obtain ⟨hnil, hmiss, hne⟩ := hturn.1 hc
  subst hnil
  rw [hgeo] at hne
  refine Or.inr (Or.inl ⟨fun h => hne ?_, ha, ca, List.mem_append_right _ (List.mem_singleton.2 rfl), hname.symm, hmiss, ?_⟩)
  · rw [List.nil_append] at h
    rw [h]
  · rw [List.nil_append]
    exact hgeo

/-- A turn that leaves the location alone. -/
private theorem sound_of_kept {cur : String} {geoJson : BSONObj} {done : List ContextAttribute} {ca : ContextAttribute}
    (h : LocationSound strtod attrs apiVersion a location cur geoJson done)
    (hca : geoJson = [] → ∀ l, location = some l → ca.name = cur →
      a ≠ .delete ∧ (hasField attrs ca.key = true → getGeoJson strtod ca apiVersion = .ok l.coords)) :
    LocationSound strtod attrs apiVersion a location cur (geoJson ++ []) (done ++ [ca]) := by
  rw [List.append_nil]
  rcases h with h | ⟨hg, ha, cb, hcb, hname, hmiss, hgeo⟩ | ⟨hg, l, hl, hcur, hdone⟩
  · exact Or.inl h
  · exact Or.inr (Or.inl ⟨hg, ha, cb, List.mem_append_left _ hcb, hname, hmiss, hgeo⟩)
  · refine Or.inr (Or.inr ⟨hg, l, hl, hcur, fun cb hcb hname => ?_⟩)
    rcases List.mem_append.1 hcb with hcb | hcb
    · exact hdone cb hcb hname
    · rw [List.mem_singleton.1 hcb] at hname ⊢
      exact hca hg l hl hname

private theorem update_sound {cur : String} {geoJson : BSONObj} {done : List ContextAttribute} {ca : ContextAttribute}
    {l : LocationStep} {coords : BSONObj}
    (h : LocationSound strtod attrs apiVersion .update location cur geoJson done)
    (hturn : TurnFollows strtod attrs apiVersion .update coords cur geoJson ca)
    (hl : locationStep strtod attrs apiVersion cur .update ca = .ok l) :
    LocationSound strtod attrs apiVersion .update location l.currentLocAttrName (geoJson ++ l.geoJson) (done ++ [ca]) := by
  simp only [locationStep, processLocationAtUpdateAttribute] at hl
  split at hl
  · cases hl
  · split at hl
    · rename_i htag
      have hc : computesGeoJson attrs apiVersion cur .update ca = true := by simp [computesGeoJson, htag]
      split at hl
      · obtain ⟨hname, hgeo⟩ := parseLocation_ok hl
        exact sound_of_computed (by decide) hturn hc hname hgeo
      · split at hl
        · cases hl
        · rename_i hcur
          obtain ⟨hname, hgeo⟩ := parseLocation_ok hl
          exact sound_of_computed (by decide) hturn hc (hname.trans (not_not.1 hcur)) hgeo
    · split at hl
      · rename_i hcur
        split at hl
        · obtain ⟨hname, hgeo⟩ := parseLocation_ok hl
          exact sound_of_computed (by decide) hturn (by simp [computesGeoJson, hcur]) (hname.trans hcur) hgeo
        · cases hl
          exact Or.inl rfl
      · rename_i hcur
        cases hl
        exact sound_of_kept h fun _ _ _ he => absurd he.symm hcur

private theorem append_sound {cur : String} {geoJson : BSONObj} {done : List ContextAttribute} {ca : ContextAttribute}
    {l : LocationStep} (ha : a = .append ∨ a = .appendStrict)
    (h : LocationSound strtod attrs apiVersion a location cur geoJson done)
    (hturn : TurnFollows strtod attrs apiVersion a ((location.map Location.coords).getD []) cur geoJson ca)
    (hl : locationStep strtod attrs apiVersion cur a ca = .ok l) :
    LocationSound strtod attrs apiVersion a location l.currentLocAttrName (geoJson ++ l.geoJson) (done ++ [ca]) := by
  have hl' : processLocationAtAppendAttribute strtod cur ca (!hasField attrs ca.key) apiVersion = .ok l := by
    rcases ha with rfl | rfl <;> exact hl
  have hdel : a ≠ .delete := by rcases ha with rfl | rfl <;> decide
  unfold processLocationAtAppendAttribute at hl'
  simp only at hl'
  split at hl'
  · cases hl'
  · split at hl'
    · rename_i hnew
      split at hl'
      · cases hl'
      · obtain ⟨hname, hgeo⟩ := parseLocation_ok hl'
        refine sound_of_computed hdel hturn ?_ hname hgeo
        rcases ha with rfl | rfl <;> simpa [computesGeoJson, and_comm] using hnew
    · split at hl'
      · rename_i hold
        have hstored : hasField attrs ca.key = true := by simpa using hold.1
        split at hl'
        · cases hl'
        · split at hl'
          · rename_i hcur hnil
            obtain ⟨hname, -⟩ := parseLocation_ok hl'
            refine Or.inl ?_
            rw [hname, ← not_not.1 hcur, hnil]
          · cases hl'
            refine sound_of_kept h fun hg loc hloc _ => ⟨hdel, fun _ => ?_⟩
            have := hturn.2 ha hold.2 hstored hg
            rw [hloc] at this
            exact this
      · split at hl'
        · cases hl'
          exact Or.inl rfl
        · rename_i hnotnew hnotold hnotcur
          cases hl'
          refine sound_of_kept h fun hg loc hloc hname => ⟨hdel, fun hstored => ?_⟩
          -- an existing attribute of this name would have taken the location away
          exfalso
          by_cases htag : ca.getLocation apiVersion = ""
          · exact hnotcur ⟨by simp [hstored], htag, hname.symm⟩
          · exact hnotold ⟨by simp [hstored], htag⟩

private theorem delete_sound {cur : String} {geoJson : BSONObj} {done : List ContextAttribute} {ca : ContextAttribute}
    {l : LocationStep} (h : LocationSound strtod attrs apiVersion .delete location cur geoJson done)
    (hl : locationStep strtod attrs apiVersion cur .delete ca = .ok l) :
    LocationSound strtod attrs apiVersion .delete location l.currentLocAttrName (geoJson ++ l.geoJson) (done ++ [ca]) := by
  simp only [locationStep] at hl
  split at hl
  · cases hl
  · cases hl
    by_cases hcur : cur = ca.name
    · exact Or.inl (by simp [hcur])
    · simp only [hcur, if_false]
      exact sound_of_kept h fun _ _ _ he => absurd he.symm hcur

/-- The location is sound after every turn. -/
private theorem locationRun_sound {cur cur' : String} {geoJson g : BSONObj} {done caV : List ContextAttribute}
    (ha : a = .update ∨ a = .append ∨ a = .appendStrict ∨ a = .delete)
    (h : LocationSound strtod attrs apiVersion a location cur geoJson done)
    (hcond : FollowsValues strtod attrs apiVersion a ((location.map Location.coords).getD []) cur geoJson caV)
    (hrun : locationRun strtod attrs apiVersion a cur caV = .ok ⟨cur', g⟩) :
    LocationSound strtod attrs apiVersion a location cur' (geoJson ++ g) (done ++ caV) := by
  induction caV generalizing cur geoJson done g with
  | nil =>
    cases hrun
    simpa using h
  | cons ca caV ih =>
    simp only [locationRun] at hrun
    split at hrun
    · cases hrun
    · rename_i l hl
      split at hrun
      · cases hrun
      · rename_i l' hl'
        cases hrun
        obtain ⟨hturn, hrest⟩ := hcond l hl
        have hstep : LocationSound strtod attrs apiVersion a location l.currentLocAttrName (geoJson ++ l.geoJson)
            (done ++ [ca]) := by
          rcases ha with rfl | ha
          · exact update_sound h hturn hl
          · rcases ha with ha | ha | rfl
            · exact append_sound (Or.inl ha) h hturn hl
            · exact append_sound (Or.inr ha) h hturn hl
            · exact delete_sound h hl
        have := ih hstep hrest hl'
        simpa using this

end Turns

/-! ### The documents -/

private theorem childBson_ne_int (t : CompoundValueNode) (n : Int) : childBson t ≠ .int n := by
  cases t <;> simp [childBson]

private theorem valueBson_ne_int (ca : ContextAttribute) (n : Int) : ca.valueBson.lookup "value" ≠ some (.int n) := by
  unfold ContextAttribute.valueBson ContextAttribute.bsonAppendAttrValue
  rcases ca.compoundValueP with _ | t
  · rcases ca.valueType <;> simp
  · simpa using childBson_ne_int t n

/-- The attributes of a vector, each under its key. -/
private theorem lookup_vector (f : ContextAttribute → BSONValue) {caV : List ContextAttribute} (rest : BSONObj)
    (hnodup : (caV.map ContextAttribute.key).Nodup) :
    (∀ ca ∈ caV, (caV.map (fun ca => (ca.key, f ca)) ++ rest).lookup ca.key = some (f ca)) ∧
      ∀ k v, (caV.map (fun ca => (ca.key, f ca)) ++ rest).lookup k = some v →
        (∃ ca ∈ caV, v = f ca) ∨ rest.lookup k = some v := by
  obtain ⟨hmem, hrest⟩ := lookup_map_append f rest hnodup
  refine ⟨hmem, fun k v h => ?_⟩
  by_cases hk : k ∈ caV.map ContextAttribute.key
  · obtain ⟨ca, hca, rfl⟩ := List.mem_map.1 hk
    rw [hmem ca hca] at h
    cases h
    exact Or.inl ⟨ca, hca, rfl⟩
  · rw [hrest k hk] at h
    exact Or.inr h

section Documents

variable {strtod : String → Strtod} {env : Env} {apiVersion : ApiVersion} {action : String} {ceP : ContextElement}
  {r d : EntityDoc}

/-- A location that an attribute of a well-formed request has is matched once the attribute is stored. -/
private theorem matches_of_says {caV : List ContextAttribute} {ca : ContextAttribute} {l : Location} {w : BSONValue}
    (hwf : WellFormedRequest apiVersion caV) (hca : ca ∈ caV) (hlook : d.attrs.lookup ca.key = some w)
    (hsaid : Says apiVersion (embeddedObject w) ca) (hname : ca.name = l.attrName)
    (hgeo : getGeoJson strtod ca apiVersion = .ok l.coords) :
    ∃ k v, d.attrs.lookup k = some v ∧ keyName k = l.attrName ∧ storedGeoJson strtod apiVersion k v = .ok l.coords :=
  ⟨ca.key, w, hlook, (hwf.keyName hca).trans hname, getGeoJson_stored (hwf.plain ca hca) hsaid hgeo⟩

/-- A location that the creation computes is the one of an attribute. -/
private theorem locationAtCreation_source {locAttr : String} {geoJson : BSONObj} {caV : List ContextAttribute}
    {l : LocationStep} (hnames : ∀ ca ∈ caV, ca.name ≠ "") (h : locationAtCreation strtod apiVersion locAttr geoJson caV = .ok l)
    (h₀ : locAttr = "" → geoJson = []) :
    (l.currentLocAttrName = "" ∧ l.geoJson = []) ∨ l = ⟨locAttr, geoJson⟩ ∨
      ∃ ca ∈ caV, ca.name = l.currentLocAttrName ∧ getGeoJson strtod ca apiVersion = .ok l.geoJson := by
  induction caV generalizing locAttr geoJson with
  | nil =>
    cases h
    exact Or.inr (Or.inl rfl)
  | cons ca caV ih =>
    have hrest : ∀ cb ∈ caV, cb.name ≠ "" := fun cb hcb => hnames cb (List.mem_cons_of_mem _ hcb)
    simp only [locationAtCreation] at h
    split at h
    · rcases ih hrest h h₀ with hnone | hsame | ⟨cb, hcb, hname, hgeo⟩
      · exact Or.inl hnone
      · exact Or.inr (Or.inl hsame)
      · exact Or.inr (Or.inr ⟨cb, List.mem_cons_of_mem _ hcb, hname, hgeo⟩)
    · split at h
      · cases h
      · rename_i hloc
        split at h
        · cases h
        · split at h
          · cases h
          · rename_i g hg
            have hnil := h₀ (not_not.1 hloc)
            subst hnil
            rw [List.nil_append] at h
            have hne := hnames ca (List.mem_cons_self ..)
            rcases ih hrest h (fun he => absurd he hne) with hnone | rfl | ⟨cb, hcb, hname, hgeo⟩
            · exact Or.inl hnone
            · exact Or.inr (Or.inr ⟨ca, List.mem_cons_self .., rfl, hg⟩)
            · exact Or.inr (Or.inr ⟨cb, List.mem_cons_of_mem _ hcb, hname, hgeo⟩)

private theorem location_create {eP : EntityId} {caV : List ContextAttribute} (hwf : WellFormedRequest apiVersion caV)
    (h : createEntity env eP caV apiVersion = .ok d) :
    LocationMatches env.strtod apiVersion d ∧ NoIntValues d.attrs := by
  have hattrs := (createEntity_doc h).1
  have hlookup := lookup_vector (fun ca => .object (createdAttribute env.getCurrentTime ca apiVersion)) [] hwf.keys_nodup
  rw [List.append_nil, ← hattrs] at hlookup
  refine ⟨fun l hl => ?_, fun k v hk n => ?_⟩
  · obtain ⟨s, hs, hloc⟩ := createEntity_location h
    rw [hloc] at hl
    split at hl
    · rename_i hne
      cases hl
      have hnames : ∀ ca ∈ caV, ca.name ≠ "" := by
        intro ca hca
        obtain ⟨c, hc⟩ := hwf.accepted ca hca
        exact ContextAttribute.name_ne_of_check hc
      rcases locationAtCreation_source hnames hs (fun _ => rfl) with ⟨hnone, -⟩ | rfl | ⟨ca, hca, hname, hgeo⟩
      · exact absurd hnone hne
      · exact absurd rfl hne
      · exact matches_of_says hwf hca (hlookup.1 ca hca)
          (says_of_hasForm (hwf.typed ca hca) (hasForm_createdAttribute _ _ _)) hname hgeo
    · cases hl
  · rcases hlookup.2 k v hk with ⟨ca, -, rfl⟩ | hnil
    · rw [embeddedObject, (hasForm_createdAttribute _ _ _).1]
      exact valueBson_ne_int ca n
    · cases hnil

variable (action r) in
private theorem processed_keys_nodup (hwf : WellFormedRequest apiVersion ceP.contextAttributeVector) :
    ((processed action r ceP).map ContextAttribute.key).Nodup :=
  hwf.keys_nodup.sublist (processed_sublist.map _)

private theorem location_replace (ha : ActionType.ofString action = .replace)
    (hwf : WellFormedRequest apiVersion ceP.contextAttributeVector)
    (hcond : LocationCondition env.strtod apiVersion r (processed action r ceP) .replace)
    (hok : (attributeLoop env (responseEntity r) r.attrs apiVersion action (initialProcessing r)
      (requestAttributes action r ceP.contextAttributeVector)).ok = true)
    (happ : applyUpdate r (updatedEntity env.getCurrentTime action r
      (processAttributes env apiVersion action r ceP.contextAttributeVector)) = some d) :
    LocationMatches env.strtod apiVersion d ∧ NoIntValues d.attrs := by
  have hd := updateEntity_replaced ha hok happ
  have hattrs := congrArg EntityDoc.attrs hd
  have hlocation := congrArg EntityDoc.location hd
  simp only at hattrs hlocation
  have hlookup := lookup_vector (fun ca => .object (replacedAttribute env.getCurrentTime ca apiVersion))
    ((finalLocation r (processAttributes env apiVersion action r
      ceP.contextAttributeVector).processing).toList.map fun l => ("location", l.toBson))
    (processed_keys_nodup action r hwf)
  rw [← hattrs] at hlookup
  refine ⟨fun l hl => ?_, fun k v hk n => ?_⟩
  · rw [hlocation] at hl
    obtain ⟨ca, hca, hname, hgeo⟩ := hcond l hl
    have hmem := mem_of_mem_processed hca
    exact matches_of_says hwf hmem (hlookup.1 ca hca)
      (says_of_hasForm (hwf.typed ca hmem) (hasForm_replacedAttribute _ _ _)) hname hgeo
  · rcases hlookup.2 k v hk with ⟨ca, -, rfl⟩ | hloc
    · rw [embeddedObject, (hasForm_replacedAttribute _ _ _).1]
      exact valueBson_ne_int ca n
    · -- the location among the attributes has no value
      rcases hf : finalLocation r (processAttributes env apiVersion action r
        ceP.contextAttributeVector).processing with _ | l
      · rw [hf] at hloc
        cases hloc
      · rw [hf] at hloc
        simp only [Option.toList_some, List.map_cons, List.map_nil, lookup_cons_eq] at hloc
        split at hloc
        · cases hloc
          simp [Location.toBson, embeddedObject, lookup_cons_eq]
        · cases hloc

/-- The values that an update leaves are no integers. -/
private theorem attributeAfter_ne_int {now : Int} {attrs : BSONObj} {a : ActionType} {ca : ContextAttribute} {w : BSONValue}
    (hint : NoIntValues attrs) (h : attributeAfter now attrs apiVersion a ca = some w) (n : Int) :
    (embeddedObject w).lookup "value" ≠ some (.int n) := by
  have hmerged : ∀ attr, attrs.lookup ca.key = some attr →
      (mergeAttrInfo now (embeddedObject attr) ca apiVersion).1.lookup "value" ≠ some (.int n) := by
    intro attr hk
    rw [lookup_value_mergeAttrInfo]
    unfold mergedValue
    split
    · split
      · simp
      · simp
      · rename_i v hv hnint
        intro he
        obtain rfl : v = .int n := by simpa using he
        exact hint _ _ hk n (by assumption)
    · exact valueBson_ne_int ca n
  rcases attributeAfter_cases h with hk | ⟨attr, hk, rfl⟩ | rfl
  · exact hint _ _ hk n
  · exact hmerged attr hk
  · rw [embeddedObject, (hasForm_appendedAttribute _ _ _).1]
    exact valueBson_ne_int ca n

private theorem location_written
    (ha : ActionType.ofString action = .update ∨ ActionType.ofString action = .append ∨
      ActionType.ofString action = .appendStrict ∨ ActionType.ofString action = .delete)
    (hinv : LocationMatches env.strtod apiVersion r ∧ NoIntValues r.attrs)
    (hwf : WellFormedRequest apiVersion ceP.contextAttributeVector)
    (hdots : ∀ ca ∈ processed action r ceP, '.' ∉ ca.getId.toList)
    (hcond : FollowsValues env.strtod r.attrs apiVersion (ActionType.ofString action)
      ((r.location.map Location.coords).getD []) ((r.location.map Location.attrName).getD "") [] (processed action r ceP))
    (hok : (attributeLoop env (responseEntity r) r.attrs apiVersion action (initialProcessing r)
      (requestAttributes action r ceP.contextAttributeVector)).ok = true)
    (happ : applyUpdate r (updatedEntity env.getCurrentTime action r
      (processAttributes env apiVersion action r ceP.contextAttributeVector)) = some d) :
    LocationMatches env.strtod apiVersion d ∧ NoIntValues d.attrs := by
  have hrepl : ActionType.ofString action ≠ .replace := by
    intro h
    simp [h] at ha
  have hkeys : SimpleKeys (processed action r ceP) := ⟨hdots, processed_keys_nodup action r hwf⟩
  obtain ⟨hlook, hframe⟩ := lookup_updated hrepl hkeys hok happ
  have hstored : ∀ ca ∈ processed action r ceP, ActionType.ofString action ≠ .delete →
      missing r.attrs (ActionType.ofString action) ca = false → ∀ l : Location, ca.name = l.attrName →
      getGeoJson env.strtod ca apiVersion = .ok l.coords → ∃ k v, d.attrs.lookup k = some v ∧ keyName k = l.attrName ∧
        storedGeoJson env.strtod apiVersion k v = .ok l.coords := by
    intro ca hca hdel hmiss l hname hgeo
    have hmem := mem_of_mem_processed hca
    have hset : ActionType.ofString action = .update ∨ ActionType.ofString action = .append ∨
        ActionType.ofString action = .appendStrict := by
      rcases ha with h | h | h | h
      · exact Or.inl h
      · exact Or.inr (Or.inl h)
      · exact Or.inr (Or.inr h)
      · exact absurd h hdel
    obtain ⟨w, hw, hsaid⟩ := attributeAfter_says hset hmiss (hwf.typed ca hmem) hinv.2
    exact matches_of_says hwf hmem ((hlook ca hca).trans hw) hsaid hname hgeo
  refine ⟨fun l hl => ?_, fun k v hk n => ?_⟩
  · obtain ⟨statusCode, hp⟩ := processAttributes_processing hok
    obtain ⟨g, hrun, hgeo⟩ := attributeLoop_location hok
    have hinit : LocationSound env.strtod r.attrs apiVersion (ActionType.ofString action) r.location
        ((r.location.map Location.attrName).getD "") [] [] := by
      rcases hr : r.location with _ | l₀
      · exact Or.inl rfl
      · exact Or.inr (Or.inr ⟨rfl, l₀, rfl, rfl, fun ca hca => by cases hca⟩)
    have hsound := locationRun_sound ha hinit hcond hrun
    rw [List.nil_append, List.nil_append] at hsound
    have hgeo' : (attributeLoop env (responseEntity r) r.attrs apiVersion action (initialProcessing r)
        (requestAttributes action r ceP.contextAttributeVector)).processing.geoJson = g := hgeo
    rw [congrArg EntityDoc.location (updateEntity_written hrepl hok happ).2, hp] at hl
    unfold finalLocation at hl
    split at hl
    · rename_i hcur
      simp only at hcur hl
      rw [hgeo'] at hl
      rcases hsound with hnone | ⟨hg, hdel, ca, hca, hname, hmiss, hjson⟩ | ⟨hg, l₀, hl₀, hname, hdone⟩
      · exact absurd hnone hcur
      · have hlen : g.length > 0 := List.length_pos_of_ne_nil hg
        rw [if_pos hlen] at hl
        cases hl
        exact hstored ca hca hdel hmiss _ hname hjson
      · subst hg
        rw [if_neg (by simp), hl₀] at hl
        obtain rfl : l₀ = l := by
          rw [← Option.some.inj hl, hname]
          rfl
        -- the attribute that has the location is updated with the same coordinates, or not at all
        obtain ⟨k, v, hk, hkn, hkgeo⟩ := hinv.1 l₀ hl₀
        by_cases hmem : k ∈ (processed action r ceP).map ContextAttribute.key
        · obtain ⟨ca, hca, rfl⟩ := List.mem_map.1 hmem
          have hcan : ca.name = l₀.attrName := by
            rw [← hkn, hwf.keyName (mem_of_mem_processed hca)]
          have hfield : hasField r.attrs ca.key = true := by simp [hasField, hk]
          obtain ⟨hdel, hjson⟩ := hdone ca hca (hcan.trans hname.symm)
          refine hstored ca hca hdel ?_ l₀ hcan (hjson hfield)
          unfold missing
          split <;> simp [hfield]
        · exact ⟨k, v, (hframe k hmem).trans hk, hkn, hkgeo⟩
    · cases hl
  · by_cases hmem : k ∈ (processed action r ceP).map ContextAttribute.key
    · obtain ⟨ca, hca, rfl⟩ := List.mem_map.1 hmem
      exact attributeAfter_ne_int hinv.2 ((hlook ca hca).symm.trans hk) n
    · exact hinv.2 k v ((hframe k hmem).symm.trans hk) n

private theorem location_update {strtod : String → Strtod}
    (hinv : LocationMatches strtod apiVersion r ∧ NoIntValues r.attrs) {v : ApiVersion}
    (hcond : (locationConditions strtod apiVersion).update env v action ceP r)
    (h : (updateEntity env v action ceP r).doc = some d) :
    LocationMatches strtod apiVersion d ∧ NoIntValues d.attrs := by
  obtain ⟨rfl, rfl, hwf, hloc⟩ := hcond
  rcases updateEntity_cases env v action ceP r with ⟨-, hd⟩ | ⟨d', hd', -, hok, hmod, happ⟩
  · rcases hd with hd | ⟨hd, -⟩
    · rw [hd] at h
      cases h
      exact hinv
    · rw [hd] at h
      cases h
  · rw [hd'] at h
    cases h
    rcases ha : ActionType.ofString action with _ | _ | _ | _ | _ | _
    all_goals rw [ha] at hloc
    · exact location_written (by simp [ha]) hinv hwf hloc.1 (by rw [ha]; exact hloc.2) hok happ
    · exact location_written (by simp [ha]) hinv hwf hloc.1 (by rw [ha]; exact hloc.2) hok happ
    · exact location_written (by simp [ha]) hinv hwf hloc.1 (by rw [ha]; exact hloc.2) hok happ
    · exact location_written (by simp [ha]) hinv hwf hloc.1 (by rw [ha]; exact hloc.2) hok happ
    · exact location_replace ha hwf hloc hok happ
    · exact absurd ha (action_known_of_modified hmod)

end Documents

/-- In every run in one version of the API whose requests meet the conditions, the location of every stored entity is
the one of an attribute that is stored. -/
theorem location_matches_of_reachable {strtod : String → Strtod} {apiVersion : ApiVersion} {store : List EntityDoc}
    (h : Reachable (locationConditions strtod apiVersion) store) :
    ∀ d ∈ store, LocationMatches strtod apiVersion d := by
  have hinv : ∀ d ∈ store, LocationMatches strtod apiVersion d ∧ NoIntValues d.attrs := by
    refine run_invariant ?_ ?_ h
    · rintro env v eP caV d ⟨rfl, rfl, hwf⟩ hc
      exact location_create hwf hc
    · intro env v action ceP r d hinv hcond hu
      exact location_update hinv hcond hu
  exact fun d hd => (hinv d hd).1

/-- The attribute `p` with a position. -/
def position (value : String) : ContextAttribute := { name := "p", type := GEO_POINT, stringValue := value }

def positionRequest (value : String) : ContextElement :=
  { entityId := { id := "E", type := "T" }, contextAttributeVector := [position value] }

/-- An entity that is created with the position `1, 2`. -/
def placedEntity : EntityDoc :=
  { id := "E", type := "T", servicePath := "/", attrNames := ["p"]
    attrs := [("p", .object (createdAttribute 1 (position "1, 2") .v1))], creDate := some 1, modDate := some 1
    location := some ⟨"p", geometry "Point" [.double (.fin 2), .double (.fin 1)]⟩ }

private theorem position_wellFormed (value : String) (h : (position value).check false .v1 .other = "OK") :
    WellFormedRequest .v1 [position value] where
  accepted := fun ca hca => ⟨false, by rw [List.mem_singleton.1 hca]; exact h⟩
  plain := by
    intro ca hca
    rw [List.mem_singleton.1 hca]
    rintro (hv | hv) <;> exact absurd hv (by simp [position])
  typed := fun _ _ hv => by cases hv
  splittable := by
    intro ca hca
    rw [List.mem_singleton.1 hca]
    show Splittable "p" ""
    decide
  distinct := rfl

/-- Create an entity with a position and update the position: the location is the new one. -/
theorem location_matches_updated :
    ∃ d, (updateEntity (.quiet 2) .v1 "UPDATE" (positionRequest "3, 4") placedEntity).doc = some d ∧
      d.location = some ⟨"p", geometry "Point" [.double (.fin 4), .double (.fin 3)]⟩ ∧
      LocationMatches strtodDigits .v1 d := by
  have hcreate : EntityStep (locationConditions strtodDigits .v1) [] [placedEntity] :=
    @EntityStep.create _ (.quiet 1) .v1 { id := "E", type := "T" } [position "1, 2"] _ []
      ⟨rfl, rfl, position_wellFormed _ (by decide)⟩ (by decide)
  have hupdate : EntityStep (locationConditions strtodDigits .v1) [placedEntity]
      ([] ++ (updateEntity (.quiet 2) .v1 "UPDATE" (positionRequest "3, 4") placedEntity).doc.toList ++ []) := by
    refine @EntityStep.update _ (.quiet 2) .v1 "UPDATE" (positionRequest "3, 4") placedEntity [] []
      ⟨rfl, rfl, position_wellFormed _ (by decide), ?_⟩
    rw [show ActionType.ofString "UPDATE" = .update by decide]
    refine ⟨by decide, fun l _ => ⟨⟨fun _ => ⟨rfl, by decide, by decide⟩, fun ha => ?_⟩, trivial⟩⟩
    rcases ha with ha | ha <;> cases ha
  have hlocation : (updateEntity (.quiet 2) .v1 "UPDATE" (positionRequest "3, 4") placedEntity).doc.map
      EntityDoc.location = some (some ⟨"p", geometry "Point" [.double (.fin 4), .double (.fin 3)]⟩) := by
    decide
  obtain ⟨d, hd, hl⟩ := Option.map_eq_some_iff.1 hlocation
  refine ⟨d, hd, hl, location_matches_of_reachable ((Relation.ReflTransGen.single hcreate).tail hupdate) d ?_⟩
  simp [hd]

/-- Every request is well formed, and nothing else is asked of it. -/
def wellFormedConditions (strtod : String → Strtod) (apiVersion : ApiVersion) : StepConditions where
  create := fun env v caV => v = apiVersion ∧ env.strtod = strtod ∧ WellFormedRequest apiVersion caV
  update := fun env v _ ceP _ =>
    v = apiVersion ∧ env.strtod = strtod ∧ WellFormedRequest apiVersion ceP.contextAttributeVector

/-- Append a new value to the attribute that holds the position: the coordinates stay the old ones. -/
theorem location_stale :
    ∃ d, Reachable (wellFormedConditions strtodDigits .v1) [d] ∧ ¬ LocationMatches strtodDigits .v1 d := by
  have hcreate : EntityStep (wellFormedConditions strtodDigits .v1) [] [placedEntity] :=
    @EntityStep.create _ (.quiet 1) .v1 { id := "E", type := "T" } [position "1, 2"] _ []
      ⟨rfl, rfl, position_wellFormed _ (by decide)⟩ (by decide)
  have happend : EntityStep (wellFormedConditions strtodDigits .v1) [placedEntity]
      ([] ++ (updateEntity (.quiet 2) .v1 "APPEND" (positionRequest "3, 4") placedEntity).doc.toList ++ []) :=
    @EntityStep.update _ (.quiet 2) .v1 "APPEND" (positionRequest "3, 4") placedEntity [] []
      ⟨rfl, rfl, position_wellFormed _ (by decide)⟩
  have hdoc : (updateEntity (.quiet 2) .v1 "APPEND" (positionRequest "3, 4") placedEntity).doc =
      some { placedEntity with
        attrs := [("p", .object (mergeAttrInfo 2 (createdAttribute 1 (position "1, 2") .v1) (position "3, 4") .v1).1)]
        modDate := some 2 } := by
    decide
  rw [hdoc] at happend
  refine ⟨_, (Relation.ReflTransGen.single hcreate).tail happend, fun h => ?_⟩
  obtain ⟨k, v, hk, -, hgeo⟩ := h _ rfl
  simp only [lookup_cons_eq] at hk
  split at hk
  · rename_i hkp
    cases hk
    subst hkp
    exact absurd hgeo (by decide)
  · cases hk

end OrionBroker
