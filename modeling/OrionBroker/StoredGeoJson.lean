import OrionBroker.Reflected

/-!
# The GeoJSON of a stored attribute

The location of a document is computed from an attribute of a request, but it is meant to be the one of the attribute
as it is stored.  An attribute that was read from the database has the GeoJSON that it had in the request
(`getGeoJson_stored`): strings and vectors of strings come back as they were, and the BSON of an object is the one
that it is read from.
-/

namespace OrionBroker

open Bson
open CompoundValueNode (isVector isObject)

variable {strtod : String → Strtod} {apiVersion : ApiVersion} {ca : ContextAttribute} {o g : BSONObj} {n : String}

private theorem string2coords_empty : string2coords strtod "" = none := by
  simp [string2coords, wsStrip]

/-- An attribute whose coordinates are read from its string has no other value. -/
private theorem valueBson_of_coords (hplain : ca.PlainString) {c : Double × Double}
    (h : string2coords strtod ca.stringValue = some c) :
    ca.stringValue ≠ "" ∧ ca.valueType = .string ∧ ca.valueBson = [("value", .string ca.stringValue)] := by
  have hne : ca.stringValue ≠ "" := by
    intro he
    rw [he, string2coords_empty] at h
    cases h
  have hvt : ca.valueType = .string := by
    by_contra hvt
    exact hne (hplain (Or.inl hvt))
  have hcv : ca.compoundValueP = none := by
    rcases hcv : ca.compoundValueP with _ | t
    · rfl
    · exact absurd (hplain (Or.inr (by simp [hcv]))) hne
  exact ⟨hne, hvt, by simp [ContextAttribute.valueBson, hcv, ContextAttribute.bsonAppendAttrValue, hvt]⟩

private theorem lookup_value_of_says (hsaid : Says apiVersion o ca) (habs : attributeValueAbsent ca apiVersion = false)
    {v : BSONValue} (hv : ca.valueBson = [("value", v)]) (hne : v ≠ .string "") : o.lookup "value" = some v := by
  have h := hsaid.1 habs v (by simp [hv])
  rcases hl : o.lookup "value" with _ | w
  · rw [hl] at h
    exact absurd h.symm hne
  · rw [hl] at h
    exact congrArg some h

private theorem childCoords_readBack (ix : Nat) {cs : List CompoundValueNode} {coords : List (Double × Double)}
    (h : childCoords strtod cs = .ok coords) :
    childCoords strtod (compoundVectorResponse ix (compoundValueBsonArray cs)) = .ok coords := by
  induction cs generalizing ix coords with
  | nil => exact h
  | cons c cs ih =>
    cases c with
    | string name s =>
      simp only [childCoords] at h
      split at h
      · cases h
      · rename_i p hp
        rcases hcs : childCoords strtod cs with e | rest
        · rw [hcs] at h
          cases h
        · rw [hcs] at h
          simp only [compoundValueBsonArray, childBson, compoundVectorResponse, addCompoundNode, childCoords, hp]
          rw [ih (ix + 1) hcs]
          exact h
    | number | boolean | none | vector | object => cases h

/-- In v2 only the geo types have a GeoJSON. -/
private theorem geoType_of_getGeoJson (h : getGeoJson strtod ca .v2 = .ok g) : ca.type ≠ "" := by
  intro ht
  unfold getGeoJson at h
  simp only [ht, reduceCtorEq, false_or] at h
  rw [if_neg (by decide), if_neg (by decide)] at h
  split at h
  · cases h
  · rw [if_neg (by decide), if_neg (by decide), if_neg (by decide)] at h
    cases h

/-- The GeoJSON of a compound value depends on the BSON of an object and on the coordinates in a vector. -/
private theorem getGeoJson_compound {ca' : ContextAttribute} (hpoint : ca.type ≠ GEO_POINT) (htype : ca'.type = ca.type)
    (hobject : ∀ m path cs, ca.compoundValueP = some (.object m path cs) →
      ∃ m' path' cs', ca'.compoundValueP = some (.object m' path' cs') ∧ compoundValueBson cs' = compoundValueBson cs)
    (hvector : ∀ coords, stringArray2coords strtod ca = .ok coords → stringArray2coords strtod ca' = .ok coords)
    (h : getGeoJson strtod ca .v2 = .ok g) : getGeoJson strtod ca' .v2 = .ok g := by
  have hnot : ∀ t : String, t ≠ GEO_POINT → ¬ (ApiVersion.v2 = .v1 ∨ t = GEO_POINT) := by
    rintro t ht (hv | hv)
    · cases hv
    · exact ht hv
  unfold getGeoJson at h ⊢
  rw [if_neg (hnot _ hpoint)] at h
  rw [htype, if_neg (hnot _ hpoint)]
  by_cases hjson : ca.type = GEO_JSON
  · rw [if_pos hjson] at h ⊢
    split at h
    · rename_i m path cs hcv
      obtain ⟨m', path', cs', hcv', hbson⟩ := hobject m path cs hcv
      rw [hcv']
      simp only [hbson]
      exact h
    · cases h
  · rw [if_neg hjson] at h ⊢
    split at h
    · cases h
    · rename_i coords hcoords
      rw [hvector coords hcoords]
      exact h

/-- An attribute that is stored as requested has the GeoJSON of the request. -/
theorem getGeoJson_stored (hplain : ca.PlainString) (hsaid : Says apiVersion o ca)
    (h : getGeoJson strtod ca apiVersion = .ok g) :
    getGeoJson strtod (attributeOfBson n (getStringFieldF o "type") (o.lookup "value")) apiVersion = .ok g := by
  have htype : apiVersion = .v1 ∨ getStringFieldF o "type" = ca.type := by
    cases apiVersion with
    | v1 => exact Or.inl rfl
    | v2 => exact Or.inr (hsaid.2 (geoType_of_getGeoJson h))
  by_cases hpoint : apiVersion = .v1 ∨ ca.type = GEO_POINT
  · -- the coordinates are in the string
    have hpoint' : apiVersion = .v1 ∨ getStringFieldF o "type" = GEO_POINT := by
      rcases hpoint with hv | ht
      · exact Or.inl hv
      · exact htype.imp_right fun he => he.trans ht
    unfold getGeoJson at h
    rw [if_pos hpoint] at h
    split at h
    · cases h
    · rename_i lat lon hc
      obtain ⟨hne, hvt, hvalue⟩ := valueBson_of_coords hplain hc
      have hstored := lookup_value_of_says hsaid (by simp [attributeValueAbsent, hvt]) hvalue (by simpa using hne)
      rw [hstored]
      unfold getGeoJson
      rw [if_pos (show apiVersion = .v1 ∨
        (attributeOfBson n (getStringFieldF o "type") (some (.string ca.stringValue))).type = GEO_POINT from hpoint')]
      simp only [attributeOfBson, ContextAttribute.ofString, hc]
      exact h
  · have hv2 : apiVersion = .v2 := by
      cases apiVersion with
      | v1 => exact absurd (Or.inl rfl) hpoint
      | v2 => rfl
    subst hv2
    have htype' : getStringFieldF o "type" = ca.type := by
      rcases htype with h' | h'
      · cases h'
      · exact h'
    have hcv : ∃ t, ca.compoundValueP = some t := by
      unfold getGeoJson at h
      rw [if_neg hpoint] at h
      rcases hc : ca.compoundValueP with _ | t
      · simp only [hc, stringArray2coords] at h
        split at h <;> cases h
      · exact ⟨t, rfl⟩
    obtain ⟨t, hcv⟩ := hcv
    have hstored : t.isVector = true ∨ t.isObject = true → o.lookup "value" = some (childBson t) := by
      intro hroot
      refine lookup_value_of_says hsaid (by simp [attributeValueAbsent])
        (show ca.valueBson = [("value", childBson t)] by simp [ContextAttribute.valueBson, hcv]) ?_
      cases t <;> simp [childBson, isVector, isObject] at hroot ⊢
    refine getGeoJson_compound (fun ht => hpoint (Or.inr ht)) ?_ ?_ ?_ h
    · rw [← htype']
      unfold attributeOfBson
      split <;> rfl
    · intro m path cs hobj
      rw [hcv] at hobj
      cases hobj
      rw [hstored (Or.inr rfl)]
      exact ⟨_, _, _, rfl, compoundValueBson_readBack cs⟩
    · intro coords hcoords
      unfold stringArray2coords at hcoords ⊢
      rw [hcv] at hcoords
      split at hcoords
      · rename_i m cs heq
        cases heq
        rw [hstored (Or.inl rfl)]
        simp only [childBson, attributeOfBson, ContextAttribute.ofString]
        exact childCoords_readBack 0 hcoords
      · cases hcoords

end OrionBroker
