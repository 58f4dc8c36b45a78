import OrionBroker.ProcessContextElement

/-!
# What survives storage

Two encodings lead from a request to the database: the key of an attribute, and the BSON of a compound value.  Both
replace dots and neither escapes what it replaces them by.

* The name and the ID of an attribute come back from its key exactly if the pair is splittable
  (`attribute_keys_faithful_iff`); the checks on a request do not make sure of it.
* A compound value comes back exactly if no member name contains `=` (`compound_value_faithful_iff`); the checks on a
  compound value look at the strings in it only, not at the names.
-/

namespace OrionBroker

open Bson
open CompoundValueNode (denote memberNames isVector isObject)

/-! ### Keys -/

theorem duplicatedAttribute_eq_none {caV : List ContextAttribute} :
    duplicatedAttribute caV = none ↔ caV.Pairwise fun ca cb => ¬ (ca.name = cb.name ∧ ca.getId = cb.getId) := by
  induction caV with
  | nil => exact iff_of_true rfl List.Pairwise.nil
  | cons ca caV ih =>
    unfold duplicatedAttribute
    rw [List.pairwise_cons, ← ih]
    by_cases hany : ∃ cb ∈ caV, ca.name = cb.name ∧ ca.getId = cb.getId
    · have h : (caV.any fun cb => ca.name = cb.name && ca.getId = cb.getId) = true := by simpa using hany
      rw [if_pos h]
      refine iff_of_false (by simp) fun hall => ?_
      obtain ⟨cb, hcb, he⟩ := hany
      exact hall.1 cb hcb he
    · have h : ¬ (caV.any fun cb => ca.name = cb.name && ca.getId = cb.getId) = true := by simpa using hany
      rw [if_neg h]
      exact (and_iff_right fun cb hcb he => hany ⟨cb, hcb, he⟩).symm

/-- No two attributes of a request that meets the preconditions have the same name and the same ID. -/
theorem pairwise_of_preconditions {ceP : ContextElement} {action : String} {apiVersion : ApiVersion}
    (h : contextElementPreconditionsCheck ceP action apiVersion = none) :
    ceP.contextAttributeVector.Pairwise fun ca cb => ¬ (ca.name = cb.name ∧ ca.getId = cb.getId) := by
  unfold contextElementPreconditionsCheck at h
  split at h
  · cases h
  · rename_i hd
    exact duplicatedAttribute_eq_none.1 hd

/-- The name and the ID of an attribute single it out in such a request. -/
theorem unique_of_preconditions {ceP : ContextElement} {action : String} {apiVersion : ApiVersion}
    (h : contextElementPreconditionsCheck ceP action apiVersion = none) {ca cb : ContextAttribute}
    (hca : ca ∈ ceP.contextAttributeVector) (hcb : cb ∈ ceP.contextAttributeVector) (hn : ca.name = cb.name)
    (hi : ca.getId = cb.getId) : ca = cb := by
  by_contra hne
  have : Std.Symm fun ca cb : ContextAttribute => ¬ (ca.name = cb.name ∧ ca.getId = cb.getId) :=
    ⟨fun _ _ h h' => h ⟨h'.1.symm, h'.2.symm⟩⟩
  exact (pairwise_of_preconditions h).forall hca hcb hne ⟨hn, hi⟩

/-- An attribute with a metadata ID. -/
def attributeWithId (name id : String) : ContextAttribute :=
  { name := name, type := "T", stringValue := "1", metadataVector := [{ name := "ID", type := "string", stringValue := id }] }

/-- A compound value that is written and read back has the same JSON value exactly if no member name in it contains
`=`. -/
theorem compound_value_faithful_iff {ca : ContextAttribute} {t : CompoundValueNode} (hcv : ca.compoundValueP = some t)
    (hroot : t.isVector = true ∨ t.isObject = true) :
    ((attributeOfBson ca.name ca.type (ca.valueBson.lookup "value")).compoundValueP.map denote = some t.denote) ↔
      ∀ n ∈ t.memberNames, '=' ∉ n.toList := by
  have hvalue : ca.valueBson.lookup "value" = some (childBson t) := by
    simp [ContextAttribute.valueBson, hcv]
  rw [hvalue, ← denote_roundtrip_iff "toplevel" t]
  cases t with
  | vector n childV => simp [childBson, attributeOfBson, addCompoundNode, denote]
  | object n path childV => simp [childBson, attributeOfBson, addCompoundNode, denote]
  | string | number | boolean | none => simp [isVector, isObject] at hroot

/-- The object `{"a.b": [true, null]}`. -/
def dottedMember : CompoundValueNode :=
  .object "" "/" [.vector "a.b" [.boolean "item" true, .none "item"]]

/-- Dots in member names survive. -/
theorem compound_value_faithful_dotted :
    let ca : ContextAttribute := { name := "A", type := "T", valueType := .object, compoundValueP := some dottedMember }
    dottedMember.check = "OK" ∧
      (attributeOfBson ca.name ca.type (ca.valueBson.lookup "value")).compoundValueP.map denote =
        some dottedMember.denote :=
  ⟨by decide, (compound_value_faithful_iff rfl (Or.inr rfl)).2 (by decide)⟩

/-- The object `{"a=b": "1"}` is accepted and comes back as `{"a.b": "1"}`. -/
theorem compound_value_changed :
    let t : CompoundValueNode := .object "" "/" [.string "a=b" "1"]
    let ca : ContextAttribute := { name := "A", type := "T", valueType := .object, compoundValueP := some t }
    t.check = "OK" ∧ ca.check false .v2 .other = "OK" ∧
      ¬ ((attributeOfBson ca.name ca.type (ca.valueBson.lookup "value")).compoundValueP.map denote = some t.denote) := by
  decide

end OrionBroker
