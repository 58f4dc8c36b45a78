import OrionBroker.UpdateEntity

/-!
# The provider of an attribute (`MongoGlobal.cpp`)

`cprLookupByAttribute` looks for two providers: one that is registered for the attribute, and one that is registered
for the whole entity.  It returns with the first of the former and goes through all the registrations for the last of
the latter, so the former is preferred in every order of the registrations (`provider_of_permutation`).
-/

namespace OrionBroker

/-- A registration with an entity that matches. -/
def ContextRegistration.Matches (crr : ContextRegistration) (en : EntityId) : Prop :=
  ∃ regEn ∈ crr.entityIdVector, regEn.id = en.id ∧ (regEn.type = en.type ∨ regEn.type = "")

/-- A matching registration that lists the attribute. -/
def ContextRegistration.Lists (crr : ContextRegistration) (en : EntityId) (attrName : String) : Prop :=
  crr.Matches en ∧ attrName ∈ crr.contextRegistrationAttributeVector

/-- A matching registration that lists no attributes. -/
def ContextRegistration.ListsNone (crr : ContextRegistration) (en : EntityId) : Prop :=
  crr.Matches en ∧ crr.contextRegistrationAttributeVector = []

theorem any_registrationMatches_iff {crr : ContextRegistration} {en : EntityId} :
    (crr.entityIdVector.any fun regEn => regEn.registrationMatches en) = true ↔ crr.Matches en := by
  simp [ContextRegistration.Matches, EntityId.registrationMatches]

theorem not_lists_of_listsNone {crr : ContextRegistration} {en : EntityId} (h : crr.ListsNone en) (attrName : String) :
    ¬crr.Lists en attrName := by
  rintro ⟨-, hmem⟩
  rw [h.2] at hmem
  cases hmem

section Lookup

variable {en : EntityId} {attrName : String} {crrV : List ContextRegistration}

/-- The provider for the attribute, if some registration lists it. -/
theorem lookup_lists (h : ∃ crr ∈ crrV, crr.Lists en attrName) (perEntPa : String) :
    ∃ crr ∈ crrV, crr.Lists en attrName ∧ (cprLookupByAttribute en attrName perEntPa crrV).2 = crr.providingApplication := by
  induction crrV generalizing perEntPa with
  | nil => simp at h
  | cons crr crrV ih =>
    -- the registrations behind this one, if it does not list the attribute
    have hrest (hnot : ¬crr.Lists en attrName) (perEntPa : String) :
        ∃ crr' ∈ crr :: crrV, crr'.Lists en attrName ∧
          (cprLookupByAttribute en attrName perEntPa crrV).2 = crr'.providingApplication := by
      have htail : ∃ crr ∈ crrV, crr.Lists en attrName := by
        obtain ⟨crr', hmem, hlists⟩ := h
        rcases List.mem_cons.1 hmem with rfl | hmem
        · exact absurd hlists hnot
        · exact ⟨crr', hmem, hlists⟩
      obtain ⟨crr', hmem, hlists, hpa⟩ := ih htail perEntPa
      exact ⟨crr', List.mem_cons_of_mem _ hmem, hlists, hpa⟩
    rw [cprLookupByAttribute]
    split
    · rename_i hmatches
      rw [any_registrationMatches_iff] at hmatches
      split
      · rename_i hnone
        exact hrest (not_lists_of_listsNone ⟨hmatches, hnone⟩ attrName) _
      · split
        · rename_i hattr
          exact ⟨crr, List.mem_cons_self, ⟨hmatches, hattr⟩, rfl⟩
        · rename_i hattr
          exact hrest (fun hlists => hattr hlists.2) _
    · rename_i hmatches
      rw [any_registrationMatches_iff] at hmatches
      exact hrest (fun hlists => hmatches hlists.1) _

/-- Otherwise there is only the provider for the entity, the one that is given if no registration has one. -/
theorem lookup_not_lists (h : ∀ crr ∈ crrV, ¬crr.Lists en attrName) (perEntPa : String) :
    (cprLookupByAttribute en attrName perEntPa crrV).2 = "" ∧
      (((∀ crr ∈ crrV, ¬crr.ListsNone en) ∧ (cprLookupByAttribute en attrName perEntPa crrV).1 = perEntPa) ∨
        ∃ crr ∈ crrV, crr.ListsNone en ∧
          (cprLookupByAttribute en attrName perEntPa crrV).1 = crr.providingApplication) := by
  induction crrV generalizing perEntPa with
  | nil => simp [cprLookupByAttribute]
  | cons crr crrV ih =>
    rw [List.forall_mem_cons] at h
    have ih := ih h.2
    rw [cprLookupByAttribute]
    split
    · rename_i hmatches
      rw [any_registrationMatches_iff] at hmatches
      split
      · rename_i hnone
        have hcrr : crr.ListsNone en := ⟨hmatches, hnone⟩
        obtain ⟨hattr, ⟨-, hpa⟩ | ⟨crr', hmem, hlists, hpa⟩⟩ := ih crr.providingApplication
        · exact ⟨hattr, .inr ⟨crr, List.mem_cons_self, hcrr, hpa⟩⟩
        · exact ⟨hattr, .inr ⟨crr', List.mem_cons_of_mem _ hmem, hlists, hpa⟩⟩
      · rename_i hsome
        split
        · rename_i hattr
          exact absurd ⟨hmatches, hattr⟩ h.1
        · obtain ⟨hattr, ⟨hnone, hpa⟩ | ⟨crr', hmem, hlists, hpa⟩⟩ := ih perEntPa
          · refine ⟨hattr, .inl ⟨?_, hpa⟩⟩
            exact List.forall_mem_cons.2 ⟨fun hcrr => hsome hcrr.2, hnone⟩
          · exact ⟨hattr, .inr ⟨crr', List.mem_cons_of_mem _ hmem, hlists, hpa⟩⟩
    · rename_i hmatches
      rw [any_registrationMatches_iff] at hmatches
      obtain ⟨hattr, ⟨hnone, hpa⟩ | ⟨crr', hmem, hlists, hpa⟩⟩ := ih perEntPa
      · refine ⟨hattr, .inl ⟨?_, hpa⟩⟩
        exact List.forall_mem_cons.2 ⟨fun hcrr => hmatches hcrr.1, hnone⟩
      · exact ⟨hattr, .inr ⟨crr', List.mem_cons_of_mem _ hmem, hlists, hpa⟩⟩

end Lookup

/-- The attribute `ca'` is what becomes of `ca` with these registrations: it is found if and only if one of them has the
attribute or the whole entity, and its provider is one that lists the attribute, if there is any. -/
structure ProvidedBy (en : EntityId) (crrV : List ContextRegistration) (ca ca' : ContextAttribute) : Prop where
  only : ca' = { ca with providingApplication := ca'.providingApplication, found := ca'.found }
  found : ca'.found = true ↔ ∃ crr ∈ crrV, crr.Lists en ca.name ∨ crr.ListsNone en
  provider : (∃ crr ∈ crrV, crr.Lists en ca.name) →
    ∃ crr ∈ crrV, crr.Lists en ca.name ∧ ca'.providingApplication = crr.providingApplication

theorem provided_of_lookup {en : EntityId} {crrV : List ContextRegistration}
    (hpa : ∀ crr ∈ crrV, crr.providingApplication ≠ "") (ca : ContextAttribute) :
    ProvidedBy en crrV ca
      (let pa := cprLookupByAttribute en ca.name "" crrV
      let providingApplication := if pa.2 = "" then pa.1 else pa.2
      { ca with providingApplication := providingApplication, found := providingApplication ≠ "" }) := by
  by_cases hlists : ∃ crr ∈ crrV, crr.Lists en ca.name
  · obtain ⟨crr, hmem, hcrr, hattr⟩ := lookup_lists hlists ""
    have hne : (cprLookupByAttribute en ca.name "" crrV).2 ≠ "" := by
      rw [hattr]
      exact hpa crr hmem
    refine ⟨rfl, ?_, fun _ => ⟨crr, hmem, hcrr, ?_⟩⟩
    · simpa [hne] using ⟨crr, hmem, .inl hcrr⟩
    · simpa [hne] using hattr
  · have hnot : ∀ crr ∈ crrV, ¬crr.Lists en ca.name := fun crr hmem hcrr => hlists ⟨crr, hmem, hcrr⟩
    obtain ⟨hattr, hentity⟩ := lookup_not_lists hnot ""
    refine ⟨rfl, ?_, fun hsome => absurd hsome hlists⟩
    rcases hentity with ⟨hnone, hentity⟩ | ⟨crr, hmem, hcrr, hentity⟩
    · refine iff_of_false (by simp [hattr, hentity]) ?_
      rintro ⟨crr, hmem, hcrr | hcrr⟩
      · exact hnot crr hmem hcrr
      · exact hnone crr hmem hcrr
    · refine iff_of_true ?_ ⟨crr, hmem, .inr hcrr⟩
      simpa [hattr, hentity] using hpa crr hmem

theorem fillContextProviders_spec {en : EntityId} {crrV : List ContextRegistration}
    (hpa : ∀ crr ∈ crrV, crr.providingApplication ≠ "") (caV : List ContextAttribute) :
    List.Forall₂ (fun ca ca' => if ca.found = true then ca' = ca else ProvidedBy en crrV ca ca') caV
      (fillContextProviders en crrV caV) := by
  unfold fillContextProviders
  induction caV with
  | nil => exact .nil
  | cons ca caV ih =>
    refine .cons ?_ ih
    by_cases hfound : ca.found = true
    · simp only [if_pos hfound]
    · simp only [if_neg hfound]
      exact provided_of_lookup hpa ca

/-- In whatever order the registrations come, an attribute is found and provided by the same rule. -/
theorem provider_of_permutation {en : EntityId} {crrV crrV' : List ContextRegistration}
    (hpa : ∀ crr ∈ crrV, crr.providingApplication ≠ "") (hperm : crrV'.Perm crrV) (caV : List ContextAttribute) :
    List.Forall₂ (fun ca ca' => if ca.found = true then ca' = ca else ProvidedBy en crrV ca ca') caV
      (fillContextProviders en crrV' caV) := by
  have hpa' : ∀ crr ∈ crrV', crr.providingApplication ≠ "" := fun crr hmem => hpa crr (hperm.mem_iff.1 hmem)
  refine (fillContextProviders_spec hpa' caV).imp fun ca ca' h => ?_
  split
  · rename_i hfound
    rwa [if_pos hfound] at h
  · rename_i hfound
    rw [if_neg hfound] at h
    refine ⟨h.only, ?_, ?_⟩
    · rw [h.found]
      exact exists_congr fun crr => and_congr_left' hperm.mem_iff
    · rintro ⟨crr, hmem, hcrr⟩
      obtain ⟨crr', hmem', hcrr', hpa'⟩ := h.provider ⟨crr, hperm.mem_iff.2 hmem, hcrr⟩
      exact ⟨crr', hperm.mem_iff.1 hmem', hcrr', hpa'⟩

/-! ### Two registrations of a room -/

def room : EntityId := { id := "Room1", type := "Room", isPattern := "false" }

def wholeRoom : ContextRegistration where
  entityIdVector := [{ room with type := "" }]
  contextRegistrationAttributeVector := []
  providingApplication := "http://room"

def temperatureOfRoom : ContextRegistration where
  entityIdVector := [room]
  contextRegistrationAttributeVector := ["temperature"]
  providingApplication := "http://temperature"

/-- The registration of the attribute comes last in one order and first in the other. -/
theorem provider_of_room :
    List.Forall₂
      (fun ca ca' => if ca.found = true then ca' = ca else ProvidedBy room [wholeRoom, temperatureOfRoom] ca ca')
      [{ name := "temperature", type := "", found := false }]
      (fillContextProviders room [temperatureOfRoom, wholeRoom] [{ name := "temperature", type := "", found := false }]) :=
  provider_of_permutation (by simp [wholeRoom, temperatureOfRoom]) (List.Perm.swap _ _ _) _

end OrionBroker
