import OrionBroker.AppendStrict

/-!
# REPLACE against delete and create

A replacement and a creation build the attributes of a request with two separate pieces of code.  They differ in two
places.  The replacement always writes a metadata vector, empty when there is none, because of a stray semicolon
behind the test.  And the location that is prepared for the update of single attributes ends up among the attributes,
while the location of the document stays what it was.  `replace_eq_create_iff` says exactly when neither shows.
-/

namespace OrionBroker

open Bson

/-- Every response carries the status OK. -/
def Succeeds (responses : List ContextElementResponse) : Prop := ∀ cer ∈ responses, cer.statusCode.code = .SccOk

instance (responses : List ContextElementResponse) : Decidable (Succeeds responses) := by
  unfold Succeeds; infer_instance

/-- The document after the update has the attributes, the names and the location of another one. -/
def SameContent (u : UpdateResult) (c : EntityDoc) : Prop :=
  ∃ d, u.doc = some d ∧ d.attrs = c.attrs ∧ (∀ n, n ∈ d.attrNames ↔ n ∈ c.attrNames) ∧ d.location = c.location

section Replace

variable {env : Env} {apiVersion : ApiVersion} {action : String} {ceP : ContextElement} {r : EntityDoc}

private theorem processed_replace (ha : ActionType.ofString action = .replace)
    (hskip : ∀ ca ∈ ceP.contextAttributeVector, ca.skip = false) :
    processed action r ceP = ceP.contextAttributeVector := by
  unfold processed active requestAttributes
  rw [if_neg (by rw [ha]; decide), List.filter_eq_self]
  intro ca hca
  simp [hskip ca hca]

/-- A replacement of some attributes that succeeds is written. -/
private theorem replace_written (ha : ActionType.ofString action = .replace)
    (hskip : ∀ ca ∈ ceP.contextAttributeVector, ca.skip = false) (hne : ceP.contextAttributeVector ≠ [])
    (hs : Succeeds (updateEntity env apiVersion action ceP r).responses) :
    (updateEntity env apiVersion action ceP r).notified.isSome = true := by
  have hmod : (processAttributes env apiVersion action r ceP.contextAttributeVector).processing.statusCode.code =
      .SccOk → (processAttributes env apiVersion action r ceP.contextAttributeVector).modified = true := by
    intro hstatus
    obtain ⟨hok, -, hsubs⟩ := processAttributes_status_iff.1 hstatus
    obtain ⟨ca, cs, hcons⟩ := List.exists_cons_of_ne_nil hne
    refine processAttributes_modified_iff.2 ⟨hok, hsubs, ca, ?_, by rw [ha]; rfl⟩
    rw [processed_replace ha hskip, hcons]
    exact List.mem_cons_self ..
  unfold updateEntity at hs ⊢
  rw [if_neg (by rw [ha]; simp)] at hs ⊢
  simp only at hs ⊢
  by_cases hm : (processAttributes env apiVersion action r ceP.contextAttributeVector).modified = true
  · rw [if_pos hm] at hs ⊢
    cases hu : collectionUpdate env r (updatedEntity env.getCurrentTime action r
        (processAttributes env apiVersion action r ceP.contextAttributeVector)) with
    | error err =>
      rw [hu] at hs
      have := hs _ (List.mem_singleton.2 rfl)
      cases this
    | ok d => rfl
  · rw [if_neg hm, if_neg (by rw [ha]; decide)] at hs
    have hstatus := hs _ (List.mem_singleton.2 rfl)
    exact absurd (hmod hstatus) hm

private theorem replacedAttribute_eq_iff (now : Int) (ca : ContextAttribute) (apiVersion : ApiVersion) :
    replacedAttribute now ca apiVersion = createdAttribute now ca apiVersion ↔
      (contextAttributeCustomMetadataToBson ca (apiVersion = .v2)).isSome = true := by
  unfold replacedAttribute createdAttribute
  rcases contextAttributeCustomMetadataToBson ca (apiVersion = .v2) with _ | mdV
  · simp
  · simp

private theorem replaced_eq_created_iff (now : Int) (caV : List ContextAttribute) (apiVersion : ApiVersion)
    (l : Option Location) :
    ((caV.map fun ca => (ca.key, BSONValue.object (replacedAttribute now ca apiVersion))) ++
        (l.toList.map fun l => ("location", l.toBson)) =
      caV.map fun ca => (ca.key, .object (createdAttribute now ca apiVersion))) ↔
      l = none ∧ ∀ ca ∈ caV, (contextAttributeCustomMetadataToBson ca (apiVersion = .v2)).isSome = true := by
  constructor
  · intro h
    have hl : l = none := by
      have := congrArg List.length h
      cases l with
      | none => rfl
      | some l => simp at this
    subst hl
    refine ⟨rfl, fun ca hca => ?_⟩
    rw [Option.toList_none, List.map_nil, List.append_nil, List.map_inj_left] at h
    have := h ca hca
    rw [← replacedAttribute_eq_iff now]
    simpa using this
  · rintro ⟨rfl, h⟩
    rw [Option.toList_none, List.map_nil, List.append_nil, List.map_inj_left]
    intro ca hca
    rw [(replacedAttribute_eq_iff now ca apiVersion).2 (h ca hca)]

/-- A replacement and a creation that both succeed leave the same attributes, names and location exactly in two cases.
Either there are attributes to write, each with custom metadata, they leave no location attribute, and the location of
the document is already the one that the creation computes; or there are none, and the entity had none already. -/
theorem replace_eq_create_iff {eP : EntityId} {c : EntityDoc} (ha : ActionType.ofString action = .replace)
    (hskip : ∀ ca ∈ ceP.contextAttributeVector, ca.skip = false)
    (hc : createEntity env eP ceP.contextAttributeVector apiVersion = .ok c)
    (hs : Succeeds (updateEntity env apiVersion action ceP r).responses) :
    SameContent (updateEntity env apiVersion action ceP r) c ↔
      (ceP.contextAttributeVector ≠ [] ∧
        (∀ ca ∈ ceP.contextAttributeVector,
          (contextAttributeCustomMetadataToBson ca (apiVersion = .v2)).isSome = true) ∧
        (∃ g, locationRun env.strtod r.attrs apiVersion .replace ((r.location.map Location.attrName).getD "")
          ceP.contextAttributeVector = .ok ⟨"", g⟩) ∧
        r.location = c.location) ∨
      (ceP.contextAttributeVector = [] ∧ r.attrs = [] ∧ r.attrNames = [] ∧ r.location = none) := by
  obtain ⟨hattrs, hnames, hloc⟩ := createEntity_doc hc
  rcases updateEntity_cases env apiVersion action ceP r with ⟨hn, hd⟩ | ⟨d, hd, hn, hok, hmod, happ⟩
  · -- nothing is written, so there was nothing to write
    have hempty : ceP.contextAttributeVector = [] := by
      by_contra hne
      have := replace_written ha hskip hne hs
      rw [hn] at this
      cases this
    have hdoc : (updateEntity env apiVersion action ceP r).doc = some r := by
      rcases hd with hd | ⟨-, hdel⟩
      · exact hd
      · rw [ha] at hdel
        cases hdel
    unfold SameContent
    rw [hdoc, hattrs, hnames, hloc hempty, hempty]
    constructor
    · rintro ⟨d, hd, h1, h2, h3⟩
      cases hd
      refine Or.inr ⟨rfl, h1, ?_, h3⟩
      exact List.eq_nil_iff_forall_not_mem.2 fun n hn => by simpa using (h2 n).1 hn
    · rintro (⟨hne, -⟩ | ⟨-, h1, h2, h3⟩)
      · exact absurd rfl hne
      · exact ⟨r, rfl, h1, by simp [h2], h3⟩
  · have hne : ceP.contextAttributeVector ≠ [] := by
      intro hempty
      obtain ⟨-, -, ca, hca, -⟩ := processAttributes_modified_iff.1 hmod
      rw [processed_replace ha hskip, hempty] at hca
      cases hca
    obtain ⟨statusCode, hp⟩ := processAttributes_processing hok
    obtain ⟨g, hrun, -⟩ := attributeLoop_location hok
    have hact := processed_replace (r := r) ha hskip
    unfold processed at hact
    rw [hact, ha] at hrun
    have hfinal : (finalLocation r
        (processAttributes env apiVersion action r ceP.contextAttributeVector).processing = none) ↔
        ∃ g, locationRun env.strtod r.attrs apiVersion .replace ((r.location.map Location.attrName).getD "")
          ceP.contextAttributeVector = .ok ⟨"", g⟩ := by
      change locationRun _ _ _ _ ((r.location.map Location.attrName).getD "") _ = _ at hrun
      rw [hrun, hp]
      unfold finalLocation
      simp
    have hrepl := updateEntity_replaced ha hok happ
    rw [processed_replace ha hskip] at hrepl
    unfold SameContent
    rw [hd, hattrs, hnames]
    constructor
    · rintro ⟨d', hd', h1, -, h3⟩
      cases hd'
      rw [hrepl] at h1 h3
      obtain ⟨hl, hmd⟩ := (replaced_eq_created_iff _ _ _ _).1 h1
      exact Or.inl ⟨hne, hmd, hfinal.1 hl, h3⟩
    · rintro (⟨-, hmd, hl, h3⟩ | ⟨hempty, -⟩)
      · refine ⟨d, rfl, ?_, ?_, ?_⟩
        · rw [hrepl]
          exact (replaced_eq_created_iff _ _ _ _).2 ⟨hfinal.2 hl, hmd⟩
        · rw [hrepl]
          exact fun n => Iff.rfl
        · rw [hrepl]
          exact h3
      · exact absurd hempty hne

end Replace

/-- An attribute with a custom metadata. -/
def measuredAttribute : ContextAttribute :=
  { name := "c", type := "T", stringValue := "1"
    metadataVector := [{ name := "unit", type := "T", stringValue := "m" }] }

/-- The document that is created with `measuredAttribute`. -/
def measuredEntity : EntityDoc :=
  { id := "E", type := "T", servicePath := "/", attrNames := ["c"]
    attrs := [("c", .object (createdAttribute 2 measuredAttribute .v1))]
    creDate := some 2, modDate := some 2, location := none }

/-- An attribute with metadata replaces the attribute of an entity without location as if it were created. -/
theorem replace_eq_create_measured :
    SameContent (updateEntity (.quiet 2) .v1 "REPLACE"
      { entityId := { id := "E", type := "T" }, contextAttributeVector := [measuredAttribute] } dottedEntity)
      measuredEntity := by
  have hcreate : createEntity (.quiet 2) { id := "E", type := "T" } [measuredAttribute] .v1 = .ok measuredEntity := by
    decide
  refine (replace_eq_create_iff (by decide) (by decide) hcreate (by decide)).2 ?_
  exact Or.inl ⟨by decide, by decide, ⟨[], by decide⟩, rfl⟩

/-- An attribute without metadata is replaced with an empty metadata vector and created without any. -/
theorem replace_ne_create :
    let request := requestFor "c" "1"
    let replaced := updateEntity (.quiet 2) .v1 "REPLACE" request dottedEntity
    Succeeds replaced.responses ∧
      ∃ c, createEntity (.quiet 2) request.entityId request.contextAttributeVector .v1 = .ok c ∧
        ¬ SameContent replaced c := by
  refine ⟨by decide, _, rfl, ?_⟩
  rintro ⟨d, hd, hattrs, -⟩
  have hchanged : (updateEntity (.quiet 2) .v1 "REPLACE" (requestFor "c" "1") dottedEntity).doc.map EntityDoc.attrs ≠
      some [("c", .object (createdAttribute 2 { name := "c", type := "T", stringValue := "1" } .v1))] := by
    decide
  rw [hd] at hchanged
  exact hchanged (congrArg some hattrs)

end OrionBroker
