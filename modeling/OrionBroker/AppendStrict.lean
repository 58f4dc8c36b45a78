import OrionBroker.StoredForm
import OrionBroker.WrittenUpdate

/-!
# APPEND_STRICT and the attributes that exist already

APPEND_STRICT is meant to leave the existing attributes alone: those of the request that exist are marked to be
skipped.  Whether an attribute exists is decided by comparing its name with the base part of the stored keys, before
any substitution of dots, while the write goes to the key of the attribute.  An attribute that passes this test can
still be written into a stored one, and then the stored one is kept exactly if the write puts there what it already
is (`append_strict_keeps_iff`).
-/

namespace OrionBroker

open Bson

/-- The attributes that pass the test for existing ones. -/
theorem mem_processed_appendStrict {action : String} {r : EntityDoc} {ceP : ContextElement} {ca : ContextAttribute}
    (ha : ActionType.ofString action = .appendStrict) :
    ca ∈ processed action r ceP ↔
      ca ∈ ceP.contextAttributeVector ∧ ca.skip = false ∧ howManyAttrs r.attrs ca.name = 0 := by
  unfold processed active requestAttributes markExisting
  rw [if_pos ha, List.mem_filter, List.mem_map]
  constructor
  · rintro ⟨⟨cb, hcb, rfl⟩, hskip⟩
    split at hskip
    · cases hskip
    · rename_i h0
      rw [if_neg h0]
      exact ⟨hcb, by simpa using hskip, by simpa using h0⟩
  · rintro ⟨hca, hskip, h0⟩
    exact ⟨⟨ca, hca, by simp [h0]⟩, by simp [hskip]⟩

/-- The attributes stored in a document are the same after the update. -/
def KeepsAttributes (r : EntityDoc) (u : UpdateResult) : Prop :=
  ∃ d, u.doc = some d ∧ ∀ k, hasField r.attrs k = true → d.attrs.lookup k = r.attrs.lookup k

/-- What an attribute of a request writes into a stored attribute, if anything, is what is there. -/
def WritesNothingNew (now : Int) (attrs : BSONObj) (apiVersion : ApiVersion) (ca : ContextAttribute) : Prop :=
  ∀ e ∈ attributeEntry now attrs apiVersion .appendStrict ca, ∀ k, (splitPath e.1).head? = some k →
    hasField attrs k = true → getIn (splitPath e.1) (.object attrs) = some e.2

/-- An APPEND_STRICT that is not written keeps the stored attributes.  One that is written keeps them exactly if no
attribute that passes the test for existing ones puts anything new into one of them. -/
theorem append_strict_keeps_iff (env : Env) (apiVersion : ApiVersion) {action : String} (ceP : ContextElement)
    (r : EntityDoc) (ha : ActionType.ofString action = .appendStrict) :
    ((updateEntity env apiVersion action ceP r).notified.isNone = true →
        KeepsAttributes r (updateEntity env apiVersion action ceP r)) ∧
      ((updateEntity env apiVersion action ceP r).notified.isSome = true →
        (KeepsAttributes r (updateEntity env apiVersion action ceP r) ↔
          ∀ ca ∈ ceP.contextAttributeVector, ca.skip = false → howManyAttrs r.attrs ca.name = 0 →
            WritesNothingNew env.getCurrentTime r.attrs apiVersion ca)) := by
  rcases updateEntity_cases env apiVersion action ceP r with ⟨hn, hd⟩ | ⟨d, hd, hn, hok, -, happ⟩
  · refine ⟨fun _ => ?_, fun hs => ?_⟩
    · rcases hd with hd | ⟨-, hdel⟩
      · exact ⟨r, hd, fun _ _ => rfl⟩
      · rw [ha] at hdel
        cases hdel
    · rw [hn] at hs
      cases hs
  · refine ⟨fun hs => ?_, fun _ => ?_⟩
    · rw [hn] at hs
      cases hs
    · obtain ⟨⟨hc, o, hset, hunset⟩, -⟩ := updateEntity_written (by rw [ha]; decide) hok happ
      have hremoved : removedKeys action r ceP = [] := by
        simp [removedKeys, attributeRemoved, ha]
      rw [hremoved] at hunset hc
      have ho : d.attrs = o := by simpa [unsetAll, eq_comm] using hunset
      have hne : ∀ e ∈ attrPaths (writtenEntries env apiVersion action r ceP), e.1 ≠ [] := by
        intro e he
        obtain ⟨f, -, rfl⟩ := List.mem_map.1 he
        exact splitPath_ne_nil _
      have hkeep : KeepsAttributes r (updateEntity env apiVersion action ceP r) ↔
          ∀ k, hasField r.attrs k = true → o.lookup k = r.attrs.lookup k := by
        unfold KeepsAttributes
        rw [hd, ← ho]
        simp
      rw [hkeep, setAll_keeps_iff hne (by simpa using hc) hset]
      constructor
      · intro hall ca hca hskip h0 e he k hk hf
        refine hall (splitPath e.1, e.2) ?_ k hk hf
        refine List.mem_map.2 ⟨e, ?_, rfl⟩
        rw [writtenEntries, ha]
        exact List.mem_flatMap.2 ⟨ca, (mem_processed_appendStrict ha).2 ⟨hca, hskip, h0⟩, he⟩
      · intro hall e he k hk hf
        obtain ⟨f, hf', rfl⟩ := List.mem_map.1 he
        rw [writtenEntries, ha] at hf'
        obtain ⟨ca, hca, hfe⟩ := List.mem_flatMap.1 hf'
        obtain ⟨hmem, hskip, h0⟩ := (mem_processed_appendStrict ha).1 hca
        exact hall ca hmem hskip h0 f hfe k hk hf

/-- An entity with the attribute `a.b`. -/
def dottedEntity : EntityDoc :=
  { id := "E", type := "T", servicePath := "/", attrNames := ["a.b"]
    attrs := [("a=b", .object [("type", .string "T"), ("creDate", .int 1), ("modDate", .int 1), ("value", .string "old")])]
    creDate := some 1, modDate := some 1, location := none }

/-- A request for one attribute of type `T`. -/
def requestFor (name value : String) : ContextElement :=
  { entityId := { id := "E", type := "T" }
    contextAttributeVector := [{ name := name, type := "T", stringValue := value }] }

/-- A new attribute is appended and the stored one is kept. -/
theorem append_strict_keeps_new :
    KeepsAttributes dottedEntity (updateEntity (.quiet 2) .v1 "APPEND_STRICT" (requestFor "c" "new") dottedEntity) := by
  refine ((append_strict_keeps_iff (.quiet 2) .v1 (requestFor "c" "new") dottedEntity (by decide)).2 (by decide)).2 ?_
  intro ca hca _ _
  rw [List.mem_singleton.1 hca]
  intro e he k hk hf
  have hkey := attributeEntry_key he
  have hpath : splitPath e.1 = ["c"] := by rw [hkey]; decide
  rw [hpath] at hk
  cases hk
  exact absurd hf (by decide)

/-- The attribute `a.b` exists, passes the test for existing attributes and is overwritten. -/
theorem append_strict_overwrites :
    (∀ ca ∈ (requestFor "a.b" "new").contextAttributeVector, ca.check false .v1 .other = "OK") ∧
      ¬ KeepsAttributes dottedEntity
        (updateEntity (.quiet 2) .v1 "APPEND_STRICT" (requestFor "a.b" "new") dottedEntity) := by
  refine ⟨by decide, ?_⟩
  rintro ⟨d, hd, hkeep⟩
  have hsame := hkeep "a=b" (by decide)
  have hchanged : (updateEntity (.quiet 2) .v1 "APPEND_STRICT" (requestFor "a.b" "new") dottedEntity).doc.map
      (fun d => d.attrs.lookup "a=b") ≠ some (dottedEntity.attrs.lookup "a=b") := by
    decide
  rw [hd] at hchanged
  exact hchanged (congrArg some hsame)

end OrionBroker
