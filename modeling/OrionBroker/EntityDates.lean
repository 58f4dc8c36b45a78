import OrionBroker.EntityRun
import OrionBroker.Reflected

/-!
# Dates of entities and attributes

An entity and each of its attributes have a creation date and a modification date.  An update copies some of them and
sets others to the time of the request.  If the clock is never set back, the dates of an attribute are between those of
its entity and in order (`dates_ordered_of_run`).

A REPLACE writes the location of the entity among its attributes, without dates.  So the key `location` is left out.
-/

namespace OrionBroker

open Bson

/-! ### Dates of one attribute -/

/-- The creation date and the modification date of an attribute. -/
def HasDates (o : BSONObj) (creDate modDate : Int) : Prop :=
  o.lookup "creDate" = some (.int creDate) ∧ o.lookup "modDate" = some (.int modDate)

section Attribute

variable {now c m : Int} {ca : ContextAttribute} {apiVersion : ApiVersion} {o : BSONObj}

theorem lookup_date_valueBson {k : String} (h : k ≠ "value") : ca.valueBson.lookup k = none := by
  rcases valueBson_cases ca with hnone | ⟨v, hv⟩
  · rw [hnone]
    rfl
  · rw [hv]
    simp [lookup_cons_eq, h]

theorem hasDates_createdAttribute : HasDates (createdAttribute now ca apiVersion) now now := by
  unfold HasDates createdAttribute
  constructor <;> simp [lookup_cons_eq]

theorem hasDates_replacedAttribute : HasDates (replacedAttribute now ca apiVersion) now now := by
  unfold HasDates replacedAttribute
  constructor <;> simp [lookup_cons_eq]

theorem hasDates_appendedAttribute : HasDates (appendedAttribute now ca apiVersion) now now := by
  have hcre : ca.valueBson.lookup "creDate" = none := lookup_date_valueBson (by decide)
  have hmod : ca.valueBson.lookup "modDate" = none := lookup_date_valueBson (by decide)
  unfold HasDates appendedAttribute
  rcases contextAttributeCustomMetadataToBson ca (apiVersion = .v2) with _ | mdV
  · constructor <;> simp [List.lookup_append, lookup_cons_eq, hcre, hmod]
  · constructor <;> simp [List.lookup_append, lookup_cons_eq, hcre, hmod]

/-- In front of the dates of a merged attribute there are no others. -/
private theorem lookup_date_merged {k : String} (hvalue : k ≠ "value") (htype : k ≠ "type") (hmd : k ≠ "md") :
    (mergedValue o ca apiVersion ++ mergedType o ca ++
      if (mergedMetadata o ca apiVersion).length > 0 then [("md", BSONValue.array (mergedMetadata o ca apiVersion))] else []).lookup k =
      none := by
  have hv : (mergedValue o ca apiVersion).lookup k = none := by
    unfold mergedValue
    split
    · split <;> simp [lookup_cons_eq, hvalue]
    · exact lookup_date_valueBson hvalue
  have ht : (mergedType o ca).lookup k = none := by
    unfold mergedType
    split
    · simp [lookup_cons_eq, htype]
    · split <;> simp [lookup_cons_eq, htype]
  rw [List.lookup_append, List.lookup_append, hv, ht]
  split <;> simp [hmd]

/-- A merged attribute keeps its creation date, and its modification date or not. -/
theorem hasDates_mergeAttrInfo (h : HasDates o c m) :
    HasDates (mergeAttrInfo now o ca apiVersion).1 c (if actualUpdate o ca apiVersion then now else m) := by
  obtain ⟨hcre, hmod⟩ := h
  have hkeptCre : keptDate o "creDate" = [("creDate", .int c)] := by simp [keptDate, hasField, getIntFieldF, hcre]
  have hkeptMod : keptDate o "modDate" = [("modDate", .int m)] := by simp [keptDate, hasField, getIntFieldF, hmod]
  unfold HasDates mergeAttrInfo
  dsimp only
  rw [hkeptCre, hkeptMod]
  constructor
  · rw [List.append_assoc, List.lookup_append, lookup_date_merged (by decide) (by decide) (by decide)]
    simp
  · rw [List.append_assoc, List.lookup_append, lookup_date_merged (by decide) (by decide) (by decide)]
    split <;> simp [lookup_cons_eq]

end Attribute

/-! ### Dates of an entity -/

/-- The dates of an entity are in order, and those of its attributes are between them. -/
structure DatesOrdered (now : Int) (d : EntityDoc) : Prop where
  entity : ∃ creDate modDate, d.creDate = some creDate ∧ d.modDate = some modDate ∧ creDate ≤ modDate ∧ modDate ≤ now
  attributes : ∀ k v, k ≠ "location" → d.attrs.lookup k = some v →
    ∃ creDate modDate, HasDates (embeddedObject v) creDate modDate ∧ creDate ≤ modDate ∧
      (∀ c ∈ d.creDate, c ≤ creDate) ∧ ∀ m ∈ d.modDate, modDate ≤ m

/-- Operations at a time, with attributes that have different keys, and no dots in their metadata ID. -/
def dateConditions (now : Int) : StepConditions where
  create := fun env _ _ => env.getCurrentTime = now
  update := fun env _ _ ceP _ => env.getCurrentTime = now ∧ SimpleKeys ceP.contextAttributeVector

/-- A run with a clock that is never set back. -/
inductive ClockRun : Int → List EntityDoc → Prop
  | start (now : Int) : ClockRun now []
  | step {now now' : Int} {store store' : List EntityDoc} (h : ClockRun now store) (hle : now ≤ now')
      (hstep : EntityStep (dateConditions now') store store') : ClockRun now' store'

section Step

variable {now : Int} {env : Env} {apiVersion : ApiVersion} {action : String} {ceP : ContextElement} {r d : EntityDoc}

theorem SimpleKeys.sublist {caV caV' : List ContextAttribute} (h : SimpleKeys caV) (hsub : caV'.Sublist caV) : SimpleKeys caV' :=
  ⟨fun ca hca => h.1 ca (hsub.subset hca), (hsub.map _).nodup h.2⟩

theorem DatesOrdered.later {now' : Int} (h : DatesOrdered now d) (hle : now ≤ now') : DatesOrdered now' d := by
  obtain ⟨c, m, hc, hm, hcm, hmnow⟩ := h.entity
  exact ⟨⟨c, m, hc, hm, hcm, hmnow.trans hle⟩, h.attributes⟩

/-- What is under a key of a list of attributes comes from one of them. -/
theorem exists_of_lookup_map {f : ContextAttribute → BSONValue} {caV : List ContextAttribute} {k : String} {v : BSONValue}
    (h : (caV.map fun ca => (ca.key, f ca)).lookup k = some v) : ∃ ca ∈ caV, v = f ca := by
  induction caV with
  | nil => cases h
  | cons ca caV ih =>
    rw [List.map_cons, lookup_cons_eq] at h
    split at h
    · exact ⟨ca, List.mem_cons_self, (Option.some.inj h).symm⟩
    · obtain ⟨cb, hcb, hv⟩ := ih h
      exact ⟨cb, List.mem_cons_of_mem _ hcb, hv⟩

theorem dates_create {eP : EntityId} {caV : List ContextAttribute} (htime : env.getCurrentTime = now)
    (h : createEntity env eP caV apiVersion = .ok d) : DatesOrdered now d := by
  obtain ⟨hattrs, -, -⟩ := createEntity_doc h
  have hdates : d.creDate = some now ∧ d.modDate = some now := by
    unfold createEntity at h
    split at h
    · split at h
      · cases h
      · dsimp only at h
        split at h
        · cases h
        · cases h
          exact ⟨by rw [htime], by rw [htime]⟩
    · cases h
  refine ⟨⟨now, now, hdates.1, hdates.2, le_refl _, le_refl _⟩, fun k v _ hv => ?_⟩
  rw [hattrs] at hv
  obtain ⟨ca, -, rfl⟩ := exists_of_lookup_map hv
  rw [htime]
  refine ⟨now, now, hasDates_createdAttribute, le_refl _, ?_, ?_⟩
  · intro c hc
    rw [hdates.1] at hc
    exact (Option.some.inj hc).symm.le
  · intro m hm
    rw [hdates.2] at hm
    exact (Option.some.inj hm).le

/-- The dates that an attribute has after an update. -/
theorem dates_attributeAfter {c m : Int} (hcnow : c ≤ env.getCurrentTime) (hmnow : m ≤ env.getCurrentTime)
    {a : ActionType} {ca : ContextAttribute} {v : BSONValue}
    (hold : ∀ w, r.attrs.lookup ca.key = some w →
      ∃ creDate modDate, HasDates (embeddedObject w) creDate modDate ∧ creDate ≤ modDate ∧ c ≤ creDate ∧ modDate ≤ m)
    (h : attributeAfter env.getCurrentTime r.attrs apiVersion a ca = some v) :
    ∃ creDate modDate, HasDates (embeddedObject v) creDate modDate ∧ creDate ≤ modDate ∧ c ≤ creDate ∧
      modDate ≤ env.getCurrentTime := by
  rcases attributeAfter_cases h with hsame | ⟨w, hw, rfl⟩ | rfl
  · obtain ⟨creDate, modDate, hdates, hle, hc, hm⟩ := hold v hsame
    exact ⟨creDate, modDate, hdates, hle, hc, hm.trans hmnow⟩
  · obtain ⟨creDate, modDate, hdates, hle, hc, hm⟩ := hold w hw
    refine ⟨creDate, _, hasDates_mergeAttrInfo hdates, ?_, hc, ?_⟩
    · split
      · exact (hle.trans hm).trans hmnow
      · exact hle
    · split
      · exact le_refl _
      · exact hm.trans hmnow
  · exact ⟨_, _, hasDates_appendedAttribute, le_refl _, hcnow, le_refl _⟩

theorem dates_update (hinv : DatesOrdered now r) (htime : now ≤ env.getCurrentTime)
    (hkeys : SimpleKeys ceP.contextAttributeVector) (h : (updateEntity env apiVersion action ceP r).doc = some d) :
    DatesOrdered env.getCurrentTime d := by
  obtain ⟨c, m, hcre, hmod, hcm, hmnow⟩ := hinv.entity
  have hold : ∀ k w, k ≠ "location" → r.attrs.lookup k = some w →
      ∃ creDate modDate, HasDates (embeddedObject w) creDate modDate ∧ creDate ≤ modDate ∧ c ≤ creDate ∧ modDate ≤ m := by
    intro k w hk hw
    obtain ⟨creDate, modDate, hdates, hle, hc, hm⟩ := hinv.attributes k w hk hw
    exact ⟨creDate, modDate, hdates, hle, hc c hcre, hm m hmod⟩
  have hmtime : m ≤ env.getCurrentTime := hmnow.trans htime
  obtain ⟨-, hdoc⟩ | ⟨d', hdoc, -, hok, -, hupdate⟩ := updateEntity_cases env apiVersion action ceP r
  · rcases hdoc with hsame | ⟨hnone, -⟩
    · rw [hsame, Option.some.injEq] at h
      rw [← h]
      exact hinv.later htime
    · rw [hnone] at h
      cases h
  · rw [hdoc, Option.some.injEq] at h
    subst h
    have hassemble : ∀ attrs : BSONObj, d'.attrs = attrs → d'.creDate = some c → d'.modDate = some env.getCurrentTime →
        (∀ k v, k ≠ "location" → attrs.lookup k = some v → ∃ creDate modDate, HasDates (embeddedObject v) creDate modDate ∧
          creDate ≤ modDate ∧ c ≤ creDate ∧ modDate ≤ env.getCurrentTime) → DatesOrdered env.getCurrentTime d' := by
      intro attrs hattrs hc' hm' hall
      refine ⟨⟨c, _, hc', hm', hcm.trans hmtime, le_refl _⟩, fun k v hk hv => ?_⟩
      rw [hattrs] at hv
      obtain ⟨creDate, modDate, hdates, hle, hlow, hhigh⟩ := hall k v hk hv
      refine ⟨creDate, modDate, hdates, hle, ?_, ?_⟩
      · intro c' hmem
        rw [hc', Option.mem_some_iff] at hmem
        rwa [← hmem]
      · intro m' hmem
        rw [hm', Option.mem_some_iff] at hmem
        rwa [← hmem]
    by_cases ha : ActionType.ofString action = .replace
    · have hreplaced := updateEntity_replaced ha hok hupdate
      refine hassemble _ (by rw [hreplaced]) (by rw [hreplaced, hcre]) (by rw [hreplaced]) fun k v hk hv => ?_
      have hlocation : ∀ l : Option Location, (l.toList.map fun l => ("location", l.toBson)).lookup k = none := by
        intro l
        cases l with
        | none => rfl
        | some l => simp [lookup_cons_eq, hk]
      rw [List.lookup_append, hlocation, Option.or_none] at hv
      obtain ⟨ca, -, rfl⟩ := exists_of_lookup_map hv
      exact ⟨_, _, hasDates_replacedAttribute, le_refl _, hcm.trans hmtime, le_refl _⟩
    · have hwritten := (updateEntity_written ha hok hupdate).2
      obtain ⟨hin, hout⟩ := lookup_updated ha (hkeys.sublist processed_sublist) hok hupdate
      refine hassemble _ rfl (by rw [hwritten, hcre]) (by rw [hwritten]) fun k v hk hv => ?_
      by_cases hmem : k ∈ (processed action r ceP).map ContextAttribute.key
      · obtain ⟨ca, hca, rfl⟩ := List.mem_map.1 hmem
        rw [hin ca hca] at hv
        exact dates_attributeAfter (hcm.trans hmtime) hmtime (hold ca.key · hk) hv
      · rw [hout k hmem] at hv
        obtain ⟨creDate, modDate, hdates, hle, hlow, hhigh⟩ := hold k v hk hv
        exact ⟨creDate, modDate, hdates, hle, hlow, hhigh.trans hmtime⟩

end Step

def speed (value : String) : ContextAttribute := { name := "speed", type := "Number", stringValue := value }

/-- An entity that is created at time 5. -/
def movingEntity : EntityDoc where
  id := "E"
  type := "T"
  servicePath := "/"
  attrNames := ["speed"]
  attrs := [("speed", .object (createdAttribute 5 (speed "10") .v1))]
  creDate := some 5
  modDate := some 5
  location := none

end OrionBroker
