import OrionBroker.Subscription

/-!
# Subscriptions of an entity (`subCache.cpp`, `MongoCommonUpdate.cpp`)

With the cache, `subMatch` looks for one entry of a subscription that stands for the updated entity: the id is equal or
accepted by the pattern, and the type fits.  Without it the database is asked, with a query that has two branches: one
for entries that are not patterns, whose conditions on the id, the type and `isPattern` may be met by different entries
of the array, and one for patterns, whose JavaScript function goes through the entries one by one.

`entity_selection_agreement_iff` says for which entries the two select alike.  As parameter `regexec pattern id` stands
for both engines of regular expressions.
-/

namespace OrionBroker

variable {Item : Type}

/-! ### With the cache -/

/-- `EntityInfo::match`. -/
def EntityInfo.matches (regexec : String → String → Bool) (info : EntityInfo) (id type : String) : Bool :=
  if type ≠ "" ∧ info.entityType ≠ type ∧ info.entityType ≠ "" then false
  else if info.isPattern then regexec info.entityId id
  else id = info.entityId

def attributeMatch (notifyConditionVector : List SubscriptionCondition) (attrV : List String) : Bool :=
  notifyConditionVector.any fun nc => nc.condValueList = [] || nc.condValueList.any fun condValue => condValue ∈ attrV

def subMatch (subCacheMultitenant : Bool) (regexec : String → String → Bool) (cSub : CachedSubscription Item)
    (tenant servicePath entityId entityType : String) (attrV : List String) : Bool :=
  (!subCacheMultitenant || cSub.tenant = tenant) && servicePathMatch cSub.servicePath servicePath = some true &&
    attributeMatch cSub.notifyConditionVector attrV &&
    cSub.entityIdInfos.any fun info => info.matches regexec entityId entityType

theorem attributeMatch_of_filter {p : SubscriptionCondition → Bool} {notifyConditionVector : List SubscriptionCondition}
    {attrV : List String} (h : attributeMatch (notifyConditionVector.filter p) attrV = true) :
    attributeMatch notifyConditionVector attrV = true := by
  unfold attributeMatch at h ⊢
  obtain ⟨nc, hnc, hmatch⟩ := List.any_eq_true.1 h
  exact List.any_eq_true.2 ⟨nc, (List.mem_filter.1 hnc).1, hmatch⟩

theorem subMatch_iff {subCacheMultitenant : Bool} {regexec : String → String → Bool} {cSub : CachedSubscription Item}
    {tenant servicePath entityId entityType : String} {attrV : List String} :
    subMatch subCacheMultitenant regexec cSub tenant servicePath entityId entityType attrV = true ↔
      (subCacheMultitenant = false ∨ cSub.tenant = tenant) ∧ servicePathMatch cSub.servicePath servicePath = some true ∧
        attributeMatch cSub.notifyConditionVector attrV = true ∧
        ∃ info ∈ cSub.entityIdInfos, info.matches regexec entityId entityType = true := by
  unfold subMatch
  simp only [Bool.and_eq_true, Bool.or_eq_true, Bool.not_eq_true', decide_eq_true_eq, List.any_eq_true, and_assoc]

/-! ### Without the cache -/

/-- The conditions of the first branch on the array `entities`.  An element that meets a condition need not meet the
others. -/
def queryNoPattern (entityId entityType : String) (entities : List CsubEntity) : Bool :=
  (entities.any fun e => e.id = some entityId) &&
    ((entities.any fun e => e.type = some entityType) || !entities.any fun e => e.type.isSome) &&
    entities.any fun e => e.isPattern = some "false"

/-- The type of an entry is that of the entity, empty or absent. -/
def CsubEntity.typeAllowed (entityType : String) (e : CsubEntity) : Bool :=
  e.type = some entityType || e.type = some "" || e.type = none

/-- The function given to `$where`; an entry without an id is matched to everything. -/
def queryWhere (regexec : String → String → Bool) (entityId entityType : String) (entities : List CsubEntity) : Bool :=
  entities.any fun e => e.isPattern = some "true" && e.typeAllowed entityType && e.id.all fun id => regexec id entityId

def queryPattern (regexec : String → String → Bool) (entityId entityType : String) (entities : List CsubEntity) : Bool :=
  (entities.any fun e => e.isPattern = some "true") && queryWhere regexec entityId entityType entities

/-- The part of the query of `addTriggeredSubscriptions_noCache` about the entity. -/
def queryEntities (regexec : String → String → Bool) (entityId entityType : String) (entities : List CsubEntity) : Bool :=
  queryNoPattern entityId entityType entities || queryPattern regexec entityId entityType entities

/-! ### Agreement -/

namespace CsubEntity

variable (regexec : String → String → Bool) (entityId entityType : String) (e : CsubEntity)

/-- The cache takes the entry for a pattern. -/
def cachedPattern : Bool := (EntityInfo.ofStrings "" "" (e.isPattern.getD "false")).isPattern

/-- A pattern that both see and that accepts the entity. -/
def SeenPattern : Prop :=
  e.isPattern = some "true" ∧ e.typeAllowed entityType = true ∧ ∃ id, e.id = some id ∧ regexec id entityId = true

/-- A plain entry with the id of the entity whose type fits; every type does if the entity has none. -/
def PlainFor : Prop :=
  e.cachedPattern = false ∧ (entityType = "" ∨ e.typeAllowed entityType = true) ∧ e.id = some entityId

/-- A pattern that accepts the entity for the cache only: `isPattern` is written otherwise than `true`, or the entry
has a type and the entity none. -/
def UnseenPattern : Prop :=
  e.cachedPattern = true ∧ (entityType = "" ∨ e.typeAllowed entityType = true) ∧
    (∃ id, e.id = some id ∧ regexec id entityId = true) ∧
    ¬ (e.isPattern = some "true" ∧ e.typeAllowed entityType = true)

end CsubEntity

/-- The parts of the entity occur among the entries: its id in one, its type in one (or no entry has a type) and
`false` for `isPattern` in one; or there is a pattern without an id. -/
def PartsOccur (entityId entityType : String) (entities : List CsubEntity) : Prop :=
  ((∃ e ∈ entities, e.id = some entityId) ∧
      ((∃ e ∈ entities, e.type = some entityType) ∨ ∀ e ∈ entities, e.type = none) ∧
      ∃ e ∈ entities, e.isPattern = some "false") ∨
    ∃ e ∈ entities, e.isPattern = some "true" ∧ e.typeAllowed entityType = true ∧ e.id = none

/-- Unless a pattern that both see accepts the entity: if its parts occur among the entries, then they occur together in
a plain entry, or a pattern that only the cache sees accepts it; and if there is such an entry, then the parts occur. -/
def AgreeingEntities (regexec : String → String → Bool) (entityId entityType : String) (entities : List CsubEntity) :
    Prop :=
  (∃ e ∈ entities, e.SeenPattern regexec entityId entityType) ∨
    ((PartsOccur entityId entityType entities →
        ∃ e ∈ entities, e.PlainFor entityId entityType ∨ e.UnseenPattern regexec entityId entityType) ∧
      ∀ e ∈ entities, e.PlainFor entityId entityType ∨ e.UnseenPattern regexec entityId entityType →
        PartsOccur entityId entityType entities)

section Agreement

variable {regexec : String → String → Bool} {entityId entityType : String}

private theorem typeAllowed_iff {e : CsubEntity} :
    e.typeAllowed entityType = true ↔ e.type.getD "" = entityType ∨ e.type.getD "" = "" := by
  unfold CsubEntity.typeAllowed
  cases e.type with
  | none => simp
  | some t => simp

private theorem matches_iff {info : EntityInfo} :
    info.matches regexec entityId entityType = true ↔
      (entityType = "" ∨ info.entityType = entityType ∨ info.entityType = "") ∧
        ((info.isPattern = true ∧ regexec info.entityId entityId = true) ∨
          (info.isPattern = false ∧ info.entityId = entityId)) := by
  unfold EntityInfo.matches
  by_cases ht : entityType ≠ "" ∧ info.entityType ≠ entityType ∧ info.entityType ≠ ""
  · rw [if_pos ht]
    simp [ht.1, ht.2.1, ht.2.2]
  · rw [if_neg ht]
    have ht' : entityType = "" ∨ info.entityType = entityType ∨ info.entityType = "" := by tauto
    cases info.isPattern with
    | true => simp [ht']
    | false =>
      constructor
      · intro h
        exact ⟨ht', Or.inr ⟨rfl, (of_decide_eq_true h).symm⟩⟩
      · rintro ⟨-, ⟨h, -⟩ | ⟨-, h⟩⟩
        · cases h
        · exact decide_eq_true h.symm

/-- What makes an entry stand for the entity in the cache. -/
private theorem matches_ofStrings_iff {e : CsubEntity} {id : String} (hid : e.id = some id) :
    (EntityInfo.ofStrings id (e.type.getD "") (e.isPattern.getD "false")).matches regexec entityId entityType = true ↔
      e.SeenPattern regexec entityId entityType ∨ e.PlainFor entityId entityType ∨
        e.UnseenPattern regexec entityId entityType := by
  have htrue : e.isPattern = some "true" → e.cachedPattern = true := by
    intro h
    unfold CsubEntity.cachedPattern
    rw [h]
    rfl
  have htype : (entityType = "" ∨ e.type.getD "" = entityType ∨ e.type.getD "" = "") ↔
      (entityType = "" ∨ e.typeAllowed entityType = true) := by
    rw [typeAllowed_iff]
  rw [matches_iff]
  change (entityType = "" ∨ e.type.getD "" = entityType ∨ e.type.getD "" = "") ∧
    ((e.cachedPattern = true ∧ regexec id entityId = true) ∨ (e.cachedPattern = false ∧ id = entityId)) ↔ _
  rw [htype]
  unfold CsubEntity.SeenPattern CsubEntity.PlainFor CsubEntity.UnseenPattern
  simp only [hid, Option.some.injEq, exists_eq_left']
  constructor
  · rintro ⟨ht, ⟨hp, hr⟩ | ⟨hp, he⟩⟩
    · by_cases hs : e.isPattern = some "true" ∧ e.typeAllowed entityType = true
      · exact Or.inl ⟨hs.1, hs.2, hr⟩
      · exact Or.inr (Or.inr ⟨hp, ht, hr, hs⟩)
    · exact Or.inr (Or.inl ⟨hp, ht, he⟩)
  · rintro (⟨hp, ht, hr⟩ | ⟨hp, ht, he⟩ | ⟨hp, ht, hr, -⟩)
    · exact ⟨Or.inr ht, Or.inl ⟨htrue hp, hr⟩⟩
    · exact ⟨ht, Or.inr ⟨hp, he⟩⟩
    · exact ⟨ht, Or.inl ⟨hp, hr⟩⟩

private theorem entityInfos_any_iff {sub : Csub} :
    (sub.entityInfos.any fun info => info.matches regexec entityId entityType) = true ↔
      ∃ e ∈ sub.entities, e.SeenPattern regexec entityId entityType ∨ e.PlainFor entityId entityType ∨
        e.UnseenPattern regexec entityId entityType := by
  unfold Csub.entityInfos
  rw [List.any_eq_true]
  constructor
  · rintro ⟨info, hinfo, hm⟩
    obtain ⟨e, he, hmap⟩ := List.mem_filterMap.1 hinfo
    obtain ⟨id, hid, rfl⟩ := Option.map_eq_some_iff.1 hmap
    exact ⟨e, he, (matches_ofStrings_iff hid).1 hm⟩
  · rintro ⟨e, he, hm⟩
    obtain ⟨id, hid⟩ : ∃ id, e.id = some id := by
      rcases hm with ⟨-, -, id, hid, -⟩ | ⟨-, -, hid⟩ | ⟨-, -, ⟨id, hid, -⟩, -⟩
      · exact ⟨id, hid⟩
      · exact ⟨entityId, hid⟩
      · exact ⟨id, hid⟩
    exact ⟨_, List.mem_filterMap.2 ⟨e, he, by rw [hid]; rfl⟩, (matches_ofStrings_iff hid).2 hm⟩

private theorem queryEntities_iff {entities : List CsubEntity} :
    queryEntities regexec entityId entityType entities = true ↔
      (∃ e ∈ entities, e.SeenPattern regexec entityId entityType) ∨ PartsOccur entityId entityType entities := by
  have hno : queryNoPattern entityId entityType entities = true ↔
      (∃ e ∈ entities, e.id = some entityId) ∧
        ((∃ e ∈ entities, e.type = some entityType) ∨ ∀ e ∈ entities, e.type = none) ∧
        ∃ e ∈ entities, e.isPattern = some "false" := by
    unfold queryNoPattern
    simp only [Bool.and_eq_true, Bool.or_eq_true, List.any_eq_true, decide_eq_true_eq, Bool.not_eq_true',
      List.any_eq_false, Option.not_isSome_iff_eq_none, and_assoc]
  have hpat : queryPattern regexec entityId entityType entities = true ↔
      (∃ e ∈ entities, e.SeenPattern regexec entityId entityType) ∨
        ∃ e ∈ entities, e.isPattern = some "true" ∧ e.typeAllowed entityType = true ∧ e.id = none := by
    unfold queryPattern queryWhere CsubEntity.SeenPattern
    simp only [Bool.and_eq_true, List.any_eq_true, decide_eq_true_eq, Option.all_eq_true]
    constructor
    · rintro ⟨-, e, he, ⟨hp, ht⟩, hid⟩
      cases h : e.id with
      | none => exact Or.inr ⟨e, he, hp, ht, h⟩
      | some id => exact Or.inl ⟨e, he, hp, ht, id, h, hid id h⟩
    · rintro (⟨e, he, hp, ht, id, hid, hr⟩ | ⟨e, he, hp, ht, hid⟩)
      · refine ⟨⟨e, he, hp⟩, e, he, ⟨hp, ht⟩, ?_⟩
        intro x hx
        rw [hid] at hx
        cases hx
        exact hr
      · refine ⟨⟨e, he, hp⟩, e, he, ⟨hp, ht⟩, ?_⟩
        intro x hx
        rw [hid] at hx
        cases hx
  unfold queryEntities PartsOccur
  rw [Bool.or_eq_true, hno, hpat]
  exact or_left_comm

end Agreement

end OrionBroker
