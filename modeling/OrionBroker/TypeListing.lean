import OrionBroker.AttrNames

/-!
# The entity types of a service path (`mongoQueryTypes.cpp`)

The types are found by an aggregation over the entities, which gives for each type the set of the names in the lists
`attrNames`, with a null for the entities that have no attributes.  For each type the entities are counted, and for each
name the types of the attribute are looked up.  An entity without type and one with an empty type give two results of
the aggregation.

`typesListed_iff` says for which collections the listing is right: every entity has a type, no type has both entities
without attributes and others, and every attribute is found by its name.
-/

namespace OrionBroker.TypeListing

open Bson

/-! ### The collection and the aggregation -/

/-- A document of the collection; the field `type` is missing, or it may be empty. -/
structure StoredEntity extends EntityDoc where
  hasType : Bool
  type_eq : hasType = false → type = ""

namespace StoredEntity

/-- The field `_id.type`. -/
def idType (e : StoredEntity) : Option String := if e.hasType then some e.type else none

theorem idType_getD (e : StoredEntity) : e.idType.getD "" = e.type := by
  unfold idType
  split
  · rfl
  · rename_i hno
    exact (e.type_eq (by simpa using hno)).symm

/-- The type of the attribute with this key. -/
def attrType (e : StoredEntity) (k : String) : String :=
  getStringFieldF (embeddedObject ((e.attrs.lookup k).getD .null)) "type"

end StoredEntity

/-- `$addToSet`: each value once, in any order. -/
structure AddToSet where
  set : List (Option String) → List (Option String)
  nodup : ∀ l, (set l).Nodup
  mem_iff : ∀ l x, x ∈ set l ↔ x ∈ l

/-- The entities of the service path; `covered` is what the regular expressions of `fillQueryServicePath` match. -/
def inServicePath (covered : String → Bool) (entities : List StoredEntity) : List StoredEntity :=
  entities.filter fun e => covered e.servicePath

/-- A null is before all texts. -/
def idLe : Option String → Option String → Bool
  | none, _ => true
  | some _, none => false
  | some s, some t => decide (s ≤ t)

/-- `$sort` on the keys of the groups. -/
def groupKeys (entities : List StoredEntity) : List (Option String) :=
  (entities.map StoredEntity.idType).dedup.insertionSort fun a b => idLe a b = true

/-- `$project` and `$unwind`: the names of an entity, or one null. -/
def unwound (e : StoredEntity) : List (Option String) := if e.attrNames = [] then [none] else e.attrNames.map some

/-- `$group`: the type and the names of each group. -/
def aggregation (addToSet : AddToSet) (entities : List StoredEntity) : List (Option String × List (Option String)) :=
  (groupKeys entities).map fun key => (key, addToSet.set ((entities.filter fun e => e.idType = key).flatMap unwound))

/-! ### The queries -/

structure EntityType where
  type : String
  count : Nat
  contextAttributeVector : List (String × String)

/-- The types of the attributes of this name; with an empty type, the entities without type are queried as well. -/
def getAttributeTypes (entities : List StoredEntity) (entityType attrName : String) : List String :=
  (entities.filter fun e =>
      (if entityType = "" then e.idType = some "" ∨ e.idType = none else e.idType = some entityType) ∧
        attrName ∈ e.attrNames).flatMap
    fun e => ((getFieldNames e.attrs).filter fun k => basePart k = attrName).map e.attrType

def countEntities (entities : List StoredEntity) (entityType : String) : Nat :=
  entities.countP fun e => e.idType = some entityType

/-- The attributes that are added for a result.  They are skipped if the first name is null; a null further on is
passed over.  In the first version of the API there is one attribute for each name. -/
def addedAttributes (entities : List StoredEntity) (apiVersion : ApiVersion) (entityType : String)
    (attrsArray : List (Option String)) : List (String × String) :=
  match attrsArray with
  | none :: _ => []
  | _ => attrsArray.flatMap fun
    | none => []
    | some attrName =>
      let attrTypes := (getAttributeTypes entities entityType attrName).map fun t => (attrName, t)
      if apiVersion = .v1 then attrTypes.take 1 else attrTypes

/-- What a result adds to an entry. -/
def EntityType.add (entities : List StoredEntity) (apiVersion : ApiVersion) (entityType : EntityType)
    (attrsArray : List (Option String)) : EntityType :=
  { entityType with
    count := entityType.count + countEntities entities entityType.type
    contextAttributeVector :=
      entityType.contextAttributeVector ++ addedAttributes entities apiVersion entityType.type attrsArray }

/-- The loop of `mongoEntityTypes`.  `emptyEntityType` collects the results without type and with the empty one, and is
added at the end if it was used. -/
def listTypes (entities : List StoredEntity) (apiVersion : ApiVersion) (emptyEntityType : EntityType)
    (emptyEntityTypeUsed : Bool) : List (Option String × List (Option String)) → List EntityType
  | [] => if emptyEntityTypeUsed then [emptyEntityType] else []
  | (id, attrsArray) :: results =>
    if id = none ∨ id = some "" then
      listTypes entities apiVersion (emptyEntityType.add entities apiVersion attrsArray) true results
    else
      (EntityType.mk (id.getD "") 0 []).add entities apiVersion attrsArray ::
        listTypes entities apiVersion emptyEntityType emptyEntityTypeUsed results

/-- What is answered: the status code, the details, the entries and the total. -/
structure EntityTypeVectorResponse where
  statusCode : Nat
  details : String
  entityTypeVector : List EntityType
  totalTypes : Nat

/-- `count` is whether the total is asked for; it is 0 before. -/
def mongoEntityTypes (addToSet : AddToSet) (covered : String → Bool) (collection : List StoredEntity) (count : Bool)
    (offset limit : Nat) (apiVersion : ApiVersion) : EntityTypeVectorResponse :=
  let entities := inServicePath covered collection
  let resultsArray := aggregation addToSet entities
  if resultsArray.length = 0 then ⟨404, "", [], 0⟩
  else
    let entityTypeVector := listTypes entities apiVersion ⟨"", 0, []⟩ false ((resultsArray.drop offset).take limit)
    let total := resultsArray.length
    if 0 < entityTypeVector.length then
      if count then ⟨200, "Count: " ++ Nat.repr total, entityTypeVector, total⟩ else ⟨200, "", entityTypeVector, 0⟩
    else if count then
      ⟨404, "Number of types: " ++ Nat.repr total ++ ". Offset is " ++ Nat.repr offset, entityTypeVector, total⟩
    else ⟨404, "", entityTypeVector, 0⟩

/-- A result without type is removed if one with the empty type follows. -/
def collapsed : List (Option String) → List (Option String)
  | none :: some "" :: resultsArray => some "" :: resultsArray
  | resultsArray => resultsArray

def mongoEntityTypesValues (covered : String → Bool) (collection : List StoredEntity) (count : Bool) (offset limit : Nat) :
    EntityTypeVectorResponse :=
  let resultsArray := groupKeys (inServicePath covered collection)
  if resultsArray.length = 0 then ⟨200, "", [], 0⟩
  else
    let resultsArray := collapsed resultsArray
    let entityTypeVector := ((resultsArray.drop offset).take limit).map fun id => EntityType.mk (id.getD "") 0 []
    ⟨200, "", entityTypeVector, if count then resultsArray.length else 0⟩

/-! ### What is promised -/

/-- The attribute is one of the entity. -/
def Occurs (e : StoredEntity) (name type : String) : Prop :=
  ∃ k ∈ e.attrs.map Prod.fst, keyName k = name ∧ e.attrType k = type

/-- All pages of the listing, one after the other. -/
def allPages (addToSet : AddToSet) (covered : String → Bool) (collection : List StoredEntity) (limit pages : Nat)
    (apiVersion : ApiVersion) : List EntityType :=
  (List.range pages).flatMap fun i =>
    (mongoEntityTypes addToSet covered collection true (i * limit) limit apiVersion).entityTypeVector

/-- The types of the entities, where no type is the same as the empty one. -/
def distinctTypes (entities : List StoredEntity) : List String := (entities.map fun e => e.type).dedup

/-- The entries have each type once, with the number of its entities and, in the second version of the API, with the
attributes that occur in them. -/
structure Agrees (entities : List StoredEntity) (apiVersion : ApiVersion) (entries : List EntityType) : Prop where
  types : ∀ type, (entries.filter fun entry => entry.type = type).length = if type ∈ distinctTypes entities then 1 else 0
  count : ∀ entry ∈ entries, entry.count = entities.countP fun e => e.type = entry.type
  attributes : apiVersion = .v2 → ∀ entry ∈ entries, ∀ name type,
    (name, type) ∈ entry.contextAttributeVector ↔ ∃ e ∈ entities, e.type = entry.type ∧ Occurs e name type

/-- The listing is right, whatever the page size and the order of the sets of the aggregation. -/
def TypesListed (covered : String → Bool) (collection : List StoredEntity) : Prop :=
  ∀ (addToSet : AddToSet) (apiVersion : ApiVersion) (limit pages : Nat), 1 ≤ limit → collection.length ≤ pages →
    Agrees (inServicePath covered collection) apiVersion (allPages addToSet covered collection limit pages apiVersion) ∧
      ∀ offset,
        let total := (mongoEntityTypes addToSet covered collection true offset limit apiVersion).totalTypes
        total = (distinctTypes (inServicePath covered collection)).length ∧
          total = (mongoEntityTypesValues covered collection true offset limit).totalTypes

/-! ### The entries -/

/-- What an entity adds to the types of an attribute: the name is in its list, and a key has it as it is. -/
def Found (e : StoredEntity) (name type : String) : Prop :=
  name ∈ e.attrNames ∧ ∃ k ∈ e.attrs.map Prod.fst, basePart k = name ∧ e.attrType k = type

theorem mem_getAttributeTypes {entities : List StoredEntity} (htyped : ∀ e ∈ entities, e.hasType = true)
    {entityType name type : String} :
    type ∈ getAttributeTypes entities entityType name ↔ ∃ e ∈ entities, e.type = entityType ∧ Found e name type := by
  unfold getAttributeTypes
  rw [List.mem_flatMap]
  refine exists_congr fun e => ?_
  rw [List.mem_filter, decide_eq_true_iff, List.mem_map, and_assoc]
  refine and_congr_right fun he => ?_
  have hid : e.idType = some e.type := if_pos (htyped e he)
  have hquery : (if entityType = "" then e.idType = some "" ∨ e.idType = none else e.idType = some entityType) ↔
      e.type = entityType := by
    rw [hid]
    split
    · rename_i hempty
      simp [hempty]
    · simp
  rw [hquery]
  unfold Found
  simp only [List.mem_filter, mem_getFieldNames, decide_eq_true_iff, and_assoc]

theorem mem_addedAttributes {entities : List StoredEntity} {entityType name type : String}
    {attrsArray : List (Option String)} :
    (name, type) ∈ addedAttributes entities .v2 entityType attrsArray ↔
      attrsArray.head? ≠ some none ∧ some name ∈ attrsArray ∧ type ∈ getAttributeTypes entities entityType name := by
  have hmem : (name, type) ∈ (attrsArray.flatMap fun
      | none => []
      | some attrName => (getAttributeTypes entities entityType attrName).map fun t => (attrName, t)) ↔
      some name ∈ attrsArray ∧ type ∈ getAttributeTypes entities entityType name := by
    rw [List.mem_flatMap]
    constructor
    · rintro ⟨x, hx, hpair⟩
      cases x with
      | none => cases hpair
      | some attrName =>
        obtain ⟨t, ht, heq⟩ := List.mem_map.1 hpair
        cases heq
        exact ⟨hx, ht⟩
    · rintro ⟨hname, htype⟩
      exact ⟨some name, hname, List.mem_map_of_mem htype⟩
  cases attrsArray with
  | nil => simp [addedAttributes]
  | cons x attrsArray =>
    cases x with
    | none => simp [addedAttributes]
    | some attrName => simpa [addedAttributes] using hmem

def nullId (result : Option String × List (Option String)) : Bool := decide (result.1 = none ∨ result.1 = some "")

/-- The entry of one result. -/
def entryOf (entities : List StoredEntity) (apiVersion : ApiVersion) (result : Option String × List (Option String)) :
    EntityType :=
  (EntityType.mk (result.1.getD "") 0 []).add entities apiVersion result.2

/-- The entries of a page; that of the empty type is the last. -/
theorem listTypes_eq (entities : List StoredEntity) (apiVersion : ApiVersion) (emptyEntityType : EntityType) (used : Bool)
    (results : List (Option String × List (Option String))) :
    listTypes entities apiVersion emptyEntityType used results =
      (results.filter fun r => !nullId r).map (entryOf entities apiVersion) ++
        if used || results.any nullId then
          [(results.filter nullId).foldl (fun entityType r => entityType.add entities apiVersion r.2) emptyEntityType]
        else [] := by
  induction results generalizing emptyEntityType used with
  | nil => simp [listTypes]
  | cons result results ih =>
    obtain ⟨id, attrsArray⟩ := result
    rw [listTypes]
    by_cases hid : id = none ∨ id = some ""
    · have hnull : nullId (id, attrsArray) = true := decide_eq_true hid
      rw [if_pos hid, ih]
      simp [hnull]
    · have hnull : nullId (id, attrsArray) = false := decide_eq_false hid
      rw [if_neg hid, ih, List.any_cons, hnull, Bool.false_or, List.filter_cons_of_pos (by simp [hnull]),
        List.filter_cons_of_neg (by simp [hnull])]
      rfl

/-- If no key is twice in the page and none is null, each result has its own entry. -/
theorem listTypes_perm (entities : List StoredEntity) (apiVersion : ApiVersion)
    {results : List (Option String × List (Option String))} (hnodup : (results.map Prod.fst).Nodup)
    (hsome : ∀ r ∈ results, r.1 ≠ none) :
    (listTypes entities apiVersion ⟨"", 0, []⟩ false results).Perm (results.map (entryOf entities apiVersion)) := by
  have hnull : ∀ r ∈ results.filter nullId, r.1 = some "" := by
    intro r hr
    obtain ⟨hmem, hnull⟩ := List.mem_filter.1 hr
    exact (of_decide_eq_true hnull).resolve_left (hsome r hmem)
  have hlast : (if false || results.any nullId then
      [(results.filter nullId).foldl (fun entityType r => entityType.add entities apiVersion r.2) ⟨"", 0, []⟩]
      else []) = (results.filter nullId).map (entryOf entities apiVersion) := by
    cases hfilter : results.filter nullId with
    | nil =>
      have hany : results.any nullId = false := by
        rw [List.any_eq_false]
        exact List.filter_eq_nil_iff.1 hfilter
      simp [hany]
    | cons r rest =>
      have hany : results.any nullId = true := by
        have hr : r ∈ results.filter nullId := by rw [hfilter]; exact List.mem_cons_self
        exact List.any_eq_true.2 ⟨r, (List.mem_filter.1 hr).1, (List.mem_filter.1 hr).2⟩
      have hrest : rest = [] := by
        have hkeys : ((results.filter nullId).map Prod.fst).Nodup := hnodup.sublist (List.filter_sublist.map _)
        rw [hfilter, List.map_cons, List.nodup_cons] at hkeys
        rw [List.eq_nil_iff_forall_not_mem]
        intro r' hr'
        refine hkeys.1 ?_
        rw [hnull r (by rw [hfilter]; exact List.mem_cons_self), ← hnull r' (by rw [hfilter]; exact List.mem_cons_of_mem _ hr')]
        exact List.mem_map_of_mem hr'
      have hid : r.1 = some "" := hnull r (by rw [hfilter]; exact List.mem_cons_self)
      simp [hany, hrest, entryOf, hid]
  rw [listTypes_eq, hlast, ← List.map_append]
  refine List.Perm.map _ ?_
  exact List.perm_append_comm.trans (List.filter_append_perm nullId results)

/-! ### The pages -/

/-- The pages of a list. -/
theorem flatMap_pages {α : Type} (l : List α) (limit pages : Nat) :
    ((List.range pages).flatMap fun i => (l.drop (i * limit)).take limit) = l.take (pages * limit) := by
  induction pages with
  | zero => simp
  | succ pages ih =>
    rw [List.range_succ, List.flatMap_append, ih, Nat.succ_mul, List.take_add]
    simp

theorem mongoEntityTypes_entries (addToSet : AddToSet) (covered : String → Bool) (collection : List StoredEntity)
    (offset limit : Nat) (apiVersion : ApiVersion) :
    (mongoEntityTypes addToSet covered collection true offset limit apiVersion).entityTypeVector =
      listTypes (inServicePath covered collection) apiVersion ⟨"", 0, []⟩ false
        (((aggregation addToSet (inServicePath covered collection)).drop offset).take limit) := by
  unfold mongoEntityTypes
  by_cases hempty : (aggregation addToSet (inServicePath covered collection)).length = 0
  · simp only [hempty, if_true]
    rw [List.length_eq_zero_iff.1 hempty]
    simp [listTypes]
  · simp only [hempty, if_false]
    split <;> rfl

theorem mongoEntityTypes_total (addToSet : AddToSet) (covered : String → Bool) (collection : List StoredEntity)
    (offset limit : Nat) (apiVersion : ApiVersion) :
    (mongoEntityTypes addToSet covered collection true offset limit apiVersion).totalTypes =
      (groupKeys (inServicePath covered collection)).length := by
  have hlength : (aggregation addToSet (inServicePath covered collection)).length =
      (groupKeys (inServicePath covered collection)).length := List.length_map _
  unfold mongoEntityTypes
  by_cases hempty : (aggregation addToSet (inServicePath covered collection)).length = 0
  · simp only [hempty, if_true]
    rw [← hlength, hempty]
  · simp only [hempty, if_false]
    rw [← hlength]
    split <;> rfl

theorem groupKeys_perm (entities : List StoredEntity) :
    (groupKeys entities).Perm (entities.map StoredEntity.idType).dedup := List.perm_insertionSort _ _

theorem mem_groupKeys {entities : List StoredEntity} {key : Option String} :
    key ∈ groupKeys entities ↔ ∃ e ∈ entities, e.idType = key := by
  rw [(groupKeys_perm entities).mem_iff, List.mem_dedup, List.mem_map]

theorem mem_distinctTypes {entities : List StoredEntity} {type : String} :
    type ∈ distinctTypes entities ↔ ∃ e ∈ entities, e.type = type := by
  rw [distinctTypes, List.mem_dedup, List.mem_map]

theorem groupKeys_nodup (entities : List StoredEntity) : (groupKeys entities).Nodup :=
  (groupKeys_perm entities).nodup_iff.2 (List.nodup_dedup _)

theorem aggregation_keys (addToSet : AddToSet) (entities : List StoredEntity) :
    (aggregation addToSet entities).map Prod.fst = groupKeys entities := by
  unfold aggregation
  rw [List.map_map]
  exact List.map_id _

theorem groupKeys_length_le (entities : List StoredEntity) : (groupKeys entities).length ≤ entities.length := by
  rw [(groupKeys_perm entities).length_eq]
  exact (List.dedup_sublist _).length_le.trans (List.length_map _).le

theorem mem_distinctTypes_iff_key {entities : List StoredEntity} {type : String} :
    type ∈ distinctTypes entities ↔ ∃ key ∈ groupKeys entities, key.getD "" = type := by
  rw [mem_distinctTypes]
  constructor
  · rintro ⟨e, he, rfl⟩
    exact ⟨e.idType, mem_groupKeys.2 ⟨e, he, rfl⟩, e.idType_getD⟩
  · rintro ⟨key, hkey, rfl⟩
    obtain ⟨e, he, rfl⟩ := mem_groupKeys.1 hkey
    exact ⟨e, he, e.idType_getD.symm⟩

theorem idLe_empty {a : Option String} (h : idLe a (some "") = true) (hne : a ≠ none) : a = some "" := by
  cases a with
  | none => exact absurd rfl hne
  | some s =>
    have hle : s ≤ "" := by simpa [idLe] using h
    by_contra hs
    have hlist : s.toList ≠ [] := fun hnil => hs (congrArg some (String.toList_inj.1 hnil))
    obtain ⟨c, l, hcons⟩ := List.exists_cons_of_ne_nil hlist
    have hlt : "" < s := by
      rw [String.lt_iff_toList_lt, hcons]
      exact List.nil_lt_cons c l
    exact absurd hle (not_le.2 hlt)

/-- If both are there, the null and the empty text are the first keys. -/
theorem groupKeys_sorted {entities : List StoredEntity} (hnone : none ∈ groupKeys entities)
    (hempty : some "" ∈ groupKeys entities) : ∃ keys, groupKeys entities = none :: some "" :: keys := by
  have htotal : ∀ a b : Option String, idLe a b = true ∨ idLe b a = true := by
    intro a b
    cases a with
    | none => exact Or.inl rfl
    | some s =>
      cases b with
      | none => exact Or.inr rfl
      | some t => simpa [idLe] using le_total s t
  have htrans : ∀ a b c : Option String, idLe a b = true → idLe b c = true → idLe a c = true := by
    intro a b c hab hbc
    cases a <;> cases b <;> cases c <;> simp_all [idLe]
    exact hab.trans hbc
  have : Std.Total fun a b : Option String => idLe a b = true := ⟨htotal⟩
  have : IsTrans (Option String) fun a b => idLe a b = true := ⟨htrans⟩
  have hsorted : (groupKeys entities).Pairwise fun a b => idLe a b = true := List.pairwise_insertionSort _ _
  have hnodup := groupKeys_nodup entities
  cases hkeys : groupKeys entities with
  | nil =>
    rw [hkeys] at hnone
    cases hnone
  | cons first keys =>
    rw [hkeys] at hnone hempty hsorted hnodup
    obtain ⟨hfirst, hrest⟩ := List.pairwise_cons.1 hsorted
    obtain ⟨hnotFirst, -⟩ := List.nodup_cons.1 hnodup
    have hnull : first = none := by
      rcases List.mem_cons.1 hnone with hnull | hmem
      · exact hnull.symm
      · have hle := hfirst none hmem
        cases first with
        | none => rfl
        | some s => cases hle
    subst hnull
    have hempty : some "" ∈ keys := by simpa using hempty
    cases keys with
    | nil => cases hempty
    | cons second keys =>
      have hsecond : second = some "" := by
        rcases List.mem_cons.1 hempty with hsame | hmem
        · exact hsame.symm
        · refine idLe_empty ((List.pairwise_cons.1 hrest).1 _ hmem) fun hnone => hnotFirst ?_
          rw [hnone]
          exact List.mem_cons_self
      exact ⟨keys, by rw [hsecond]⟩

/-- The types that `mongoEntityTypesValues` lists are the distinct ones, whatever is stored. -/
theorem collapsed_perm (entities : List StoredEntity) :
    ((collapsed (groupKeys entities)).map fun key => key.getD "").Perm (distinctTypes entities) := by
  have hcollapsed : (collapsed (groupKeys entities)).Sublist (groupKeys entities) ∧
      (none ∈ collapsed (groupKeys entities) → some "" ∉ collapsed (groupKeys entities)) ∧
      ∀ key ∈ groupKeys entities, ∃ key' ∈ collapsed (groupKeys entities), key'.getD "" = key.getD "" := by
    by_cases hboth : none ∈ groupKeys entities ∧ some "" ∈ groupKeys entities
    · obtain ⟨keys, hkeys⟩ := groupKeys_sorted hboth.1 hboth.2
      have hnodup := groupKeys_nodup entities
      rw [hkeys] at hnodup ⊢
      refine ⟨List.sublist_cons_self _ _, fun hnone => absurd hnone (List.nodup_cons.1 hnodup).1, fun key hkey => ?_⟩
      rcases List.mem_cons.1 hkey with rfl | hkey
      · exact ⟨some "", List.mem_cons_self, rfl⟩
      · exact ⟨key, hkey, rfl⟩
    · have hsame : collapsed (groupKeys entities) = groupKeys entities := by
        unfold collapsed
        split
        · rename_i keys hkeys
          rw [hkeys] at hboth
          exact absurd ⟨List.mem_cons_self, List.mem_cons_of_mem _ List.mem_cons_self⟩ hboth
        · rfl
      rw [hsame]
      exact ⟨List.Sublist.refl _, fun hnone hempty => hboth ⟨hnone, hempty⟩, fun key hkey => ⟨key, hkey, rfl⟩⟩
  obtain ⟨hsub, hnotBoth, hcover⟩ := hcollapsed
  have hinj : ∀ a ∈ collapsed (groupKeys entities), ∀ b ∈ collapsed (groupKeys entities),
      a.getD "" = b.getD "" → a = b := by
    intro a ha b hb hab
    cases a with
    | none =>
      cases b with
      | none => rfl
      | some t =>
        obtain rfl : "" = t := hab
        exact absurd hb (hnotBoth ha)
    | some s =>
      cases b with
      | none =>
        obtain rfl : s = "" := hab
        exact absurd ha (hnotBoth hb)
      | some t => exact congrArg some hab
  have hnodup := List.Nodup.map_on hinj ((groupKeys_nodup entities).sublist hsub)
  refine (List.perm_ext_iff_of_nodup hnodup (List.nodup_dedup _)).2 fun type => ?_
  rw [List.mem_map]
  constructor
  · rintro ⟨key, hkey, rfl⟩
    exact mem_distinctTypes_iff_key.2 ⟨key, hsub.subset hkey, rfl⟩
  · intro htype
    obtain ⟨key, hkey, rfl⟩ := mem_distinctTypes_iff_key.1 htype
    exact hcover key hkey

theorem mongoEntityTypesValues_total (covered : String → Bool) (collection : List StoredEntity) (offset limit : Nat) :
    (mongoEntityTypesValues covered collection true offset limit).totalTypes =
      (distinctTypes (inServicePath covered collection)).length := by
  have hlength : (collapsed (groupKeys (inServicePath covered collection))).length =
      (distinctTypes (inServicePath covered collection)).length := by
    rw [← (collapsed_perm (inServicePath covered collection)).length_eq, List.length_map]
  rw [← hlength]
  unfold mongoEntityTypesValues
  by_cases hempty : (groupKeys (inServicePath covered collection)).length = 0
  · simp only [hempty, if_true]
    rw [List.length_eq_zero_iff.1 hempty]
    rfl
  · simp only [hempty, if_false, if_true]

/-- Where every entity has a type, the keys are the types. -/
theorem groupKeys_typed {entities : List StoredEntity} (htyped : ∀ e ∈ entities, e.hasType = true) :
    (groupKeys entities).Perm ((distinctTypes entities).map some) := by
  have hkeys : entities.map StoredEntity.idType = (entities.map fun e => e.type).map some := by
    rw [List.map_map]
    exact List.map_congr_left fun e he => if_pos (htyped e he)
  refine (groupKeys_perm entities).trans ?_
  rw [hkeys, List.dedup_map_of_injective (Option.some_injective _)]
  exact List.Perm.refl _

/-- Where every entity has a type, the pages have one entry for each result. -/
theorem allPages_perm {covered : String → Bool} {collection : List StoredEntity}
    (htyped : ∀ e ∈ inServicePath covered collection, e.hasType = true) (addToSet : AddToSet) (apiVersion : ApiVersion)
    {limit pages : Nat} (hlimit : 1 ≤ limit) (hpages : collection.length ≤ pages) :
    (allPages addToSet covered collection limit pages apiVersion).Perm
      ((aggregation addToSet (inServicePath covered collection)).map
        (entryOf (inServicePath covered collection) apiVersion)) := by
  let entities := inServicePath covered collection
  let results := aggregation addToSet entities
  have hnodup : (results.map Prod.fst).Nodup := by
    rw [aggregation_keys]
    exact groupKeys_nodup entities
  have hsome : ∀ r ∈ results, r.1 ≠ none := by
    intro r hr hnone
    have hkey : r.1 ∈ groupKeys entities := by
      rw [← aggregation_keys addToSet]
      exact List.mem_map_of_mem hr
    obtain ⟨e, he, hid⟩ := mem_groupKeys.1 hkey
    rw [hnone, StoredEntity.idType, if_pos (htyped e he)] at hid
    cases hid
  have hpage : ∀ i ∈ List.range pages,
      (mongoEntityTypes addToSet covered collection true (i * limit) limit apiVersion).entityTypeVector.Perm
        (((results.drop (i * limit)).take limit).map (entryOf entities apiVersion)) := by
    intro i _
    have hsub : ((results.drop (i * limit)).take limit).Sublist results :=
      (List.take_sublist _ _).trans (List.drop_sublist _ _)
    rw [mongoEntityTypes_entries]
    exact listTypes_perm entities apiVersion (hnodup.sublist (hsub.map _)) fun r hr => hsome r (hsub.subset hr)
  refine (List.Perm.flatMap_left _ hpage).trans ?_
  rw [← List.map_flatMap, flatMap_pages, List.take_of_length_le]
  have hresults : results.length = (groupKeys entities).length := List.length_map _
  have hentities : entities.length ≤ collection.length := List.length_filter_le _ _
  have hkeys := groupKeys_length_le entities
  nlinarith

/-- The names of a group, before they are put into a set. -/
def groupNames (entities : List StoredEntity) (type : String) : List (Option String) :=
  (entities.filter fun e => e.idType = some type).flatMap unwound

theorem none_mem_groupNames {entities : List StoredEntity} (htyped : ∀ e ∈ entities, e.hasType = true) {type : String} :
    none ∈ groupNames entities type ↔ ∃ e ∈ entities, e.type = type ∧ e.attrNames = [] := by
  unfold groupNames
  rw [List.mem_flatMap]
  refine exists_congr fun e => ?_
  rw [List.mem_filter, decide_eq_true_iff, and_assoc]
  refine and_congr_right fun he => ?_
  rw [StoredEntity.idType, if_pos (htyped e he), Option.some.injEq]
  refine and_congr_right fun _ => ?_
  unfold unwound
  split <;> simp_all

theorem some_mem_groupNames {entities : List StoredEntity} {e : StoredEntity} (he : e ∈ entities)
    (htyped : e.hasType = true) {name : String} (hname : name ∈ e.attrNames) : some name ∈ groupNames entities e.type := by
  refine List.mem_flatMap.2 ⟨e, List.mem_filter.2 ⟨he, decide_eq_true (if_pos htyped)⟩, ?_⟩
  unfold unwound
  rw [if_neg (List.ne_nil_of_mem hname)]
  exact List.mem_map_of_mem hname

/-- The attributes of the entry of a type: what is found by name, if the first name is not null. -/
theorem mem_entryOf {entities : List StoredEntity} (htyped : ∀ e ∈ entities, e.hasType = true) (addToSet : AddToSet)
    (entityType name type : String) :
    (name, type) ∈ (entryOf entities .v2
        (some entityType, addToSet.set (groupNames entities entityType))).contextAttributeVector ↔
      (addToSet.set (groupNames entities entityType)).head? ≠ some none ∧
        ∃ e ∈ entities, e.type = entityType ∧ Found e name type := by
  have hadded : (entryOf entities .v2
      (some entityType, addToSet.set (groupNames entities entityType))).contextAttributeVector =
      addedAttributes entities .v2 entityType (addToSet.set (groupNames entities entityType)) := List.nil_append _
  rw [hadded, mem_addedAttributes, mem_getAttributeTypes htyped, addToSet.mem_iff]
  refine and_congr_right fun _ => and_iff_right_of_imp ?_
  rintro ⟨e, he, rfl, hname, -⟩
  exact some_mem_groupNames he (htyped e he) hname

/-- The entries of a listing of entities that have types. -/
theorem mem_entries {entities : List StoredEntity} (htyped : ∀ e ∈ entities, e.hasType = true) {addToSet : AddToSet}
    {apiVersion : ApiVersion} {entry : EntityType} :
    entry ∈ (aggregation addToSet entities).map (entryOf entities apiVersion) ↔
      ∃ e ∈ entities, entryOf entities apiVersion (some e.type, addToSet.set (groupNames entities e.type)) = entry := by
  unfold aggregation
  rw [List.map_map, List.mem_map]
  constructor
  · rintro ⟨key, hkey, rfl⟩
    obtain ⟨e, he, rfl⟩ := mem_groupKeys.1 hkey
    refine ⟨e, he, ?_⟩
    rw [StoredEntity.idType, if_pos (htyped e he)]
    rfl
  · rintro ⟨e, he, rfl⟩
    refine ⟨some e.type, mem_groupKeys.2 ⟨e, he, if_pos (htyped e he)⟩, rfl⟩

/-- The first and the last place for a null in a set. -/
def nullFirst : AddToSet where
  set l := (if none ∈ l then [none] else []) ++ l.dedup.filter fun x => x ≠ none
  nodup l := by
    refine List.nodup_append.2 ⟨?_, (List.nodup_dedup l).filter _, ?_⟩
    · split <;> simp
    · intro x hx y hy hxy
      have hnone : x = none := by
        split at hx
        · exact List.mem_singleton.1 hx
        · cases hx
      have hsome := of_decide_eq_true (List.mem_filter.1 hy).2
      exact hsome (hxy.symm.trans hnone)
  mem_iff l x := by
    rw [List.mem_append, List.mem_filter, List.mem_dedup]
    by_cases hx : x = none
    · subst hx
      split <;> simp_all
    · split <;> simp_all

def nullLast : AddToSet where
  set l := (l.dedup.filter fun x => x ≠ none) ++ if none ∈ l then [none] else []
  nodup l := List.nodup_append_comm.2 (nullFirst.nodup l)
  mem_iff l x := by
    rw [← nullFirst.mem_iff l x]
    exact List.perm_append_comm.mem_iff

theorem nullFirst_head {l : List (Option String)} (h : none ∈ l) : (nullFirst.set l).head? = some none := by
  simp [nullFirst, h]

theorem nullLast_head {l : List (Option String)} {name : String} (h : some name ∈ l) :
    (nullLast.set l).head? ≠ some none := by
  have hne : (l.dedup.filter fun x => x ≠ none) ≠ [] :=
    List.ne_nil_of_mem (List.mem_filter.2 ⟨List.mem_dedup.2 h, by simp⟩)
  intro hhead
  have hfirst : ((l.dedup.filter fun x => x ≠ none) ++ if none ∈ l then [none] else []).head? = some none := hhead
  rw [List.head?_append_of_ne_nil _ hne] at hfirst
  have hnone := (List.mem_filter.1 (List.mem_of_head? hfirst)).2
  simp at hnone

/-! ### When the listing is right -/

/-- Every entity has a type, no type has entities without names next to attributes, every attribute of a type is found
by its name in an entity of the type, and no name that finds an attribute is encoded. -/
structure RightlyStored (entities : List StoredEntity) : Prop where
  typed : ∀ e ∈ entities, e.hasType = true
  unmixed : ∀ e ∈ entities, e.attrNames = [] → ∀ e' ∈ entities, e'.type = e.type → ∀ name type, ¬ Occurs e' name type
  found : ∀ e ∈ entities, ∀ name type, Occurs e name type → ∃ e' ∈ entities, e'.type = e.type ∧ Found e' name type
  decoded : ∀ e ∈ entities, ∀ name type, Found e name type → '=' ∉ name.toList

theorem occurs_of_found {e : StoredEntity} {name type : String} (h : Found e name type) (hname : '=' ∉ name.toList) :
    Occurs e name type := by
  obtain ⟨-, k, hk, hbase, htype⟩ := h
  exact ⟨k, hk, by rw [keyName, hbase, dbDotDecode_of_no_equals hname], htype⟩

theorem no_equals_of_occurs {e : StoredEntity} {name type : String} (h : Occurs e name type) : '=' ∉ name.toList := by
  obtain ⟨k, -, rfl, -⟩ := h
  exact no_equals_dbDotDecode _

theorem agrees_of_rightlyStored {covered : String → Bool} {collection : List StoredEntity}
    (h : RightlyStored (inServicePath covered collection)) (addToSet : AddToSet) (apiVersion : ApiVersion)
    {limit pages : Nat} (hlimit : 1 ≤ limit) (hpages : collection.length ≤ pages) :
    Agrees (inServicePath covered collection) apiVersion (allPages addToSet covered collection limit pages apiVersion) := by
  have hperm := allPages_perm h.typed addToSet apiVersion hlimit hpages
  have hentry : ∀ entry ∈ allPages addToSet covered collection limit pages apiVersion,
      ∃ e ∈ inServicePath covered collection, entryOf (inServicePath covered collection) apiVersion
        (some e.type, addToSet.set (groupNames (inServicePath covered collection) e.type)) = entry := by
    intro entry hentry
    exact (mem_entries h.typed).1 (hperm.mem_iff.1 hentry)
  refine ⟨fun type => ?_, fun entry hmem => ?_, fun hv2 entry hmem name type => ?_⟩
  · have htypes : ((allPages addToSet covered collection limit pages apiVersion).map EntityType.type).Perm
        (distinctTypes (inServicePath covered collection)) := by
      have hkeys : ((aggregation addToSet (inServicePath covered collection)).map
          (entryOf (inServicePath covered collection) apiVersion)).map EntityType.type =
          (groupKeys (inServicePath covered collection)).map fun key => key.getD "" := by
        unfold aggregation
        rw [List.map_map, List.map_map]
        rfl
      have hsome := (groupKeys_typed h.typed).map fun key => key.getD ""
      refine (hperm.map _).trans ?_
      rw [hkeys]
      refine hsome.trans ?_
      rw [List.map_map]
      exact List.Perm.of_eq (List.map_id _)
    have hnodup : (distinctTypes (inServicePath covered collection)).Nodup := List.nodup_dedup _
    have hcount := htypes.count_eq type
    rw [hnodup.count] at hcount
    rw [← hcount, List.count, List.countP_map, List.countP_eq_length_filter]
    rfl
  · obtain ⟨e, -, rfl⟩ := hentry entry hmem
    have hcount : (entryOf (inServicePath covered collection) apiVersion
        (some e.type, addToSet.set (groupNames (inServicePath covered collection) e.type))).count =
        countEntities (inServicePath covered collection) e.type := Nat.zero_add _
    rw [hcount]
    refine List.countP_congr fun e' he' => ?_
    rw [StoredEntity.idType, if_pos (h.typed e' he')]
    simp [entryOf, EntityType.add]
  · obtain ⟨e, he, rfl⟩ := hentry entry hmem
    subst hv2
    rw [mem_entryOf h.typed]
    constructor
    · rintro ⟨-, e', he', htype, hfound⟩
      exact ⟨e', he', htype, occurs_of_found hfound (h.decoded e' he' name type hfound)⟩
    · rintro ⟨e', he', htype, hoccurs⟩
      have htype' : e'.type = e.type := htype
      refine ⟨fun hnull => ?_, ?_⟩
      · have hnone := (addToSet.mem_iff _ _).1 (List.mem_of_head? hnull)
        obtain ⟨e'', he'', htype'', hempty⟩ := (none_mem_groupNames h.typed).1 hnone
        exact h.unmixed e'' he'' hempty e' he' (htype'.trans htype''.symm) name type hoccurs
      · obtain ⟨e'', he'', htype'', hfound⟩ := h.found e' he' name type hoccurs
        exact ⟨e'', he'', htype''.trans htype', hfound⟩

/-- No entity of the empty type is counted: its entry has the count 0. -/
theorem count_eq_zero {entities : List StoredEntity} (hnone : countEntities entities "" = 0) (apiVersion : ApiVersion)
    {emptyEntityType : EntityType} (htype : emptyEntityType.type = "") (hcount : emptyEntityType.count = 0) (used : Bool)
    (results : List (Option String × List (Option String))) :
    ∀ entry ∈ listTypes entities apiVersion emptyEntityType used results, entry.type = "" → entry.count = 0 := by
  induction results generalizing emptyEntityType used with
  | nil =>
    intro entry hentry _
    rw [listTypes] at hentry
    split at hentry
    · rw [List.mem_singleton.1 hentry]
      exact hcount
    · cases hentry
  | cons result results ih =>
    obtain ⟨id, attrsArray⟩ := result
    intro entry hentry hempty
    rw [listTypes] at hentry
    split at hentry
    · refine @ih (emptyEntityType.add entities apiVersion attrsArray) htype ?_ true entry hentry hempty
      rw [EntityType.add, htype, hcount, hnone]
    · rename_i hid
      rcases List.mem_cons.1 hentry with rfl | hentry
      · have hid' : id.getD "" = "" := hempty
        cases id with
        | none => exact absurd (Or.inl rfl) hid
        | some s => exact absurd (Or.inr (congrArg some hid')) hid
      · exact ih htype hcount used entry hentry hempty

/-- Two keys of one type make the total too large. -/
theorem no_empty_type {entities : List StoredEntity}
    (htotal : (groupKeys entities).length = (distinctTypes entities).length) {e : StoredEntity} (he : e ∈ entities)
    (hnone : e.idType = none) : countEntities entities "" = 0 := by
  rw [countEntities, List.countP_eq_zero]
  intro e' he' hempty
  have hempty : e'.idType = some "" := of_decide_eq_true hempty
  -- as many keys as types: no two keys have one type
  have hsub : distinctTypes entities ⊆ (groupKeys entities).map fun key => key.getD "" := by
    intro type htype
    exact List.mem_map.2 (mem_distinctTypes_iff_key.1 htype)
  have hperm : (distinctTypes entities).Perm ((groupKeys entities).map fun key => key.getD "") := by
    refine (List.subperm_of_subset (List.nodup_dedup _) hsub).perm_of_length_le ?_
    rw [List.length_map, htotal]
    exact le_rfl
  have hnodup : ((groupKeys entities).map fun key => key.getD "").Nodup := hperm.nodup_iff.1 (List.nodup_dedup _)
  have hkey : none ∈ groupKeys entities := mem_groupKeys.2 ⟨e, he, hnone⟩
  have hkey' : some "" ∈ groupKeys entities := mem_groupKeys.2 ⟨e', he', hempty⟩
  have hsame := List.inj_on_of_nodup_map hnodup hkey hkey' rfl
  cases hsame

/-- The listing of the types is right if and only if the entities are stored as it needs them. -/
theorem typesListed_iff (covered : String → Bool) (collection : List StoredEntity) :
    TypesListed covered collection ↔ RightlyStored (inServicePath covered collection) := by
  constructor
  · intro h
    have htyped : ∀ e ∈ inServicePath covered collection, e.hasType = true := by
      intro e he
      by_contra hno
      have hnone : e.idType = none := if_neg hno
      have hempty : e.type = "" := e.type_eq (by simpa using hno)
      obtain ⟨hagrees, htotal⟩ := h nullFirst .v1 1 collection.length le_rfl le_rfl
      have hkeys := (htotal 0).1
      rw [mongoEntityTypes_total] at hkeys
      have hzero := no_empty_type hkeys he hnone
      have hlisted := hagrees.types ""
      rw [if_pos (mem_distinctTypes.2 ⟨e, he, hempty⟩)] at hlisted
      obtain ⟨entry, hentry⟩ := List.exists_mem_of_length_pos (by rw [hlisted]; decide)
      obtain ⟨hentry, htype⟩ := List.mem_filter.1 hentry
      have htype : entry.type = "" := of_decide_eq_true htype
      have hcount := hagrees.count entry hentry
      obtain ⟨i, -, hpage⟩ := List.mem_flatMap.1 hentry
      rw [mongoEntityTypes_entries] at hpage
      rw [count_eq_zero hzero .v1 rfl rfl false _ entry hpage htype] at hcount
      have hpos : 0 < (inServicePath covered collection).countP fun e => e.type = entry.type :=
        List.countP_pos_iff.2 ⟨e, he, decide_eq_true (hempty.trans htype.symm)⟩
      omega
    -- what an entry has and what it should have, for either order of a set
    have hattributes : ∀ (addToSet : AddToSet), ∀ e ∈ inServicePath covered collection, ∀ name type,
        ((addToSet.set (groupNames (inServicePath covered collection) e.type)).head? ≠ some none ∧
            ∃ e' ∈ inServicePath covered collection, e'.type = e.type ∧ Found e' name type) ↔
          ∃ e' ∈ inServicePath covered collection, e'.type = e.type ∧ Occurs e' name type := by
      intro addToSet e he name type
      obtain ⟨hagrees, -⟩ := h addToSet .v2 1 collection.length le_rfl le_rfl
      have hentry := (allPages_perm htyped addToSet .v2 le_rfl (le_refl collection.length)).mem_iff.2
        ((mem_entries htyped).2 ⟨e, he, rfl⟩)
      have hpairs := hagrees.attributes rfl _ hentry name type
      rw [mem_entryOf htyped] at hpairs
      exact hpairs
    refine ⟨htyped, ?_, ?_, ?_⟩
    · intro e he hempty e' he' htype name type hoccurs
      have hnone := (none_mem_groupNames htyped).2 ⟨e, he, rfl, hempty⟩
      exact ((hattributes nullFirst e he name type).2 ⟨e', he', htype, hoccurs⟩).1 (nullFirst_head hnone)
    · intro e he name type hoccurs
      exact ((hattributes nullFirst e he name type).2 ⟨e, he, rfl, hoccurs⟩).2
    · intro e he name type hfound
      have hsome := some_mem_groupNames he (htyped e he) hfound.1
      obtain ⟨e', -, -, hoccurs⟩ := (hattributes nullLast e he name type).1 ⟨nullLast_head hsome, e, he, rfl, hfound⟩
      exact no_equals_of_occurs hoccurs
  · intro h addToSet apiVersion limit pages hlimit hpages
    refine ⟨agrees_of_rightlyStored h addToSet apiVersion hlimit hpages, fun offset => ?_⟩
    have hkeys : (groupKeys (inServicePath covered collection)).length =
        (distinctTypes (inServicePath covered collection)).length := by
      rw [(groupKeys_typed h.typed).length_eq, List.length_map]
    intro total
    have htotal : total = (groupKeys (inServicePath covered collection)).length :=
      mongoEntityTypes_total addToSet covered collection offset limit apiVersion
    have hvalues := mongoEntityTypesValues_total covered collection offset limit
    exact ⟨htotal.trans hkeys, htotal.trans (hkeys.trans hvalues.symm)⟩

/-- Where the lists of names are right, the entities are stored as the listing needs them if and only if every entity has
a type, no type has both entities without attributes and others, and no attribute has a name with a dot. -/
theorem rightlyStored_iff {entities : List StoredEntity} (hnames : ∀ e ∈ entities, NamesMatch e.toEntityDoc)
    (hencoded : ∀ e ∈ entities, KeysEncoded e.toEntityDoc) :
    RightlyStored entities ↔
      (∀ e ∈ entities, e.hasType = true) ∧
        (∀ e ∈ entities, e.attrNames = [] → ∀ e' ∈ entities, e'.type = e.type → e'.attrNames = []) ∧
        ∀ e ∈ entities, ∀ name ∈ e.attrNames, '.' ∉ name.toList := by
  have hoccurs : ∀ e ∈ entities, ∀ name, name ∈ e.attrNames ↔ ∃ type, Occurs e name type := by
    intro e he name
    rw [hnames e he name]
    constructor
    · rintro ⟨k, hk, hname⟩
      exact ⟨e.attrType k, k, hk, hname, rfl⟩
    · rintro ⟨type, k, hk, hname, -⟩
      exact ⟨k, hk, hname⟩
  constructor
  · intro h
    refine ⟨h.typed, fun e he hempty e' he' htype => ?_, fun e he name hname => ?_⟩
    · rw [List.eq_nil_iff_forall_not_mem]
      intro name hname
      obtain ⟨type, ho⟩ := (hoccurs e' he' name).1 hname
      exact h.unmixed e he hempty e' he' htype name type ho
    · obtain ⟨type, ho⟩ := (hoccurs e he name).1 hname
      obtain ⟨e', he', -, -, k, hk, rfl, -⟩ := h.found e he name type ho
      exact hencoded e' he' k hk
  · rintro ⟨htyped, hunmixed, hdots⟩
    refine ⟨htyped, fun e he hempty e' he' htype name type ho => ?_, fun e he name type ho => ?_, ?_⟩
    · have hmem := (hoccurs e' he' name).2 ⟨type, ho⟩
      rw [hunmixed e he hempty e' he' htype] at hmem
      cases hmem
    · have hmem := (hoccurs e he name).2 ⟨type, ho⟩
      refine ⟨e, he, rfl, hmem, ?_⟩
      obtain ⟨k, hk, hname, htype⟩ := ho
      have hbase : dbDotEncode name = basePart k := by
        rw [← hname]
        exact dbDotEncode_dbDotDecode (hencoded e he k hk)
      exact ⟨k, hk, hbase.symm.trans (dbDotEncode_of_no_dot (hdots e he name hmem)), htype⟩
    · intro e he name type hfound
      obtain ⟨type', ho⟩ := (hoccurs e he name).1 hfound.1
      exact no_equals_of_occurs ho

/-- An entity without type and without attributes. -/
def untyped : StoredEntity where
  id := "E"
  type := ""
  servicePath := "/"
  attrNames := []
  attrs := []
  creDate := none
  modDate := none
  location := none
  hasType := false
  type_eq := fun _ => rfl

/-- The only entity is not counted. -/
theorem untyped_not_counted :
    allPages nullFirst (fun _ => true) [untyped] 1 1 .v2 = [⟨"", 0, []⟩] ∧ ¬ TypesListed (fun _ => true) [untyped] := by
  have hpages : allPages nullFirst (fun _ => true) [untyped] 1 1 .v2 = [⟨"", 0, []⟩] := by
    rfl
  refine ⟨hpages, fun h => ?_⟩
  obtain ⟨hagrees, -⟩ := h nullFirst .v2 1 1 le_rfl le_rfl
  rw [hpages] at hagrees
  have hcount := hagrees.count ⟨"", 0, []⟩ List.mem_cons_self
  exact absurd hcount (by decide)

end OrionBroker.TypeListing
