import OrionBroker.TypeListing

/-!
# The attributes of one entity type (`mongoQueryTypes.cpp`)

`mongoAttributesForEntityType` has an aggregation of its own: it gives the names of the attributes in order, each once, and
a page is a page of names.  The types of each name are looked up as for the listing of all types.

The pages one after the other have the same attributes as the entry of the type in the listing of all types, unless a null
comes first in the set of names of that listing (`attributes_agree_iff`).
-/

namespace OrionBroker.TypeListing

open Bson

/-- `$unwind`, `$group` and `$sort`: the names of the attributes of a type. -/
def attributeNames (entities : List StoredEntity) (entityType : String) : List String :=
  ((entities.filter fun e => e.idType = some entityType).flatMap fun e => e.attrNames).dedup.insertionSort (· ≤ ·)

/-- The attributes of a name; in the first version of the API there is one. -/
def typedAttributes (entities : List StoredEntity) (apiVersion : ApiVersion) (entityType attrName : String) :
    List (String × String) :=
  let attrTypes := (getAttributeTypes entities entityType attrName).map fun t => (attrName, t)
  if apiVersion = .v1 then attrTypes.take 1 else attrTypes

structure EntityTypeResponse where
  statusCode : Nat
  details : String
  entityType : EntityType

/-- `detailsString` is only looked at in the first version of the API. -/
def mongoAttributesForEntityType (covered : String → Bool) (collection : List StoredEntity) (entityType : String)
    (offset limit : Nat) (detailsString : String) (apiVersion : ApiVersion) : EntityTypeResponse :=
  let entities := inServicePath covered collection
  let count := apiVersion = .v1 && Text.strcasecmp "on" detailsString
  let resultsArray := attributeNames entities entityType
  let response : EntityType := ⟨entityType, countEntities entities entityType, []⟩
  if resultsArray.length = 0 then ⟨404, "", response⟩
  else
    let attributes := ((resultsArray.drop offset).take limit).flatMap (typedAttributes entities apiVersion entityType)
    let response := { response with contextAttributeVector := attributes }
    if 0 < attributes.length then
      ⟨200, if count then "Count: " ++ Nat.repr resultsArray.length else "", response⟩
    else
      ⟨404, if count then "Number of attributes: " ++ Nat.repr resultsArray.length ++ ". Offset is " ++ Nat.repr offset else "",
        response⟩

/-- The attributes of the pages, one after the other. -/
def allAttributePages (covered : String → Bool) (collection : List StoredEntity) (entityType : String) (limit pages : Nat)
    (detailsString : String) (apiVersion : ApiVersion) : List (String × String) :=
  (List.range pages).flatMap fun i => (mongoAttributesForEntityType covered collection entityType (i * limit) limit
    detailsString apiVersion).entityType.contextAttributeVector

section Pages

variable {covered : String → Bool} {collection : List StoredEntity} {entities : List StoredEntity} {entityType : String}
variable {apiVersion : ApiVersion}

theorem mem_attributeNames {name : String} :
    name ∈ attributeNames entities entityType ↔ ∃ e ∈ entities, e.idType = some entityType ∧ name ∈ e.attrNames := by
  unfold attributeNames
  rw [(List.perm_insertionSort _ _).mem_iff, List.mem_dedup, List.mem_flatMap]
  simp only [List.mem_filter, decide_eq_true_eq, and_assoc]

theorem nodup_attributeNames : (attributeNames entities entityType).Nodup :=
  (List.perm_insertionSort _ _).nodup_iff.2 (List.nodup_dedup _)

theorem attributes_of_page (covered : String → Bool) (collection : List StoredEntity) (entityType : String)
    (offset limit : Nat) (detailsString : String) (apiVersion : ApiVersion) :
    (mongoAttributesForEntityType covered collection entityType offset limit detailsString
        apiVersion).entityType.contextAttributeVector =
      (((attributeNames (inServicePath covered collection) entityType).drop offset).take limit).flatMap
        (typedAttributes (inServicePath covered collection) apiVersion entityType) := by
  unfold mongoAttributesForEntityType
  dsimp only
  split
  · rename_i hempty
    rw [List.length_eq_zero_iff.1 hempty]
    simp
  · split <;> rfl

theorem count_of_page (covered : String → Bool) (collection : List StoredEntity) (entityType : String)
    (offset limit : Nat) (detailsString : String) (apiVersion : ApiVersion) :
    (mongoAttributesForEntityType covered collection entityType offset limit detailsString apiVersion).entityType.count =
      countEntities (inServicePath covered collection) entityType := by
  unfold mongoAttributesForEntityType
  dsimp only
  split
  · rfl
  · split <;> rfl

theorem allAttributePages_eq {limit pages : Nat}
    (hpages : (attributeNames (inServicePath covered collection) entityType).length ≤ pages * limit) (detailsString : String) :
    allAttributePages covered collection entityType limit pages detailsString apiVersion =
      (attributeNames (inServicePath covered collection) entityType).flatMap
        (typedAttributes (inServicePath covered collection) apiVersion entityType) := by
  unfold allAttributePages
  simp only [attributes_of_page]
  rw [← List.flatMap_assoc, flatMap_pages, List.take_of_length_le hpages]

end Pages

/-! ### Against the listing of all types -/

section Agreement

variable {entities : List StoredEntity} {entityType : String} {apiVersion : ApiVersion} {addToSet : AddToSet}

/-- A null in front takes all attributes away; others are passed over. -/
theorem addedAttributes_eq (attrsArray : List (Option String)) :
    addedAttributes entities apiVersion entityType attrsArray =
      if attrsArray.head? = some none then []
      else attrsArray.reduceOption.flatMap (typedAttributes entities apiVersion entityType) := by
  have hall : ∀ l : List (Option String),
      (l.flatMap fun attrName => attrName.elim [] (typedAttributes entities apiVersion entityType)) =
        l.reduceOption.flatMap (typedAttributes entities apiVersion entityType) := by
    intro l
    induction l with
    | nil => rfl
    | cons x l ih =>
      cases x with
      | none => simpa [List.reduceOption_cons_of_none] using ih
      | some attrName =>
        rw [List.flatMap_cons, List.reduceOption_cons_of_some, List.flatMap_cons, ih, Option.elim_some]
  cases attrsArray with
  | nil => rfl
  | cons x l =>
    cases x with
    | none => rfl
    | some attrName =>
      rw [if_neg (by simp)]
      refine Eq.trans ?_ (hall (some attrName :: l))
      show List.flatMap _ (some attrName :: l) = List.flatMap _ (some attrName :: l)
      refine congrArg (List.flatMap · (some attrName :: l)) (funext fun x => ?_)
      cases x with
      | none => rfl
      | some name => rfl

/-- The names of a set of names are those of the type. -/
theorem names_perm (addToSet : AddToSet) (entities : List StoredEntity) (entityType : String) :
    (addToSet.set (groupNames entities entityType)).reduceOption.Perm (attributeNames entities entityType) := by
  have hnodup : (addToSet.set (groupNames entities entityType)).reduceOption.Nodup := by
    have hset := addToSet.nodup (groupNames entities entityType)
    unfold List.reduceOption
    refine List.Nodup.filterMap ?_ hset
    intro a b c hc hd
    simp only [id_eq, Option.mem_def] at hc hd
    rw [hc, hd]
  refine (List.perm_ext_iff_of_nodup hnodup nodup_attributeNames).2 fun name => ?_
  rw [List.reduceOption_mem_iff, addToSet.mem_iff, mem_attributeNames, groupNames, List.mem_flatMap]
  refine exists_congr fun e => ?_
  rw [List.mem_filter, decide_eq_true_eq, and_assoc]
  refine and_congr_right fun _ => and_congr_right fun _ => ?_
  unfold unwound
  split
  · rename_i hempty
    simp [hempty]
  · simp

/-- An entry of a page for a type that is not empty. -/
theorem entry_of_listing {results : List (Option String × List (Option String))} {entry : EntityType}
    (h : entry ∈ listTypes entities apiVersion ⟨"", 0, []⟩ false results) (htype : entry.type ≠ "") :
    ∃ result ∈ results, result.1 = some entry.type ∧ entry = entryOf entities apiVersion result := by
  rw [listTypes_eq, List.mem_append] at h
  have hfold : ∀ (l : List (Option String × List (Option String))) (start : EntityType),
      (l.foldl (fun entityType r => entityType.add entities apiVersion r.2) start).type = start.type := by
    intro l
    induction l with
    | nil => exact fun _ => rfl
    | cons r l ih => exact fun start => ih _
  rcases h with hmem | hlast
  · obtain ⟨result, hresult, rfl⟩ := List.mem_map.1 hmem
    obtain ⟨hin, hnull⟩ := List.mem_filter.1 hresult
    refine ⟨result, hin, ?_, rfl⟩
    cases hkey : result.1 with
    | none => exact absurd hnull (by simp [nullId, hkey])
    | some key =>
      have hname : (entryOf entities apiVersion result).type = key := by simp [entryOf, EntityType.add, hkey]
      rw [hname]
  · split at hlast
    · rw [List.mem_singleton.1 hlast, hfold] at htype
      exact absurd rfl htype
    · cases hlast

/-- For every collection, an entry of the listing of all types has the same count and, up to their order, the same
attributes as the pages of its type, unless a null comes first in its set of names and there are attributes. -/
theorem attributes_agree_iff (addToSet : AddToSet) (covered : String → Bool) (collection : List StoredEntity)
    (apiVersion : ApiVersion) (offset limit : Nat) {entry : EntityType}
    (hentry : entry ∈ (mongoEntityTypes addToSet covered collection true offset limit apiVersion).entityTypeVector)
    (htype : entry.type ≠ "") {limit' pages : Nat}
    (hpages : (attributeNames (inServicePath covered collection) entry.type).length ≤ pages * limit') (detailsString : String) :
    (∀ i, (mongoAttributesForEntityType covered collection entry.type (i * limit') limit' detailsString
        apiVersion).entityType.count = entry.count) ∧
      (entry.contextAttributeVector.Perm (allAttributePages covered collection entry.type limit' pages detailsString apiVersion) ↔
        ((addToSet.set (groupNames (inServicePath covered collection) entry.type)).head? = some none →
          allAttributePages covered collection entry.type limit' pages detailsString apiVersion = [])) := by
  rw [mongoEntityTypes_entries] at hentry
  obtain ⟨result, hresult, hkey, heq⟩ := entry_of_listing hentry htype
  have hset : result.2 = addToSet.set (groupNames (inServicePath covered collection) entry.type) := by
    have hmem : result ∈ aggregation addToSet (inServicePath covered collection) :=
      (List.drop_sublist _ _).subset ((List.take_sublist _ _).subset hresult)
    obtain ⟨key, -, rfl⟩ := List.mem_map.1 hmem
    have hkey' : key = some entry.type := hkey
    dsimp only
    rw [hkey']
    rfl
  have hcount : entry.count = countEntities (inServicePath covered collection) entry.type := by
    conv_lhs => rw [heq]
    have hzero : (entryOf (inServicePath covered collection) apiVersion result).count =
        0 + countEntities (inServicePath covered collection) (result.1.getD "") := rfl
    rw [hzero, hkey, Nat.zero_add, Option.getD_some]
  have hattributes : entry.contextAttributeVector = addedAttributes (inServicePath covered collection) apiVersion entry.type
      (addToSet.set (groupNames (inServicePath covered collection) entry.type)) := by
    conv_lhs => rw [heq]
    have hnil : (entryOf (inServicePath covered collection) apiVersion result).contextAttributeVector =
        addedAttributes (inServicePath covered collection) apiVersion (result.1.getD "") result.2 := List.nil_append _
    rw [hnil, hkey, hset, Option.getD_some]
  refine ⟨fun i => (count_of_page _ _ _ _ _ _ _).trans hcount.symm, ?_⟩
  rw [hattributes, addedAttributes_eq, allAttributePages_eq hpages]
  have hperm := (names_perm addToSet (inServicePath covered collection) entry.type).flatMap_right
    (typedAttributes (inServicePath covered collection) apiVersion entry.type)
  split
  · rename_i hnull
    rw [List.nil_perm]
    exact ⟨fun h _ => h, fun h => h hnull⟩
  · rename_i hnull
    exact ⟨fun _ h => absurd h hnull, fun _ => hperm⟩

end Agreement

/-- A room with one attribute. -/
def storedRoom : StoredEntity where
  id := "Room1"
  type := "Room"
  servicePath := "/"
  attrNames := ["temperature"]
  attrs := [("temperature", .object [("type", .string "Number"), ("value", .double (.fin 20))])]
  creDate := some 1
  modDate := some 1
  location := none
  hasType := true
  type_eq := fun h => by cases h

def roomType : EntityType := ⟨"Room", 1, [("temperature", "Number")]⟩

theorem attributes_agree_room :
    (∀ i, (mongoAttributesForEntityType (fun _ => true) [storedRoom] "Room" (i * 20) 20 "" .v2).entityType.count = 1) ∧
      (roomType.contextAttributeVector.Perm (allAttributePages (fun _ => true) [storedRoom] "Room" 20 1 "" .v2) ↔
        ((nullFirst.set (groupNames (inServicePath (fun _ => true) [storedRoom]) "Room")).head? = some none →
          allAttributePages (fun _ => true) [storedRoom] "Room" 20 1 "" .v2 = [])) := by
  have hlisted : (mongoEntityTypes nullFirst (fun _ => true) [storedRoom] true 0 20 .v2).entityTypeVector = [roomType] := by
    rfl
  have hentry : roomType ∈ (mongoEntityTypes nullFirst (fun _ => true) [storedRoom] true 0 20 .v2).entityTypeVector := by
    rw [hlisted]
    exact List.mem_singleton_self roomType
  exact attributes_agree_iff nullFirst (fun _ => true) [storedRoom] .v2 0 20 hentry (by decide) (by decide) ""

end OrionBroker.TypeListing
