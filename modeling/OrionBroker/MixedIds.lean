import OrionBroker.AttrNames
import OrionBroker.ProcessContextElement

/-!
# Attributes with and without ID (`legalIdUsage`)

An entity may have several attributes of one name, told apart by their metadata ID, but then all of them have an ID.
`legalIdUsage` checks this for an attribute that is appended, by comparing its name with the beginning of the stored keys,
and for the attributes of a new entity, by comparing their names and types.

A name is compared as it is, and the keys have its dots replaced; and a key may begin with the name of another attribute.
`legalIdUsage_iff` says when the check of an append finds the attributes of the same name, and `same_rule_iff` when both
checks accept the same vectors.
-/

namespace OrionBroker.MixedIds

open Bson

/-! ### The attributes of a document -/

/-- An attribute that a document holds.  A write below an attribute makes do with the part of the ID before its first
dot. -/
structure HeldAttribute where
  name : String
  id : String
  key : String
  key_eq : if id = "" then key = dbDotEncode name else ∃ rest, key = dbDotEncode name ++ "__" ++ rest

/-- The keys of a document are those of the attributes that it holds. -/
def Holds (attrs : BSONObj) (held : List HeldAttribute) : Prop :=
  ∀ k, k ∈ attrs.map Prod.fst ↔ k ∈ held.map HeldAttribute.key

/-- The part of a key before its first dot. -/
def firstComponent (k : String) : String := String.ofList (k.toList.takeWhile (· ≠ '.'))

theorem firstComponent_of_no_dot {k : String} (h : '.' ∉ k.toList) : firstComponent k = k := by
  have hall : k.toList.takeWhile (· ≠ '.') = k.toList := by
    rw [List.takeWhile_eq_self_iff]
    intro c hc
    exact decide_eq_true fun hdot => h (hdot ▸ hc)
  rw [firstComponent, hall, String.ofList_toList]

theorem no_dot_firstComponent (k : String) : '.' ∉ (firstComponent k).toList := by
  intro hmem
  rw [firstComponent, String.toList_ofList] at hmem
  have hne := List.mem_takeWhile_imp hmem
  simp at hne

theorem firstComponent_append {k : String} (h : '.' ∉ k.toList) (l : String) :
    firstComponent (k ++ l) = k ++ firstComponent l := by
  have hall : ∀ c ∈ k.toList, decide (c ≠ '.') = true := fun c hc => decide_eq_true fun hdot => h (hdot ▸ hc)
  apply String.toList_inj.1
  rw [firstComponent, firstComponent, String.toList_ofList, String.toList_append, String.toList_append, String.toList_ofList,
    List.takeWhile_append_of_pos hall]

theorem firstComponent_key (ca : ContextAttribute) :
    if ca.getId = "" then firstComponent ca.key = dbDotEncode ca.name
    else firstComponent ca.key = dbDotEncode ca.name ++ "__" ++ firstComponent ca.getId := by
  unfold ContextAttribute.key effectiveName
  have hname := no_dot_dbDotEncode ca.name
  split
  · exact firstComponent_of_no_dot hname
  · refine firstComponent_append ?_ _
    rw [String.toList_append, List.mem_append, not_or]
    exact ⟨hname, by decide⟩

/-- An attribute that is created is stored under its key. -/
def HeldAttribute.created (ca : ContextAttribute) : HeldAttribute where
  name := ca.name
  id := ca.getId
  key := ca.key
  key_eq := by
    unfold ContextAttribute.key effectiveName
    split
    · rfl
    · exact ⟨ca.getId, rfl⟩

/-- An attribute that is appended is written at the path that its key is. -/
def HeldAttribute.written (ca : ContextAttribute) : HeldAttribute where
  name := ca.name
  id := ca.getId
  key := firstComponent ca.key
  key_eq := by
    have hkey := firstComponent_key ca
    split
    · rename_i hid
      rwa [if_pos hid] at hkey
    · rename_i hid
      rw [if_neg hid] at hkey
      exact ⟨_, hkey⟩

/-- A new entity holds the attributes of the request. -/
theorem holds_created {env : Env} {eP : EntityId} {caV : List ContextAttribute} {apiVersion : ApiVersion} {d : EntityDoc}
    (h : createEntity env eP caV apiVersion = .ok d) : Holds d.attrs (caV.map .created) := by
  intro k
  rw [(createEntity_doc h).1, List.map_map, List.map_map]
  rfl

/-- The document after an attribute is appended, which is left as it is if the write is refused. -/
def appended (now : Int) (apiVersion : ApiVersion) (d : EntityDoc) (ca : ContextAttribute) : EntityDoc :=
  (d.setPaths (appendAttribute now d.attrs ca apiVersion).toSet).getD d

theorem setIn_none_isSome (p : List String) (v : BSONValue) : (setIn p v none).isSome = true := by
  induction p with
  | nil => rfl
  | cons k ks ih => rw [setIn, Option.isSome_map, ih]

/-- The keys after an append.  They stay the same if the key is there, or something at the beginning of its path. -/
theorem keys_appended (now : Int) (apiVersion : ApiVersion) (d : EntityDoc) (ca : ContextAttribute) :
    ((appended now apiVersion d ca).attrs.map Prod.fst = d.attrs.map Prod.fst ∧
        (ca.key ∈ d.attrs.map Prod.fst ∨ firstComponent ca.key ∈ d.attrs.map Prod.fst)) ∨
      ∀ k, k ∈ (appended now apiVersion d ca).attrs.map Prod.fst ↔ k ∈ d.attrs.map Prod.fst ∨ k = firstComponent ca.key := by
  obtain ⟨hnone, hkey⟩ | ⟨v, hset⟩ : ((appendAttribute now d.attrs ca apiVersion).toSet = [] ∧ ca.key ∈ d.attrs.map Prod.fst) ∨
      ∃ v, (appendAttribute now d.attrs ca apiVersion).toSet = [(ca.key, v)].map fun e => (composedName e.1, e.2) := by
    unfold appendAttribute updateAttribute
    rw [if_neg Bool.false_ne_true]
    split
    · rename_i hfield
      have hkey := hasField_iff_mem.1 hfield
      split
      · exact Or.inl ⟨rfl, hkey⟩
      · simp only
        split
        · exact Or.inr ⟨_, rfl⟩
        · exact Or.inl ⟨rfl, hkey⟩
    · exact Or.inr ⟨_, rfl⟩
  · left
    rw [appended, hnone]
    exact ⟨rfl, Or.inl hkey⟩
  · rw [appended, hset, setPaths_attrs]
    rcases hx : setAll (attrPaths [(ca.key, v)]) (.object d.attrs) with _ | x
    · -- the write fails below a field that is there
      refine Or.inl ⟨rfl, Or.inr ?_⟩
      obtain ⟨k, ks, hpath⟩ := List.exists_cons_of_ne_nil (splitPath_ne_nil ca.key)
      have hfirst : k = firstComponent ca.key := by
        have hhead := head?_splitPath ca.key
        rw [hpath] at hhead
        exact Option.some.inj hhead
      have hfail : setIn (k :: ks) v (some (.object d.attrs)) = none := by
        rw [← hpath]
        simpa [attrPaths, setAll, Option.bind_eq_none_iff] using hx
      rw [← hfirst]
      by_contra hno
      have hlookup : d.attrs.lookup k = none := lookup_of_not_hasField fun hfield => hno (hasField_iff_mem.1 hfield)
      rw [setIn, hlookup, Option.map_eq_none_iff] at hfail
      have hsome := setIn_none_isSome ks v
      rw [hfail] at hsome
      cases hsome
    · right
      have hne : ∀ e ∈ attrPaths [(ca.key, v)], e.1 ≠ [] := by
        intro e he
        rw [List.mem_singleton.1 he]
        exact splitPath_ne_nil _
      obtain ⟨o, rfl, -, hkeys⟩ := setAll_object hne hx
      intro k
      refine (hkeys k).trans (or_congr_right ?_)
      constructor
      · rintro ⟨e, he, hk⟩
        rw [List.mem_singleton.1 he, head?_splitPath] at hk
        exact (Option.some.inj hk).symm
      · rintro rfl
        exact ⟨_, List.mem_singleton_self _, head?_splitPath ca.key⟩

/-- An attribute that is appended to an entity is held after that, or nothing is written. -/
theorem holds_appended {d : EntityDoc} {held : List HeldAttribute} (h : Holds d.attrs held) (now : Int)
    (apiVersion : ApiVersion) (ca : ContextAttribute) :
    Holds (appended now apiVersion d ca).attrs held ∨
      Holds (appended now apiVersion d ca).attrs (held ++ [.written ca]) := by
  rcases keys_appended now apiVersion d ca with ⟨hkeys, -⟩ | hkeys
  · left
    intro k
    rw [hkeys]
    exact h k
  · right
    intro k
    rw [hkeys, h k, List.map_append, List.mem_append, List.map_singleton, List.mem_singleton]
    rfl

/-- A deletion leaves the attributes whose keys are left. -/
theorem holds_deleted {d : EntityDoc} {held : List HeldAttribute} (h : Holds d.attrs held) (ca : ContextAttribute) :
    Holds (d.unsetPath (splitPath (composedName ca.key))).attrs
      (held.filter fun a => a.key ∈ (d.unsetPath (splitPath (composedName ca.key))).attrs.map Prod.fst) := by
  have hsub : ∀ k ∈ (d.unsetPath (splitPath (composedName ca.key))).attrs.map Prod.fst, k ∈ d.attrs.map Prod.fst := by
    rw [splitPath_composedName, unsetPath_attrs d (splitPath_ne_nil _)]
    obtain ⟨o, ho, -, hkeys⟩ := @unsetAll_object [splitPath ca.key] d.attrs
      fun p hp => List.mem_singleton.1 hp ▸ splitPath_ne_nil _
    have hunset : unsetIn (splitPath ca.key) (.object d.attrs) = .object o := ho
    intro k hk
    rw [hunset] at hk
    exact ((hkeys k).1 hk).1
  intro k
  constructor
  · intro hk
    obtain ⟨a, ha, rfl⟩ := List.mem_map.1 ((h k).1 (hsub k hk))
    exact List.mem_map_of_mem (List.mem_filter.2 ⟨ha, decide_eq_true hk⟩)
  · intro hk
    obtain ⟨a, ha, rfl⟩ := List.mem_map.1 hk
    exact of_decide_eq_true (List.mem_filter.1 ha).2

/-! ### What the check finds -/

/-- The document holds an attribute of the same name that has an ID while the new one has none, or the other way round. -/
def Mixes (held : List HeldAttribute) (ca : ContextAttribute) : Prop :=
  ∃ a ∈ held, a.name = ca.name ∧ (a.id = "" ↔ ca.getId ≠ "")

/-- The stored key begins with the name, with `__` after it if the new attribute has no ID, and without if it has one. -/
def Clashes (ca : ContextAttribute) (key : String) : Prop :=
  if ca.getId = "" then (ca.name ++ "__").toList <+: key.toList
  else ca.name.toList <+: key.toList ∧ ¬(ca.name ++ "__").toList <+: key.toList

/-- The key of an attribute of another name clashes. -/
def ClashesWithOther (held : List HeldAttribute) (ca : ContextAttribute) : Prop :=
  ∃ a ∈ held, a.name ≠ ca.name ∧ Clashes ca a.key

theorem strncmp_iff (a b : String) : Text.strncmp a b a.toList.length = true ↔ a.toList <+: b.toList := by
  rw [Text.strncmp, List.take_length, List.isPrefixOf_iff_prefix]

theorem legalIdUsage_eq_false_iff (attrs : BSONObj) (ca : ContextAttribute) :
    legalIdUsage attrs ca = false ↔ ∃ k ∈ attrs.map Prod.fst, Clashes ca k := by
  have hname : ca.name.toList <+: (ca.name ++ "__").toList := by
    rw [String.toList_append]
    exact List.prefix_append _ _
  unfold legalIdUsage Clashes
  split
  · rw [List.all_eq_false]
    refine exists_congr fun k => and_congr mem_getFieldNames ?_
    rw [Bool.not_eq_true, Bool.not_eq_false', Bool.and_eq_true, strncmp_iff, strncmp_iff]
    exact and_iff_right_of_imp hname.trans
  · rw [List.all_eq_false]
    refine exists_congr fun k => and_congr mem_getFieldNames ?_
    rw [Bool.not_eq_true, Bool.not_eq_false', Bool.and_eq_true, Bool.not_eq_true', ← Bool.not_eq_true, strncmp_iff,
      strncmp_iff]

theorem dbDotEncode_eq_self_iff {n : String} : dbDotEncode n = n ↔ '.' ∉ n.toList :=
  ⟨fun h => h ▸ no_dot_dbDotEncode n, dbDotEncode_of_no_dot⟩

/-- A key begins with the name that is stored under it if the name has no dot. -/
theorem prefix_encoded_iff (n rest : String) : n.toList <+: (dbDotEncode n ++ rest).toList ↔ '.' ∉ n.toList := by
  have hlength : (dbDotEncode n).toList.length = n.toList.length := by
    rw [dbDotEncode, Text.replaceChar, String.toList_ofList, List.length_map]
  rw [String.toList_append, ← dbDotEncode_eq_self_iff, ← String.toList_inj]
  constructor
  · intro h
    have hbegins : n.toList <+: (dbDotEncode n).toList :=
      List.prefix_of_prefix_length_le h (List.prefix_append _ _) hlength.ge
    exact (hbegins.eq_of_length hlength.symm).symm
  · intro h
    rw [h]
    exact List.prefix_append _ _

/-- The key of an attribute of the same name clashes if it is used in the other way and the name has no dot. -/
theorem clashes_of_same {a : HeldAttribute} {ca : ContextAttribute} (h : a.name = ca.name) :
    Clashes ca a.key ↔ (a.id = "" ↔ ca.getId ≠ "") ∧ '.' ∉ ca.name.toList := by
  have hkey := a.key_eq
  rw [h] at hkey
  have hlonger : ¬(ca.name ++ "__").toList <+: (dbDotEncode ca.name).toList := by
    intro hbegins
    have hle := hbegins.length_le
    rw [dbDotEncode, Text.replaceChar, String.toList_ofList, List.length_map, String.toList_append, List.length_append] at hle
    have htwo : "__".toList.length = 2 := rfl
    omega
  have hwith (rest : String) : (ca.name ++ "__").toList <+: (dbDotEncode ca.name ++ "__" ++ rest).toList ↔
      '.' ∉ ca.name.toList := by
    constructor
    · intro hbegins
      have hname : ca.name.toList <+: (ca.name ++ "__").toList := by
        rw [String.toList_append]
        exact List.prefix_append _ _
      refine (prefix_encoded_iff ca.name ("__" ++ rest)).1 ?_
      rw [← String.append_assoc]
      exact hname.trans hbegins
    · intro hdot
      rw [dbDotEncode_eq_self_iff.2 hdot]
      exact ⟨rest.toList, String.toList_append.symm⟩
  by_cases ha : a.id = ""
  · rw [if_pos ha] at hkey
    have hplain := prefix_encoded_iff ca.name ""
    rw [String.append_empty] at hplain
    unfold Clashes
    rw [hkey]
    by_cases hca : ca.getId = ""
    · rw [if_pos hca]
      simp only [hlonger, ha, hca, ne_eq, not_true, iff_false, false_and]
    · rw [if_neg hca, hplain]
      simp only [hlonger, not_false_eq_true, and_true, ha, hca, ne_eq, true_and]
  · rw [if_neg ha] at hkey
    obtain ⟨rest, hkey⟩ := hkey
    have hplain := prefix_encoded_iff ca.name ("__" ++ rest)
    rw [← String.append_assoc] at hplain
    unfold Clashes
    rw [hkey]
    by_cases hca : ca.getId = ""
    · rw [if_pos hca, hwith]
      simp [ha, hca]
    · rw [if_neg hca, hwith, hplain]
      simp [ha, hca]

/-- What the check finds: the attributes of the same name, unless it has a dot, and attributes of other names. -/
theorem clash_iff {attrs : BSONObj} {held : List HeldAttribute} (h : Holds attrs held) (ca : ContextAttribute) :
    legalIdUsage attrs ca = false ↔ Mixes held ca ∧ '.' ∉ ca.name.toList ∨ ClashesWithOther held ca := by
  rw [legalIdUsage_eq_false_iff]
  constructor
  · rintro ⟨k, hk, hclash⟩
    obtain ⟨a, ha, rfl⟩ := List.mem_map.1 ((h k).1 hk)
    by_cases hname : a.name = ca.name
    · obtain ⟨hmixed, hdot⟩ := (clashes_of_same hname).1 hclash
      exact Or.inl ⟨⟨a, ha, hname, hmixed⟩, hdot⟩
    · exact Or.inr ⟨a, ha, hname, hclash⟩
  · rintro (⟨⟨a, ha, hname, hmixed⟩, hdot⟩ | ⟨a, ha, -, hclash⟩)
    · exact ⟨a.key, (h a.key).2 (List.mem_map_of_mem ha), (clashes_of_same hname).2 ⟨hmixed, hdot⟩⟩
    · exact ⟨a.key, (h a.key).2 (List.mem_map_of_mem ha), hclash⟩

/-- The check refuses exactly the attributes that mix, if and only if the name of one that does has no dot or another
key clashes, and no other key clashes with one that does not. -/
theorem legalIdUsage_iff {attrs : BSONObj} {held : List HeldAttribute} (h : Holds attrs held) (ca : ContextAttribute) :
    (legalIdUsage attrs ca = false ↔ Mixes held ca) ↔
      (Mixes held ca → '.' ∉ ca.name.toList ∨ ClashesWithOther held ca) ∧
        (¬Mixes held ca → ¬ClashesWithOther held ca) := by
  rw [clash_iff h]
  tauto

/-- An attribute with the metadata `ID`, or without if the ID is empty. -/
def attributeWithId (name id : String) : ContextAttribute where
  name := name
  type := "T"
  metadataVector := if id = "" then [] else [{ name := NGSI_MD_ID, type := "", stringValue := id }]

def measuredAttrs : BSONObj :=
  [("temperature", .object (createdAttribute 1 (attributeWithId "temperature" "") .v1))]

theorem holds_measured : Holds measuredAttrs [.created (attributeWithId "temperature" "")] := by
  intro k
  rfl

/-- An attribute of the same name with an ID is refused. -/
theorem temperature_with_id_refused :
    legalIdUsage measuredAttrs (attributeWithId "temperature" "x") = false ↔
      Mixes [.created (attributeWithId "temperature" "")] (attributeWithId "temperature" "x") := by
  refine (legalIdUsage_iff holds_measured (attributeWithId "temperature" "x")).2 ⟨fun _ => Or.inl (by decide), fun h => ?_⟩
  refine absurd ⟨_, List.mem_singleton_self _, rfl, ?_⟩ h
  decide

/-- An attribute `temp` with an ID is refused as well, since `temperature` begins like it. -/
theorem temp_with_id_refused :
    ¬(legalIdUsage measuredAttrs (attributeWithId "temp" "x") = false ↔
      Mixes [.created (attributeWithId "temperature" "")] (attributeWithId "temp" "x")) := by
  have hrefused : legalIdUsage measuredAttrs (attributeWithId "temp" "x") = false := by decide +kernel
  intro h
  obtain ⟨a, ha, hname, -⟩ := h.1 hrefused
  rw [List.mem_singleton.1 ha] at hname
  revert hname
  decide

/-! ### The two checks -/

/-- The check of each append, when attributes are appended one after another. -/
def appendsLegally (now : Int) (apiVersion : ApiVersion) : EntityDoc → List ContextAttribute → Bool
  | _, [] => true
  | d, ca :: caV => legalIdUsage d.attrs ca && appendsLegally now apiVersion (appended now apiVersion d ca) caV

/-- Two attributes of one name, one with and one without ID. -/
def Mixed (a b : ContextAttribute) : Prop := a.name = b.name ∧ (a.getId = "" ↔ b.getId ≠ "")

theorem Mixed.symm {a b : ContextAttribute} (h : Mixed a b) : Mixed b a := by
  obtain ⟨hname, hid⟩ := h
  exact ⟨hname.symm, by tauto⟩

theorem legalIdUsageInVector_eq_false_iff (caV : List ContextAttribute) :
    legalIdUsageInVector caV = false ↔ ∃ a ∈ caV, ∃ b ∈ caV, Mixed a b ∧ a.type = b.type := by
  have hpair : legalIdUsageInVector caV = false ↔
      ∃ a ∈ caV, a.getId = "" ∧ ∃ b ∈ caV, a.name = b.name ∧ a.type = b.type ∧ b.getId ≠ "" := by
    simp [legalIdUsageInVector, and_assoc]
  rw [hpair]
  constructor
  · rintro ⟨a, ha, hida, b, hb, hname, htype, hidb⟩
    exact ⟨a, ha, b, hb, ⟨hname, by tauto⟩, htype⟩
  · rintro ⟨a, ha, b, hb, ⟨hname, hid⟩, htype⟩
    by_cases hida : a.getId = ""
    · exact ⟨a, ha, hida, b, hb, hname, htype, hid.1 hida⟩
    · have hidb : b.getId = "" := by
        by_contra hne
        exact hida (hid.2 hne)
      exact ⟨b, hb, hidb, a, ha, hname.symm, htype.symm, hida⟩

/-- Appended to an entity of appended attributes, an attribute is always held. -/
theorem holds_appended_of_written {d : EntityDoc} {done : List ContextAttribute}
    (h : Holds d.attrs (done.map .written)) (now : Int) (apiVersion : ApiVersion) (ca : ContextAttribute) :
    Holds (appended now apiVersion d ca).attrs ((done ++ [ca]).map .written) := by
  have hgoal (k : String) : k ∈ ((done ++ [ca]).map HeldAttribute.written).map HeldAttribute.key ↔
      k ∈ (done.map HeldAttribute.written).map HeldAttribute.key ∨ k = firstComponent ca.key := by
    rw [List.map_append, List.map_append, List.mem_append, List.map_singleton, List.map_singleton, List.mem_singleton]
    rfl
  rcases keys_appended now apiVersion d ca with ⟨hkeys, hthere⟩ | hkeys
  · have hfirst : firstComponent ca.key ∈ d.attrs.map Prod.fst := by
      refine hthere.elim (fun hkey => ?_) id
      -- the keys that are written have no dots
      have hdot : '.' ∉ ca.key.toList := by
        obtain ⟨a, ha, hk⟩ := List.mem_map.1 ((h ca.key).1 hkey)
        obtain ⟨b, -, rfl⟩ := List.mem_map.1 ha
        rw [← hk]
        exact no_dot_firstComponent b.key
      rwa [firstComponent_of_no_dot hdot]
    intro k
    rw [hkeys, hgoal, h k]
    exact ⟨Or.inl, fun hk => hk.elim id fun hk => hk ▸ (h _).1 hfirst⟩
  · intro k
    rw [hkeys, hgoal, h k]

/-- Each append is checked against the keys of those before it. -/
theorem appendsLegally_iff (now : Int) (apiVersion : ApiVersion) {d : EntityDoc} {done : List ContextAttribute}
    (h : Holds d.attrs (done.map .written)) (caV : List ContextAttribute) :
    appendsLegally now apiVersion d caV = true ↔
      (∀ a ∈ done, ∀ b ∈ caV, ¬Clashes b (firstComponent a.key)) ∧
        caV.Pairwise fun a b => ¬Clashes b (firstComponent a.key) := by
  induction caV generalizing d done with
  | nil => simp [appendsLegally]
  | cons ca caV ih =>
    have hlegal : legalIdUsage d.attrs ca = true ↔ ∀ a ∈ done, ¬Clashes ca (firstComponent a.key) := by
      rw [← not_iff_not, Bool.not_eq_true, legalIdUsage_eq_false_iff]
      push Not
      constructor
      · rintro ⟨k, hk, hclash⟩
        obtain ⟨a, ha, rfl⟩ := List.mem_map.1 ((h k).1 hk)
        obtain ⟨b, hb, rfl⟩ := List.mem_map.1 ha
        exact ⟨b, hb, hclash⟩
      · rintro ⟨b, hb, hclash⟩
        exact ⟨_, (h _).2 (List.mem_map_of_mem (List.mem_map_of_mem hb)), hclash⟩
    rw [appendsLegally, Bool.and_eq_true, hlegal, ih (holds_appended_of_written h now apiVersion ca), List.pairwise_cons]
    simp only [List.forall_mem_append, List.forall_mem_singleton, List.forall_mem_cons, forall_and]
    tauto

/-- The key of an attribute clashes with one of another name that is appended later. -/
def ClashesWithLater (caV : List ContextAttribute) : Prop :=
  ¬caV.Pairwise fun a b => a.name ≠ b.name → ¬Clashes b (firstComponent a.key)

/-- Some append is refused if and only if attributes of a name without dots are mixed or a key clashes with a later
attribute of another name. -/
theorem append_refused_iff (now : Int) (apiVersion : ApiVersion) {d : EntityDoc} (h : d.attrs = [])
    (caV : List ContextAttribute) :
    appendsLegally now apiVersion d caV = false ↔
      (∃ a ∈ caV, ∃ b ∈ caV, Mixed a b ∧ '.' ∉ a.name.toList) ∨ ClashesWithLater caV := by
  have hempty : Holds d.attrs (([] : List ContextAttribute).map .written) := by
    intro k
    rw [h]
    simp
  have hclash (a b : ContextAttribute) : ¬Clashes b (firstComponent a.key) ↔
      ¬(Mixed a b ∧ '.' ∉ a.name.toList) ∧ (a.name ≠ b.name → ¬Clashes b (firstComponent a.key)) := by
    by_cases hname : a.name = b.name
    · have hsame : Clashes b (firstComponent a.key) ↔ (a.getId = "" ↔ b.getId ≠ "") ∧ '.' ∉ b.name.toList :=
        clashes_of_same (a := .written a) hname
      rw [hsame, Mixed, hname]
      simp
    · simp [Mixed, hname]
  have hsymm : Std.Symm fun a b : ContextAttribute => ¬(Mixed a b ∧ '.' ∉ a.name.toList) := by
    refine ⟨?_⟩
    rintro a b hno ⟨hmixed, hdot⟩
    exact hno ⟨hmixed.symm, hmixed.1 ▸ hdot⟩
  have hpairs : (caV.Pairwise fun a b => ¬(Mixed a b ∧ '.' ∉ a.name.toList)) ↔
      ∀ a ∈ caV, ∀ b ∈ caV, ¬(Mixed a b ∧ '.' ∉ a.name.toList) := by
    refine ⟨fun hp a ha b hb => hp.forall_of_forall (fun x _ hx => ?_) ha hb, List.pairwise_of_forall_mem_list⟩
    obtain ⟨⟨-, hid⟩, -⟩ := hx
    tauto
  rw [← Bool.not_eq_true, appendsLegally_iff now apiVersion hempty, ClashesWithLater,
    List.Pairwise.iff (fun a b => hclash a b), List.pairwise_and_iff, hpairs]
  simp only [List.not_mem_nil, false_implies, implies_true, true_and]
  rw [not_and_or]
  refine or_congr_left ?_
  push Not
  rfl

/-- The two checks decide the same of a vector if and only if, where attributes of one name and one type are mixed, this
is so for a name without dots or a key clashes with a later attribute of another name, and where none are, neither is. -/
theorem same_rule_iff (now : Int) (apiVersion : ApiVersion) (d : EntityDoc) (caV : List ContextAttribute) :
    (legalIdUsageInVector caV = true ↔ appendsLegally now apiVersion { d with attrs := [] } caV = true) ↔
      ((∃ a ∈ caV, ∃ b ∈ caV, Mixed a b ∧ a.type = b.type) →
          (∃ a ∈ caV, ∃ b ∈ caV, Mixed a b ∧ '.' ∉ a.name.toList) ∨ ClashesWithLater caV) ∧
        ((¬∃ a ∈ caV, ∃ b ∈ caV, Mixed a b ∧ a.type = b.type) →
          (¬∃ a ∈ caV, ∃ b ∈ caV, Mixed a b ∧ '.' ∉ a.name.toList) ∧ ¬ClashesWithLater caV) := by
  have hvector := legalIdUsageInVector_eq_false_iff caV
  have hone := append_refused_iff now apiVersion (show { d with attrs := [] }.attrs = [] from rfl) caV
  rw [← Bool.not_eq_true] at hvector hone
  refine (not_iff_not.symm.trans (iff_congr hvector hone)).trans ?_
  rw [← not_or, not_imp_not]
  exact iff_def

/-- A new entity may have `temperature` and `temp` with an ID, but the second one cannot be appended. -/
theorem checks_differ :
    let caV := [attributeWithId "temperature" "", attributeWithId "temp" "x"]
    contextElementPreconditionsCheck { entityId := { id := "E", type := "T" }, contextAttributeVector := caV } "APPEND" .v1 = none ∧
      legalIdUsageInVector caV = true ∧
      appendsLegally 1 .v1 { createdWith "a" "1" with attrs := [] } caV = false := by
  decide +kernel

end OrionBroker.MixedIds
