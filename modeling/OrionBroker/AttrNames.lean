import OrionBroker.EntityRun
import OrionBroker.StoredForm

/-!
# The names of the attributes

The list `attrNames` of a document is there so that a query can be made by the name of an attribute.  It is kept up to
date with operators and lists of its own, next to those that write the attributes.  The invariant `NamesMatch` says
that it has exactly the names of the stored attributes; `names_match_of_reachable` shows that it holds over every run
whose requests meet `namesConditions`: the keys of new attributes can be taken apart, a DELETE has no dots in the
metadata IDs and leaves no other attribute with the same dotted name, and a REPLACE leaves no location.
-/

namespace OrionBroker

open Bson

/-- The name of the attribute stored under a key. -/
def keyName (k : String) : String := dbDotDecode (basePart k)

/-- `attrNames` has exactly the names of the stored attributes. -/
def NamesMatch (d : EntityDoc) : Prop := ∀ n, n ∈ d.attrNames ↔ ∃ k ∈ d.attrs.map Prod.fst, keyName k = n

/-- The dots of every stored name are replaced. -/
def KeysEncoded (d : EntityDoc) : Prop := ∀ k ∈ d.attrs.map Prod.fst, '.' ∉ (basePart k).toList

/-! ### Keys and the paths they become -/

theorem keyName_key {ca : ContextAttribute} (he : '=' ∉ ca.name.toList) (hs : Splittable ca.name ca.getId) :
    keyName ca.key = ca.name :=
  ((key_roundtrip_iff he).2 hs).1

theorem basePart_key {ca : ContextAttribute} (hs : Splittable ca.name ca.getId) :
    basePart ca.key = dbDotEncode ca.name :=
  basePart_effectiveName hs

/-- The first component of the path of a key has the base part of the key. -/
theorem basePart_of_head {ca : ContextAttribute} {l : String} (h : (splitPath ca.key).head? = some l) :
    basePart l = basePart ca.key := by
  rw [head?_splitPath] at h
  rw [← Option.some.inj h]
  exact basePart_takeWhile _ _

theorem splitPath_key {ca : ContextAttribute} (h : '.' ∉ ca.getId.toList) : splitPath ca.key = [ca.key] := by
  apply splitPath_of_no_dot
  unfold ContextAttribute.key effectiveName
  split
  · exact no_dot_dbDotEncode _
  · intro hc
    simp only [String.toList_append, List.mem_append] at hc
    rcases hc with (hc | hc) | hc
    · exact no_dot_dbDotEncode _ hc
    · revert hc; decide
    · exact h hc

/-! ### Conditions -/

/-- Every attribute passes `ContextAttribute::check`. -/
def Accepted (apiVersion : ApiVersion) (caV : List ContextAttribute) : Prop :=
  ∀ ca ∈ caV, ∃ checkIdv1, ca.check checkIdv1 apiVersion .other = "OK"

theorem Accepted.no_equals {apiVersion : ApiVersion} {caV : List ContextAttribute} (h : Accepted apiVersion caV)
    {ca : ContextAttribute} (hca : ca ∈ caV) : '=' ∉ ca.name.toList := by
  obtain ⟨c, hc⟩ := h ca hca
  exact ContextAttribute.no_equals_of_check hc

/-- The metadata IDs of the attributes have no dots, and where a name has one, all the stored attributes with that
name are deleted together. -/
def DeletesWholeNames (attrs : BSONObj) (caV : List ContextAttribute) : Prop :=
  ∀ ca ∈ caV, Splittable ca.name ca.getId ∧ '.' ∉ ca.getId.toList ∧
    ('.' ∈ ca.name.toList → ∀ k ∈ attrs.map Prod.fst, basePart k = dbDotEncode ca.name → ∃ cb ∈ caV, cb.key = k)

/-- The condition on the attributes that are processed, by action. -/
def NamesCondition (env : Env) (apiVersion : ApiVersion) (r : EntityDoc) (caV : List ContextAttribute) :
    ActionType → Prop
  | .append | .appendStrict => ∀ ca ∈ caV, hasField r.attrs ca.key = false → Splittable ca.name ca.getId
  | .delete => DeletesWholeNames r.attrs caV
  | .replace =>
    (∀ ca ∈ caV, Splittable ca.name ca.getId) ∧
      ∃ g, locationRun env.strtod r.attrs apiVersion .replace ((r.location.map Location.attrName).getD "") caV =
        .ok ⟨"", g⟩
  | .update | .unknown => True

/-- The conditions under which the names match. -/
def namesConditions : StepConditions where
  create := fun _ apiVersion caV => Accepted apiVersion caV ∧ ∀ ca ∈ caV, Splittable ca.name ca.getId
  update := fun env apiVersion action ceP r =>
    Accepted apiVersion ceP.contextAttributeVector ∧
      NamesCondition env apiVersion r (processed action r ceP) (ActionType.ofString action)

/-! ### Creation and replacement -/

/-- A document whose attributes and names come from one list of attributes. -/
private theorem names_of_vector {caV : List ContextAttribute} {d : EntityDoc}
    (he : ∀ ca ∈ caV, '=' ∉ ca.name.toList) (hs : ∀ ca ∈ caV, Splittable ca.name ca.getId)
    (hkeys : d.attrs.map Prod.fst = caV.map ContextAttribute.key)
    (hnames : d.attrNames = caV.map ContextAttribute.name) : NamesMatch d ∧ KeysEncoded d := by
  constructor
  · intro n
    rw [hnames, hkeys]
    constructor
    · intro hn
      obtain ⟨ca, hca, rfl⟩ := List.mem_map.1 hn
      exact ⟨ca.key, List.mem_map_of_mem hca, keyName_key (he ca hca) (hs ca hca)⟩
    · rintro ⟨k, hk, rfl⟩
      obtain ⟨ca, hca, rfl⟩ := List.mem_map.1 hk
      rw [keyName_key (he ca hca) (hs ca hca)]
      exact List.mem_map_of_mem hca
  · intro k hk
    rw [hkeys] at hk
    obtain ⟨ca, hca, rfl⟩ := List.mem_map.1 hk
    rw [basePart_key (hs ca hca)]
    exact no_dot_dbDotEncode _

private theorem names_create {env : Env} {apiVersion : ApiVersion} {eP : EntityId} {caV : List ContextAttribute}
    {d : EntityDoc} (hcond : namesConditions.create env apiVersion caV)
    (h : createEntity env eP caV apiVersion = .ok d) : NamesMatch d ∧ KeysEncoded d := by
  obtain ⟨hattrs, hnames, -⟩ := createEntity_doc h
  refine names_of_vector (fun ca hca => hcond.1.no_equals hca) hcond.2 ?_ hnames
  rw [hattrs, List.map_map]
  rfl

section Update

variable {env : Env} {apiVersion : ApiVersion} {action : String} {ceP : ContextElement} {r d : EntityDoc}

private theorem names_replace (ha : ActionType.ofString action = .replace)
    (hcond : namesConditions.update env apiVersion action ceP r)
    (hok : (attributeLoop env (responseEntity r) r.attrs apiVersion action (initialProcessing r)
      (requestAttributes action r ceP.contextAttributeVector)).ok = true)
    (happ : applyUpdate r (updatedEntity env.getCurrentTime action r
      (processAttributes env apiVersion action r ceP.contextAttributeVector)) = some d) :
    NamesMatch d ∧ KeysEncoded d := by
  obtain ⟨hacc, hnames⟩ := hcond
  rw [ha] at hnames
  obtain ⟨hs, g, hrun⟩ := hnames
  have hloc := finalLocation_eq_none_of_run hok (by rw [ha]; exact hrun)
  have hd := updateEntity_replaced ha hok happ
  rw [hloc] at hd
  refine names_of_vector ?_ hs ?_ (by rw [hd])
  · exact fun ca hca => hacc.no_equals (mem_of_mem_processed hca)
  · rw [hd]
    simp [Function.comp_def]

/-! ### Writing single attributes -/

/-- What is written adds the first components of the written paths, and the names of the new attributes. -/
private theorem written_spec (ha : ActionType.ofString action ∈ [.update, .append, .appendStrict])
    (hok : (attributeLoop env (responseEntity r) r.attrs apiVersion action (initialProcessing r)
      (requestAttributes action r ceP.contextAttributeVector)).ok = true)
    (happ : applyUpdate r (updatedEntity env.getCurrentTime action r
      (processAttributes env apiVersion action r ceP.contextAttributeVector)) = some d) :
    (∀ k, k ∈ d.attrs.map Prod.fst ↔ k ∈ r.attrs.map Prod.fst ∨
        ∃ e ∈ attrPaths (writtenEntries env apiVersion action r ceP), e.1.head? = some k) ∧
      ∀ n, n ∈ d.attrNames ↔ n ∈ r.attrNames ∨ n ∈ pushedNames action r ceP := by
  have hrepl : ActionType.ofString action ≠ .replace := by
    intro h; rw [h] at ha; revert ha; decide
  have hdel : ActionType.ofString action ≠ .delete := by
    intro h; rw [h] at ha; revert ha; decide
  obtain ⟨⟨-, o, hset, hunset⟩, hd⟩ := updateEntity_written hrepl hok happ
  -- nothing is removed and no name is pulled
  have hremoved : removedKeys action r ceP = [] := by simp [removedKeys, attributeRemoved, hdel]
  have hpull : (processAttributes env apiVersion action r ceP.contextAttributeVector).toPull = [] := by
    unfold processAttributes processContextAttributeVector
    simp only [hok, if_true, hdel, if_false]
    split <;> rfl
  rw [hremoved] at hunset
  have ho : o = d.attrs := by simpa [unsetAll] using hunset
  subst ho
  have hne : ∀ e ∈ attrPaths (writtenEntries env apiVersion action r ceP), e.1 ≠ [] := by
    intro e he
    obtain ⟨f, -, rfl⟩ := List.mem_map.1 he
    exact splitPath_ne_nil _
  obtain ⟨o', ho', -, hkeys⟩ := setAll_object hne hset
  cases ho'
  refine ⟨hkeys, fun n => ?_⟩
  rw [hd]
  simp [hpull]

section Written

variable (hcond : namesConditions.update env apiVersion action ceP r)

include hcond

/-- A new attribute can be taken apart. -/
private theorem splittable_of_new {ca : ContextAttribute} (hca : ca ∈ processed action r ceP)
    (hk : hasField r.attrs ca.key = false)
    (happend : ActionType.ofString action = .append ∨ ActionType.ofString action = .appendStrict) :
    Splittable ca.name ca.getId := by
  obtain ⟨-, hnames⟩ := hcond
  rcases happend with h | h <;> rw [h] at hnames <;> exact hnames ca hca hk

/-- The first component of a written path is for a stored attribute, or for a new one. -/
private theorem head_of_written {l : String}
    (h : ∃ e ∈ attrPaths (writtenEntries env apiVersion action r ceP), e.1.head? = some l) :
    ∃ ca ∈ processed action r ceP, basePart l = basePart ca.key ∧
      (hasField r.attrs ca.key = true ∨ ca.name ∈ pushedNames action r ceP ∧ Splittable ca.name ca.getId) := by
  obtain ⟨e, he, hl⟩ := h
  obtain ⟨f, hf, rfl⟩ := List.mem_map.1 he
  obtain ⟨ca, hca, hfe⟩ := List.mem_flatMap.1 hf
  rw [attributeEntry_key hfe] at hl
  refine ⟨ca, hca, basePart_of_head hl, ?_⟩
  rcases hk : hasField r.attrs ca.key with _ | _
  · right
    have happend : ActionType.ofString action = .append ∨ ActionType.ofString action = .appendStrict := by
      by_contra hcon
      rw [hasField_of_mem_attributeEntry hfe hcon] at hk
      cases hk
    refine ⟨List.mem_flatMap.2 ⟨ca, hca, ?_⟩, splittable_of_new hcond hca hk happend⟩
    simp [attributePush, happend, hk]
  · exact Or.inl rfl

/-- A new name is the name of a written path. -/
private theorem written_of_pushed {n : String} (hn : n ∈ pushedNames action r ceP) :
    ∃ l, (∃ e ∈ attrPaths (writtenEntries env apiVersion action r ceP), e.1.head? = some l) ∧ keyName l = n := by
  obtain ⟨ca, hca, hn⟩ := List.mem_flatMap.1 hn
  unfold attributePush at hn
  split at hn
  · rename_i hpush
    rw [List.mem_singleton] at hn
    subst hn
    have hs := splittable_of_new hcond hca hpush.2 hpush.1
    obtain ⟨l, hl⟩ : ∃ l, (splitPath ca.key).head? = some l := ⟨_, head?_splitPath _⟩
    have hmem : (splitPath ca.key, BSONValue.object (appendedAttribute env.getCurrentTime ca apiVersion)) ∈
        attrPaths (writtenEntries env apiVersion action r ceP) := by
      refine List.mem_map.2 ⟨(ca.key, _), List.mem_flatMap.2 ⟨ca, hca, ?_⟩, rfl⟩
      rw [attributeEntry_new hpush.1 hpush.2]
      exact List.mem_singleton.2 rfl
    refine ⟨l, ⟨_, hmem, hl⟩, ?_⟩
    rw [keyName, basePart_of_head hl]
    exact keyName_key (hcond.1.no_equals (mem_of_mem_processed hca)) hs
  · cases hn

private theorem names_written (ha : ActionType.ofString action ∈ [.update, .append, .appendStrict])
    (hinv : NamesMatch r ∧ KeysEncoded r)
    (hok : (attributeLoop env (responseEntity r) r.attrs apiVersion action (initialProcessing r)
      (requestAttributes action r ceP.contextAttributeVector)).ok = true)
    (happ : applyUpdate r (updatedEntity env.getCurrentTime action r
      (processAttributes env apiVersion action r ceP.contextAttributeVector)) = some d) :
    NamesMatch d ∧ KeysEncoded d := by
  obtain ⟨hkeys, hattrNames⟩ := written_spec ha hok happ
  constructor
  · intro n
    rw [hattrNames, hinv.1 n]
    constructor
    · rintro (⟨k, hk, rfl⟩ | hn)
      · exact ⟨k, (hkeys k).2 (Or.inl hk), rfl⟩
      · obtain ⟨l, hl, hln⟩ := written_of_pushed hcond hn
        exact ⟨l, (hkeys l).2 (Or.inr hl), hln⟩
    · rintro ⟨k, hk, rfl⟩
      rcases (hkeys k).1 hk with hk | hk
      · exact Or.inl ⟨k, hk, rfl⟩
      · obtain ⟨ca, hca, hbase, hstored | ⟨hpush, hs⟩⟩ := head_of_written hcond hk
        · exact Or.inl ⟨ca.key, hasField_iff_mem.1 hstored, by rw [keyName, keyName, hbase]⟩
        · right
          have hname : keyName k = ca.name := by
            rw [keyName, hbase]
            exact keyName_key (hcond.1.no_equals (mem_of_mem_processed hca)) hs
          rw [hname]
          exact hpush
  · intro k hk
    rcases (hkeys k).1 hk with hk | hk
    · exact hinv.2 k hk
    · obtain ⟨ca, hca, hbase, hstored | ⟨-, hs⟩⟩ := head_of_written hcond hk
      · rw [hbase]
        exact hinv.2 _ (hasField_iff_mem.1 hstored)
      · rw [hbase, basePart_key hs]
        exact no_dot_dbDotEncode _

end Written

/-! ### Deletion -/

private theorem getD_lookup_countDeleted (n : String) (caV : List ContextAttribute) (deleted : List (String × Nat)) :
    ((caV.foldl (fun d ca => countDeleted ca d) deleted).lookup n).getD 0 =
      (deleted.lookup n).getD 0 + caV.countP fun ca => ca.name = n := by
  induction caV generalizing deleted with
  | nil => simp
  | cons ca caV ih =>
    rw [List.foldl_cons, ih, List.countP_cons, countDeleted, lookup_setField]
    by_cases h : n = ca.name
    · simp only [h, if_true, Option.getD_some, decide_true]
      omega
    · have h' : ¬ ca.name = n := fun e => h e.symm
      simp [h, h']

private theorem mem_keys_countDeleted (n : String) (caV : List ContextAttribute) (deleted : List (String × Nat)) :
    n ∈ (caV.foldl (fun d ca => countDeleted ca d) deleted).map Prod.fst ↔
      n ∈ deleted.map Prod.fst ∨ n ∈ caV.map ContextAttribute.name := by
  induction caV generalizing deleted with
  | nil => simp
  | cons ca caV ih =>
    rw [List.foldl_cons, ih, countDeleted, mem_keys_setField, List.map_cons, List.mem_cons]
    tauto

/-- A name is pulled when it was deleted at least as often as it is stored. -/
private theorem mem_toPull (ha : ActionType.ofString action = .delete)
    (hok : (attributeLoop env (responseEntity r) r.attrs apiVersion action (initialProcessing r)
      (requestAttributes action r ceP.contextAttributeVector)).ok = true) (n : String) :
    n ∈ (processAttributes env apiVersion action r ceP.contextAttributeVector).toPull ↔
      n ∈ (processed action r ceP).map ContextAttribute.name ∧
        howManyAttrs r.attrs n ≤ (processed action r ceP).countP fun ca => ca.name = n := by
  have hcount : (attributeLoop env (responseEntity r) r.attrs apiVersion action (initialProcessing r)
      (requestAttributes action r ceP.contextAttributeVector)).processing.deletedAttributesCounter =
      (processed action r ceP).foldl (fun d ca => countDeleted ca d) [] := by
    refine attributeLoop_fold Processing.deletedAttributesCounter _ ?_ hok
    intro p ca l
    simp [Processing.next, ha]
  have hpull : (processAttributes env apiVersion action r ceP.contextAttributeVector).toPull =
      toPull r.attrs ((processed action r ceP).foldl (fun d ca => countDeleted ca d) []) := by
    rw [← hcount]
    unfold processAttributes processContextAttributeVector
    simp only [hok, if_true, ha]
    split <;> rfl
  rw [hpull, toPull, List.mem_filter, mem_getFieldNames, mem_keys_countDeleted, decide_eq_true_iff,
    getD_lookup_countDeleted]
  simp

/-- The stored keys of a name. -/
private def keysOf (attrs : BSONObj) (n : String) : List String := (getFieldNames attrs).filter fun k => basePart k = n

private theorem mem_keysOf {attrs : BSONObj} {n k : String} :
    k ∈ keysOf attrs n ↔ k ∈ attrs.map Prod.fst ∧ basePart k = n := by
  simp [keysOf, List.mem_filter]

/-- Different keys of one name are fewer than all its stored keys exactly if one of these is left. -/
private theorem length_lt_iff {attrs : BSONObj} {n : String} {ks : List String} (hnd : ks.Nodup)
    (hsub : ∀ k ∈ ks, k ∈ keysOf attrs n) :
    ks.length < howManyAttrs attrs n ↔ ∃ k ∈ keysOf attrs n, k ∉ ks := by
  have hhow : howManyAttrs attrs n = (keysOf attrs n).length := rfl
  rw [hhow]
  constructor
  · intro hlt
    by_contra hcon
    push Not at hcon
    have hall : (keysOf attrs n).Subperm ks :=
      List.subperm_of_subset ((nodup_getFieldNames attrs).filter _) hcon
    have := hall.length_le
    omega
  · rintro ⟨k, hk, hnot⟩
    have hcons : (k :: ks).Subperm (keysOf attrs n) := by
      refine List.subperm_of_subset (List.nodup_cons.2 ⟨hnot, hnd⟩) ?_
      intro l hl
      rcases List.mem_cons.1 hl with rfl | hl
      · exact hk
      · exact hsub l hl
    have := hcons.length_le
    simp only [List.length_cons] at this
    omega

section Delete

variable (ha : ActionType.ofString action = .delete) (hcond : namesConditions.update env apiVersion action ceP r)
  (hok : (attributeLoop env (responseEntity r) r.attrs apiVersion action (initialProcessing r)
    (requestAttributes action r ceP.contextAttributeVector)).ok = true)

include ha hcond

private theorem keyName_of_deleted {ca : ContextAttribute} (hca : ca ∈ processed action r ceP) :
    keyName ca.key = ca.name := by
  obtain ⟨hacc, hwhole⟩ := hcond
  rw [ha] at hwhole
  exact keyName_key (hacc.no_equals (mem_of_mem_processed hca)) (hwhole ca hca).1

include hok

/-- A deletion removes the keys of the attributes of the request, which are different, and pulls the names. -/
private theorem deleted_spec
    (happ : applyUpdate r (updatedEntity env.getCurrentTime action r
      (processAttributes env apiVersion action r ceP.contextAttributeVector)) = some d) :
    ((processed action r ceP).map ContextAttribute.key).Nodup ∧
      (∀ k, k ∈ d.attrs.map Prod.fst ↔
        k ∈ r.attrs.map Prod.fst ∧ k ∉ (processed action r ceP).map ContextAttribute.key) ∧
      ∀ n, n ∈ d.attrNames ↔ n ∈ r.attrNames ∧
        n ∉ (processAttributes env apiVersion action r ceP.contextAttributeVector).toPull := by
  obtain ⟨-, hwhole⟩ := hcond
  rw [ha] at hwhole
  obtain ⟨⟨hconf, o, hset, hunset⟩, hd⟩ := updateEntity_written (by rw [ha]; decide) hok happ
  have hwritten : writtenEntries env apiVersion action r ceP = [] := by
    simp [writtenEntries, attributeEntry, ha]
  have hremoved : removedKeys action r ceP = (processed action r ceP).map ContextAttribute.key := by
    unfold removedKeys attributeRemoved
    rw [List.map_eq_flatMap]
    simp [ha]
  -- the paths are single keys
  have hpaths : (removedKeys action r ceP).map splitPath = (processed action r ceP).map fun ca => [ca.key] := by
    rw [hremoved, List.map_map]
    apply List.map_congr_left
    intro ca hca
    exact splitPath_key (hwhole ca hca).2.1
  rw [hwritten] at hset hconf
  cases hset
  have hne : ∀ p ∈ (removedKeys action r ceP).map splitPath, p ≠ [] := by
    intro p hp
    obtain ⟨k, -, rfl⟩ := List.mem_map.1 hp
    exact splitPath_ne_nil _
  obtain ⟨o', ho', -, hkeys⟩ := unsetAll_object (o := r.attrs) hne
  rw [hunset] at ho'
  cases ho'
  refine ⟨?_, ?_, ?_⟩
  · -- conflicts exclude the same key twice
    have hpairs : ((processed action r ceP).map fun ca => [ca.key]).Pairwise fun p q => conflicts p q = false := by
      rw [← hpaths]
      simpa [ConflictFree, attrPaths] using hconf
    rw [List.pairwise_map] at hpairs
    rw [List.Nodup, List.pairwise_map]
    refine hpairs.imp ?_
    intro ca cb hconfl heq
    rw [heq] at hconfl
    simp [conflicts] at hconfl
  · intro k
    rw [hkeys, hpaths]
    refine and_congr_right fun _ => not_congr ?_
    simp
  · intro n
    rw [hd]
    simp [pushedNames, attributePush, ha]

/-- A name is pulled exactly if it is deleted and no stored attribute of the name is left. -/
private theorem pulled_iff (henc : KeysEncoded r) (hnodup : ((processed action r ceP).map ContextAttribute.key).Nodup)
    (n : String) :
    n ∈ (processAttributes env apiVersion action r ceP.contextAttributeVector).toPull ↔
      n ∈ (processed action r ceP).map ContextAttribute.name ∧
        ∀ k ∈ r.attrs.map Prod.fst, keyName k = n → k ∈ (processed action r ceP).map ContextAttribute.key := by
  have hname : ∀ ca ∈ processed action r ceP, keyName ca.key = ca.name := fun ca hca => keyName_of_deleted ha hcond hca
  have hbase : ∀ k ∈ r.attrs.map Prod.fst, keyName k = n → basePart k = dbDotEncode n := by
    intro k hk hkn
    rw [← hkn, keyName, dbDotEncode_dbDotDecode (henc k hk)]
  obtain ⟨-, hwhole⟩ := hcond
  rw [ha] at hwhole
  rw [mem_toPull ha hok]
  refine and_congr_right fun hin => ?_
  obtain ⟨ca, hca, hcn⟩ := List.mem_map.1 hin
  by_cases hdot : '.' ∈ n.toList
  · -- no base part has a dot, so none is counted
    have hzero : keysOf r.attrs n = [] := by
      rw [List.eq_nil_iff_forall_not_mem]
      intro l hl
      obtain ⟨hl, hb⟩ := mem_keysOf.1 hl
      apply henc l hl
      rw [hb]
      exact hdot
    have hhow : howManyAttrs r.attrs n = (keysOf r.attrs n).length := rfl
    refine iff_of_true ?_ ?_
    · rw [hhow, hzero]
      exact Nat.zero_le _
    · intro k hk hkn
      obtain ⟨cb, hcb, rfl⟩ := (hwhole ca hca).2.2 (by rw [hcn]; exact hdot) k hk (by rw [hcn]; exact hbase k hk hkn)
      exact List.mem_map_of_mem hcb
  · -- the keys that are deleted under the name, against those that are stored
    have hstored : ∀ k ∈ ((processed action r ceP).filter fun ca => ca.name = n).map ContextAttribute.key,
        k ∈ keysOf r.attrs n := by
      intro k hk
      obtain ⟨cb, hcb, rfl⟩ := List.mem_map.1 hk
      obtain ⟨hcb, hn⟩ := List.mem_filter.1 hcb
      have haccepted := attributeLoop_accepts hok cb hcb
      rw [ha] at haccepted
      refine mem_keysOf.2 ⟨hasField_iff_mem.1 haccepted, ?_⟩
      rw [basePart_key (hwhole cb hcb).1, of_decide_eq_true hn, dbDotEncode_of_no_dot hdot]
    have hlen : (((processed action r ceP).filter fun ca => ca.name = n).map ContextAttribute.key).length =
        (processed action r ceP).countP fun ca => ca.name = n := by
      rw [List.length_map, List.countP_eq_length_filter]
    have hnd : (((processed action r ceP).filter fun ca => ca.name = n).map ContextAttribute.key).Nodup :=
      hnodup.sublist (List.filter_sublist.map _)
    have hcount := not_congr (length_lt_iff hnd hstored)
    rw [hlen, not_lt] at hcount
    rw [hcount]
    push Not
    constructor
    · intro h k hk hkn
      have hkey := h k (mem_keysOf.2 ⟨hk, by rw [hbase k hk hkn, dbDotEncode_of_no_dot hdot]⟩)
      obtain ⟨cb, hcb, rfl⟩ := List.mem_map.1 hkey
      exact List.mem_map_of_mem (List.mem_filter.1 hcb).1
    · intro h l hl
      obtain ⟨hlr, hlb⟩ := mem_keysOf.1 hl
      have hln : keyName l = n := by
        have hcn' := hname ca hca
        rw [keyName, basePart_key (hwhole ca hca).1, hcn, dbDotEncode_of_no_dot hdot] at hcn'
        rw [keyName, hlb, hcn']
      obtain ⟨cb, hcb, rfl⟩ := List.mem_map.1 (h l hlr hln)
      refine List.mem_map_of_mem (List.mem_filter.2 ⟨hcb, ?_⟩)
      rw [decide_eq_true_iff, ← hname cb hcb, hln]

private theorem names_delete (hinv : NamesMatch r ∧ KeysEncoded r)
    (happ : applyUpdate r (updatedEntity env.getCurrentTime action r
      (processAttributes env apiVersion action r ceP.contextAttributeVector)) = some d) :
    NamesMatch d ∧ KeysEncoded d := by
  obtain ⟨hnodup, hkeys, hnames⟩ := deleted_spec ha hcond hok happ
  refine ⟨fun n => ?_, fun k hk => hinv.2 k ((hkeys k).1 hk).1⟩
  rw [hnames, pulled_iff ha hcond hok hinv.2 hnodup, hinv.1 n]
  constructor
  · rintro ⟨⟨k, hk, hkn⟩, hpull⟩
    by_cases hin : n ∈ (processed action r ceP).map ContextAttribute.name
    · push Not at hpull
      obtain ⟨l, hl, hln, hleft⟩ := hpull hin
      exact ⟨l, (hkeys l).2 ⟨hl, hleft⟩, hln⟩
    · refine ⟨k, (hkeys k).2 ⟨hk, fun hdel => hin ?_⟩, hkn⟩
      obtain ⟨ca, hca, rfl⟩ := List.mem_map.1 hdel
      rw [← hkn, keyName_of_deleted ha hcond hca]
      exact List.mem_map_of_mem hca
  · rintro ⟨k, hk, hkn⟩
    obtain ⟨hkr, hleft⟩ := (hkeys k).1 hk
    exact ⟨⟨k, hkr, hkn⟩, fun hpull => hleft (hpull.2 k hkr hkn)⟩

end Delete

/-! ### Runs -/

private theorem names_update (hinv : NamesMatch r ∧ KeysEncoded r)
    (hcond : namesConditions.update env apiVersion action ceP r)
    (h : (updateEntity env apiVersion action ceP r).doc = some d) : NamesMatch d ∧ KeysEncoded d := by
  rcases updateEntity_cases env apiVersion action ceP r with ⟨-, hd⟩ | ⟨d', hd', -, hok, hmod, happ⟩
  · rcases hd with hd | ⟨hd, -⟩
    · rw [hd] at h
      cases h
      exact hinv
    · rw [hd] at h
      cases h
  · rw [hd'] at h
    cases h
    rcases ha : ActionType.ofString action with _ | _ | _ | _ | _ | _
    · exact names_written hcond (by rw [ha]; decide) hinv hok happ
    · exact names_written hcond (by rw [ha]; decide) hinv hok happ
    · exact names_written hcond (by rw [ha]; decide) hinv hok happ
    · exact names_delete ha hcond hok hinv happ
    · exact names_replace ha hcond hok happ
    · exact absurd ha (action_known_of_modified hmod)

end Update

/-- In every run whose requests meet the conditions, the names of every stored entity are those of its attributes. -/
theorem names_match_of_reachable {store : List EntityDoc} (h : Reachable namesConditions store) :
    ∀ d ∈ store, NamesMatch d := by
  have hinv : ∀ d ∈ store, NamesMatch d ∧ KeysEncoded d :=
    run_invariant (fun _ _ _ _ _ hcond hc => names_create hcond hc)
      (fun _ _ _ _ _ _ hinv hcond hu => names_update hinv hcond hu) h
  exact fun d hd => (hinv d hd).1

/-- The document that APPEND creates for one attribute of type `T`. -/
def createdWith (name value : String) : EntityDoc :=
  { id := "E", type := "T", servicePath := "/", attrNames := [name]
    attrs := [(dbDotEncode name, .object (createdAttribute 1 { name := name, type := "T", stringValue := value } .v1))]
    creDate := some 1, modDate := some 1, location := none }

/-- Create an entity with the attribute `a.b`, append `c` and delete `a.b` again: only `c` is left. -/
theorem names_match_after_delete :
    NamesMatch { createdWith "c" "2" with
      attrs := [("c", .object (appendedAttribute 2 { name := "c", type := "T", stringValue := "2" } .v1))]
      modDate := some 3 } := by
  let entity : EntityId := { id := "E", type := "T" }
  let appended : EntityDoc :=
    { createdWith "a.b" "1" with
      attrNames := ["a.b", "c"]
      attrs := (createdWith "a.b" "1").attrs ++
        [("c", .object (appendedAttribute 2 { name := "c", type := "T", stringValue := "2" } .v1))]
      modDate := some 2 }
  have hcreate : EntityStep namesConditions [] [createdWith "a.b" "1"] :=
    @EntityStep.create namesConditions (.quiet 1) .v1 entity [{ name := "a.b", type := "T", stringValue := "1" }] _ []
      ⟨fun ca hca => ⟨false, by rw [List.mem_singleton.1 hca]; decide⟩,
        fun ca hca => by rw [List.mem_singleton.1 hca]; decide⟩ (by decide)
  have happend : EntityStep namesConditions [createdWith "a.b" "1"] [appended] :=
    @EntityStep.update namesConditions (.quiet 2) .v1 "APPEND"
      { entityId := entity, contextAttributeVector := [{ name := "c", type := "T", stringValue := "2" }] }
      (createdWith "a.b" "1") [] []
      ⟨fun ca hca => ⟨false, by rw [List.mem_singleton.1 hca]; decide⟩, by
        rw [show ActionType.ofString "APPEND" = .append by decide]
        intro ca hca _
        rw [List.mem_singleton.1 hca]
        decide⟩
  have hdelete : EntityStep namesConditions [appended] _ :=
    @EntityStep.update namesConditions (.quiet 3) .v1 "DELETE"
      { entityId := entity, contextAttributeVector := [{ name := "a.b", type := "", valueType := .none }] }
      appended [] []
      ⟨fun ca hca => ⟨false, by rw [List.mem_singleton.1 hca]; decide⟩, by
        rw [show ActionType.ofString "DELETE" = .delete by decide]
        intro ca hca
        obtain rfl := List.mem_singleton.1 hca
        exact ⟨by decide, by decide, fun _ k hk hb => ⟨_, List.mem_singleton.2 rfl, by revert k; decide⟩⟩⟩
  exact names_match_of_reachable (((Relation.ReflTransGen.single hcreate).tail happend).tail hdelete)
    _ (List.mem_singleton.2 rfl)

/-- The only condition on a request is that its attributes are accepted. -/
def acceptedConditions : StepConditions where
  create := fun _ apiVersion caV => Accepted apiVersion caV
  update := fun _ apiVersion _ ceP _ => Accepted apiVersion ceP.contextAttributeVector

/-- An entity created with the attribute `A__x` has a key that reads as `A`. -/
theorem names_differ :
    Reachable acceptedConditions [createdWith "A__x" "1"] ∧ ¬ NamesMatch (createdWith "A__x" "1") := by
  refine ⟨Relation.ReflTransGen.single (@EntityStep.create acceptedConditions (.quiet 1) .v1 { id := "E", type := "T" }
    [{ name := "A__x", type := "T", stringValue := "1" }] _ [] ?_ (by decide)), ?_⟩
  · intro ca hca
    exact ⟨false, by rw [List.mem_singleton.1 hca]; decide⟩
  · intro h
    obtain ⟨k, hk, hkn⟩ := (h "A__x").1 (by decide)
    revert k
    decide

end OrionBroker
