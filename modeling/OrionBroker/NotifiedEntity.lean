import OrionBroker.NotifiedMerge
import OrionBroker.SharedRequest

/-!
# The notified entity and the document

After the database was written, the entity handed to the notifications should be the one that is now stored.  Both are
read attribute by attribute: `notified_as_stored_iff` says exactly when they have the same attributes, for entities
and requests without metadata ID.
-/

namespace OrionBroker

open Bson

/-! ### Entities and requests -/

/-- The keys are names without metadata ID. -/
def PlainKeys (attrs : BSONObj) : Prop := ∀ k ∈ attrs.map Prod.fst, '.' ∉ k.toList ∧ Text.find k "__" = none

/-- A document as the broker writes it, without metadata IDs. -/
structure PlainEntity (r : EntityDoc) : Prop where
  nodup : (r.attrs.map Prod.fst).Nodup
  keys : PlainKeys r.attrs
  stored : ∀ k w, r.attrs.lookup k = some w → PlainStored (embeddedObject w)

/-- The attributes of an accepted request, without metadata IDs. -/
structure PlainRequest (apiVersion : ApiVersion) (caV : List ContextAttribute) : Prop where
  accepted : Accepted apiVersion caV
  id : ∀ ca ∈ caV, ca.getId = ""
  splittable : ∀ ca ∈ caV, Splittable ca.name ""
  distinct : duplicatedAttribute caV = none
  plain : ∀ ca ∈ caV, PlainAttribute apiVersion ca

/-- The attributes that are notified, without those that are skipped, are those of the document. -/
def NotifiedAsStored (notified : ContextElementResponse) (d : EntityDoc) : Prop :=
  KeyedList.Matched SameAttribute (notified.contextElement.contextAttributeVector.filter fun ca => !ca.skip)
    (ContextElementResponse.ofDoc d).contextElement.contextAttributeVector

section Keys

variable {attrs : BSONObj} {k n : String}

private theorem decode_basePart (h : Text.find k "__" = none) : dbDotDecode (basePart k) = dbDotDecode k := by
  unfold basePart
  rw [h]

private theorem idPart_eq_empty (h : Text.find k "__" = none) : idPart k = "" := by
  unfold idPart
  rw [h]

/-- A plain key is recovered from the name. -/
private theorem key_of_name (hdot : '.' ∉ k.toList) (hsep : Text.find k "__" = none)
    (hname : dbDotDecode (basePart k) = n) : k = dbDotEncode n := by
  rw [← hname, decode_basePart hsep, dbDotEncode_dbDotDecode hdot]

private theorem mem_keys_iff : k ∈ attrs.map Prod.fst ↔ ∃ w, attrs.lookup k = some w := by
  rw [← hasField_iff_mem, hasField, Option.isSome_iff_exists]

/-- The attributes of a document, read as a function of the name. -/
theorem get_ofDoc {d : EntityDoc} (hd : PlainKeys d.attrs) (hn : '=' ∉ n.toList) :
    KeyedList.get ContextAttribute.name n (ContextElementResponse.ofDoc d).contextElement.contextAttributeVector =
      (d.attrs.lookup (dbDotEncode n)).map fun _ =>
        notifyAttribute ((d.location.map Location.attrName).getD "") d.attrs (dbDotEncode n) := by
  unfold ContextElementResponse.ofDoc
  simp only
  rw [KeyedList.get_map]
  have hkey : ∀ k ∈ getFieldNames d.attrs, (ContextAttribute.name ∘
      notifyAttribute ((d.location.map Location.attrName).getD "") d.attrs) k = n → k = dbDotEncode n := by
    intro k hk hname
    obtain ⟨hdot, hsep⟩ := hd k (mem_getFieldNames.1 hk)
    rw [Function.comp_apply, name_notifyAttribute] at hname
    exact key_of_name hdot hsep hname
  rcases hg : KeyedList.get _ n (getFieldNames d.attrs) with _ | k
  · rcases hl : d.attrs.lookup (dbDotEncode n) with _ | w
    · rfl
    · refine absurd ?_ (KeyedList.get_eq_none_iff.1 hg)
      have hmem := mem_keys_iff.2 ⟨w, hl⟩
      refine List.mem_map.2 ⟨dbDotEncode n, mem_getFieldNames.2 hmem, ?_⟩
      rw [Function.comp_apply, name_notifyAttribute, decode_basePart (hd _ hmem).2, dbDotDecode_dbDotEncode hn]
  · obtain ⟨hmem, hname⟩ := KeyedList.mem_of_get hg
    obtain rfl := hkey k hmem hname
    obtain ⟨w, hw⟩ := mem_keys_iff.1 (mem_getFieldNames.1 hmem)
    rw [hw]
    rfl

/-- The name of an attribute of a document determines it, and has no `=`. -/
theorem ofDoc_names {d : EntityDoc} (hd : PlainKeys d.attrs) :
    (∀ a ∈ (ContextElementResponse.ofDoc d).contextElement.contextAttributeVector,
      ∀ b ∈ (ContextElementResponse.ofDoc d).contextElement.contextAttributeVector, a.name = b.name → a = b) ∧
      ∀ a ∈ (ContextElementResponse.ofDoc d).contextElement.contextAttributeVector, '=' ∉ a.name.toList := by
  have hkey : ∀ a ∈ (ContextElementResponse.ofDoc d).contextElement.contextAttributeVector, ∃ k,
      a = notifyAttribute ((d.location.map Location.attrName).getD "") d.attrs k ∧ k = dbDotEncode a.name := by
    intro a ha
    obtain ⟨k, hk, rfl⟩ := List.mem_map.1 ha
    obtain ⟨hdot, hsep⟩ := hd k (mem_getFieldNames.1 hk)
    exact ⟨k, rfl, key_of_name hdot hsep (name_notifyAttribute _ _ _).symm⟩
  refine ⟨fun a ha b hb he => ?_, fun a ha => ?_⟩
  · obtain ⟨k, hak, hk⟩ := hkey a ha
    obtain ⟨l, hbl, hl⟩ := hkey b hb
    rw [hak, hbl, hk, hl, he]
  · obtain ⟨k, rfl, -⟩ := hkey a ha
    rw [name_notifyAttribute]
    exact no_equals_dbDotDecode _

end Keys

/-! ### The notified attributes -/

section Notified

variable {env : Env} {apiVersion : ApiVersion} {action : String} {ceP : ContextElement} {r d : EntityDoc}

theorem PlainRequest.names_nodup {caV : List ContextAttribute} (h : PlainRequest apiVersion caV) :
    (caV.map ContextAttribute.name).Nodup := by
  rw [List.Nodup, List.pairwise_map]
  refine (duplicatedAttribute_eq_none.1 h.distinct).imp_of_mem ?_
  intro ca cb hca hcb hne he
  exact hne ⟨he, (h.id ca hca).trans (h.id cb hcb).symm⟩

theorem PlainRequest.key {caV : List ContextAttribute} (h : PlainRequest apiVersion caV) {ca : ContextAttribute}
    (hca : ca ∈ caV) : ca.key = dbDotEncode ca.name := by
  unfold ContextAttribute.key effectiveName
  rw [h.id ca hca, if_pos rfl]

theorem PlainRequest.key_mem_iff {caV : List ContextAttribute} (h : PlainRequest apiVersion caV) {n : String}
    (hn : '=' ∉ n.toList) : dbDotEncode n ∈ caV.map ContextAttribute.key ↔ n ∈ caV.map ContextAttribute.name := by
  constructor
  · intro hmem
    obtain ⟨ca, hca, hkey⟩ := List.mem_map.1 hmem
    rw [h.key hca] at hkey
    refine List.mem_map.2 ⟨ca, hca, ?_⟩
    rw [← dbDotDecode_dbDotEncode (h.accepted.no_equals hca), hkey, dbDotDecode_dbDotEncode hn]
  · intro hmem
    obtain ⟨ca, hca, rfl⟩ := List.mem_map.1 hmem
    rw [← h.key hca]
    exact List.mem_map_of_mem hca

private theorem updateAttrInNotifyCer_eq (ca : ContextAttribute) (useDefaultType : Bool) (caV : List ContextAttribute) :
    (updateAttrInNotifyCer ca useDefaultType caV).1 =
      KeyedList.upsert ContextAttribute.name ca.name (updateNotifyAttribute ca useDefaultType)
        (ca.copy useDefaultType).1 caV := by
  induction caV with
  | nil => rfl
  | cons cb caV ih =>
    unfold updateAttrInNotifyCer KeyedList.upsert
    split
    · rfl
    · rw [← ih]

private theorem name_updateNotifyAttribute (ca : ContextAttribute) (useDefaultType : Bool) (y : ContextAttribute) :
    (updateNotifyAttribute ca useDefaultType y).name = y.name ∧
      (updateNotifyAttribute ca useDefaultType y).skip = y.skip := by
  unfold updateNotifyAttribute
  simp only
  split <;> exact ⟨rfl, rfl⟩

/-- The notified attributes after the attributes of a request were merged into them. -/
def mergedNotification (apiVersion : ApiVersion) (caV notifyAttrs : List ContextAttribute) : List ContextAttribute :=
  caV.foldl (fun l ca => KeyedList.upsert ContextAttribute.name ca.name (updateNotifyAttribute ca (apiVersion = .v2))
    (ca.copy (apiVersion = .v2)).1 l) notifyAttrs

/-- The notified attribute for an attribute of the request. -/
def notifiedAttribute (apiVersion : ApiVersion) (r : EntityDoc) (ca : ContextAttribute) : ContextAttribute :=
  if hasField r.attrs ca.key then
    updateNotifyAttribute ca (apiVersion = .v2)
      (notifyAttribute ((r.location.map Location.attrName).getD "") r.attrs ca.key)
  else (ca.copy (apiVersion = .v2)).1

/-- The entity to notify: the attributes of the request are merged into the stored ones, or mark them as skipped. -/
theorem notifyAttrs_processed
    (hok : (attributeLoop env (responseEntity r) r.attrs apiVersion action (initialProcessing r)
      (requestAttributes action r ceP.contextAttributeVector)).ok = true) :
    (processAttributes env apiVersion action r ceP.contextAttributeVector).processing.notifyAttrs =
      if ActionType.ofString action = .delete then
        (processed action r ceP).foldl (fun l ca => deleteAttrInNotifyCer ca l)
          (ContextElementResponse.ofDoc r).contextElement.contextAttributeVector
      else mergedNotification apiVersion (processed action r ceP)
        (ContextElementResponse.ofDoc r).contextElement.contextAttributeVector := by
  obtain ⟨statusCode, hp⟩ := processAttributes_processing hok
  have hfold := attributeLoop_fold Processing.notifyAttrs
    (fun l ca => (notifyStep apiVersion (ActionType.ofString action) ca l).1) (fun _ _ _ => rfl) hok
  rw [hp]
  change (attributeLoop _ _ _ _ _ _ _).processing.notifyAttrs = _
  rw [hfold]
  change (processed action r ceP).foldl _ (ContextElementResponse.ofDoc r).contextElement.contextAttributeVector = _
  split
  · rename_i hdel
    rw [hdel]
    rfl
  · rename_i hdel
    unfold mergedNotification
    simp only [notifyStep_eq hdel, updateAttrInNotifyCer_eq]

private theorem ofDoc_nodup (hr : PlainEntity r) :
    ((ContextElementResponse.ofDoc r).contextElement.contextAttributeVector.map ContextAttribute.name).Nodup := by
  unfold ContextElementResponse.ofDoc
  rw [List.map_map, List.nodup_map_iff_inj_on (nodup_getFieldNames _)]
  intro k hk l hl he
  simp only [Function.comp_apply, name_notifyAttribute] at he
  obtain ⟨hdot, hsep⟩ := hr.keys k (mem_getFieldNames.1 hk)
  obtain ⟨hdot', hsep'⟩ := hr.keys l (mem_getFieldNames.1 hl)
  exact (key_of_name hdot hsep he).trans (key_of_name hdot' hsep' rfl).symm

private theorem mergedNotification_spec (hr : PlainEntity r) {caV : List ContextAttribute}
    (hreq : PlainRequest apiVersion caV) :
    let merged := mergedNotification apiVersion caV (ContextElementResponse.ofDoc r).contextElement.contextAttributeVector
    (merged.map ContextAttribute.name).Nodup ∧ ∀ a ∈ merged, a.skip = false ∧ '=' ∉ a.name.toList := by
  have hnew : ∀ ca : ContextAttribute, (ca.copy (apiVersion = .v2)).1.name = ca.name := fun _ => rfl
  refine ⟨KeyedList.nodup_foldl_upsert (fun ca => updateNotifyAttribute ca (apiVersion = .v2))
    (fun ca y => (name_updateNotifyAttribute ca _ y).1) hnew (ofDoc_nodup hr) caV, ?_⟩
  refine KeyedList.forall_mem_foldl_upsert _ ?_ ?_ ?_
  · intro a ha
    refine ⟨?_, (ofDoc_names hr.keys).2 a ha⟩
    obtain ⟨k, -, rfl⟩ := List.mem_map.1 ha
    exact skip_notifyAttribute _ _ _
  · intro ca _ y hy
    rw [(name_updateNotifyAttribute ca _ y).1, (name_updateNotifyAttribute ca _ y).2]
    exact hy
  · intro ca hca
    have hname := hreq.accepted.no_equals hca
    exact ⟨rfl, hname⟩

/-- The notified attributes, read as a function of the name. -/
private theorem get_mergedNotification (hr : PlainEntity r) {caV : List ContextAttribute}
    (hreq : PlainRequest apiVersion caV) {n : String} (hn : '=' ∉ n.toList) :
    KeyedList.get ContextAttribute.name n
        (mergedNotification apiVersion caV (ContextElementResponse.ofDoc r).contextElement.contextAttributeVector) =
      ((KeyedList.get ContextAttribute.name n caV).map (notifiedAttribute apiVersion r)).or
        ((r.attrs.lookup (dbDotEncode n)).map fun _ =>
          notifyAttribute ((r.location.map Location.attrName).getD "") r.attrs (dbDotEncode n)) := by
  have hnew : ∀ ca : ContextAttribute, (ca.copy (apiVersion = .v2)).1.name = ca.name := fun _ => rfl
  have h := KeyedList.get_foldl_upsert (fun ca => updateNotifyAttribute ca (apiVersion = .v2))
    (fun ca y => (name_updateNotifyAttribute ca _ y).1) hnew hreq.names_nodup n
    (ContextElementResponse.ofDoc r).contextElement.contextAttributeVector
  change KeyedList.get ContextAttribute.name n (mergedNotification apiVersion caV _) = _ at h
  rw [h, get_ofDoc hr.keys hn]
  rcases hg : KeyedList.get ContextAttribute.name n caV with _ | ca
  · rfl
  · obtain ⟨hmem, hname⟩ := KeyedList.mem_of_get hg
    have hkey : ca.key = dbDotEncode n := by rw [hreq.key hmem, hname]
    simp only [Option.map_some, Option.some_or, notifiedAttribute, hkey, hasField]
    rcases r.attrs.lookup (dbDotEncode n) with _ | w <;> simp

private theorem name_of_key {n : String} (hn : '=' ∉ n.toList) (hs : Text.find (dbDotEncode n) "__" = none) :
    dbDotDecode (basePart (dbDotEncode n)) = n := by
  rw [decode_basePart hs, dbDotDecode_dbDotEncode hn]

/-- An attribute that is compared with one of the document is compared with what is stored. -/
private theorem rel_ofDoc_iff (hd : PlainKeys d.attrs) {n : String} (hn : '=' ∉ n.toList) {x : Option ContextAttribute}
    (hx : ∀ a, x = some a → a.name = n) :
    Option.Rel SameAttribute x
        (KeyedList.get ContextAttribute.name n (ContextElementResponse.ofDoc d).contextElement.contextAttributeVector) ↔
      Option.Rel (fun a w => Shows a (embeddedObject w)) x (d.attrs.lookup (dbDotEncode n)) := by
  rw [get_ofDoc hd hn]
  rcases hw : d.attrs.lookup (dbDotEncode n) with _ | w
  · rcases x with _ | a <;> simp
  · rcases x with _ | a
    · simp
    · have hsep := (hd _ (mem_keys_iff.2 ⟨w, hw⟩)).2
      have hiff := sameAttribute_notifyAttribute ((d.location.map Location.attrName).getD "")
        (idPart_eq_empty hsep) hw ((hx a rfl).trans (name_of_key hn hsep).symm)
      simpa using hiff

/-- The notified attributes are those of a document exactly if the attributes of the request are stored as they are
notified, and the others as they were. -/
theorem matched_mergedNotification (hr : PlainEntity r) {caV : List ContextAttribute}
    (hreq : PlainRequest apiVersion caV) (hd : PlainKeys d.attrs) :
    KeyedList.Matched SameAttribute
        ((mergedNotification apiVersion caV
          (ContextElementResponse.ofDoc r).contextElement.contextAttributeVector).filter fun ca => !ca.skip)
        (ContextElementResponse.ofDoc d).contextElement.contextAttributeVector ↔
      (∀ ca ∈ caV, ∃ w, d.attrs.lookup ca.key = some w ∧
        Shows (notifiedAttribute apiVersion r ca) (embeddedObject w)) ∧
      ∀ k, k ∉ caV.map ContextAttribute.key → Option.Rel (fun _ w =>
        Shows (notifyAttribute ((r.location.map Location.attrName).getD "") r.attrs k) (embeddedObject w))
          (r.attrs.lookup k) (d.attrs.lookup k) := by
  obtain ⟨hnodup, hall⟩ := mergedNotification_spec hr hreq
  have hskip : (mergedNotification apiVersion caV
      (ContextElementResponse.ofDoc r).contextElement.contextAttributeVector).filter (fun ca => !ca.skip) =
      mergedNotification apiVersion caV (ContextElementResponse.ofDoc r).contextElement.contextAttributeVector := by
    rw [List.filter_eq_self]
    intro a ha
    rw [(hall a ha).1]
    rfl
  rw [hskip, KeyedList.matched_iff ContextAttribute.name ContextAttribute.name (p := fun n => '=' ∉ n.toList)
    (fun a b h => h.name) (fun _ ha _ hb => List.inj_on_of_nodup_map hnodup ha hb) (ofDoc_names hd).1
    (fun a ha => (hall a ha).2) (ofDoc_names hd).2]
  have hrel : ∀ n, '=' ∉ n.toList → (Option.Rel SameAttribute
      (KeyedList.get ContextAttribute.name n (mergedNotification apiVersion caV
        (ContextElementResponse.ofDoc r).contextElement.contextAttributeVector))
      (KeyedList.get ContextAttribute.name n (ContextElementResponse.ofDoc d).contextElement.contextAttributeVector) ↔
      Option.Rel (fun a w => Shows a (embeddedObject w))
        (((KeyedList.get ContextAttribute.name n caV).map (notifiedAttribute apiVersion r)).or
          ((r.attrs.lookup (dbDotEncode n)).map fun _ =>
            notifyAttribute ((r.location.map Location.attrName).getD "") r.attrs (dbDotEncode n)))
        (d.attrs.lookup (dbDotEncode n))) := by
    intro n hn
    rw [rel_ofDoc_iff hd hn fun a ha => (KeyedList.mem_of_get ha).2, get_mergedNotification hr hreq hn]
  constructor
  · intro h
    refine ⟨fun ca hca => ?_, fun k hk => ?_⟩
    · have hn := hreq.accepted.no_equals hca
      have hget := KeyedList.get_of_mem (fun _ ha _ hb => List.inj_on_of_nodup_map hreq.names_nodup ha hb) hca
      have hr := (hrel ca.name hn).1 (h ca.name hn)
      rw [hget, ← hreq.key hca] at hr
      simp only [Option.map_some, Option.some_or] at hr
      rcases hw : d.attrs.lookup ca.key with _ | w
      · rw [hw] at hr
        cases hr
      · rw [hw] at hr
        cases hr with
        | some hs => exact ⟨w, rfl, hs⟩
    · by_cases hplain : k ∈ r.attrs.map Prod.fst ∨ k ∈ d.attrs.map Prod.fst
      · have hk' : '.' ∉ k.toList ∧ Text.find k "__" = none := hplain.elim (hr.keys k) (hd k)
        have henc : dbDotEncode (dbDotDecode k) = k := dbDotEncode_dbDotDecode hk'.1
        have hnone : KeyedList.get ContextAttribute.name (dbDotDecode k) caV = none := by
          rw [KeyedList.get_eq_none_iff, ← hreq.key_mem_iff (no_equals_dbDotDecode k), henc]
          exact hk
        have hr := (hrel (dbDotDecode k) (no_equals_dbDotDecode k)).1 (h _ (no_equals_dbDotDecode k))
        rw [hnone, henc, Option.map_none, Option.none_or] at hr
        exact KeyedList.rel_map_left.1 hr
      · rw [not_or, ← hasField_iff_mem, ← hasField_iff_mem] at hplain
        rw [lookup_of_not_hasField hplain.1, lookup_of_not_hasField hplain.2]
        exact Option.Rel.none
  · rintro ⟨hca, hother⟩ n hn
    rw [hrel n hn]
    rcases hg : KeyedList.get ContextAttribute.name n caV with _ | ca
    · have hk := mt (hreq.key_mem_iff hn).1 (KeyedList.get_eq_none_iff.1 hg)
      rw [Option.map_none, Option.none_or]
      exact KeyedList.rel_map_left.2 (hother _ hk)
    · obtain ⟨hmem, hname⟩ := KeyedList.mem_of_get hg
      obtain ⟨w, hw, hs⟩ := hca ca hmem
      rw [hreq.key hmem, hname] at hw
      rw [hw]
      exact Option.Rel.some hs

/-! ### Deletion -/

private theorem filter_deleteAttrInNotifyCer (caV l : List ContextAttribute) :
    (caV.foldl (fun l ca => deleteAttrInNotifyCer ca l) l).filter (fun ca => !ca.skip) =
      (l.filter fun ca => !ca.skip).filter fun y => decide (y.name ∉ caV.map ContextAttribute.name) := by
  induction caV generalizing l with
  | nil => simp
  | cons ca caV ih =>
    rw [List.foldl_cons, ih, List.filter_filter, List.filter_filter]
    unfold deleteAttrInNotifyCer
    induction l with
    | nil => rfl
    | cons y l ihl =>
      rw [List.map_cons, List.filter_cons, ihl, List.filter_cons]
      by_cases hy : y.name = ca.name
      · simp [hy]
      · simp [hy]

/-- After a deletion the attributes that are left are notified as they were. -/
private theorem matched_deleted (hr : PlainEntity r) {caV : List ContextAttribute} (hreq : PlainRequest apiVersion caV)
    (hd : PlainKeys d.attrs) (hgone : ∀ ca ∈ caV, d.attrs.lookup ca.key = none)
    (hkept : ∀ k, k ∉ caV.map ContextAttribute.key → d.attrs.lookup k = r.attrs.lookup k) :
    KeyedList.Matched SameAttribute
      ((caV.foldl (fun l ca => deleteAttrInNotifyCer ca l)
        (ContextElementResponse.ofDoc r).contextElement.contextAttributeVector).filter fun ca => !ca.skip)
      (ContextElementResponse.ofDoc d).contextElement.contextAttributeVector := by
  rw [filter_deleteAttrInNotifyCer]
  have hskip : (ContextElementResponse.ofDoc r).contextElement.contextAttributeVector.filter (fun ca => !ca.skip) =
      (ContextElementResponse.ofDoc r).contextElement.contextAttributeVector := by
    rw [List.filter_eq_self]
    intro a ha
    obtain ⟨k, -, rfl⟩ := List.mem_map.1 ha
    rw [skip_notifyAttribute]
    rfl
  obtain ⟨hinj, hequals⟩ := ofDoc_names hr.keys
  rw [hskip, KeyedList.matched_iff ContextAttribute.name ContextAttribute.name (p := fun n => '=' ∉ n.toList)
    (fun a b h => h.name) (fun a ha b hb => hinj a (List.mem_filter.1 ha).1 b (List.mem_filter.1 hb).1)
    (ofDoc_names hd).1 (fun a ha => hequals a (List.mem_filter.1 ha).1) (ofDoc_names hd).2]
  intro n hn
  rw [rel_ofDoc_iff hd hn fun a ha => (KeyedList.mem_of_get ha).2,
    KeyedList.get_filter (b := decide (n ∉ caV.map ContextAttribute.name)) fun y _ hy => by rw [hy],
    get_ofDoc hr.keys hn]
  by_cases hmem : n ∈ caV.map ContextAttribute.name
  · obtain ⟨ca, hca, rfl⟩ := List.mem_map.1 hmem
    have hnone := hgone ca hca
    rw [hreq.key hca] at hnone
    rw [hnone]
    simp only [hmem, not_true, decide_false, Bool.false_eq_true, if_false]
    exact Option.Rel.none
  · rw [hkept _ (mt (hreq.key_mem_iff hn).1 hmem)]
    simp only [hmem, not_false_eq_true, decide_true, if_true]
    rcases hw : r.attrs.lookup (dbDotEncode n) with _ | w
    · exact Option.Rel.none
    · have hsep := (hr.keys _ (mem_keys_iff.2 ⟨w, hw⟩)).2
      exact Option.Rel.some (shows_notifyAttribute _ (idPart_eq_empty hsep) hw)

/-! ### Conditions -/

/-- When an update or an append is notified as it is stored: an attribute that has to be there is, and the two merges
agree. -/
def UpdateCondition (apiVersion : ApiVersion) (r : EntityDoc) (a : ActionType) (caV : List ContextAttribute) : Prop :=
  ∀ ca ∈ caV,
    match r.attrs.lookup ca.key with
    | some w => MergeAgrees apiVersion (embeddedObject w) ca
    | none => a ≠ .update ∧ KeepsMembers ca

/-- A replacement leaves a location, which is then written among the attributes. -/
def leavesLocation (strtod : String → Strtod) (apiVersion : ApiVersion) (r : EntityDoc) (caV : List ContextAttribute) :
    Bool :=
  match locationRun strtod r.attrs apiVersion .replace ((r.location.map Location.attrName).getD "") caV with
  | .ok l => l.currentLocAttrName ≠ ""
  | .error _ => false

/-- An attribute without type, value and metadata; a location among the attributes is read as such. -/
structure Blank (o : BSONObj) : Prop where
  type : getStringFieldF o "type" = ""
  value : storedJson (o.lookup "value") = some (.string "")
  metadata : storedMetadata o = []

/-- When a replacement is notified as it is stored: the request has all the stored attributes, with all that they have,
and no location is left that the notification does not have. -/
structure ReplaceCondition (strtod : String → Strtod) (apiVersion : ApiVersion) (r : EntityDoc)
    (caV : List ContextAttribute) : Prop where
  request : ∀ ca ∈ caV,
    match r.attrs.lookup ca.key with
    | some w => ReplaceAgrees apiVersion (embeddedObject w) ca
    | none => KeepsMembers ca
  others : ∀ k, k ∉ caV.map ContextAttribute.key →
    match r.attrs.lookup k with
    | some w => leavesLocation strtod apiVersion r caV = true ∧ k = "location" ∧ Blank (embeddedObject w)
    | none => leavesLocation strtod apiVersion r caV = true → k ≠ "location"

/-- The condition on the attributes that are processed, by action. -/
def NotifyCondition (strtod : String → Strtod) (apiVersion : ApiVersion) (r : EntityDoc) (caV : List ContextAttribute) :
    ActionType → Prop
  | .delete => True
  | .replace => ReplaceCondition strtod apiVersion r caV
  | a => UpdateCondition apiVersion r a caV

/-! ### The main result -/

private theorem readFrom_stored (hr : PlainEntity r) {k : String} {w : BSONValue} (h : r.attrs.lookup k = some w) :
    ReadFrom (notifyAttribute ((r.location.map Location.attrName).getD "") r.attrs k) (embeddedObject w) := by
  have hsep := (hr.keys k (mem_keys_iff.2 ⟨w, h⟩)).2
  exact readFrom_notifyAttribute (idPart_eq_empty hsep) h (hr.stored k w h)

/-- An attribute that was updated or appended is notified as it is stored. -/
private theorem shows_after_iff (hr : PlainEntity r) {ca : ContextAttribute} (hca : PlainAttribute apiVersion ca)
    {a : ActionType} (ha : a = .update ∨ a = .append ∨ a = .appendStrict) {now : Int} :
    (∃ w, attributeAfter now r.attrs apiVersion a ca = some w ∧
      Shows (notifiedAttribute apiVersion r ca) (embeddedObject w)) ↔
      match r.attrs.lookup ca.key with
      | some w => MergeAgrees apiVersion (embeddedObject w) ca
      | none => a ≠ .update ∧ KeepsMembers ca := by
  have hdel : a ≠ .delete := by rcases ha with rfl | rfl | rfl <;> decide
  unfold attributeAfter notifiedAttribute
  rw [if_neg hdel]
  rcases hk : r.attrs.lookup ca.key with _ | v
  · have hno : hasField r.attrs ca.key = false := by simp [hasField, hk]
    rw [hno, if_neg Bool.false_ne_true]
    by_cases hup : a = .update
    · simp [hup, attributeEntry, hk]
    · have happend : a = .append ∨ a = .appendStrict := ha.resolve_left hup
      have hnew := shows_new hca (hasForm_appendedAttribute now ca apiVersion)
        (storedMetadata_appendedAttribute now hca.metadata)
      rw [attributeEntry_new happend hno]
      simpa [hup, embeddedObject] using hnew
  · have hyes : hasField r.attrs ca.key = true := by simp [hasField, hk]
    rw [hyes, if_pos rfl]
    have hentry : attributeEntry now r.attrs apiVersion a ca =
        if actualUpdate (embeddedObject v) ca apiVersion then
          [(ca.key, .object (mergeAttrInfo now (embeddedObject v) ca apiVersion).1)]
        else [] := by
      rcases ha with rfl | rfl | rfl <;> simp only [attributeEntry, hk]
    rw [hentry]
    have hread := readFrom_stored hr hk
    have hstored := hr.stored _ _ hk
    rcases hact : actualUpdate (embeddedObject v) ca apiVersion with _ | _
    · have hboth := shows_unchanged hca hstored hread hact
      exact iff_of_true ⟨v, by simp, hboth.1⟩ hboth.2
    · have hmerged := shows_merged now hca hstored hread hact
      simpa [embeddedObject] using hmerged

private theorem plainKey_of_request {caV : List ContextAttribute} (hreq : PlainRequest apiVersion caV) {k : String}
    (hk : k ∈ caV.map ContextAttribute.key) : '.' ∉ k.toList ∧ Text.find k "__" = none := by
  obtain ⟨ca, hca, rfl⟩ := List.mem_map.1 hk
  have hsep := (find_effectiveName_nil ca.name).2 (hreq.splittable ca hca)
  rw [hreq.key hca]
  exact ⟨no_dot_dbDotEncode _, hsep⟩

private theorem simpleKeys_of_request {caV : List ContextAttribute} (hreq : PlainRequest apiVersion caV) :
    SimpleKeys caV := by
  refine ⟨fun ca hca => ?_, ?_⟩
  · rw [hreq.id ca hca]
    decide
  · rw [List.nodup_map_iff_inj_on (List.Nodup.of_map _ hreq.names_nodup)]
    intro ca hca cb hcb he
    rw [hreq.key hca, hreq.key hcb] at he
    refine List.inj_on_of_nodup_map hreq.names_nodup hca hcb ?_
    rw [← dbDotDecode_dbDotEncode (hreq.accepted.no_equals hca), he,
      dbDotDecode_dbDotEncode (hreq.accepted.no_equals hcb)]

theorem PlainRequest.processed (hreq : PlainRequest apiVersion ceP.contextAttributeVector) :
    PlainRequest apiVersion (processed action r ceP) where
  accepted := fun ca hca => hreq.accepted ca (mem_of_mem_processed hca)
  id := fun ca hca => hreq.id ca (mem_of_mem_processed hca)
  splittable := fun ca hca => hreq.splittable ca (mem_of_mem_processed hca)
  distinct := duplicatedAttribute_eq_none.2 ((duplicatedAttribute_eq_none.1 hreq.distinct).sublist processed_sublist)
  plain := fun ca hca => hreq.plain ca (mem_of_mem_processed hca)

private theorem leavesLocation_iff (ha : ActionType.ofString action = .replace)
    (hok : (attributeLoop env (responseEntity r) r.attrs apiVersion action (initialProcessing r)
      (requestAttributes action r ceP.contextAttributeVector)).ok = true) :
    leavesLocation env.strtod apiVersion r (processed action r ceP) =
      (finalLocation r (processAttributes env apiVersion action r ceP.contextAttributeVector).processing).isSome := by
  obtain ⟨statusCode, hp⟩ := processAttributes_processing hok
  obtain ⟨g, hrun, -⟩ := attributeLoop_location hok
  rw [ha] at hrun
  change locationRun _ _ _ _ ((r.location.map Location.attrName).getD "") (processed action r ceP) = _ at hrun
  unfold leavesLocation finalLocation
  rw [hrun, hp]
  simp only
  split <;> simp_all

/-- A location among the attributes is read as an attribute without type, value and metadata. -/
private theorem shows_location_iff (hr : PlainEntity r) {k : String} {w : BSONValue} (h : r.attrs.lookup k = some w)
    (l : Location) :
    Shows (notifyAttribute ((r.location.map Location.attrName).getD "") r.attrs k) (embeddedObject l.toBson) ↔
      Blank (embeddedObject w) := by
  have hsep := (hr.keys k (mem_keys_iff.2 ⟨w, h⟩)).2
  have hs := shows_notifyAttribute ((r.location.map Location.attrName).getD "") (idPart_eq_empty hsep) h
  have htype : getStringFieldF (embeddedObject l.toBson) "type" = "" := rfl
  have hvalue : storedJson ((embeddedObject l.toBson).lookup "value") = some (.string "") := rfl
  have hmd : storedMetadata (embeddedObject l.toBson) = [] := rfl
  constructor
  · intro hl
    refine ⟨hs.type.symm.trans (hl.type.trans htype), hs.value.symm.trans (hl.value.trans hvalue), ?_⟩
    rw [List.eq_nil_iff_forall_not_mem]
    intro md hmem
    have hview : md.view ∈ customViews (storedMetadata (embeddedObject w)) := by
      refine List.mem_map_of_mem (List.mem_filter.2 ⟨hmem, ?_⟩)
      rw [(hr.stored k w h).custom md hmem]
      rfl
    rw [← hs.metadata, hl.metadata, hmd] at hview
    cases hview
  · intro hb
    refine ⟨hs.type.trans (hb.type.trans htype.symm), hs.value.trans (hb.value.trans hvalue.symm), fun m => ?_⟩
    rw [hs.metadata, hb.metadata, hmd]

private theorem plainKeys_updated {d : EntityDoc} (hr : PlainEntity r) {caV : List ContextAttribute}
    (hreq : PlainRequest apiVersion caV)
    (hkept : ∀ k, k ∉ caV.map ContextAttribute.key → d.attrs.lookup k = r.attrs.lookup k) : PlainKeys d.attrs := by
  intro k hk
  by_cases hmem : k ∈ caV.map ContextAttribute.key
  · exact plainKey_of_request hreq hmem
  · obtain ⟨w, hw⟩ := mem_keys_iff.1 hk
    rw [hkept k hmem] at hw
    exact hr.keys k (mem_keys_iff.2 ⟨w, hw⟩)

private theorem updated_iff (hr : PlainEntity r) {caV : List ContextAttribute} (hreq : PlainRequest apiVersion caV)
    {a : ActionType} (ha : a = .update ∨ a = .append ∨ a = .appendStrict) {now : Int}
    (hmem : ∀ ca ∈ caV, d.attrs.lookup ca.key = attributeAfter now r.attrs apiVersion a ca)
    (hkept : ∀ k, k ∉ caV.map ContextAttribute.key → d.attrs.lookup k = r.attrs.lookup k) :
    KeyedList.Matched SameAttribute
        ((mergedNotification apiVersion caV
          (ContextElementResponse.ofDoc r).contextElement.contextAttributeVector).filter fun ca => !ca.skip)
        (ContextElementResponse.ofDoc d).contextElement.contextAttributeVector ↔
      UpdateCondition apiVersion r a caV := by
  rw [matched_mergedNotification hr hreq (plainKeys_updated hr hreq hkept)]
  have hothers : ∀ k, k ∉ caV.map ContextAttribute.key → Option.Rel (fun _ w =>
      Shows (notifyAttribute ((r.location.map Location.attrName).getD "") r.attrs k) (embeddedObject w))
        (r.attrs.lookup k) (d.attrs.lookup k) := by
    intro k hk
    rw [hkept k hk]
    rcases hw : r.attrs.lookup k with _ | w
    · exact Option.Rel.none
    · have hsep := (hr.keys k (mem_keys_iff.2 ⟨w, hw⟩)).2
      exact Option.Rel.some (shows_notifyAttribute _ (idPart_eq_empty hsep) hw)
  rw [and_iff_left hothers]
  refine forall_congr' fun ca => forall_congr' fun hca => ?_
  rw [hmem ca hca]
  exact shows_after_iff hr (hreq.plain ca hca) ha

private theorem replaced_iff (hr : PlainEntity r) {caV : List ContextAttribute} (hreq : PlainRequest apiVersion caV)
    {now : Int} {location : Option Location} {strtod : String → Strtod}
    (hleaves : leavesLocation strtod apiVersion r caV = location.isSome)
    (hattrs : d.attrs = caV.map (fun ca => (ca.key, .object (replacedAttribute now ca apiVersion))) ++
      location.toList.map fun l => ("location", l.toBson)) :
    KeyedList.Matched SameAttribute
        ((mergedNotification apiVersion caV
          (ContextElementResponse.ofDoc r).contextElement.contextAttributeVector).filter fun ca => !ca.skip)
        (ContextElementResponse.ofDoc d).contextElement.contextAttributeVector ↔
      ReplaceCondition strtod apiVersion r caV := by
  obtain ⟨hmem, hrest⟩ := lookup_map_append (fun ca => .object (replacedAttribute now ca apiVersion))
    (location.toList.map fun l => ("location", l.toBson)) (simpleKeys_of_request hreq).2
  rw [← hattrs] at hmem hrest
  have hlocation : ∀ k w, (location.toList.map fun l => ("location", l.toBson)).lookup k = some w →
      k = "location" ∧ ∃ l, location = some l ∧ w = l.toBson := by
    intro k w h
    rcases location with _ | l
    · cases h
    · simp only [Option.toList_some, List.map_cons, List.map_nil, lookup_cons_eq] at h
      split at h
      · cases h
        exact ⟨‹_›, l, rfl, rfl⟩
      · cases h
  have hd : PlainKeys d.attrs := by
    intro k hk
    by_cases hkm : k ∈ caV.map ContextAttribute.key
    · exact plainKey_of_request hreq hkm
    · obtain ⟨w, hw⟩ := mem_keys_iff.1 hk
      rw [hrest k hkm] at hw
      rw [(hlocation k w hw).1]
      decide
  rw [matched_mergedNotification hr hreq hd]
  have hrequest : (∀ ca ∈ caV, ∃ w, d.attrs.lookup ca.key = some w ∧
      Shows (notifiedAttribute apiVersion r ca) (embeddedObject w)) ↔ ∀ ca ∈ caV,
      match r.attrs.lookup ca.key with
      | some w => ReplaceAgrees apiVersion (embeddedObject w) ca
      | none => KeepsMembers ca := by
    refine forall_congr' fun ca => forall_congr' fun hca => ?_
    rw [hmem ca hca]
    unfold notifiedAttribute
    rcases hk : r.attrs.lookup ca.key with _ | w
    · have hno : hasField r.attrs ca.key = false := by simp [hasField, hk]
      have hnew := shows_new (hreq.plain ca hca) (hasForm_replacedAttribute now ca apiVersion)
        (storedMetadata_replacedAttribute now (hreq.plain ca hca).metadata)
      simpa [hno, embeddedObject] using hnew
    · have hyes : hasField r.attrs ca.key = true := by simp [hasField, hk]
      have hreplaced := shows_replacedAttribute now (hreq.plain ca hca) (hr.stored _ _ hk) (readFrom_stored hr hk)
      simpa [hyes, embeddedObject] using hreplaced
  have hothers : (∀ k, k ∉ caV.map ContextAttribute.key → Option.Rel (fun _ w =>
      Shows (notifyAttribute ((r.location.map Location.attrName).getD "") r.attrs k) (embeddedObject w))
        (r.attrs.lookup k) (d.attrs.lookup k)) ↔ ∀ k, k ∉ caV.map ContextAttribute.key →
      match r.attrs.lookup k with
      | some w => leavesLocation strtod apiVersion r caV = true ∧ k = "location" ∧ Blank (embeddedObject w)
      | none => leavesLocation strtod apiVersion r caV = true → k ≠ "location" := by
    refine forall_congr' fun k => forall_congr' fun hk => ?_
    rw [hleaves]
    rcases hl : d.attrs.lookup k with _ | v
    · have hnot : ¬ (location.isSome = true ∧ k = "location") := by
        rintro ⟨hsome, rfl⟩
        obtain ⟨l, rfl⟩ := Option.isSome_iff_exists.1 hsome
        rw [hrest _ hk] at hl
        simp at hl
      rcases hw : r.attrs.lookup k with _ | w
      · exact iff_of_true Option.Rel.none fun h1 h2 => hnot ⟨h1, h2⟩
      · refine iff_of_false (fun h => by cases h) fun h => hnot ⟨h.1, h.2.1⟩
    · rw [hrest k hk] at hl
      obtain ⟨rfl, l, rfl, rfl⟩ := hlocation k v hl
      rcases hw : r.attrs.lookup "location" with _ | w
      · exact iff_of_false (fun h => by cases h) fun h => h rfl rfl
      · have hiff := shows_location_iff hr hw l
        simpa using hiff
  rw [hrequest, hothers]
  exact ⟨fun h => ⟨h.1, h.2⟩, fun h => ⟨h.request, h.others⟩⟩

end Notified

private theorem createdWith_plain : PlainEntity (createdWith "c" "1") where
  nodup := by decide
  keys := by
    unfold PlainKeys
    decide
  stored := by
    intro k w h
    simp only [createdWith, lookup_cons_eq] at h
    split at h
    · cases h
      refine ⟨fun n hn => ?_, by decide, by decide, by decide⟩
      rw [embeddedObject, (hasForm_createdAttribute _ _ _).1] at hn
      cases hn
    · cases h

private theorem plainRequest_single {apiVersion : ApiVersion} {ca : ContextAttribute}
    (hcheck : ca.check false apiVersion .other = "OK") (hid : ca.getId = "") (hs : Splittable ca.name "")
    (hplain : PlainAttribute apiVersion ca) : PlainRequest apiVersion [ca] where
  accepted := by
    intro cb hcb
    rw [List.mem_singleton.1 hcb]
    exact ⟨false, hcheck⟩
  id := by
    intro cb hcb
    rw [List.mem_singleton.1 hcb]
    exact hid
  splittable := by
    intro cb hcb
    rw [List.mem_singleton.1 hcb]
    exact hs
  distinct := rfl
  plain := by
    intro cb hcb
    rw [List.mem_singleton.1 hcb]
    exact hplain

/-- A new value with a metadata for the attribute `c`. -/
def newValue : ContextAttribute :=
  { name := "c", type := "T", stringValue := "2", typeGiven := true
    metadataVector := [{ name := "unit", type := "U", stringValue := "m", typeGiven := true }] }

/-- The attribute `c` without a value, which means null in v2. -/
def nullValue : ContextAttribute := { name := "c", type := "T", valueType := .none, typeGiven := true }

end OrionBroker
