import OrionBroker.UpdateContextResponse

/-!
# Collecting the answers to a query (`QueryContextResponseVector.cpp`)

`render` and `populate` collect the answers to a query, the local one and those of the providers, in one response: the
attributes of all entries of an entity go to one entry.  An entry with an error is left out, and an answer without
entries and without an error gives a placeholder of status 404.

Both copy the attributes with a constructor that moves compound values, so the answers have none afterwards, and the
second of the two functions presents attributes without their values.  `query_aggregation_iff` says when the collected
response is right and presented in the same way twice.
-/

namespace OrionBroker

open Buckets KeyedList

structure QueryContextResponse where
  contextElementResponseVector : List ContextElementResponse := []
  errorCode : StatusCode := {}

/-! ### The two functions -/

def StatusCode.isOk (statusCode : StatusCode) : Bool := statusCode.code = .SccOk || statusCode.code = .SccNone

/-- The constructor without arguments, and a status. -/
def notFoundPlaceholder : ContextElementResponse where
  contextElement := { entityId := { id := "", type := "" } }
  statusCode := ⟨.SccContextElementNotFound, ""⟩

namespace ContextElementResponse

/-- No error, so the entry is added to the output. -/
def isOk (cer : ContextElementResponse) : Bool := cer.statusCode.isOk

def entity (cer : ContextElementResponse) : String × String × Bool := cer.contextElement.entityId.identity

/-- The copies of the attributes, and what is left of the entry. -/
def copies (cer : ContextElementResponse) : List ContextAttribute :=
  cer.contextElement.contextAttributeVector.map fun ca => (ca.copy false).1

def leftover (cer : ContextElementResponse) : ContextElementResponse :=
  { cer with contextElement :=
      { cer.contextElement with
        contextAttributeVector := cer.contextElement.contextAttributeVector.map fun ca => (ca.copy false).2 } }

/-- `ContextAttributeVector::push_back` of the copies of another entry's attributes. -/
def pushCopies (cer target : ContextElementResponse) : ContextElementResponse :=
  { target with contextElement :=
      { target.contextElement with
        contextAttributeVector := target.contextElement.contextAttributeVector ++ cer.copies } }

/-- The constructor from another entry, and a status. -/
def ofEntry (cer : ContextElementResponse) : ContextElementResponse where
  contextElement := { entityId := cer.contextElement.entityId, contextAttributeVector := cer.copies }
  statusCode := ⟨.SccOk, ""⟩

end ContextElementResponse

namespace QueryContextResponseVector

/-- The target of an entry is looked up by its entity. -/
def collectEntry (out : List ContextElementResponse) (cer : ContextElementResponse) : List ContextElementResponse :=
  if cer.isOk then upsert ContextElementResponse.entity cer.entity cer.pushCopies cer.ofEntry out
  else out

def takeEntry (cer : ContextElementResponse) : ContextElementResponse :=
  if cer.isOk then cer.leftover else cer

def isEmptyOk (qcr : QueryContextResponse) : Bool := qcr.contextElementResponseVector.isEmpty && qcr.errorCode.isOk

/-- A turn of the outer loop, which is the same in both functions. -/
def collectAnswer (out : List ContextElementResponse) (qcr : QueryContextResponse) : List ContextElementResponse :=
  qcr.contextElementResponseVector.foldl collectEntry (if isEmptyOk qcr then out ++ [notFoundPlaceholder] else out)

def takeAnswer (qcr : QueryContextResponse) : QueryContextResponse :=
  { qcr with contextElementResponseVector := qcr.contextElementResponseVector.map takeEntry }

/-- The only answer has no entries. -/
def onlyEmpty : List QueryContextResponse → Bool
  | [qcr] => qcr.contextElementResponseVector.isEmpty
  | _ => false

def notFound : StatusCode := ⟨.SccContextElementNotFound, ""⟩

/-- The response that `render` prints, and the answers afterwards. -/
def render (details : Bool) (detailsString : String) (vec : List QueryContextResponse) :
    QueryContextResponse × List QueryContextResponse :=
  let vec' := if onlyEmpty vec then vec.map fun qcr => if qcr.errorCode.isOk then { qcr with errorCode := notFound } else qcr
    else vec
  let errorCode :=
    match vec' with
    | [] => notFound
    | qcr :: _ =>
      if onlyEmpty vec then
        -- the details of the answer are taken if it has the same code
        if qcr.errorCode.code = .SccContextElementNotFound then { notFound with details := qcr.errorCode.details }
        else notFound
      else ⟨.SccOk, ""⟩
  ({ contextElementResponseVector := vec'.foldl collectAnswer []
     errorCode := if details then ⟨.SccOk, detailsString⟩ else errorCode },
    vec'.map takeAnswer)

/-- The response after `populate`, and the answers. -/
def populate (responseP : QueryContextResponse) (vec : List QueryContextResponse) :
    QueryContextResponse × List QueryContextResponse :=
  let vec' := if onlyEmpty vec then vec.map fun qcr => { qcr with errorCode := notFound } else vec
  ({ contextElementResponseVector := vec'.foldl collectAnswer responseP.contextElementResponseVector
     errorCode := if vec.isEmpty || onlyEmpty vec then notFound else ⟨.SccOk, ""⟩ },
    vec'.map takeAnswer)

end QueryContextResponseVector

/-! ### What is collected -/

section Collected

open QueryContextResponseVector

/-- The entries to be collected; nothing stands for a placeholder. -/
def collectedItems (vec : List QueryContextResponse) : List (Option ContextElementResponse) :=
  vec.flatMap fun qcr =>
    if isEmptyOk qcr then [none]
    else (qcr.contextElementResponseVector.filter ContextElementResponse.isOk).map some

/-- The entity of an item. -/
def itemEntity (item : Option ContextElementResponse) : String × String × Bool :=
  (item.getD notFoundPlaceholder).entity

def collectItem (out : List ContextElementResponse) : Option ContextElementResponse → List ContextElementResponse
  | none => out ++ [notFoundPlaceholder]
  | some cer => upsert ContextElementResponse.entity cer.entity cer.pushCopies cer.ofEntry out

theorem collect_eq (vec : List QueryContextResponse) (out : List ContextElementResponse) :
    vec.foldl collectAnswer out = (collectedItems vec).foldl collectItem out := by
  have hentries : ∀ (cers : List ContextElementResponse) out,
      cers.foldl collectEntry out = ((cers.filter ContextElementResponse.isOk).map some).foldl collectItem out := by
    intro cers
    induction cers with
    | nil => exact fun out => rfl
    | cons cer cers ih =>
      intro out
      rw [List.foldl_cons, ih, List.filter_cons, collectEntry]
      split <;> rfl
  induction vec generalizing out with
  | nil => rfl
  | cons qcr vec ih =>
    have hitems : collectedItems (qcr :: vec) = (if isEmptyOk qcr then [none]
        else (qcr.contextElementResponseVector.filter ContextElementResponse.isOk).map some) ++ collectedItems vec :=
      rfl
    rw [List.foldl_cons, ih, hitems, List.foldl_append, collectAnswer]
    by_cases hempty : isEmptyOk qcr = true
    · have hnil : qcr.contextElementResponseVector = [] := by
        simp only [isEmptyOk, Bool.and_eq_true, List.isEmpty_iff] at hempty
        exact hempty.1
      rw [if_pos hempty, if_pos hempty, hnil]
      rfl
    · rw [if_neg hempty, if_neg hempty, hentries]

/-- The entries that are given. -/
def given (items : List (Option ContextElementResponse)) : List ContextElementResponse := items.reduceOption

/-- The first item of the entity is a placeholder. -/
def absorbed (items : List (Option ContextElementResponse)) (cer : ContextElementResponse) : Bool :=
  (get itemEntity cer.entity items).any Option.isNone

/-- The entries that are not taken for parts of a placeholder. -/
def reached (items : List (Option ContextElementResponse)) : List ContextElementResponse :=
  (given items).filter fun cer => !absorbed items cer

variable {items : List (Option ContextElementResponse)} {cer : ContextElementResponse}

private theorem get_upsert_entry (k : String × String × Bool) (cer : ContextElementResponse)
    (out : List ContextElementResponse) :
    get ContextElementResponse.entity k (upsert ContextElementResponse.entity cer.entity cer.pushCopies cer.ofEntry out) =
      if k = cer.entity then some ((get ContextElementResponse.entity cer.entity out).elim cer.ofEntry cer.pushCopies)
      else get ContextElementResponse.entity k out := by
  have hpush : ∀ e, (cer.pushCopies e).entity = e.entity := fun _ => rfl
  have hnew : cer.ofEntry.entity = cer.entity := rfl
  exact get_upsert hpush hnew k out

private theorem get_item (k : String × String × Bool) (item : Option ContextElementResponse) :
    get itemEntity k [item] = if itemEntity item = k then some item else none := get_cons item

/-- The first entry of an entity has an error only if it is a placeholder. -/
private theorem isOk_collectItem (k : String × String × Bool) (items : List (Option ContextElementResponse)) :
    (get ContextElementResponse.entity k (items.foldl collectItem [])).map ContextElementResponse.isOk =
      (get itemEntity k items).map Option.isSome := by
  induction items using List.reverseRecOn with
  | nil => rfl
  | append_singleton items item ih =>
    rw [List.foldl_append, List.foldl_cons, List.foldl_nil, get_append, get_item]
    cases item with
    | none =>
      have hlast : get ContextElementResponse.entity k [notFoundPlaceholder] =
          if itemEntity none = k then some notFoundPlaceholder else none := get_cons _
      rw [collectItem, get_append, hlast, Option.map_or, Option.map_or, ih]
      split <;> rfl
    | some cer =>
      have hkey : itemEntity (some cer) = cer.entity := rfl
      rw [collectItem, get_upsert_entry, hkey, Option.map_or, ← ih]
      by_cases hk : cer.entity = k
      · rw [if_pos hk.symm, if_pos hk, hk]
        cases get ContextElementResponse.entity k (items.foldl collectItem []) <;> rfl
      · rw [if_neg hk, if_neg (fun h => hk h.symm), Option.map_none, Option.or_none]

private theorem mem_given : cer ∈ given items ↔ some cer ∈ items := List.reduceOption_mem_iff

/-- What comes later does not change which item of an entity is the first. -/
private theorem absorbed_append (h : cer ∈ given items) (more : List (Option ContextElementResponse)) :
    absorbed (items ++ more) cer = absorbed items cer := by
  have hfound : get itemEntity cer.entity items ≠ none := by
    intro hnone
    exact get_eq_none_iff.1 hnone (List.mem_map.2 ⟨some cer, mem_given.1 h, rfl⟩)
  obtain ⟨item, hitem⟩ := Option.ne_none_iff_exists'.1 hfound
  rw [absorbed, absorbed, get_append, hitem]
  rfl

/-- Apart from the placeholders, the entries are collected by their entities. -/
theorem filter_collectItem (items : List (Option ContextElementResponse)) :
    ((items.foldl collectItem []).filter ContextElementResponse.isOk) =
      (reached items).foldl
        (fun out cer => upsert ContextElementResponse.entity cer.entity cer.pushCopies cer.ofEntry out) [] := by
  induction items using List.reverseRecOn with
  | nil => rfl
  | append_singleton items item ih =>
    have hbefore : (given items).filter (fun cer => !absorbed (items ++ [item]) cer) = reached items :=
      List.filter_congr fun cer hcer => by rw [absorbed_append hcer]
    rw [List.foldl_append, List.foldl_cons, List.foldl_nil, reached, given, List.reduceOption_append,
      List.filter_append]
    unfold given at hbefore
    rw [hbefore]
    cases item with
    | none =>
      rw [collectItem, List.filter_append, ih]
      simp [notFoundPlaceholder, ContextElementResponse.isOk, StatusCode.isOk, List.reduceOption_nil]
    | some cer =>
      have hok := isOk_collectItem cer.entity items
      have habs : absorbed (items ++ [some cer]) cer = absorbed items cer := by
        unfold absorbed
        rw [get_append, get_item]
        cases get itemEntity cer.entity items <;> simp [itemEntity]
      rw [collectItem, List.reduceOption_singleton, List.foldl_append, ← ih]
      have hpush : ∀ e, (cer.pushCopies e).isOk = e.isOk := fun _ => rfl
      cases hc : absorbed items cer with
      | true =>
        -- the entry goes to a placeholder
        obtain ⟨e, he, hfail⟩ : ∃ e, get ContextElementResponse.entity cer.entity (items.foldl collectItem []) = some e ∧
            e.isOk = false := by
          unfold absorbed at hc
          cases hg : get itemEntity cer.entity items with
          | none => simp [hg] at hc
          | some item =>
            cases item with
            | some c => simp [hg] at hc
            | none => simpa [hg] using hok
        rw [filter_upsert_of_dropped hpush he hfail]
        simp [habs, hc]
      | false =>
        have hfirst : ∀ e, get ContextElementResponse.entity cer.entity (items.foldl collectItem []) = some e →
            e.isOk = true := by
          intro e he
          unfold absorbed at hc
          cases hg : get itemEntity cer.entity items with
          | none => simp [hg, he] at hok
          | some item =>
            cases item with
            | none => simp [hg] at hc
            | some c => simpa [hg, he] using hok
        have hnew : cer.ofEntry.isOk = true := rfl
        rw [filter_upsert hpush hnew hfirst]
        simp [habs, hc]

private theorem foldl_pushCopies (cers : List ContextElementResponse) (e : ContextElementResponse) :
    (cers.foldl (fun e cer => cer.pushCopies e) e).contextElement.contextAttributeVector =
        e.contextElement.contextAttributeVector ++ cers.flatMap ContextElementResponse.copies ∧
      (cers.foldl (fun e cer => cer.pushCopies e) e).entity = e.entity := by
  induction cers generalizing e with
  | nil => exact ⟨(List.append_nil _).symm, rfl⟩
  | cons cer cers ih =>
    obtain ⟨hattrs, hentity⟩ := ih (cer.pushCopies e)
    rw [List.foldl_cons, hattrs, hentity, List.flatMap_cons, ← List.append_assoc]
    exact ⟨rfl, rfl⟩

/-- The collected entries without the placeholders. -/
def collectedEntries (items : List (Option ContextElementResponse)) : List ContextElementResponse :=
  (items.foldl collectItem []).filter ContextElementResponse.isOk

theorem nodup_collectedEntries (items : List (Option ContextElementResponse)) :
    ((collectedEntries items).map ContextElementResponse.entity).Nodup := by
  have hpush : ∀ (cer e : ContextElementResponse), (cer.pushCopies e).entity = e.entity := fun _ _ => rfl
  have hnew : ∀ cer : ContextElementResponse, cer.ofEntry.entity = cer.entity := fun _ => rfl
  have hnil : (([] : List ContextElementResponse).map ContextElementResponse.entity).Nodup := List.nodup_nil
  rw [collectedEntries, filter_collectItem]
  exact nodup_foldl_upsert _ hpush hnew hnil _

private theorem get_collectedEntries (k : String × String × Bool) (items : List (Option ContextElementResponse)) :
    get ContextElementResponse.entity k (collectedEntries items) =
      (get ContextElementResponse.entity k (reached items)).map fun first =>
        ((reached items).filter fun cer => cer.entity = k).foldl (fun e cer => cer.pushCopies e)
          { contextElement := { entityId := first.contextElement.entityId }, statusCode := ⟨.SccOk, ""⟩ } := by
  have hpush : ∀ (cer e : ContextElementResponse), (cer.pushCopies e).entity = e.entity := fun _ _ => rfl
  have hnew : ∀ cer : ContextElementResponse, cer.ofEntry.entity = cer.entity := fun _ => rfl
  rw [collectedEntries, filter_collectItem]
  exact get_group _ hpush hnew (fun _ => rfl) k _

/-- The entities of the collected entries are those of the entries that were reached. -/
theorem mem_entities_collectedEntries {k : String × String × Bool} :
    k ∈ (collectedEntries items).map ContextElementResponse.entity ↔
      k ∈ (reached items).map ContextElementResponse.entity := by
  rw [← not_iff_not, ← get_eq_none_iff, ← get_eq_none_iff, get_collectedEntries, Option.map_eq_none_iff]

/-- A collected entry has the attributes of all entries of its entity, in their order. -/
theorem attributes_collectedEntries {e : ContextElementResponse} (he : e ∈ collectedEntries items) :
    e.contextElement.contextAttributeVector =
      ((reached items).filter fun cer => cer.entity = e.entity).flatMap ContextElementResponse.copies := by
  have hget := get_of_nodup (nodup_collectedEntries items) he
  rw [get_collectedEntries, Option.map_eq_some_iff] at hget
  obtain ⟨first, -, hfold⟩ := hget
  conv => lhs; rw [← hfold]
  rw [(foldl_pushCopies _ _).1, List.nil_append]

/-! ### One entry for each id and type -/

def ContextElementResponse.idType (cer : ContextElementResponse) : String × String :=
  (cer.contextElement.entityId.id, cer.contextElement.entityId.type)

private theorem idType_of_entity {c c' : ContextElementResponse} (h : c.entity = c'.entity) : c.idType = c'.idType := by
  unfold ContextElementResponse.entity EntityId.identity at h
  unfold ContextElementResponse.idType
  simp only [Prod.mk.injEq] at h ⊢
  exact ⟨h.1, h.2.1⟩

/-- There is one entry for every id and type of the given entries, with all their attributes. -/
structure CollectsAll (entries given : List ContextElementResponse) : Prop where
  distinct : (entries.map ContextElementResponse.idType).Nodup
  same : ∀ k, k ∈ entries.map ContextElementResponse.idType ↔ k ∈ given.map ContextElementResponse.idType
  attributes : ∀ e ∈ entries, e.contextElement.contextAttributeVector.Perm
    ((given.filter fun cer => cer.idType = e.idType).flatMap ContextElementResponse.copies)

private theorem perm_flatMap_filter {α β : Type} (p : α → Bool) (f : α → List β) (l : List α) :
    (l.flatMap f).Perm ((l.filter p).flatMap f ++ (l.filter fun x => !p x).flatMap f) := by
  rw [← List.flatMap_append]
  exact ((List.filter_append_perm p l).flatMap_right f).symm

/-- The given entries of an id and type are those that were reached for an entity, and others. -/
private theorem filter_given (e : ContextElementResponse) (items : List (Option ContextElementResponse)) :
    ((given items).filter fun cer => cer.idType = e.idType).filter (fun cer => !absorbed items cer && cer.entity = e.entity) =
      (reached items).filter fun cer => cer.entity = e.entity := by
  rw [reached, List.filter_filter, List.filter_filter]
  refine List.filter_congr fun cer _ => ?_
  by_cases he : cer.entity = e.entity
  · simp [he, idType_of_entity he]
  · simp [he]

theorem collectsAll_iff :
    CollectsAll (collectedEntries items) (given items) ↔
      (∀ c ∈ reached items, ∀ c' ∈ reached items, c.idType = c'.idType → c.entity = c'.entity) ∧
        ∀ c ∈ given items, absorbed items c = true →
          c.contextElement.contextAttributeVector = [] ∧ ∃ c' ∈ reached items, c'.idType = c.idType := by
  -- the entry of an entry that was reached, and the other way round
  have hentry : ∀ c ∈ reached items, ∃ e ∈ collectedEntries items, e.entity = c.entity := fun c hc =>
    List.mem_map.1 (mem_entities_collectedEntries.2 (List.mem_map_of_mem hc))
  have hsource : ∀ e ∈ collectedEntries items, ∃ c ∈ reached items, c.entity = e.entity := fun e he =>
    List.mem_map.1 (mem_entities_collectedEntries.1 (List.mem_map_of_mem he))
  constructor
  · intro h
    constructor
    · intro c hc c' hc' hid
      obtain ⟨e, he, hec⟩ := hentry c hc
      obtain ⟨e', he', hec'⟩ := hentry c' hc'
      have hid' : e.idType = e'.idType := (idType_of_entity hec).trans (hid.trans (idType_of_entity hec').symm)
      rw [← hec, ← hec', List.inj_on_of_nodup_map h.distinct he he' hid']
    · intro c hc habs
      obtain ⟨e, he, hid⟩ := List.mem_map.1 ((h.same c.idType).2 (List.mem_map_of_mem hc))
      obtain ⟨c', hc', hentity⟩ := hsource e he
      refine ⟨?_, c', hc', (idType_of_entity hentity).trans hid⟩
      -- nothing is left for the attributes of the others
      have hall := (h.attributes e he).trans
        (perm_flatMap_filter (fun cer => !absorbed items cer && cer.entity = e.entity) _ _)
      rw [filter_given, attributes_collectedEntries he] at hall
      have hlength := hall.length_eq
      rw [List.length_append] at hlength
      have hnil := List.length_eq_zero_iff.1 (Nat.left_eq_add.1 hlength)
      rw [List.flatMap_eq_nil_iff] at hnil
      have hcopies := hnil c (by simp [hc, hid, habs])
      exact List.map_eq_nil_iff.1 hcopies
  · rintro ⟨hsame, hnone⟩
    constructor
    · refine List.Nodup.map_on ?_ (nodup_collectedEntries items).of_map
      intro e he e' he' hid
      obtain ⟨c, hc, hec⟩ := hsource e he
      obtain ⟨c', hc', hec'⟩ := hsource e' he'
      have hentity := hsame c hc c' hc' ((idType_of_entity hec).trans (hid.trans (idType_of_entity hec').symm))
      exact List.inj_on_of_nodup_map (nodup_collectedEntries items) he he' (by rw [← hec, ← hec', hentity])
    · intro k
      constructor
      · intro hk
        obtain ⟨e, he, rfl⟩ := List.mem_map.1 hk
        obtain ⟨c, hc, hec⟩ := hsource e he
        exact List.mem_map.2 ⟨c, (List.mem_filter.1 hc).1, idType_of_entity hec⟩
      · intro hk
        obtain ⟨c, hc, rfl⟩ := List.mem_map.1 hk
        obtain ⟨c', hc', hid⟩ : ∃ c' ∈ reached items, c'.idType = c.idType := by
          cases habs : absorbed items c with
          | true => exact (hnone c hc habs).2
          | false => exact ⟨c, List.mem_filter.2 ⟨hc, by simp [habs]⟩, rfl⟩
        obtain ⟨e, he, hec⟩ := hentry c' hc'
        exact List.mem_map.2 ⟨e, he, (idType_of_entity hec).trans hid⟩
    · intro e he
      refine List.Perm.symm ((perm_flatMap_filter (fun cer => !absorbed items cer && cer.entity = e.entity) _ _).trans ?_)
      have hrest : ((((given items).filter fun cer => cer.idType = e.idType).filter fun cer =>
          !(!absorbed items cer && cer.entity = e.entity)).flatMap ContextElementResponse.copies) = [] := by
        rw [List.flatMap_eq_nil_iff]
        intro c hc
        rw [List.mem_filter, List.mem_filter] at hc
        obtain ⟨⟨hc, hid⟩, hother⟩ := hc
        cases habs : absorbed items c with
        | true => exact List.map_eq_nil_iff.2 (hnone c hc habs).1
        | false =>
          obtain ⟨c', hc', hec'⟩ := hsource e he
          have hreached : c ∈ reached items := List.mem_filter.2 ⟨hc, by simp [habs]⟩
          have hentity := hsame c hreached c' hc' ((of_decide_eq_true hid).trans (idType_of_entity hec').symm)
          simp [habs, hentity.trans hec'] at hother
      rw [hrest, List.append_nil, filter_given, attributes_collectedEntries he]

end Collected

/-! ### The same response twice -/

section Twice

open QueryContextResponseVector

variable {vec : List QueryContextResponse}

/-- The entries without an error. -/
def givenEntries (vec : List QueryContextResponse) : List ContextElementResponse :=
  (vec.flatMap QueryContextResponse.contextElementResponseVector).filter ContextElementResponse.isOk

theorem given_collectedItems (vec : List QueryContextResponse) : given (collectedItems vec) = givenEntries vec := by
  unfold given givenEntries collectedItems
  induction vec with
  | nil => rfl
  | cons qcr vec ih =>
    rw [List.flatMap_cons, List.reduceOption_append, ih, List.flatMap_cons, List.filter_append]
    congr 1
    split
    · rename_i hempty
      simp only [isEmptyOk, Bool.and_eq_true, List.isEmpty_iff] at hempty
      rw [hempty.1]
      rfl
    · rw [List.reduceOption, List.filterMap_map]
      simp

/-- No attribute of the given entries has a compound value. -/
def NoCompound (vec : List QueryContextResponse) : Prop :=
  ∀ cer ∈ givenEntries vec, ∀ ca ∈ cer.contextElement.contextAttributeVector, ca.compoundValueP = none

/-- The entries that both functions collect. -/
private def collect (vec : List QueryContextResponse) : List ContextElementResponse :=
  if onlyEmpty vec then [] else vec.foldl collectAnswer []

private theorem eq_of_onlyEmpty (h : onlyEmpty vec = true) :
    ∃ qcr, vec = [qcr] ∧ qcr.contextElementResponseVector = [] := by
  match vec, h with
  | [qcr], h => exact ⟨qcr, rfl, List.isEmpty_iff.1 h⟩

private theorem onlyEmpty_take (vec : List QueryContextResponse) : onlyEmpty (vec.map takeAnswer) = onlyEmpty vec := by
  match vec with
  | [] => rfl
  | [qcr] => simp [onlyEmpty, takeAnswer]
  | _ :: _ :: _ => rfl

private theorem collectAnswer_failed {qcr : QueryContextResponse} (hnil : qcr.contextElementResponseVector = [])
    (hfail : qcr.errorCode.isOk = false) (out : List ContextElementResponse) : collectAnswer out qcr = out := by
  unfold collectAnswer isEmptyOk
  rw [hnil, hfail]
  rfl

private theorem onlyEmpty_singleton {qcr : QueryContextResponse} (hnil : qcr.contextElementResponseVector = []) :
    onlyEmpty [qcr] = true := List.isEmpty_iff.2 hnil

/-- What `render` presents, and what the answers give afterwards. -/
private theorem collect_render (details : Bool) (detailsString : String) (vec : List QueryContextResponse) :
    (render details detailsString vec).1.contextElementResponseVector = collect vec ∧
      onlyEmpty (render details detailsString vec).2 = onlyEmpty vec ∧
      (onlyEmpty vec = false → (render details detailsString vec).2 = vec.map takeAnswer) := by
  by_cases h : onlyEmpty vec = true
  · obtain ⟨qcr, rfl, hnil⟩ := eq_of_onlyEmpty h
    -- the error code of the only answer is an error now
    obtain ⟨qcr', hqcr', hnil', hfail'⟩ : ∃ qcr', (if qcr.errorCode.isOk then { qcr with errorCode := notFound } else qcr) = qcr' ∧
        qcr'.contextElementResponseVector = [] ∧ qcr'.errorCode.isOk = false := by
      refine ⟨_, rfl, ?_⟩
      split
      · exact ⟨hnil, rfl⟩
      · rename_i hfail
        exact ⟨hnil, by simpa using hfail⟩
    have htake : (takeAnswer qcr').contextElementResponseVector = [] := by simp [takeAnswer, hnil']
    unfold render collect
    simp only [h, if_true, List.map_cons, List.map_nil, hqcr', List.foldl_cons, List.foldl_nil,
      collectAnswer_failed hnil' hfail', onlyEmpty_singleton htake]
    exact ⟨trivial, trivial, nofun⟩
  · rw [Bool.not_eq_true] at h
    unfold render collect
    simp [h, onlyEmpty_take]

/-- The same for `populate`. -/
private theorem collect_populate (vec : List QueryContextResponse) :
    (populate {} vec).1.contextElementResponseVector = collect vec ∧
      onlyEmpty (populate {} vec).2 = onlyEmpty vec ∧
      (onlyEmpty vec = false → (populate {} vec).2 = vec.map takeAnswer) := by
  by_cases h : onlyEmpty vec = true
  · obtain ⟨qcr, rfl, hnil⟩ := eq_of_onlyEmpty h
    have hnil' : ({ qcr with errorCode := notFound } : QueryContextResponse).contextElementResponseVector = [] := hnil
    have htake : (takeAnswer { qcr with errorCode := notFound }).contextElementResponseVector = [] := by
      simp [takeAnswer, hnil]
    unfold populate collect
    simp only [h, if_true, List.map_cons, List.map_nil, List.foldl_cons, List.foldl_nil,
      collectAnswer_failed hnil' rfl, onlyEmpty_singleton htake]
    exact ⟨trivial, trivial, nofun⟩
  · rw [Bool.not_eq_true] at h
    unfold populate collect
    simp [h, onlyEmpty_take]

/-- The items after a function has taken the compound values. -/
private theorem collectedItems_take (vec : List QueryContextResponse) :
    collectedItems (vec.map takeAnswer) = (collectedItems vec).map (Option.map ContextElementResponse.leftover) := by
  have hentries : ∀ cers : List ContextElementResponse, (cers.map takeEntry).filter ContextElementResponse.isOk =
      (cers.filter ContextElementResponse.isOk).map ContextElementResponse.leftover := by
    intro cers
    induction cers with
    | nil => rfl
    | cons cer cers ih =>
      rw [List.map_cons, List.filter_cons, List.filter_cons, ih, takeEntry]
      by_cases hok : cer.isOk = true
      · have hok' : cer.leftover.isOk = true := hok
        simp [hok, hok']
      · simp [hok]
  unfold collectedItems
  rw [List.flatMap_map, List.map_flatMap]
  refine List.flatMap_congr fun qcr _ => ?_
  have hempty : isEmptyOk (takeAnswer qcr) = isEmptyOk qcr := by simp [isEmptyOk, takeAnswer]
  rw [hempty]
  split
  · rfl
  · rw [takeAnswer, hentries, List.map_map, List.map_map]
    rfl

private theorem leftover_eq {cer : ContextElementResponse}
    (h : ∀ ca ∈ cer.contextElement.contextAttributeVector, ca.compoundValueP = none) : cer.leftover = cer := by
  have hattrs : (cer.contextElement.contextAttributeVector.map fun ca => (ca.copy false).2) =
      cer.contextElement.contextAttributeVector := by
    rw [List.map_congr_left fun ca hca => ?_, List.map_id]
    show ({ ca with compoundValueP := none } : ContextAttribute) = ca
    rw [← h ca hca]
  unfold ContextElementResponse.leftover
  rw [hattrs]

/-- All attributes of the items are collected. -/
private theorem attributes_collectItem (items : List (Option ContextElementResponse)) (out : List ContextElementResponse) :
    ((items.foldl collectItem out).flatMap fun e => e.contextElement.contextAttributeVector).Perm
      ((out.flatMap fun e => e.contextElement.contextAttributeVector) ++
        (given items).flatMap ContextElementResponse.copies) := by
  induction items generalizing out with
  | nil => simp [given]
  | cons item items ih =>
    refine (ih (collectItem out item)).trans ?_
    cases item with
    | none => simp [collectItem, notFoundPlaceholder, given]
    | some cer =>
      have hgiven : given (some cer :: items) = cer :: given items := List.reduceOption_cons_of_some _ _
      rw [hgiven, List.flatMap_cons, ← List.append_assoc, collectItem, upsert_eq_place]
      refine (perm_contents_place ?_ ?_).append_right _
      · exact fun e _ _ => List.Perm.refl _
      · exact fun _ => List.Perm.refl _

private theorem collect_take_iff (vec : List QueryContextResponse) :
    collect (vec.map takeAnswer) = collect vec ↔ NoCompound vec := by
  by_cases h : onlyEmpty vec = true
  · obtain ⟨qcr, rfl, hnil⟩ := eq_of_onlyEmpty h
    refine iff_of_true ?_ fun cer hcer => ?_
    · rw [collect, collect, onlyEmpty_take, if_pos h, if_pos h]
    · simp [givenEntries, hnil] at hcer
  · rw [collect, collect, onlyEmpty_take, if_neg h, if_neg h, collect_eq, collect_eq, collectedItems_take]
    constructor
    · intro hsame cer hcer ca hca
      have hall := attributes_collectItem (collectedItems vec) []
      have hleft := attributes_collectItem ((collectedItems vec).map (Option.map ContextElementResponse.leftover)) []
      rw [hsame] at hleft
      -- the copy of the attribute is among the copies of what is left
      have hmem : (ca.copy false).1 ∈ (given (collectedItems vec)).flatMap ContextElementResponse.copies := by
        rw [given_collectedItems]
        exact List.mem_flatMap.2 ⟨cer, hcer, List.mem_map_of_mem hca⟩
      have hmem' := (hleft.symm.trans hall).symm.mem_iff.1 (List.mem_append_right _ hmem)
      rw [List.flatMap_nil, List.nil_append] at hmem'
      obtain ⟨cer', hcer', hcopy⟩ := List.mem_flatMap.1 hmem'
      rw [given, List.reduceOption_map, List.mem_map] at hcer'
      obtain ⟨cer'', -, rfl⟩ := hcer'
      obtain ⟨cb, hcb, hcopy⟩ := List.mem_map.1 hcopy
      obtain ⟨cc, -, rfl⟩ := List.mem_map.1 hcb
      exact (congrArg ContextAttribute.compoundValueP hcopy).symm
    · intro hno
      have hitems : (collectedItems vec).map (Option.map ContextElementResponse.leftover) = collectedItems vec := by
        refine (List.map_congr_left fun item hitem => ?_).trans (List.map_id _)
        cases item with
        | none => rfl
        | some cer =>
          have hcer : cer ∈ givenEntries vec := by
            rw [← given_collectedItems]
            exact mem_given.2 hitem
          exact congrArg some (leftover_eq (hno cer hcer))
      rw [hitems]

/-- After the first function, the second one presents the same entries. -/
def PresentsTheSame (details : Bool) (detailsString : String) (vec : List QueryContextResponse) : Prop :=
  (populate {} (render details detailsString vec).2).1.contextElementResponseVector =
      (render details detailsString vec).1.contextElementResponseVector ∧
    (render details detailsString (populate {} vec).2).1.contextElementResponseVector =
      (populate {} vec).1.contextElementResponseVector

theorem presentsTheSame_iff {details : Bool} {detailsString : String} :
    PresentsTheSame details detailsString vec ↔ NoCompound vec := by
  obtain ⟨hrender, hempty, hleft⟩ := collect_render details detailsString vec
  obtain ⟨hpopulate, hempty', hleft'⟩ := collect_populate vec
  unfold PresentsTheSame
  rw [hrender, hpopulate, (collect_populate _).1, (collect_render _ _ _).1, ← collect_take_iff]
  by_cases h : onlyEmpty vec = true
  · have hnil : ∀ vec' : List QueryContextResponse, onlyEmpty vec' = onlyEmpty vec → collect vec' = [] := fun vec' he =>
      if_pos (he.trans h)
    simp only [hnil _ hempty, hnil _ hempty', hnil _ (onlyEmpty_take vec), hnil vec rfl, and_self]
  · rw [Bool.not_eq_true] at h
    rw [hleft h, hleft' h, and_self]

/-- One entry for every id and type of the entries without an error, with all their attributes, and the same entries by
both functions one after the other: exactly if the entries of one id and type are equal as entities, those that are
taken for parts of a placeholder are represented elsewhere, and no attribute has a compound value. -/
theorem query_aggregation_iff {details : Bool} {detailsString : String} :
    (CollectsAll ((populate {} vec).1.contextElementResponseVector.filter ContextElementResponse.isOk)
        (givenEntries vec) ∧ PresentsTheSame details detailsString vec) ↔
      ((∀ c ∈ givenEntries vec, ∀ c' ∈ givenEntries vec, absorbed (collectedItems vec) c = false →
          absorbed (collectedItems vec) c' = false → c.idType = c'.idType → c.entity = c'.entity) ∧
        ∀ c ∈ givenEntries vec, absorbed (collectedItems vec) c = true →
          c.contextElement.contextAttributeVector = [] ∧
            ∃ c' ∈ givenEntries vec, absorbed (collectedItems vec) c' = false ∧ c'.idType = c.idType) ∧
      NoCompound vec := by
  have hentries : (populate {} vec).1.contextElementResponseVector.filter ContextElementResponse.isOk =
      collectedEntries (collectedItems vec) := by
    rw [(collect_populate vec).1, collect, collectedEntries, ← collect_eq]
    split
    · rename_i h
      obtain ⟨qcr, rfl, hnil⟩ := eq_of_onlyEmpty h
      rw [List.foldl_cons, List.foldl_nil, collectAnswer, hnil, List.foldl_nil]
      split <;> rfl
    · rfl
  rw [presentsTheSame_iff, hentries, ← given_collectedItems, collectsAll_iff]
  refine and_congr_left fun _ => ?_
  have hreached : ∀ c, c ∈ reached (collectedItems vec) ↔
      c ∈ given (collectedItems vec) ∧ absorbed (collectedItems vec) c = false := by
    intro c
    rw [reached, List.mem_filter, Bool.not_eq_true']
  constructor
  · rintro ⟨hsame, hnone⟩
    refine ⟨fun c hc c' hc' habs habs' => hsame c ((hreached c).2 ⟨hc, habs⟩) c' ((hreached c').2 ⟨hc', habs'⟩), ?_⟩
    intro c hc habs
    obtain ⟨hnil, c', hc', hid⟩ := hnone c hc habs
    obtain ⟨hgiven, habs'⟩ := (hreached c').1 hc'
    exact ⟨hnil, c', hgiven, habs', hid⟩
  · rintro ⟨hsame, hnone⟩
    constructor
    · intro c hc c' hc'
      obtain ⟨hgiven, habs⟩ := (hreached c).1 hc
      obtain ⟨hgiven', habs'⟩ := (hreached c').1 hc'
      exact hsame c hgiven c' hgiven' habs habs'
    · intro c hc habs
      obtain ⟨hnil, c', hgiven, habs', hid⟩ := hnone c hc habs
      exact ⟨hnil, c', (hreached c').2 ⟨hgiven, habs'⟩, hid⟩

end Twice

/-- The entity "E" of type "T" with an attribute. -/
def answerOfE (isPattern : String) (compoundValueP : Option CompoundValueNode) : QueryContextResponse where
  contextElementResponseVector :=
    [{ contextElement :=
        { entityId := { id := "E", type := "T", isPattern := isPattern }
          contextAttributeVector := [{ name := "a", type := "", compoundValueP := compoundValueP }] }
       statusCode := ⟨.SccOk, ""⟩ }]
  errorCode := ⟨.SccOk, ""⟩

/-- The vector of the local answer is not presented a second time; two answers that differ in `isPattern` give two
entries. -/
theorem aggregation_loses_compound :
    ¬ PresentsTheSame false "" [answerOfE "false" (some (.vector "toplevel" []))] ∧
      ¬ CollectsAll ((QueryContextResponseVector.populate {}
          [answerOfE "false" none, answerOfE "true" none]).1.contextElementResponseVector.filter
            ContextElementResponse.isOk)
        (givenEntries [answerOfE "false" none, answerOfE "true" none]) := by
  constructor
  · intro h
    have hcompound := congrArg (fun cers : List ContextElementResponse => cers.flatMap fun e =>
      e.contextElement.contextAttributeVector.map fun ca => ca.compoundValueP.isSome) h.1
    revert hcompound
    decide +kernel
  · intro h
    have hdistinct := h.distinct
    revert hdistinct
    decide +kernel

end OrionBroker
