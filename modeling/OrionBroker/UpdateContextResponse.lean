import OrionBroker.Buckets
import OrionBroker.ProcessContextElement

/-!
# Merging the answers of context providers (`UpdateContextResponse.cpp`)

The total response to an update collects the attributes in one entry for each entity and status: `foundPush` and
`notFoundPush` put an attribute into the first entry of its entity with the status 200 or 404.  `merge` gives every
attribute of an answer to one of the two.  An attribute with another error status is put into an entry of status 404 if
there is one, and an entry of the answer that has no attributes leaves no trace.

`merge_answers_iff` says for which sequences of answers every provider is answered for all the same.
-/

namespace OrionBroker

open Buckets

/-! ### Entities and entries -/

namespace EntityId

def isPatternIsTrue (e : EntityId) : Bool := isTrue e.isPattern

/-- `EntityId::equal`. -/
def equal (e eP : EntityId) : Bool :=
  if eP.id ≠ e.id then false
  else if eP.type ≠ e.type then false
  else eP.isPatternIsTrue = e.isPatternIsTrue

/-- What makes two entities equal. -/
def identity (e : EntityId) : String × String × Bool := (e.id, e.type, e.isPatternIsTrue)

theorem equal_iff {e e' : EntityId} : e.equal e' = true ↔ e.identity = e'.identity := by
  unfold equal identity
  simp only [Prod.mk.injEq]
  grind

end EntityId

/-- The constructor from an entity and an attribute. -/
def ContextElementResponse.ofAttribute (eP : EntityId) (aP : ContextAttribute) : ContextElementResponse where
  contextElement := { entityId := eP, contextAttributeVector := [(aP.copy false).1] }

def ContextElementResponse.pushAttribute (aP : ContextAttribute) (cer : ContextElementResponse) :
    ContextElementResponse :=
  { cer with contextElement :=
      { cer.contextElement with
        contextAttributeVector := cer.contextElement.contextAttributeVector ++ [(aP.copy false).1] } }

/-- `ContextElementResponseVector::lookup` stops at this entry. -/
def ContextElementResponse.isFor (eP : EntityId) (code : HttpStatusCode) (cer : ContextElementResponse) : Bool :=
  cer.contextElement.entityId.equal eP && (code = .SccNone || cer.statusCode.code = code)

structure UpdateContextResponse where
  contextElementResponseVector : List ContextElementResponse := []
  errorCode : StatusCode := {}

/-! ### Pushing and merging -/

namespace UpdateContextResponse

/-- `notFoundPush`, on the vector of the entries; the status may be missing. -/
def notFoundPush (eP : EntityId) (aP : ContextAttribute) (scP : Option StatusCode) (cers : List ContextElementResponse) :
    List ContextElementResponse :=
  place (ContextElementResponse.isFor eP .SccContextElementNotFound) (ContextElementResponse.pushAttribute aP)
    { ContextElementResponse.ofAttribute eP aP with statusCode := scP.getD ⟨.SccContextElementNotFound, eP.id⟩ } cers

def foundPush (eP : EntityId) (aP : ContextAttribute) (cers : List ContextElementResponse) :
    List ContextElementResponse :=
  place (ContextElementResponse.isFor eP .SccOk) (ContextElementResponse.pushAttribute aP)
    { ContextElementResponse.ofAttribute eP aP with statusCode := ⟨.SccOk, ""⟩ } cers

/-- A turn of the inner loop of `merge`: one attribute of an entity, with the status of its entry. -/
def mergeAttribute (eP : EntityId) (scP : StatusCode) (cers : List ContextElementResponse) (aP : ContextAttribute) :
    List ContextElementResponse :=
  if scP.code ≠ .SccOk then notFoundPush eP aP (some scP) cers else foundPush eP aP cers

/-- A turn of the outer loop of `merge`: one entry of the answer. -/
def mergeEntry (cers : List ContextElementResponse) (cer : ContextElementResponse) : List ContextElementResponse :=
  cer.contextElement.contextAttributeVector.foldl (mergeAttribute cer.contextElement.entityId cer.statusCode) cers

/-- The error code is taken from an answer without entries. -/
def mergeErrorCode (errorCode : StatusCode) (upcrs : UpdateContextResponse) : StatusCode :=
  if upcrs.contextElementResponseVector = [] then
    if errorCode.code = .SccNone ∨ errorCode.code = .SccOk then upcrs.errorCode
    else if errorCode.details = "" then { errorCode with details := upcrs.errorCode.details }
    else errorCode
  else errorCode

def merge (response upcrs : UpdateContextResponse) : UpdateContextResponse where
  contextElementResponseVector :=
    upcrs.contextElementResponseVector.foldl mergeEntry response.contextElementResponseVector
  errorCode := mergeErrorCode response.errorCode upcrs

end UpdateContextResponse

/-! ### What an attribute adds -/

/-- The attributes of an entry with their entity and a status, as the copying constructor gives them. -/
def ContextElementResponse.listedAs (cer : ContextElementResponse) (code : HttpStatusCode) :
    List ((String × String × Bool) × HttpStatusCode × ContextAttribute) :=
  cer.contextElement.contextAttributeVector.map fun ca =>
    (cer.contextElement.entityId.identity, code, (ca.copy false).1)

def ContextElementResponse.listed (cer : ContextElementResponse) :
    List ((String × String × Bool) × HttpStatusCode × ContextAttribute) :=
  cer.listedAs cer.statusCode.code

/-- The entity of an entry and its status. -/
def ContextElementResponse.about (cer : ContextElementResponse) : (String × String × Bool) × HttpStatusCode :=
  (cer.contextElement.entityId.identity, cer.statusCode.code)

/-- The status under which an attribute is put. -/
def landingCode (cers : List ContextElementResponse) (eP : EntityId) (code : HttpStatusCode) : HttpStatusCode :=
  if code = .SccOk then .SccOk
  else if cers.any (ContextElementResponse.isFor eP .SccContextElementNotFound) then .SccContextElementNotFound
  else code

section Attribute

open UpdateContextResponse

variable {eP : EntityId} {aP : ContextAttribute} {code : HttpStatusCode} {scP : StatusCode}
  {cers : List ContextElementResponse} {cer : ContextElementResponse}

theorem isFor_iff (h : code ≠ .SccNone) : cer.isFor eP code = true ↔ cer.about = (eP.identity, code) := by
  unfold ContextElementResponse.isFor ContextElementResponse.about
  simp [EntityId.equal_iff, h]

theorem any_isFor_iff (h : code ≠ .SccNone) :
    cers.any (ContextElementResponse.isFor eP code) = true ↔ (eP.identity, code) ∈ cers.map ContextElementResponse.about := by
  rw [List.any_eq_true, List.mem_map]
  exact exists_congr fun cer => and_congr_right fun _ => isFor_iff h

theorem copy_copy (ca : ContextAttribute) : ((ca.copy false).1.copy false).1 = (ca.copy false).1 := by
  unfold ContextAttribute.copy
  simp [Metadata.copy]

theorem listed_pushAttribute :
    (cer.pushAttribute aP).listed =
      cer.listed ++ [(cer.contextElement.entityId.identity, cer.statusCode.code, (aP.copy false).1)] := by
  unfold ContextElementResponse.pushAttribute ContextElementResponse.listed ContextElementResponse.listedAs
  simp [copy_copy]

theorem listed_ofAttribute (statusCode : StatusCode) :
    ({ ContextElementResponse.ofAttribute eP aP with statusCode := statusCode } : ContextElementResponse).listed =
      [(eP.identity, statusCode.code, (aP.copy false).1)] := by
  unfold ContextElementResponse.ofAttribute ContextElementResponse.listed ContextElementResponse.listedAs
  simp [copy_copy]

/-- What is pushed into an entry for `eP` and `code` is listed there. -/
private theorem listed_place {new : ContextElementResponse} (h : code ≠ .SccNone)
    (hnew : cers.any (ContextElementResponse.isFor eP code) = false →
      new.listed = [(eP.identity, code, (aP.copy false).1)]) :
    ((place (ContextElementResponse.isFor eP code) (ContextElementResponse.pushAttribute aP) new cers).flatMap
        ContextElementResponse.listed).Perm
      (cers.flatMap ContextElementResponse.listed ++ [(eP.identity, code, (aP.copy false).1)]) := by
  refine perm_contents_place (fun c hc hfits => ?_) fun hno => ?_
  · have habout := (isFor_iff h).1 hfits
    rw [listed_pushAttribute, show c.contextElement.entityId.identity = eP.identity from congrArg Prod.fst habout,
      show c.statusCode.code = code from congrArg Prod.snd habout]
  · rw [hnew (List.any_eq_false.2 fun c hc => by simp [hno c hc])]

theorem listed_mergeAttribute :
    ((mergeAttribute eP scP cers aP).flatMap ContextElementResponse.listed).Perm
      (cers.flatMap ContextElementResponse.listed ++
        [(eP.identity, landingCode cers eP scP.code, (aP.copy false).1)]) := by
  unfold mergeAttribute landingCode
  by_cases hok : scP.code = .SccOk
  · rw [if_neg (by simp [hok]), if_pos hok]
    exact listed_place (by decide) fun _ => listed_ofAttribute _
  · rw [if_pos hok, if_neg hok]
    by_cases hany : cers.any (ContextElementResponse.isFor eP .SccContextElementNotFound) = true
    · rw [if_pos hany]
      exact listed_place (by decide) fun hno => absurd hany (by simp [hno])
    · rw [if_neg hany]
      refine perm_contents_place (fun c hc hfits => absurd (List.any_eq_true.2 ⟨c, hc, hfits⟩) hany) fun _ => ?_
      rw [Option.getD_some, listed_ofAttribute]

/-- The entries are those that were there and the one that the attribute is put into. -/
theorem mem_about_mergeAttribute {k : (String × String × Bool) × HttpStatusCode} :
    k ∈ (mergeAttribute eP scP cers aP).map ContextElementResponse.about ↔
      k ∈ cers.map ContextElementResponse.about ∨ k = (eP.identity, landingCode cers eP scP.code) := by
  have hadd : ∀ c, (ContextElementResponse.pushAttribute aP c).about = c.about := fun _ => rfl
  unfold mergeAttribute landingCode
  by_cases hok : scP.code = .SccOk
  · rw [if_neg (by simp [hok]), if_pos hok, foundPush, map_place fun c _ => hadd c]
    by_cases hany : cers.any (ContextElementResponse.isFor eP .SccOk) = true
    · rw [if_pos hany]
      have hmem := (any_isFor_iff (by decide)).1 hany
      grind
    · rw [if_neg hany, List.mem_append, List.mem_singleton]
      rfl
  · rw [if_pos hok, if_neg hok, notFoundPush, map_place fun c _ => hadd c]
    by_cases hany : cers.any (ContextElementResponse.isFor eP .SccContextElementNotFound) = true
    · rw [if_pos hany, if_pos hany]
      have hmem := (any_isFor_iff (by decide)).1 hany
      grind
    · rw [if_neg hany, if_neg hany, List.mem_append, List.mem_singleton]
      rfl

end Attribute

/-! ### What an entry of an answer adds -/

section Entry

open UpdateContextResponse

variable {cers : List ContextElementResponse} {cer : ContextElementResponse}

/-- All the attributes of an entry are put under one status. -/
private theorem landingCode_mergeAttribute (eP : EntityId) (scP : StatusCode) (cers : List ContextElementResponse)
    (aP : ContextAttribute) :
    landingCode (mergeAttribute eP scP cers aP) eP scP.code = landingCode cers eP scP.code := by
  by_cases hok : scP.code = .SccOk
  · simp only [landingCode, hok, if_true]
  · by_cases hany : cers.any (ContextElementResponse.isFor eP .SccContextElementNotFound) = true
    · have hmem := (any_isFor_iff (by decide)).1 hany
      have hany' : (mergeAttribute eP scP cers aP).any (ContextElementResponse.isFor eP .SccContextElementNotFound) = true :=
        (any_isFor_iff (by decide)).2 (mem_about_mergeAttribute.2 (Or.inl hmem))
      simp only [landingCode, if_neg hok, if_pos hany, hany', if_true]
    · have hland : landingCode cers eP scP.code = scP.code := by simp only [landingCode, if_neg hok, if_neg hany]
      rw [hland]
      by_cases hcode : scP.code = .SccContextElementNotFound
      · simp [landingCode, hcode]
      · have hany' : ¬ (mergeAttribute eP scP cers aP).any
            (ContextElementResponse.isFor eP .SccContextElementNotFound) = true := by
          rw [any_isFor_iff (by decide), mem_about_mergeAttribute, hland]
          rintro (hmem | hnew)
          · exact hany ((any_isFor_iff (by decide)).2 hmem)
          · exact hcode (congrArg Prod.snd hnew).symm
        simp only [landingCode, if_neg hok, if_neg hany']

/-- The status under which the attributes of an entry are put. -/
def ContextElementResponse.landing (cers : List ContextElementResponse) (cer : ContextElementResponse) : HttpStatusCode :=
  landingCode cers cer.contextElement.entityId cer.statusCode.code

theorem listed_mergeEntry :
    ((mergeEntry cers cer).flatMap ContextElementResponse.listed).Perm
      (cers.flatMap ContextElementResponse.listed ++ cer.listedAs (cer.landing cers)) := by
  unfold mergeEntry ContextElementResponse.listedAs ContextElementResponse.landing
  induction cer.contextElement.contextAttributeVector generalizing cers with
  | nil => simp
  | cons aP caV ih =>
    rw [List.foldl_cons, List.map_cons]
    refine ih.trans ?_
    rw [landingCode_mergeAttribute]
    refine (listed_mergeAttribute.append_right _).trans ?_
    rw [List.append_assoc, List.singleton_append]

theorem mem_about_mergeEntry {k : (String × String × Bool) × HttpStatusCode} :
    k ∈ (mergeEntry cers cer).map ContextElementResponse.about ↔
      k ∈ cers.map ContextElementResponse.about ∨
        (cer.contextElement.contextAttributeVector ≠ [] ∧
          k = (cer.contextElement.entityId.identity, cer.landing cers)) := by
  unfold mergeEntry ContextElementResponse.landing
  induction cer.contextElement.contextAttributeVector generalizing cers with
  | nil => simp
  | cons aP caV ih =>
    rw [List.foldl_cons, ih, mem_about_mergeAttribute, landingCode_mergeAttribute]
    simp only [ne_eq, reduceCtorEq, not_false_eq_true, true_and]
    tauto

/-- An entry of status 404 comes from another one. -/
theorem mem_notFound_mergeEntry {e : String × String × Bool} :
    (e, .SccContextElementNotFound) ∈ (mergeEntry cers cer).map ContextElementResponse.about ↔
      (e, .SccContextElementNotFound) ∈ cers.map ContextElementResponse.about ∨
        (cer.contextElement.contextAttributeVector ≠ [] ∧ cer.about = (e, .SccContextElementNotFound)) := by
  have habout : cer.about = (cer.contextElement.entityId.identity, cer.statusCode.code) := rfl
  rw [mem_about_mergeEntry, habout]
  unfold ContextElementResponse.landing landingCode
  by_cases hok : cer.statusCode.code = .SccOk
  · simp [hok]
  · by_cases hany : cers.any (ContextElementResponse.isFor cer.contextElement.entityId .SccContextElementNotFound) = true
    · have hmem := (any_isFor_iff (by decide)).1 hany
      rw [if_neg hok, if_pos hany]
      grind
    · rw [if_neg hok, if_neg hany]
      grind

end Entry

/-! ### What the answers add -/

section Answers

open UpdateContextResponse

variable {cers rest : List ContextElementResponse}

/-- The attributes of the entries, with the statuses under which they are put one after the other. -/
def landed : List ContextElementResponse → List ContextElementResponse →
    List ((String × String × Bool) × HttpStatusCode × ContextAttribute)
  | _, [] => []
  | cers, cer :: rest => cer.listedAs (cer.landing cers) ++ landed (mergeEntry cers cer) rest

theorem listed_foldl_mergeEntry (cers rest : List ContextElementResponse) :
    ((rest.foldl mergeEntry cers).flatMap ContextElementResponse.listed).Perm
      (cers.flatMap ContextElementResponse.listed ++ landed cers rest) := by
  induction rest generalizing cers with
  | nil => simp [landed]
  | cons cer rest ih =>
    rw [List.foldl_cons, landed, ← List.append_assoc]
    exact (ih _).trans (listed_mergeEntry.append_right _)

def ContextElementResponse.hasAttributes (cer : ContextElementResponse) : Bool :=
  !cer.contextElement.contextAttributeVector.isEmpty

/-- Attributes with an error status other than 404 come when there is no entry of status 404 for their entity. -/
def KeptApart (cers answered : List ContextElementResponse) : Prop :=
  ∀ before cer after, answered = before ++ cer :: after → cer.hasAttributes = true →
    cer.statusCode.code = .SccOk ∨ cer.statusCode.code = .SccContextElementNotFound ∨
      (cer.contextElement.entityId.identity, HttpStatusCode.SccContextElementNotFound) ∉
        (cers ++ before.filter ContextElementResponse.hasAttributes).map ContextElementResponse.about

theorem landing_eq_iff {cer : ContextElementResponse} :
    cer.landing cers = cer.statusCode.code ↔
      cer.statusCode.code = .SccOk ∨ cer.statusCode.code = .SccContextElementNotFound ∨
        (cer.contextElement.entityId.identity, HttpStatusCode.SccContextElementNotFound) ∉
          cers.map ContextElementResponse.about := by
  unfold ContextElementResponse.landing landingCode
  rw [← any_isFor_iff (by decide)]
  by_cases hok : cer.statusCode.code = .SccOk
  · simp [hok]
  · rw [if_neg hok]
    split
    · rename_i hany
      constructor
      · exact fun h => Or.inr (Or.inl h.symm)
      · rintro (h | h | h)
        · exact absurd h hok
        · exact h.symm
        · exact absurd hany h
    · rename_i hany
      exact iff_of_true rfl (Or.inr (Or.inr hany))

private theorem keptApart_cons {cer : ContextElementResponse} :
    KeptApart cers (cer :: rest) ↔
      (cer.hasAttributes = true → cer.landing cers = cer.statusCode.code) ∧ KeptApart (mergeEntry cers cer) rest := by
  have hmem : ∀ e (before : List ContextElementResponse),
      (e, HttpStatusCode.SccContextElementNotFound) ∈
          (cers ++ (cer :: before).filter ContextElementResponse.hasAttributes).map ContextElementResponse.about ↔
        (e, HttpStatusCode.SccContextElementNotFound) ∈
          (mergeEntry cers cer ++ before.filter ContextElementResponse.hasAttributes).map
            ContextElementResponse.about := by
    intro e before
    rw [List.map_append, List.map_append, List.mem_append, List.mem_append, mem_notFound_mergeEntry, List.filter_cons,
      or_assoc]
    refine or_congr_right ?_
    by_cases hattrs : cer.contextElement.contextAttributeVector = []
    · rw [if_neg (by simp [ContextElementResponse.hasAttributes, hattrs])]
      simp [hattrs]
    · rw [if_pos (by simp [ContextElementResponse.hasAttributes, hattrs]), List.map_cons, List.mem_cons]
      simp only [ne_eq, hattrs, not_false_eq_true, true_and]
      exact or_congr_left eq_comm
  constructor
  · intro h
    refine ⟨fun hattrs => landing_eq_iff.2 (by simpa using h [] cer rest rfl hattrs), ?_⟩
    intro before c after hrest hattrs
    have hc := h (cer :: before) c after (by rw [hrest]; rfl) hattrs
    rwa [hmem] at hc
  · rintro ⟨hfirst, hrest⟩ before c after heq hattrs
    cases before with
    | nil =>
      obtain ⟨rfl, rfl⟩ := List.cons.inj heq
      simpa using landing_eq_iff.1 (hfirst hattrs)
    | cons b before =>
      obtain ⟨rfl, htail⟩ := List.cons.inj heq
      have hc := hrest before c after htail hattrs
      rwa [← hmem] at hc

private theorem listedAs_eq_iff {cer : ContextElementResponse} {code : HttpStatusCode} :
    cer.listedAs code = cer.listed ↔ (cer.hasAttributes = true → code = cer.statusCode.code) := by
  unfold ContextElementResponse.listed ContextElementResponse.listedAs ContextElementResponse.hasAttributes
  cases cer.contextElement.contextAttributeVector with
  | nil => simp
  | cons ca caV =>
    constructor
    · intro h _
      exact congrArg (fun t => t.2.1) (List.cons.inj h).1
    · intro h
      rw [h rfl]

/-- Every attribute is put under the status of its entry exactly if the entries are kept apart. -/
theorem landed_eq_iff : landed cers rest = rest.flatMap ContextElementResponse.listed ↔ KeptApart cers rest := by
  induction rest generalizing cers with
  | nil =>
    refine iff_of_true rfl fun before cer after h => ?_
    exact absurd h (by simp)
  | cons cer rest ih =>
    have hlength : (cer.listedAs (cer.landing cers)).length = cer.listed.length := by
      simp [ContextElementResponse.listed, ContextElementResponse.listedAs]
    have happend : cer.listedAs (cer.landing cers) ++ landed (mergeEntry cers cer) rest =
        cer.listed ++ rest.flatMap ContextElementResponse.listed ↔
          cer.listedAs (cer.landing cers) = cer.listed ∧
            landed (mergeEntry cers cer) rest = rest.flatMap ContextElementResponse.listed :=
      ⟨fun h => List.append_inj h hlength, fun h => by rw [h.1, h.2]⟩
    rw [landed, List.flatMap_cons, happend, listedAs_eq_iff, ih, keptApart_cons]

/-- The statuses of the attributes differ only where 404 has replaced another one. -/
private theorem forall₂_landed (cers rest : List ContextElementResponse) :
    List.Forall₂ (fun t t' => t = t' ∨
        (t.2.1 ≠ HttpStatusCode.SccContextElementNotFound ∧ t'.2.1 = HttpStatusCode.SccContextElementNotFound))
      (rest.flatMap ContextElementResponse.listed) (landed cers rest) := by
  induction rest generalizing cers with
  | nil => exact .nil
  | cons cer rest ih =>
    rw [landed, List.flatMap_cons]
    refine List.rel_append ?_ (ih _)
    unfold ContextElementResponse.listed ContextElementResponse.listedAs
    rw [List.forall₂_map_left_iff, List.forall₂_map_right_iff, List.forall₂_same]
    intro ca _
    unfold ContextElementResponse.landing landingCode
    by_cases hok : cer.statusCode.code = .SccOk
    · exact Or.inl (by simp [hok])
    · rw [if_neg hok]
      split
      · by_cases hcode : cer.statusCode.code = .SccContextElementNotFound
        · exact Or.inl (by rw [hcode])
        · exact Or.inr ⟨hcode, rfl⟩
      · exact Or.inl rfl

/-- A list in which some elements were replaced by others is no reordering of the first one. -/
private theorem eq_of_forall₂_of_perm {α : Type} {p : α → Prop} [DecidablePred p] {l l' : List α}
    (h : List.Forall₂ (fun x y => x = y ∨ (¬ p x ∧ p y)) l l') (hperm : l.Perm l') : l = l' := by
  have hgen : l.countP p ≤ l'.countP p ∧ (l'.countP p = l.countP p → l = l') := by
    clear hperm
    induction h with
    | nil => exact ⟨Nat.le_refl _, fun _ => rfl⟩
    | @cons x y l l' hxy _ ih =>
      rw [List.countP_cons, List.countP_cons]
      rcases hxy with rfl | ⟨hx, hy⟩
      · refine ⟨by omega, fun hcount => ?_⟩
        rw [ih.2 (by omega)]
      · simp only [hx, hy, decide_false, decide_true, if_true]
        refine ⟨by simp; omega, fun hcount => ?_⟩
        simp at hcount
        omega
  exact hgen.2 (hperm.countP_eq _).symm

/-- The entries at the end, if the statuses are kept. -/
private theorem mem_about_foldl_mergeEntry (h : KeptApart cers rest) {k : (String × String × Bool) × HttpStatusCode} :
    k ∈ (rest.foldl mergeEntry cers).map ContextElementResponse.about ↔
      k ∈ (cers ++ rest.filter ContextElementResponse.hasAttributes).map ContextElementResponse.about := by
  induction rest generalizing cers with
  | nil => simp
  | cons cer rest ih =>
    obtain ⟨hland, hrest⟩ := keptApart_cons.1 h
    rw [List.foldl_cons, ih hrest, List.map_append, List.map_append, List.mem_append, List.mem_append,
      mem_about_mergeEntry, List.filter_cons, or_assoc]
    refine or_congr_right ?_
    by_cases hattrs : cer.hasAttributes = true
    · have hne : cer.contextElement.contextAttributeVector ≠ [] := by
        simpa [ContextElementResponse.hasAttributes] using hattrs
      rw [if_pos hattrs, List.map_cons, List.mem_cons, hland hattrs]
      simp [hne, ContextElementResponse.about]
    · have hempty : cer.contextElement.contextAttributeVector = [] := by
        simpa [ContextElementResponse.hasAttributes] using hattrs
      rw [if_neg hattrs]
      simp [hempty]

/-- The entry is still there: the same entity and status, and more attributes behind those it had. -/
structure KeepsEntry (cer cer' : ContextElementResponse) : Prop where
  entityId : cer'.contextElement.entityId = cer.contextElement.entityId
  statusCode : cer'.statusCode = cer.statusCode
  attributes : cer.contextElement.contextAttributeVector <+: cer'.contextElement.contextAttributeVector

private theorem KeepsEntry.rfl (cer : ContextElementResponse) : KeepsEntry cer cer := ⟨.refl _, .refl _, List.prefix_rfl⟩

private theorem KeepsEntry.trans (a b c : ContextElementResponse) (h : KeepsEntry a b) (h' : KeepsEntry b c) :
    KeepsEntry a c :=
  ⟨h'.entityId.trans h.entityId, h'.statusCode.trans h.statusCode, h.attributes.trans h'.attributes⟩

theorem grows_foldl_mergeEntry (cers rest : List ContextElementResponse) :
    Grows KeepsEntry cers (rest.foldl mergeEntry cers) := by
  have hpush : ∀ aP cer, KeepsEntry cer (ContextElementResponse.pushAttribute aP cer) := fun aP cer =>
    ⟨.refl _, .refl _, List.prefix_append _ _⟩
  have hattribute : ∀ eP scP cers aP, Grows KeepsEntry cers (mergeAttribute eP scP cers aP) := by
    intro eP scP cers aP
    unfold mergeAttribute
    split
    · exact grows_place KeepsEntry.rfl (fun cer _ => hpush aP cer) cers
    · exact grows_place KeepsEntry.rfl (fun cer _ => hpush aP cer) cers
  have hentry : ∀ cer cers, Grows KeepsEntry cers (mergeEntry cers cer) := by
    intro cer cers
    unfold mergeEntry
    induction cer.contextElement.contextAttributeVector generalizing cers with
    | nil => exact grows_refl KeepsEntry.rfl cers
    | cons aP caV ih => exact (hattribute _ _ cers aP).trans KeepsEntry.trans (ih _)
  induction rest generalizing cers with
  | nil => exact grows_refl KeepsEntry.rfl cers
  | cons cer rest ih => exact (hentry cer cers).trans KeepsEntry.trans (ih _)

end Answers

/-! ### All answers -/

section AllAnswers

open UpdateContextResponse

variable {response : UpdateContextResponse} {answers : List UpdateContextResponse}

/-- The total response after the answers. -/
def mergeAll (response : UpdateContextResponse) (answers : List UpdateContextResponse) : UpdateContextResponse :=
  answers.foldl merge response

/-- The entries of the answers. -/
def answered (answers : List UpdateContextResponse) : List ContextElementResponse :=
  answers.flatMap UpdateContextResponse.contextElementResponseVector

theorem mergeAll_entries (response : UpdateContextResponse) (answers : List UpdateContextResponse) :
    (mergeAll response answers).contextElementResponseVector =
      (answered answers).foldl mergeEntry response.contextElementResponseVector := by
  unfold mergeAll answered
  induction answers generalizing response with
  | nil => rfl
  | cons upcrs answers ih =>
    rw [List.foldl_cons, ih, List.flatMap_cons, List.foldl_append]
    rfl

def HttpStatusCode.isError (code : HttpStatusCode) : Bool := code ≠ .SccOk && code ≠ .SccNone

/-- Every attribute of an answer is there under its entity and status, besides those that were there before; an entry
with an error and no attributes has an entry of its entity and status; and no merge takes anything away. -/
structure AllAnswered (response : UpdateContextResponse) (answers : List UpdateContextResponse) : Prop where
  attributes :
    (response.contextElementResponseVector.flatMap ContextElementResponse.listed ++
        (answered answers).flatMap ContextElementResponse.listed).Subperm
      ((mergeAll response answers).contextElementResponseVector.flatMap ContextElementResponse.listed)
  errors : ∀ cer ∈ answered answers, cer.statusCode.code.isError = true → cer.hasAttributes = false →
    cer.about ∈ (mergeAll response answers).contextElementResponseVector.map ContextElementResponse.about
  kept : ∀ before after, answers = before ++ after →
    Grows KeepsEntry (mergeAll response before).contextElementResponseVector
      (mergeAll response answers).contextElementResponseVector

/-- Every provider is answered for exactly if the attributes with an error status other than 404 come before any entry
of status 404 for their entity, and the entries with an error and no attributes are not the only ones of their entity
and status. -/
theorem merge_answers_iff :
    AllAnswered response answers ↔
      KeptApart response.contextElementResponseVector (answered answers) ∧
        ∀ cer ∈ answered answers, cer.statusCode.code.isError = true → cer.hasAttributes = false →
          cer.about ∈ (response.contextElementResponseVector ++
            (answered answers).filter ContextElementResponse.hasAttributes).map ContextElementResponse.about := by
  have hlisted := listed_foldl_mergeEntry response.contextElementResponseVector (answered answers)
  rw [← mergeAll_entries] at hlisted
  constructor
  · intro h
    have hsub := h.attributes.trans hlisted.subperm
    rw [List.subperm_append_left] at hsub
    have hall := forall₂_landed response.contextElementResponseVector (answered answers)
    have hperm := hsub.perm_of_length_le (List.Forall₂.length_eq hall).ge
    have hkept := landed_eq_iff.1 (eq_of_forall₂_of_perm hall hperm).symm
    refine ⟨hkept, fun cer hcer herror hattrs => ?_⟩
    have habout := h.errors cer hcer herror hattrs
    rwa [mergeAll_entries, mem_about_foldl_mergeEntry hkept] at habout
  · rintro ⟨hkept, herrors⟩
    refine ⟨?_, fun cer hcer herror hattrs => ?_, ?_⟩
    · rw [landed_eq_iff.2 hkept] at hlisted
      exact hlisted.symm.subperm
    · rw [mergeAll_entries, mem_about_foldl_mergeEntry hkept]
      exact herrors cer hcer herror hattrs
    · rintro before after rfl
      have hsplit : (mergeAll response (before ++ after)).contextElementResponseVector =
          (answered after).foldl mergeEntry (mergeAll response before).contextElementResponseVector := by
        rw [mergeAll_entries, mergeAll_entries, answered, List.flatMap_append, List.foldl_append]
        rfl
      rw [hsplit]
      exact grows_foldl_mergeEntry _ _

end AllAnswers

/-! ### Two answers that are lost -/

/-- An entry of the entity "E" of type "T". -/
def entryOfE (code : HttpStatusCode) (attributes : List String) : ContextElementResponse where
  contextElement :=
    { entityId := { id := "E", type := "T", isPattern := "false" }
      contextAttributeVector := attributes.map fun name => { name := name, type := "string" } }
  statusCode := ⟨code, ""⟩

/-- Behind an entry of status 404, the invalid parameter of a provider is put under 404; an internal error without
attributes leaves no entry. -/
theorem answers_lost :
    ¬ AllAnswered { contextElementResponseVector := [entryOfE .SccContextElementNotFound ["a"]] }
        [{ contextElementResponseVector := [entryOfE .SccInvalidParameter ["b"]] }] ∧
      ¬ AllAnswered {} [{ contextElementResponseVector := [entryOfE .SccReceiverInternalError []] }] := by
  constructor
  · intro h
    have hcode := List.map_subset (fun t => t.2.1) h.attributes.subset
    revert hcode
    decide +kernel
  · intro h
    have habout := h.errors (entryOfE .SccReceiverInternalError []) (List.mem_singleton.2 rfl) (by decide) (by decide)
    revert habout
    decide +kernel

end OrionBroker
