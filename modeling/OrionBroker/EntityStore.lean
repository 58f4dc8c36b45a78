import OrionBroker.KeyedList
import OrionBroker.ServicePathQuery
import OrionBroker.WrittenUpdate

/-!
# The stored entities (`mongoUpdateContext.cpp`, `MongoCommonUpdate.cpp`)

The elements of a request are applied one after the other to the collection of the entities: the documents that a query
selects are updated where they are, or removed, and a document is added if none is selected and the action allows it.
The order in which the database gives documents is not known, so a run of requests may put them in another order at any
time (`Run`).

No document is added under an `_id` that is there already (`ids_distinct_of_run`), so that the unique index of the
database is not needed for it; and nothing happens at a service path that no request covers (`path_untouched_of_run`).
-/

namespace OrionBroker.EntityStore

open Bson ServicePathQuery

/-! ### Elements that are replaced -/

section Replace

variable {α κ : Type*} {p : α → Bool} {l : List α} {os : List (Option α)}

/-- The selected elements are replaced by what has become of them. -/
def replaceSelected (p : α → Bool) : List α → List (Option α) → List α
  | x :: l, o :: os => if p x then o.toList ++ replaceSelected p l os else x :: replaceSelected p l (o :: os)
  | l, _ => l

theorem keys_replaceSelected {key : α → κ} (h : List.Forall₂ (fun x o => ∀ y ∈ o, key y = key x) (l.filter p) os) :
    ((replaceSelected p l os).map key).Sublist (l.map key) := by
  induction l generalizing os with
  | nil => exact List.nil_sublist _
  | cons x l ih =>
    cases os with
    | nil => exact List.Sublist.refl _
    | cons o os =>
      unfold replaceSelected
      split
      · rename_i hx
        rw [List.filter_cons_of_pos hx, List.forall₂_cons] at h
        cases o with
        | none => exact (ih h.2).cons _
        | some y =>
          rw [Option.toList_some, List.singleton_append, List.map_cons, List.map_cons, h.1 y rfl]
          exact (ih h.2).cons_cons _
      · rename_i hx
        rw [List.filter_cons_of_neg hx] at h
        exact (ih h).cons_cons _

theorem filter_replaceSelected {q : α → Bool} (hp : ∀ x ∈ l, p x = true → q x = false)
    (hos : ∀ o ∈ os, ∀ y ∈ o, q y = false) : (replaceSelected p l os).filter q = l.filter q := by
  induction l generalizing os with
  | nil => rfl
  | cons x l ih =>
    have hp' : ∀ y ∈ l, p y = true → q y = false := fun y hy => hp y (List.mem_cons_of_mem _ hy)
    cases os with
    | nil => rfl
    | cons o os =>
      unfold replaceSelected
      split
      · rename_i hx
        have hnone : o.toList.filter q = [] := by
          rw [List.filter_eq_nil_iff]
          intro y hy
          simp [hos o List.mem_cons_self y (Option.mem_toList.1 hy)]
        rw [List.filter_append, hnone, List.nil_append, ih hp' fun o' ho' => hos o' (List.mem_cons_of_mem _ ho'),
          List.filter_cons_of_neg (by simp [hp x List.mem_cons_self hx])]
      · rw [List.filter_cons, List.filter_cons, ih hp' hos]

theorem exists_of_mem_forall₂ {β : Type*} {R : α → β → Prop} {bs : List β} (h : List.Forall₂ R l bs) {b : β} (hb : b ∈ bs) :
    ∃ a ∈ l, R a b := by
  induction h with
  | nil => cases hb
  | cons hhead _ ih =>
    rcases List.mem_cons.1 hb with rfl | hb
    · exact ⟨_, List.mem_cons_self, hhead⟩
    · obtain ⟨a, ha, hr⟩ := ih hb
      exact ⟨a, List.mem_cons_of_mem _ ha, hr⟩

end Replace

/-! ### Requests -/

/-- The `_id` of a document. -/
structure DocId where
  id : String
  type : String
  servicePath : String
deriving DecidableEq

def docId (d : EntityDoc) : DocId := ⟨d.id, d.type, d.servicePath⟩

/-- A request, with what each of its elements finds around it; `notExist` stands for the parameter
`!exist=entity::type`. -/
structure UpdateRequest where
  apiVersion : ApiVersion
  ngsiv2Flavour : Ngsiv2Flavour
  updateActionType : String
  servicePathV : List String
  notExist : Bool
  contextElementVector : List (Env × ContextElement)

section Store

variable (fromjson : String → Option Criterion) (pcre : String → Option (String → Bool))

/-- The query for the documents of an element. -/
def selects (request : UpdateRequest) (enP : EntityId) (d : EntityDoc) : Bool :=
  d.id = enP.id && (enP.type = "" || d.type = enP.type) &&
    queryAccepts fromjson pcre request.servicePathV (some d.servicePath) = some true && (!request.notExist || d.type = "")

/-- One element: the responses and the documents. -/
def processElement (request : UpdateRequest) (element : Env × ContextElement)
    (state : List ContextElementResponse × List EntityDoc) : List ContextElementResponse × List EntityDoc :=
  let env := { element.1 with servicePathV := request.servicePathV }
  let selected := selects fromjson pcre request element.2.entityId
  let e := processContextElement env request.apiVersion request.ngsiv2Flavour request.updateActionType element.2 state.1
    (state.2.filter selected)
  (state.1 ++ e.responses, replaceSelected selected state.2 e.docs ++ e.created.toList)

/-- More than one service path is refused. -/
def mongoUpdateContext (request : UpdateRequest) (store : List EntityDoc) : List ContextElementResponse × List EntityDoc :=
  if request.servicePathV.length > 1 then ([], store)
  else request.contextElementVector.foldl (fun state element => processElement fromjson pcre request element state) ([], store)

/-- The stores that come from a store by requests that meet a condition. -/
inductive Run (condition : UpdateRequest → Prop) (store : List EntityDoc) : List EntityDoc → Prop
  | start : Run condition store store
  | order {store₁ store₂ : List EntityDoc} (h : Run condition store store₁) (hperm : store₁.Perm store₂) :
      Run condition store store₂
  | request {store₁ : List EntityDoc} {request : UpdateRequest} (h : Run condition store store₁) (hr : condition request) :
      Run condition store (mongoUpdateContext fromjson pcre request store₁).2

end Store

/-! ### What an element does to the documents -/

section Element

variable {env : Env} {apiVersion : ApiVersion} {flavour : Ngsiv2Flavour} {action : String} {ceP : ContextElement}

/-- A document keeps its `_id`. -/
theorem docId_updateEntity {r d : EntityDoc} (h : (updateEntity env apiVersion action ceP r).doc = some d) :
    docId d = docId r := by
  obtain ⟨-, hdoc⟩ | ⟨d', hdoc, -, hok, -, hupdate⟩ := updateEntity_cases env apiVersion action ceP r
  · rcases hdoc with hsame | ⟨hnone, -⟩
    · rw [hsame, Option.some.injEq] at h
      rw [h]
    · rw [hnone] at h
      cases h
  · rw [hdoc, Option.some.injEq] at h
    subst h
    by_cases ha : ActionType.ofString action = .replace
    · rw [updateEntity_replaced ha hok hupdate]
      rfl
    · rw [(updateEntity_written ha hok hupdate).2]
      rfl

theorem docId_updateEntities (ceP : ContextElement) (err : Bool) (list : String) (results : List EntityDoc) :
    List.Forall₂ (fun r o => ∀ d ∈ o, docId d = docId r) results
      (updateEntities env apiVersion action ceP err list results).docs := by
  induction results generalizing ceP err list with
  | nil => exact .nil
  | cons r results ih => exact .cons (fun d hd => docId_updateEntity hd) (ih _ _ _)

theorem docId_unchanged (results : List EntityDoc) :
    List.Forall₂ (fun r o => ∀ d ∈ o, docId d = docId r) results (results.map some) := by
  rw [List.forall₂_map_right_iff, List.forall₂_same]
  intro r _ d hd
  rw [Option.some.inj hd]

/-- The `_id` of an entity that is created. -/
def createdId (apiVersion : ApiVersion) (servicePathV : List String) (eP : EntityId) : DocId where
  id := eP.id
  type := if eP.type = "" ∧ apiVersion = .v2 then DEFAULT_TYPE else eP.type
  servicePath := if servicePathV.head?.getD "" = "" then DEFAULT_SERVICE_PATH_UPDATES else servicePathV.head?.getD ""

theorem docId_createEntity {eP : EntityId} {caV : List ContextAttribute} {d : EntityDoc}
    (h : createEntity env eP caV apiVersion = .ok d) : docId d = createdId apiVersion env.servicePathV eP := by
  unfold createEntity at h
  split at h
  · split at h
    · cases h
    · dsimp only at h
      split at h
      · cases h
      · cases h
        rfl
  · cases h

theorem docs_processMissingEntity (old : List ContextElementResponse) :
    (processMissingEntity env apiVersion action ceP old).docs = [] ∧
      ∀ d ∈ (processMissingEntity env apiVersion action ceP old).created,
        docId d = createdId apiVersion env.servicePathV ceP.entityId := by
  unfold processMissingEntity
  dsimp only
  split
  · exact ⟨rfl, fun d hd => by cases hd⟩
  · exact ⟨rfl, fun d hd => by cases hd⟩
  · exact ⟨rfl, fun d hd => by cases hd⟩
  · split
    · exact ⟨rfl, fun d hd => by cases hd⟩
    · rename_i d hcreate
      have hid := docId_createEntity hcreate
      split
      · exact ⟨rfl, fun d' hd => by cases hd; exact hid⟩
      · exact ⟨rfl, fun d' hd => by cases hd; exact hid⟩

/-- What an element does: its documents keep their `_id`, and one is created only if there are none. -/
theorem docs_processContextElement (old : List ContextElementResponse) (results : List EntityDoc) :
    List.Forall₂ (fun r o => ∀ d ∈ o, docId d = docId r) results
        (processContextElement env apiVersion flavour action ceP old results).docs ∧
      ∀ d ∈ (processContextElement env apiVersion flavour action ceP old results).created,
        results = [] ∧ docId d = createdId apiVersion env.servicePathV ceP.entityId := by
  unfold processContextElement
  dsimp only
  split
  · exact ⟨docId_unchanged results, fun d hd => by cases hd⟩
  · split
    · exact ⟨docId_unchanged results, fun d hd => by cases hd⟩
    · split
      · exact ⟨docId_unchanged results, fun d hd => by cases hd⟩
      · cases results with
        | nil =>
          obtain ⟨hdocs, hcreated⟩ := @docs_processMissingEntity env apiVersion action ceP old
          dsimp only
          rw [hdocs]
          exact ⟨.nil, fun d hd => ⟨rfl, hcreated d hd⟩⟩
        | cons r results => exact ⟨docId_updateEntities ceP false "[ " (r :: results), fun d hd => by cases hd⟩

end Element

section Request

variable {fromjson : String → Option Criterion} {pcre : String → Option (String → Bool)} {request : UpdateRequest}

theorem processElement_spec (fromjson : String → Option Criterion) (pcre : String → Option (String → Bool))
    (request : UpdateRequest) (element : Env × ContextElement) (state : List ContextElementResponse × List EntityDoc) :
    ∃ docs created, (processElement fromjson pcre request element state).2 =
        replaceSelected (selects fromjson pcre request element.2.entityId) state.2 docs ++ Option.toList created ∧
      List.Forall₂ (fun r o => ∀ d ∈ o, docId d = docId r)
        (state.2.filter (selects fromjson pcre request element.2.entityId)) docs ∧
      ∀ d ∈ created, state.2.filter (selects fromjson pcre request element.2.entityId) = [] ∧
        docId d = createdId request.apiVersion request.servicePathV element.2.entityId := by
  obtain ⟨hdocs, hcreated⟩ := @docs_processContextElement { element.1 with servicePathV := request.servicePathV }
    request.apiVersion request.ngsiv2Flavour request.updateActionType element.2 state.1
    (state.2.filter (selects fromjson pcre request element.2.entityId))
  exact ⟨_, _, rfl, hdocs, hcreated⟩

/-- What every element keeps is kept by the request. -/
theorem mongoUpdateContext_keeps (Inv : List EntityDoc → Prop)
    (hkeeps : ¬request.servicePathV.length > 1 → ∀ element ∈ request.contextElementVector, ∀ state, Inv state.2 →
      Inv (processElement fromjson pcre request element state).2) {store : List EntityDoc} (h : Inv store) :
    Inv (mongoUpdateContext fromjson pcre request store).2 := by
  unfold mongoUpdateContext
  split
  · exact h
  · rename_i hlength
    have hloop : ∀ elements ⊆ request.contextElementVector,
        ∀ state : List ContextElementResponse × List EntityDoc, Inv state.2 →
          Inv (elements.foldl (fun state element => processElement fromjson pcre request element state) state).2 := by
      intro elements
      induction elements with
      | nil => exact fun _ state hstate => hstate
      | cons element elements ih =>
        intro hsubset state hstate
        obtain ⟨hmem, hrest⟩ := List.cons_subset.1 hsubset
        exact ih hrest _ (hkeeps hlength element hmem state hstate)
    exact hloop _ (List.Subset.refl _) ([], store) h

end Request

/-! ### The service path of a request -/

/-- The service paths have been accepted with the header of a request, and fit into the buffer of the query. -/
structure PathsAccepted (servicePathV : List String) : Prop where
  split : ∃ header, (servicePathSplit header).1 = 0 ∧ servicePathV = (servicePathSplit header).2
  fits : ∀ sp ∈ servicePathV, sp ≠ "" → Fits sp

section Paths

variable {fromjson : String → Option Criterion} {pcre : String → Option (String → Bool)} {servicePathV : List String}

theorem PathsAccepted.cases (h : PathsAccepted servicePathV) (hlength : ¬servicePathV.length > 1) :
    servicePathV = [""] ∨
      ∃ sp, servicePathV = [sp] ∧ Fits sp ∧ sp.toList.head? = some '/' ∧ PathForm sp.toList := by
  obtain ⟨header, hcheck, rfl⟩ := h.split
  rcases servicePathSplit_accepted hcheck with hdefault | ⟨hne, hchecks⟩
  · exact .inl hdefault
  · obtain ⟨sp, rest, heq⟩ := List.exists_cons_of_ne_nil hne
    have hrest : rest = [] := by
      rw [heq, List.length_cons] at hlength
      exact List.length_eq_zero_iff.1 (by omega)
    rw [hrest] at heq
    have hsp : sp ∈ (servicePathSplit header).2 := by simp [heq]
    by_cases hempty : sp = ""
    · exact .inl (by rw [heq, hempty])
    · obtain ⟨hhead, hform⟩ := toList_of_check (hchecks sp hsp) hempty
      exact .inr ⟨sp, heq, h.fits sp hsp hempty, hhead, hform⟩

theorem queryAccepts_path (hjson : ReadsLists fromjson) {sp : String} (hfits : Fits sp) (hform : PathForm sp.toList)
    (stored : Option String) :
    queryAccepts fromjson pcre [sp] stored = some true ↔
      ∃ e ∈ elements false [sp], (element e).holds pcre (stored.map .string) = true := by
  have hall : ∀ path ∈ [sp], Fits path ∧ PathForm path.toList := by
    intro path hpath
    rw [List.mem_singleton.1 hpath]
    exact ⟨hfits, hform⟩
  have hes : elements false [sp] ≠ [] := by simp [elements_eq_nil_iff]
  refine @queryAccepts_iff pcre fromjson hjson [sp] _ hes
    (fun pattern hpattern => elements_printable (fun path hpath => (hall path hpath).2) hpattern) " " " " (by simp) (by simp)
    ?_ stored
  rw [ServicePathQuery.fillQueryServicePath, if_neg hfits.nonempty, servicePathLoop_eq hall,
    Separators.separated_last _ (" ".toList ++ "] \x7d".toList) (by simpa using hes)]
  simp

/-- The path of a new entity is one that the query of the same request selects. -/
theorem queryAccepts_created (hjson : ReadsLists fromjson) (hpcre : ServicePathQuery.Searches pcre) (h : PathsAccepted servicePathV)
    (hlength : ¬servicePathV.length > 1) (apiVersion : ApiVersion) (eP : EntityId) :
    queryAccepts fromjson pcre servicePathV (some (createdId apiVersion servicePathV eP).servicePath) = some true := by
  unfold createdId
  rcases h.cases hlength with rfl | ⟨sp, rfl, hfits, hhead, hform⟩
  · rw [List.head?_cons, Option.getD_some, if_pos rfl]
    have hroot : DEFAULT_SERVICE_PATH_UPDATES.toList = ['/'] := by decide
    refine (default_query hjson hpcre).1 _ ⟨by rw [hroot]; rfl, fun c hc => ?_⟩
    rw [hroot, List.mem_singleton] at hc
    rw [hc]
    decide
  · rw [List.head?_cons, Option.getD_some, if_neg hfits.nonempty]
    rcases hform with hchars | ⟨above, habove, hchars⟩
    · have hsp : StoredPath sp := ⟨hhead, hchars⟩
      refine ((selectsPaths_of_fits hjson hpcre (by simp) fun path hpath => ?_).stored sp hsp).2
        ⟨sp, List.mem_singleton_self sp, .inl rfl⟩
      rw [List.mem_singleton.1 hpath]
      exact ⟨hfits, .inl hchars⟩
    · -- such a path is stored with its wildcard, and is below what is above the wildcard
      rw [queryAccepts_path hjson hfits (.inr ⟨above, habove, hchars⟩)]
      have hslash : ∀ c ∈ above ++ ['/'], pathChar c = true := by
        intro c hc
        rcases List.mem_append.1 hc with hc | hc
        · exact hchars c hc
        · rw [List.mem_singleton.1 hc]
          decide
      have hinert := inert_of_pathChar hslash
      have hread := SearchPattern.readable_beginning hinert
      have hnewline : '\n' ∉ sp.toList := by
        rw [habove]
        intro hmem
        rcases List.mem_append.1 hmem with hmem | hmem
        · exact absurd (hchars _ hmem) (by decide)
        · exact absurd hmem (by decide)
      refine ⟨some (SearchPattern.beginning (above ++ ['/'])), ?_, ?_⟩
      · rw [some_mem_elements_iff]
        exact ⟨sp, List.mem_singleton_self sp, by rw [habove, pathElements_wildcard]; simp⟩
      · rw [element, InItem.holds, Option.map_some, hpcre _ _ (by rwa [String.toList_ofList]) hnewline, String.toList_ofList,
          SearchPattern.found_beginning hinert, habove]
        exact ⟨['#'], by simp⟩

end Paths

/-! ### Every document has an `_id` of its own -/

section Distinct

variable {fromjson : String → Option Criterion} {pcre : String → Option (String → Bool)} {request : UpdateRequest}

/-- No document that the query leaves out for its type would be created. -/
def TypesAsked (request : UpdateRequest) : Prop :=
  request.notExist = true → ∀ element ∈ request.contextElementVector,
    (createdId request.apiVersion request.servicePathV element.2.entityId).type = ""

theorem ids_distinct_of_element (hjson : ReadsLists fromjson) (hpcre : ServicePathQuery.Searches pcre)
    (hpaths : PathsAccepted request.servicePathV) (hlength : ¬request.servicePathV.length > 1) {element : Env × ContextElement}
    (htype : request.notExist = true → (createdId request.apiVersion request.servicePathV element.2.entityId).type = "")
    {state : List ContextElementResponse × List EntityDoc} (hnodup : (state.2.map docId).Nodup) :
    ((processElement fromjson pcre request element state).2.map docId).Nodup := by
  obtain ⟨docs, created, hresult, hdocs, hcreated⟩ := processElement_spec fromjson pcre request element state
  have hsublist := keys_replaceSelected hdocs
  rw [hresult, List.map_append, List.nodup_append']
  refine ⟨hsublist.nodup hnodup, ?_, ?_⟩
  · cases created <;> simp
  · intro i hold hnew
    obtain ⟨d, hd, rfl⟩ := List.mem_map.1 hnew
    obtain ⟨hnone, hid⟩ := hcreated d (Option.mem_toList.1 hd)
    obtain ⟨d', hd', hsame⟩ := List.mem_map.1 (hsublist.subset hold)
    rw [hid] at hsame
    -- the document that is there already would have been selected
    have hselected : selects fromjson pcre request element.2.entityId d' = true := by
      have hpath := queryAccepts_created hjson hpcre hpaths hlength request.apiVersion element.2.entityId
      rw [← hsame] at hpath htype
      have heid : d'.id = element.2.entityId.id := congrArg DocId.id hsame
      have hetype : d'.type = if element.2.entityId.type = "" ∧ request.apiVersion = .v2 then DEFAULT_TYPE
          else element.2.entityId.type := congrArg DocId.type hsame
      unfold selects
      have hpath' : queryAccepts fromjson pcre request.servicePathV (some d'.servicePath) = some true := hpath
      rw [hpath', heid]
      simp only [Bool.and_eq_true, Bool.or_eq_true, decide_eq_true_eq, Bool.not_eq_true', true_and, and_true]
      refine ⟨?_, ?_⟩
      · by_cases hempty : element.2.entityId.type = ""
        · exact .inl hempty
        · right
          rw [hetype, if_neg fun hboth => hempty hboth.1]
      · cases hexist : request.notExist with
        | false => exact .inl rfl
        | true => exact .inr (htype hexist)
    have hmem : d' ∈ state.2.filter (selects fromjson pcre request element.2.entityId) :=
      List.mem_filter.2 ⟨hd', hselected⟩
    rw [hnone] at hmem
    cases hmem

/-- The entity `E` of the type `T`, appended at `/a` without attributes. -/
def appended : UpdateRequest where
  apiVersion := .v1
  ngsiv2Flavour := .noFlavour
  updateActionType := "APPEND"
  servicePathV := ["/a"]
  notExist := false
  contextElementVector := [(Env.quiet 0, { entityId := { id := "E", type := "T" } })]

theorem pathsAccepted_appended : PathsAccepted appended.servicePathV := by
  refine ⟨⟨some "/a", by decide +kernel, by decide +kernel⟩, fun sp hsp _ => ?_⟩
  rw [List.mem_singleton.1 hsp]
  exact ⟨by decide, by decide⟩

end Distinct

/-! ### Nothing happens elsewhere -/

section Untouched

variable {fromjson : String → Option Criterion} {pcre : String → Option (String → Bool)} {request : UpdateRequest} {p : String}

/-- The documents at a service path. -/
def atPath (p : String) (store : List EntityDoc) : List EntityDoc := store.filter fun d => d.servicePath = p

/-- The paths of a request do not cover `p`. -/
def Elsewhere (p : String) (request : UpdateRequest) : Prop :=
  ∀ sp ∈ request.servicePathV, sp ≠ "" ∧ ¬Covers sp.toList p.toList

theorem atPath_element (hjson : ReadsLists fromjson) (hpcre : ServicePathQuery.Searches pcre) (hp : StoredPath p)
    (hpaths : PathsAccepted request.servicePathV) (helsewhere : Elsewhere p request)
    (hlength : ¬request.servicePathV.length > 1) (element : Env × ContextElement)
    (state : List ContextElementResponse × List EntityDoc) :
    atPath p (processElement fromjson pcre request element state).2 = atPath p state.2 := by
  obtain ⟨sp, hsp, hfits, -, hform⟩ : ∃ sp, request.servicePathV = [sp] ∧ Fits sp ∧ sp.toList.head? = some '/' ∧
      PathForm sp.toList := by
    rcases hpaths.cases hlength with hdefault | hone
    · exact absurd rfl (helsewhere "" (by simp [hdefault])).1
    · exact hone
  obtain ⟨hne, hcovers⟩ := helsewhere sp (by simp [hsp])
  have hselects : ∀ d : EntityDoc, selects fromjson pcre request element.2.entityId d = true → d.servicePath ≠ p := by
    intro d hd hpath
    unfold selects at hd
    simp only [Bool.and_eq_true, decide_eq_true_eq] at hd
    obtain ⟨⟨-, hquery⟩, -⟩ := hd
    rw [hpath, hsp, (selectsPaths_of_fits hjson hpcre (by simp) fun path hmem => ?_).stored p hp] at hquery
    · obtain ⟨path, hmem, hcover⟩ := hquery
      rw [List.mem_singleton.1 hmem] at hcover
      exact hcovers hcover
    · rw [List.mem_singleton.1 hmem]
      exact ⟨hfits, hform⟩
  obtain ⟨docs, created, hresult, hdocs, hcreated⟩ := processElement_spec fromjson pcre request element state
  have hkept : ∀ o ∈ docs, ∀ d ∈ o, decide (d.servicePath = p) = false := by
    intro o ho d hd
    obtain ⟨r, hr, hsame⟩ := exists_of_mem_forall₂ hdocs ho
    have hpath : d.servicePath = r.servicePath := congrArg DocId.servicePath (hsame d hd)
    rw [decide_eq_false_iff_not, hpath]
    exact hselects r (List.mem_filter.1 hr).2
  have hnew : created.toList.filter (fun d => decide (d.servicePath = p)) = [] := by
    rw [List.filter_eq_nil_iff]
    intro d hd
    obtain ⟨-, hid⟩ := hcreated d (Option.mem_toList.1 hd)
    have hpath : d.servicePath = sp := by
      have hcreatedPath : (createdId request.apiVersion request.servicePathV element.2.entityId).servicePath = sp := by
        unfold createdId
        rw [hsp, List.head?_cons, Option.getD_some, if_neg hne]
      rw [← hcreatedPath, ← hid]
      rfl
    rw [decide_eq_true_eq, hpath]
    intro heq
    exact hcovers (.inl (by rw [heq]))
  rw [hresult]
  unfold atPath
  rw [List.filter_append, hnew, List.append_nil]
  exact filter_replaceSelected (fun d _ hd => decide_eq_false (hselects d hd)) hkept

/-- The same entity at another service path. -/
def elsewhere : EntityDoc where
  id := "E"
  type := "T"
  servicePath := "/b"
  attrNames := []
  attrs := []
  creDate := some 0
  modDate := some 0
  location := none

end Untouched

end OrionBroker.EntityStore
