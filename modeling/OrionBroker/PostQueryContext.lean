import OrionBroker.QueryContextResponse

/-!
# Forwarding a query (`postQueryContext.cpp`)

The answer of the database to a query is sorted: what is local is copied to the local response, and the attributes and
entities with a context provider are put into requests, to be forwarded afterwards.  A request for a whole entity has
the attributes of the query; a request for an attribute is looked up by its provider and its first entity, and extended.

A local entity without attributes of its own gets no entry in the local response.  A request for a whole entity may be found
again for an attribute, and is then narrowed; `query_forwarding_iff` says when every provider is asked for all.
-/

namespace OrionBroker

open Buckets

structure QueryContextRequest where
  contextProvider : String
  entityIdVector : List EntityId
  attributeList : List String
deriving DecidableEq

/-! ### The requests -/

/-- The first entity of a request against the one that is looked for. -/
def entityIdMatch (e1 e2 : EntityId) : Bool := e1.id = e2.id && (e2.type = "" || e1.type = e2.type)

/-- What `EntityIdVector::lookup` compares; "false" or "" is the same. -/
def EntityId.listKey (e : EntityId) : String × String × String :=
  (e.id, e.type, if e.isPattern = "" then "false" else e.isPattern)

/-- `EntityIdVector::push_back_if_absent`. -/
def pushEntityIfAbsent (eP : EntityId) (entityIdVector : List EntityId) : List EntityId :=
  if eP.listKey ∈ entityIdVector.map EntityId.listKey then entityIdVector else entityIdVector ++ [eP]

/-- `AttributeList::push_back_if_absent`. -/
def pushNameIfAbsent (name : String) (attributeList : List String) : List String :=
  if name ∈ attributeList then attributeList else attributeList ++ [name]

namespace QueryContextRequest

/-- The constructor from a provider, an entity and an attribute list. -/
def ofEntity (contextProvider : String) (eP : EntityId) (attributeList : List String) : QueryContextRequest :=
  { contextProvider := contextProvider, entityIdVector := [eP], attributeList := attributeList }

/-- The constructor from a provider, an entity and the name of an attribute. -/
def ofAttribute (contextProvider : String) (eP : EntityId) (attributeName : String) : QueryContextRequest :=
  { contextProvider := contextProvider, entityIdVector := [eP],
    attributeList := if attributeName ≠ "" then [attributeName] else [] }

def extend (eP : EntityId) (attributeName : String) (r : QueryContextRequest) : QueryContextRequest :=
  { r with
    attributeList := pushNameIfAbsent attributeName r.attributeList
    entityIdVector := pushEntityIfAbsent eP r.entityIdVector }

/-- `QueryContextRequestVector::lookup` stops at this request. -/
def isFor (contextProvider : String) (eP : EntityId) (r : QueryContextRequest) : Bool :=
  r.contextProvider = contextProvider && r.entityIdVector.head?.any fun e => entityIdMatch e eP

end QueryContextRequest

/-! ### The sorting loop -/

/-- The local response and the requests to be forwarded. -/
structure SortedAnswer where
  localQcrs : List ContextElementResponse := []
  requestV : List QueryContextRequest := []

/-- A local attribute is copied to the entry of its entity. -/
def keepLocal (eP : EntityId) (aP : ContextAttribute) (localQcrs : List ContextElementResponse) :
    List ContextElementResponse :=
  place (ContextElementResponse.isFor eP .SccNone) (ContextElementResponse.pushAttribute aP)
    (ContextElementResponse.ofAttribute eP aP) localQcrs

def requestAttribute (contextProvider : String) (eP : EntityId) (name : String) (requestV : List QueryContextRequest) :
    List QueryContextRequest :=
  place (QueryContextRequest.isFor contextProvider eP) (QueryContextRequest.extend eP name)
    (QueryContextRequest.ofAttribute contextProvider eP name) requestV

/-- A turn of the loop over the attributes of an entry. -/
def sortAttribute (eP : EntityId) (sorted : SortedAnswer) (aP : ContextAttribute) : SortedAnswer :=
  if aP.providingApplication = "" then
    if aP.found = false then sorted else { sorted with localQcrs := keepLocal eP aP sorted.localQcrs }
  else { sorted with requestV := requestAttribute aP.providingApplication eP aP.name sorted.requestV }

/-- A turn of the loop over the entries. -/
def sortEntry (attributeList : List String) (sorted : SortedAnswer) (cer : ContextElementResponse) : SortedAnswer :=
  let eP := cer.contextElement.entityId
  cer.contextElement.contextAttributeVector.foldl (sortAttribute eP)
    { sorted with requestV := sorted.requestV ++
        cer.contextElement.providingApplicationList.map fun pa => QueryContextRequest.ofEntity pa eP attributeList }

/-- The loop of `postQueryContext` for a query with the given attribute list. -/
def sortAnswer (attributeList : List String) (cers : List ContextElementResponse) : SortedAnswer :=
  cers.foldl (sortEntry attributeList) {}

/-! ### The two parts of the loop -/

def isFoundLocal (aP : ContextAttribute) : Bool := aP.providingApplication = "" && aP.found

/-- The found attributes without a provider, with their entities. -/
def localAttributes (cer : ContextElementResponse) : List (EntityId × ContextAttribute) :=
  (cer.contextElement.contextAttributeVector.filter isFoundLocal).map fun aP => (cer.contextElement.entityId, aP)

/-- Something that a provider is to be asked for: an attribute of an entity, or the entity itself. -/
structure Ask where
  contextProvider : String
  eP : EntityId
  attributeName : Option String
deriving DecidableEq

def ContextElementResponse.asks (cer : ContextElementResponse) : List Ask :=
  (cer.contextElement.providingApplicationList.map fun pa => ⟨pa, cer.contextElement.entityId, none⟩) ++
    (cer.contextElement.contextAttributeVector.filter fun aP => aP.providingApplication ≠ "").map fun aP =>
      ⟨aP.providingApplication, cer.contextElement.entityId, some aP.name⟩

/-- All that the providers are to be asked for, in the order of the loop. -/
def asked (cers : List ContextElementResponse) : List Ask := cers.flatMap ContextElementResponse.asks

def request (attributeList : List String) (requestV : List QueryContextRequest) (ask : Ask) : List QueryContextRequest :=
  match ask.attributeName with
  | none => requestV ++ [QueryContextRequest.ofEntity ask.contextProvider ask.eP attributeList]
  | some name => requestAttribute ask.contextProvider ask.eP name requestV

/-- The requests after some asks. -/
def requests (attributeList : List String) (asks : List Ask) : List QueryContextRequest :=
  asks.foldl (request attributeList) []

section Parts

variable {attributeList : List String}

theorem sortAttributes_eq (eP : EntityId) (caV : List ContextAttribute) (sorted : SortedAnswer) :
    caV.foldl (sortAttribute eP) sorted =
      { localQcrs := (caV.filter isFoundLocal).foldl (fun out aP => keepLocal eP aP out) sorted.localQcrs
        requestV := ((caV.filter fun aP => aP.providingApplication ≠ "").map fun aP =>
          (⟨aP.providingApplication, eP, some aP.name⟩ : Ask)).foldl (request attributeList) sorted.requestV } := by
  induction caV generalizing sorted with
  | nil => rfl
  | cons aP caV ih =>
    rw [List.foldl_cons, ih, sortAttribute]
    by_cases hpa : aP.providingApplication = ""
    · by_cases hfound : aP.found = true
      · simp [isFoundLocal, hpa, hfound]
      · simp [isFoundLocal, hpa, hfound]
    · simp [isFoundLocal, hpa, request]

theorem sortEntry_eq (sorted : SortedAnswer) (cer : ContextElementResponse) :
    sortEntry attributeList sorted cer =
      { localQcrs := (localAttributes cer).foldl (fun out p => keepLocal p.1 p.2 out) sorted.localQcrs
        requestV := cer.asks.foldl (request attributeList) sorted.requestV } := by
  have hentities : ∀ (pas : List String) requestV,
      (pas.map fun pa => (⟨pa, cer.contextElement.entityId, none⟩ : Ask)).foldl (request attributeList) requestV =
        requestV ++ pas.map fun pa => QueryContextRequest.ofEntity pa cer.contextElement.entityId attributeList := by
    intro pas
    induction pas with
    | nil => exact fun _ => (List.append_nil _).symm
    | cons pa pas ih =>
      intro requestV
      rw [List.map_cons, List.foldl_cons, ih, request, List.append_assoc]
      rfl
  unfold sortEntry localAttributes ContextElementResponse.asks
  rw [List.foldl_append, hentities, List.foldl_map (f := fun aP => (cer.contextElement.entityId, aP))]
  exact sortAttributes_eq _ _ _

theorem sortAnswer_eq (cers : List ContextElementResponse) :
    sortAnswer attributeList cers =
      { localQcrs := (cers.flatMap localAttributes).foldl (fun out p => keepLocal p.1 p.2 out) []
        requestV := requests attributeList (asked cers) } := by
  have hgen : ∀ sorted, cers.foldl (sortEntry attributeList) sorted =
      { localQcrs := (cers.flatMap localAttributes).foldl (fun out p => keepLocal p.1 p.2 out) sorted.localQcrs
        requestV := (asked cers).foldl (request attributeList) sorted.requestV } := by
    unfold asked
    induction cers with
    | nil => exact fun _ => rfl
    | cons cer cers ih =>
      intro sorted
      rw [List.foldl_cons, ih, sortEntry_eq, List.flatMap_cons, List.flatMap_cons, List.foldl_append, List.foldl_append]
  exact hgen {}

end Parts

/-! ### The local response -/

section Local

variable {localQcrs : List ContextElementResponse} {cers : List ContextElementResponse}

theorem isFor_none_iff {eP : EntityId} {cer : ContextElementResponse} :
    cer.isFor eP .SccNone = true ↔ cer.entity = eP.identity := by
  unfold ContextElementResponse.isFor ContextElementResponse.entity
  simp [EntityId.equal_iff]

/-- The attributes of an entry with their entity. -/
def ContextElementResponse.attributesOfEntity (cer : ContextElementResponse) :
    List ((String × String × Bool) × ContextAttribute) :=
  cer.contextElement.contextAttributeVector.map fun ca => (cer.entity, ca)

/-- The copies of the found attributes without a provider. -/
def ContextElementResponse.foundLocally (cer : ContextElementResponse) :
    List ((String × String × Bool) × ContextAttribute) :=
  (localAttributes cer).map fun p => (p.1.identity, (p.2.copy false).1)

private theorem attributes_keepLocal (eP : EntityId) (aP : ContextAttribute) (localQcrs : List ContextElementResponse) :
    ((keepLocal eP aP localQcrs).flatMap ContextElementResponse.attributesOfEntity).Perm
      (localQcrs.flatMap ContextElementResponse.attributesOfEntity ++ [(eP.identity, (aP.copy false).1)]) := by
  unfold keepLocal
  refine perm_contents_place (fun cer _ hfits => ?_) fun _ => List.Perm.refl _
  have hentity : cer.entity = eP.identity := isFor_none_iff.1 hfits
  have hpush : (cer.pushAttribute aP).attributesOfEntity =
      cer.attributesOfEntity ++ [(cer.entity, (aP.copy false).1)] := List.map_append
  rw [hpush, hentity]

private theorem attributes_keepAll (items : List (EntityId × ContextAttribute))
    (localQcrs : List ContextElementResponse) :
    ((items.foldl (fun out p => keepLocal p.1 p.2 out) localQcrs).flatMap
        ContextElementResponse.attributesOfEntity).Perm
      (localQcrs.flatMap ContextElementResponse.attributesOfEntity ++
        items.map fun p => (p.1.identity, (p.2.copy false).1)) := by
  induction items generalizing localQcrs with
  | nil => simp
  | cons p items ih =>
    have hfirst := (attributes_keepLocal p.1 p.2 localQcrs).append_right
      (items.map fun p => (p.1.identity, (p.2.copy false).1))
    rw [List.append_assoc] at hfirst
    exact (ih _).trans hfirst

private theorem entity_keepAll {k : String × String × Bool} (items : List (EntityId × ContextAttribute)) :
    k ∈ (items.foldl (fun out p => keepLocal p.1 p.2 out) []).map ContextElementResponse.entity ↔
      ∃ p ∈ items, p.1.identity = k := by
  induction items using List.reverseRecOn with
  | nil => simp
  | append_singleton items p ih =>
    have hadd : ∀ cer : ContextElementResponse, (cer.pushAttribute p.2).entity = cer.entity := fun _ => rfl
    rw [List.foldl_append, List.foldl_cons, List.foldl_nil, keepLocal, map_place fun cer _ => hadd cer]
    simp only [List.mem_append, List.mem_singleton, or_and_right, exists_or, exists_eq_left, ← ih]
    split
    · rename_i hany
      refine (or_iff_left_of_imp fun hp => ?_).symm
      obtain ⟨cer, hcer, hfits⟩ := List.any_eq_true.1 hany
      rw [← hp, ← isFor_none_iff.1 hfits]
      exact List.mem_map_of_mem hcer
    · have hnew : (ContextElementResponse.ofAttribute p.1 p.2).entity = p.1.identity := rfl
      rw [List.mem_append, List.mem_singleton, hnew, eq_comm (a := k)]

/-- All found attributes without a provider are copied once, to an entry of their entity. -/
theorem attributes_localQcrs (attributeList : List String) (cers : List ContextElementResponse) :
    ((sortAnswer attributeList cers).localQcrs.flatMap ContextElementResponse.attributesOfEntity).Perm
      (cers.flatMap ContextElementResponse.foundLocally) := by
  rw [sortAnswer_eq]
  refine (attributes_keepAll _ []).trans ?_
  unfold ContextElementResponse.foundLocally
  rw [List.flatMap_nil, List.nil_append, List.map_flatMap]

/-- The entities of the local response have attributes there. -/
theorem entity_localQcrs {k : String × String × Bool} (attributeList : List String) :
    k ∈ (sortAnswer attributeList cers).localQcrs.map ContextElementResponse.entity ↔
      ∃ cer ∈ cers, cer.entity = k ∧ ∃ aP ∈ cer.contextElement.contextAttributeVector, isFoundLocal aP = true := by
  rw [sortAnswer_eq, entity_keepAll]
  unfold localAttributes
  constructor
  · rintro ⟨p, hp, rfl⟩
    obtain ⟨cer, hcer, hp⟩ := List.mem_flatMap.1 hp
    obtain ⟨aP, haP, rfl⟩ := List.mem_map.1 hp
    obtain ⟨hmem, hfound⟩ := List.mem_filter.1 haP
    exact ⟨cer, hcer, rfl, aP, hmem, hfound⟩
  · rintro ⟨cer, hcer, rfl, aP, hmem, hfound⟩
    have hp := List.mem_map_of_mem (f := fun aP => (cer.contextElement.entityId, aP)) (List.mem_filter.2 ⟨hmem, hfound⟩)
    exact ⟨_, List.mem_flatMap.2 ⟨cer, hcer, hp⟩, rfl⟩

end Local

/-! ### The requests for the attributes -/

section Requests

variable {attributeList : List String} {r r' : QueryContextRequest} {eP e e' : EntityId} {name pa : String}
  {asks : List Ask} {ask : Ask}

/-- The request lists an entity. -/
def QueryContextRequest.lists (r : QueryContextRequest) (eP : EntityId) : Prop :=
  eP.listKey ∈ r.entityIdVector.map EntityId.listKey

/-- The request has an attribute in its list, by its name if there is one. -/
def QueryContextRequest.puts (r : QueryContextRequest) (name : String) : Prop := name ∈ r.attributeList ∨ name = ""

/-- The same provider, and nothing taken away. -/
structure Extends (r r' : QueryContextRequest) : Prop where
  contextProvider : r'.contextProvider = r.contextProvider
  entityIdVector : r.entityIdVector <+: r'.entityIdVector
  attributeList : r.attributeList <+: r'.attributeList

private theorem Extends.rfl (r : QueryContextRequest) : Extends r r := ⟨.refl _, List.prefix_rfl, List.prefix_rfl⟩

private theorem Extends.trans (a b c : QueryContextRequest) (h : Extends a b) (h' : Extends b c) : Extends a c :=
  ⟨h'.contextProvider.trans h.contextProvider, h.entityIdVector.trans h'.entityIdVector,
    h.attributeList.trans h'.attributeList⟩

private theorem extends_extend (eP : EntityId) (name : String) (r : QueryContextRequest) :
    Extends r (r.extend eP name) := by
  refine ⟨.refl _, ?_, ?_⟩
  · unfold QueryContextRequest.extend pushEntityIfAbsent
    split
    · exact List.prefix_rfl
    · exact List.prefix_append _ _
  · unfold QueryContextRequest.extend pushNameIfAbsent
    split
    · exact List.prefix_rfl
    · exact List.prefix_append _ _

theorem grows_request (attributeList : List String) (requestV : List QueryContextRequest) (ask : Ask) :
    Grows Extends requestV (request attributeList requestV ask) := by
  unfold request
  split
  · exact grows_append Extends.rfl _ _
  · exact grows_place Extends.rfl (fun r _ => extends_extend _ _ r) _

theorem grows_requests (attributeList : List String) (requestV : List QueryContextRequest) (asks : List Ask) :
    Grows Extends requestV (asks.foldl (request attributeList) requestV) := by
  induction asks generalizing requestV with
  | nil => exact grows_refl Extends.rfl _
  | cons ask asks ih => exact (grows_request attributeList requestV ask).trans Extends.trans (ih _)

theorem lists_extend (eP : EntityId) (name : String) (r : QueryContextRequest) : (r.extend eP name).lists eP := by
  unfold QueryContextRequest.lists QueryContextRequest.extend pushEntityIfAbsent
  split
  · assumption
  · simp

theorem mem_attributeList_extend {n : String} :
    n ∈ (r.extend eP name).attributeList ↔ n ∈ r.attributeList ∨ n = name := by
  unfold QueryContextRequest.extend pushNameIfAbsent
  by_cases hname : name ∈ r.attributeList
  · simp only [hname, if_true]
    refine (or_iff_left_of_imp ?_).symm
    rintro rfl
    exact hname
  · simp [hname]

private theorem Extends.lists (h : Extends r r') (hlists : r.lists eP) : r'.lists eP :=
  (h.entityIdVector.map _).subset hlists

private theorem Extends.puts (h : Extends r r') (hputs : r.puts name) : r'.puts name :=
  hputs.imp_left fun hmem => h.attributeList.subset hmem

/-- The request in which an attribute is put. -/
theorem exists_requestAttribute (pa : String) (eP : EntityId) (name : String) (requestV : List QueryContextRequest) :
    ∃ r ∈ requestAttribute pa eP name requestV, r.contextProvider = pa ∧ r.lists eP ∧ r.puts name := by
  obtain ⟨-, heq⟩ | ⟨before, r, after, -, -, hfits, heq⟩ := place_cases (QueryContextRequest.isFor pa eP)
    (QueryContextRequest.extend eP name) (QueryContextRequest.ofAttribute pa eP name) requestV
  · refine ⟨QueryContextRequest.ofAttribute pa eP name, ?_, rfl, ?_, ?_⟩
    · rw [requestAttribute, heq]
      simp
    · exact List.mem_singleton.2 rfl
    · unfold QueryContextRequest.puts QueryContextRequest.ofAttribute
      by_cases hname : name = ""
      · exact Or.inr hname
      · simp [hname]
  · refine ⟨r.extend eP name, ?_, ?_, lists_extend eP name r, Or.inl (mem_attributeList_extend.2 (Or.inr rfl))⟩
    · rw [requestAttribute, heq]
      simp
    · unfold QueryContextRequest.isFor at hfits
      simp only [Bool.and_eq_true, decide_eq_true_eq] at hfits
      exact hfits.1

/-- Every attribute with a provider is put into a request to that provider which lists its entity. -/
theorem exists_request_of_mem {a : Ask} (ha : a ∈ asks) (hname : a.attributeName = some name) :
    ∃ r ∈ requests attributeList asks, r.contextProvider = a.contextProvider ∧ r.lists a.eP ∧ r.puts name := by
  obtain ⟨before, after, rfl⟩ := List.append_of_mem ha
  have hstep : request attributeList (requests attributeList before) a =
      requestAttribute a.contextProvider a.eP name (requests attributeList before) := by
    rw [request, hname]
  obtain ⟨r, hr, hprovider, hlists, hputs⟩ :=
    exists_requestAttribute a.contextProvider a.eP name (requests attributeList before)
  rw [← hstep] at hr
  have hgrows := grows_requests attributeList (request attributeList (requests attributeList before) a) after
  obtain ⟨r', hr', hext⟩ := hgrows.exists_of_mem hr
  refine ⟨r', ?_, hext.contextProvider.trans hprovider, hext.lists hlists, hext.puts hputs⟩
  rw [requests, List.foldl_append]
  exact hr'

end Requests

/-! ### The requests for whole entities -/

section Entities

variable {attributeList : List String} {r r' : QueryContextRequest} {e e1 e2 e3 : EntityId} {name pa : String}
  {asks b a : List Ask} {ask first : Ask}

theorem entityIdMatch_trans (h : entityIdMatch e1 e2 = true) (h' : entityIdMatch e2 e3 = true) :
    entityIdMatch e1 e3 = true := by
  unfold entityIdMatch at *
  grind

theorem entityIdMatch_of_listKey (h : e1.listKey = e2.listKey) : entityIdMatch e1 e2 = true := by
  unfold EntityId.listKey at h
  simp only [Prod.mk.injEq] at h
  simp [entityIdMatch, h.1, h.2.1]

/-- The request of an earlier ask is found for a later one. -/
def Ask.concerns (later earlier : Ask) : Bool :=
  earlier.contextProvider = later.contextProvider && entityIdMatch earlier.eP later.eP

theorem Ask.concerns_trans {x y z : Ask} (h : x.concerns y = true) (h' : y.concerns z = true) :
    x.concerns z = true := by
  unfold Ask.concerns at *
  simp only [Bool.and_eq_true, decide_eq_true_eq] at *
  exact ⟨h'.1.trans h.1, entityIdMatch_trans h'.2 h.2⟩

/-- What `isFor` looks at. -/
def QueryContextRequest.origin (r : QueryContextRequest) : String × Option EntityId :=
  (r.contextProvider, r.entityIdVector.head?)

theorem isFor_eq (pa : String) (e : EntityId) :
    QueryContextRequest.isFor pa e =
      (fun o : String × Option EntityId => decide (o.1 = pa) && o.2.any fun h => entityIdMatch h e) ∘
        QueryContextRequest.origin := rfl

theorem origin_extend (hr : r.entityIdVector ≠ []) (e : EntityId) (name : String) :
    (r.extend e name).origin = r.origin := by
  unfold QueryContextRequest.origin QueryContextRequest.extend pushEntityIfAbsent
  obtain ⟨h, t, heq⟩ := List.exists_cons_of_ne_nil hr
  split <;> simp [heq]

theorem ne_nil_of_isFor (h : r.isFor pa e = true) : r.entityIdVector ≠ [] := by
  rintro hnil
  simp [QueryContextRequest.isFor, hnil] at h

theorem isFor_trans (h : r.isFor pa e1 = true) (h' : entityIdMatch e1 e2 = true) : r.isFor pa e2 = true := by
  unfold QueryContextRequest.isFor at *
  cases hhead : r.entityIdVector.head? with
  | none => simp [hhead] at h
  | some x =>
    simp only [hhead, Option.any_some, Bool.and_eq_true, decide_eq_true_eq] at h ⊢
    exact ⟨h.1, entityIdMatch_trans h.2 h'⟩

/-- The origins of the requests that were there are kept; an attribute may have a new request. -/
theorem map_origin_request (attributeList : List String) (requestV : List QueryContextRequest) (ask : Ask) :
    (request attributeList requestV ask).map QueryContextRequest.origin =
      requestV.map QueryContextRequest.origin ++
        if ask.attributeName.isSome && requestV.any (QueryContextRequest.isFor ask.contextProvider ask.eP) then []
        else [(ask.contextProvider, some ask.eP)] := by
  unfold request
  cases ask.attributeName with
  | none => exact List.map_append
  | some name =>
    have horigin : ∀ r, QueryContextRequest.isFor ask.contextProvider ask.eP r = true →
        (QueryContextRequest.extend ask.eP name r).origin = r.origin := fun r hr =>
      origin_extend (ne_nil_of_isFor hr) _ _
    show (place _ _ _ requestV).map _ = _
    rw [map_place horigin]
    by_cases hany : requestV.any (QueryContextRequest.isFor ask.contextProvider ask.eP) = true
    · simp [hany]
    · simp [hany, QueryContextRequest.origin, QueryContextRequest.ofAttribute]

/-- A request is found for an ask exactly if an earlier ask concerns it. -/
theorem any_isFor_requests (attributeList : List String) (asks : List Ask) (ask : Ask) :
    (requests attributeList asks).any (QueryContextRequest.isFor ask.contextProvider ask.eP) =
      asks.any ask.concerns := by
  induction asks using List.reverseRecOn generalizing ask with
  | nil => rfl
  | append_singleton asks last ih =>
    have hstep : requests attributeList (asks ++ [last]) = request attributeList (requests attributeList asks) last := by
      rw [requests, List.foldl_append]
      rfl
    have hlast : (decide (last.contextProvider = ask.contextProvider) && entityIdMatch last.eP ask.eP) =
        ask.concerns last := rfl
    rw [hstep, isFor_eq, ← List.any_map, map_origin_request, List.any_append, List.any_map, ← isFor_eq, ih, ih,
      List.any_append, List.any_cons, List.any_nil, Bool.or_false]
    split
    · rename_i hfound
      -- the request of the last ask was found for an earlier one, which concerns this one as well
      rw [Bool.and_eq_true, List.any_eq_true] at hfound
      obtain ⟨-, x, hx, hconcerns⟩ := hfound
      cases hc : ask.concerns last with
      | false => rfl
      | true =>
        have hany : asks.any ask.concerns = true := List.any_eq_true.2 ⟨x, hx, Ask.concerns_trans hc hconcerns⟩
        rw [hany]
        rfl
    · rw [← hlast]
      simp

theorem contextProvider_of_isFor (h : r.isFor pa e = true) : r.contextProvider = pa := by
  unfold QueryContextRequest.isFor at h
  simp only [Bool.and_eq_true, decide_eq_true_eq] at h
  exact h.1

/-- All entities of the request are matched by its first one. -/
def QueryContextRequest.Headed (r : QueryContextRequest) : Prop :=
  ∀ e ∈ r.entityIdVector, r.isFor r.contextProvider e = true

private theorem headed_singleton (h : r.entityIdVector = [e]) : r.Headed := by
  intro x hx
  rw [h, List.mem_singleton] at hx
  simp [QueryContextRequest.isFor, h, hx, entityIdMatch]

theorem headed_extend (h : r.Headed) (hfits : r.isFor pa e = true) (name : String) : (r.extend e name).Headed := by
  intro x hx
  have horigin := origin_extend (ne_nil_of_isFor hfits) e name
  rw [isFor_eq, Function.comp_apply, horigin]
  show r.isFor r.contextProvider x = true
  unfold QueryContextRequest.extend pushEntityIfAbsent at hx
  split at hx
  · exact h x hx
  · rw [List.mem_append, List.mem_singleton] at hx
    rcases hx with hx | rfl
    · exact h x hx
    · rw [contextProvider_of_isFor hfits]
      exact hfits

theorem headed_requests (attributeList : List String) (asks : List Ask) :
    ∀ r ∈ requests attributeList asks, r.Headed := by
  induction asks using List.reverseRecOn with
  | nil => exact nofun
  | append_singleton asks last ih =>
    rw [requests, List.foldl_append, List.foldl_cons, List.foldl_nil, request]
    split
    · intro r hr
      rw [List.mem_append, List.mem_singleton] at hr
      rcases hr with hr | rfl
      · exact ih r hr
      · exact headed_singleton rfl
    · exact forall_mem_place ih (fun r hfits hr => headed_extend hr hfits _) (headed_singleton rfl)

/-- The asks for attributes that reach a request behind some others. -/
def reaches (front : List QueryContextRequest) (r : QueryContextRequest) (ask : Ask) : Bool :=
  ask.attributeName.isSome && !front.any (QueryContextRequest.isFor ask.contextProvider ask.eP) &&
    r.isFor ask.contextProvider ask.eP

/-- A request after the asks that reach it. -/
def extended (asks : List Ask) (r : QueryContextRequest) : QueryContextRequest :=
  asks.foldl (fun r ask => ask.attributeName.elim r fun name => r.extend ask.eP name) r

theorem origin_extended (hr : r.entityIdVector ≠ []) (asks : List Ask) :
    (extended asks r).origin = r.origin ∧ (extended asks r).entityIdVector ≠ [] := by
  unfold extended
  induction asks generalizing r with
  | nil => exact ⟨rfl, hr⟩
  | cons ask asks ih =>
    rw [List.foldl_cons]
    cases ask.attributeName with
    | none => exact ih hr
    | some name =>
      have hne : (r.extend ask.eP name).entityIdVector ≠ [] := by
        have hbegins := (extends_extend ask.eP name r).entityIdVector
        exact fun hnil => hr (List.prefix_nil.1 (hnil ▸ hbegins))
      rw [Option.elim_some, ← origin_extend hr ask.eP name]
      exact ih hne

theorem mem_attributeList_extended {n : String} (asks : List Ask) :
    n ∈ (extended asks r).attributeList ↔ n ∈ r.attributeList ∨ ∃ ask ∈ asks, ask.attributeName = some n := by
  unfold extended
  induction asks generalizing r with
  | nil => simp
  | cons ask asks ih =>
    rw [List.foldl_cons, ih, List.exists_mem_cons_iff, ← or_assoc]
    refine or_congr_left ?_
    cases ask.attributeName with
    | none => simp
    | some name =>
      rw [Option.elim_some, mem_attributeList_extend, Option.some.injEq]
      exact or_congr_right eq_comm

/-- A request is not narrowed by names that it has. -/
theorem attributeList_extended (asks : List Ask)
    (h : ∀ ask ∈ asks, ∀ name, ask.attributeName = some name → name ∈ r.attributeList) :
    (extended asks r).attributeList = r.attributeList := by
  unfold extended
  induction asks generalizing r with
  | nil => rfl
  | cons ask asks ih =>
    rw [List.forall_mem_cons] at h
    have hstep : (ask.attributeName.elim r fun name => r.extend ask.eP name).attributeList = r.attributeList := by
      cases hname : ask.attributeName with
      | none => rfl
      | some name => exact if_pos (h.1 name hname)
    rw [List.foldl_cons, ih, hstep]
    rw [hstep]
    exact h.2

/-- The requests after an ask for a whole entity: those in front of its request keep their origins, its own request is
extended by the asks that reach it, and those behind it list what it would have been found for only if they were made
for whole entities, too. -/
theorem requests_split (attributeList : List String) (b a : List Ask) (hfirst : first.attributeName = none) :
    ∃ front back, requests attributeList (b ++ first :: a) =
        front ++ extended (a.filter (reaches (requests attributeList b)
          (QueryContextRequest.ofEntity first.contextProvider first.eP attributeList)))
          (QueryContextRequest.ofEntity first.contextProvider first.eP attributeList) :: back ∧
      front.map QueryContextRequest.origin = (requests attributeList b).map QueryContextRequest.origin ∧
      ∀ r ∈ back, ∀ e ∈ r.entityIdVector,
        (QueryContextRequest.ofEntity first.contextProvider first.eP attributeList).isFor r.contextProvider e = true →
          (⟨r.contextProvider, e, none⟩ : Ask) ∈ a := by
  obtain ⟨r1, hr1⟩ : ∃ r1, r1 = QueryContextRequest.ofEntity first.contextProvider first.eP attributeList := ⟨_, rfl⟩
  rw [← hr1]
  have hne : r1.entityIdVector ≠ [] := by
    rw [hr1]
    exact List.cons_ne_nil _ _
  induction a using List.reverseRecOn with
  | nil =>
    refine ⟨requests attributeList b, [], ?_, rfl, nofun⟩
    rw [requests, List.foldl_append, List.foldl_cons, List.foldl_nil, request, hfirst, hr1]
    rfl
  | append_singleton a last ih =>
    obtain ⟨front, back, hrun, hfront, hback⟩ := ih
    have hstep : requests attributeList (b ++ first :: (a ++ [last])) =
        request attributeList (requests attributeList (b ++ first :: a)) last := by
      rw [← List.cons_append, ← List.append_assoc, requests, List.foldl_append]
      rfl
    have hback' : ∀ r ∈ back, ∀ e ∈ r.entityIdVector, r1.isFor r.contextProvider e = true →
        (⟨r.contextProvider, e, none⟩ : Ask) ∈ a ++ [last] := fun r hr e he hfits =>
      List.mem_append_left _ (hback r hr e he hfits)
    have hany : ∀ pa e, front.any (QueryContextRequest.isFor pa e) =
        (requests attributeList b).any (QueryContextRequest.isFor pa e) := by
      intro pa e
      rw [isFor_eq, ← List.any_map, hfront, List.any_map]
    have hisFor : ∀ pa e, (extended (a.filter (reaches (requests attributeList b) r1)) r1).isFor pa e =
        r1.isFor pa e := by
      intro pa e
      rw [isFor_eq, Function.comp_apply, Function.comp_apply, (origin_extended hne _).1]
    rw [hstep, hrun, List.filter_append, request]
    cases hname : last.attributeName with
    | none =>
      have hskip : reaches (requests attributeList b) r1 last = false := by simp [reaches, hname]
      refine ⟨front, back ++ [QueryContextRequest.ofEntity last.contextProvider last.eP attributeList], ?_, hfront, ?_⟩
      · simp [hskip]
      · intro r hr
        rw [List.mem_append, List.mem_singleton] at hr
        rcases hr with hr | rfl
        · exact hback' r hr
        · intro e he _
          rw [List.mem_singleton.1 he]
          have hlast : (⟨last.contextProvider, last.eP, none⟩ : Ask) = last := by
            rw [← hname]
          exact List.mem_append_right _ (List.mem_singleton.2 hlast)
    | some name =>
      simp only [requestAttribute]
      rw [place_append, hany]
      by_cases hin : (requests attributeList b).any (QueryContextRequest.isFor last.contextProvider last.eP) = true
      · -- the request is found in front
        have hskip : reaches (requests attributeList b) r1 last = false := by simp [reaches, hin]
        have horigin : ∀ r, QueryContextRequest.isFor last.contextProvider last.eP r = true →
            (QueryContextRequest.extend last.eP name r).origin = r.origin := fun r hr =>
          origin_extend (ne_nil_of_isFor hr) _ _
        refine ⟨place (QueryContextRequest.isFor last.contextProvider last.eP) (QueryContextRequest.extend last.eP name)
          (QueryContextRequest.ofAttribute last.contextProvider last.eP name) front, back, ?_, ?_, hback'⟩
        · simp [hin, hskip]
        · rw [map_place horigin, hany, if_pos hin, hfront]
      · rw [if_neg hin, place, hisFor]
        by_cases hhit : r1.isFor last.contextProvider last.eP = true
        · have hreach : reaches (requests attributeList b) r1 last = true := by simp [reaches, hname, hin, hhit]
          refine ⟨front, back, ?_, hfront, hback'⟩
          rw [if_pos hhit, List.filter_cons_of_pos hreach, List.filter_nil]
          unfold extended
          rw [List.foldl_append, List.foldl_cons, List.foldl_nil, hname]
          rfl
        · -- the request is behind, or a new one
          have hskip : reaches (requests attributeList b) r1 last = false := by simp [reaches, hhit]
          refine ⟨front, place (QueryContextRequest.isFor last.contextProvider last.eP)
            (QueryContextRequest.extend last.eP name)
            (QueryContextRequest.ofAttribute last.contextProvider last.eP name) back, ?_, hfront, ?_⟩
          · simp [hhit, hskip]
          · refine forall_mem_place hback' (fun r hfits hr => ?_) fun e he hfits => ?_
            · intro e he hfor
              unfold QueryContextRequest.extend pushEntityIfAbsent at he
              split at he
              · exact hr e he hfor
              · rw [List.mem_append, List.mem_singleton] at he
                rcases he with he | rfl
                · exact hr e he hfor
                · exact absurd (contextProvider_of_isFor hfits ▸ hfor) hhit
            · rw [List.mem_singleton.1 he] at hfits
              exact absurd hfits hhit

/-- Some provider is asked for the whole of an entity. -/
def AskedWhole (attributeList : List String) (asks : List Ask) (ask : Ask) : Prop :=
  ∃ r ∈ requests attributeList asks, r.contextProvider = ask.contextProvider ∧ r.lists ask.eP ∧
    r.attributeList = attributeList

/-- Another ask for the whole of an entity. -/
def Ask.wholeFor (first ask : Ask) : Bool :=
  ask.attributeName.isNone && ask.contextProvider = first.contextProvider && ask.eP.listKey = first.eP.listKey

/-- An attribute that is not in the list of the query is not added to a request for a whole entity, or that entity is
asked for more than once. -/
def NotNarrowed (attributeList : List String) (asks : List Ask) : Prop :=
  ∀ before ask after, asks = before ++ ask :: after → ∀ name, ask.attributeName = some name → name ∉ attributeList →
    ∀ first, before.find? ask.concerns = some first → first.attributeName = none → 2 ≤ asks.countP first.wholeFor

private theorem concerns_of_wholeFor (h : first.wholeFor ask = true) : first.concerns ask = true := by
  unfold Ask.wholeFor at h
  unfold Ask.concerns
  simp only [Bool.and_eq_true, decide_eq_true_eq] at h ⊢
  exact ⟨h.1.2, entityIdMatch_of_listKey h.2⟩

private theorem wholeFor_self (h : first.attributeName = none) : first.wholeFor first = true := by
  simp [Ask.wholeFor, h]

private theorem mem_of_append_cons {x : Ask} : x ∈ b ++ first :: a ↔ x ∈ b ∨ x = first ∨ x ∈ a := by
  rw [List.mem_append, List.mem_cons]

/-- A second ask for a whole entity has a request of its own. -/
private theorem askedWhole_of_again (hfirst : first.attributeName = none) (hagain : b.any first.concerns = true) :
    AskedWhole attributeList (b ++ first :: a) first := by
  obtain ⟨front, back, hrun, -, -⟩ := requests_split attributeList b a hfirst
  have hnone : a.filter (reaches (requests attributeList b)
      (QueryContextRequest.ofEntity first.contextProvider first.eP attributeList)) = [] := by
    rw [List.filter_eq_nil_iff]
    intro ask _ hreach
    unfold reaches at hreach
    simp only [Bool.and_eq_true, Bool.not_eq_true'] at hreach
    obtain ⟨x, hx, hconcerns⟩ := List.any_eq_true.1 hagain
    have hlater : ask.concerns first = true := hreach.2
    have hany : b.any ask.concerns = true := List.any_eq_true.2 ⟨x, hx, Ask.concerns_trans hlater hconcerns⟩
    rw [← any_isFor_requests attributeList, hreach.1.2] at hany
    cases hany
  rw [hnone] at hrun
  refine ⟨QueryContextRequest.ofEntity first.contextProvider first.eP attributeList, ?_, rfl, ?_, rfl⟩
  · rw [hrun]
    exact List.mem_append_right _ List.mem_cons_self
  · exact List.mem_singleton.2 rfl

private theorem lists_extended (asks : List Ask) (h : r.lists e) : (extended asks r).lists e := by
  unfold extended
  induction asks generalizing r with
  | nil => exact h
  | cons ask asks ih =>
    rw [List.foldl_cons]
    cases ask.attributeName with
    | none => exact ih h
    | some name => exact ih ((extends_extend ask.eP name r).lists h)

private theorem contextProvider_extended (asks : List Ask) : (extended asks r).contextProvider = r.contextProvider := by
  unfold extended
  induction asks generalizing r with
  | nil => rfl
  | cons ask asks ih =>
    rw [List.foldl_cons, ih]
    cases ask.attributeName <;> rfl

private theorem reaches_ofEntity (attributeList : List String) (b : List Ask) :
    reaches (requests attributeList b) (QueryContextRequest.ofEntity first.contextProvider first.eP attributeList) ask =
      (ask.attributeName.isSome && !b.any ask.concerns && ask.concerns first) := by
  unfold reaches
  rw [any_isFor_requests]
  rfl

private theorem askedWhole_of_notNarrowed (h : NotNarrowed attributeList asks) (hask : first ∈ asks)
    (hfirst : first.attributeName = none) : AskedWhole attributeList asks first := by
  obtain ⟨b, a, rfl⟩ := List.append_of_mem hask
  by_cases hnarrow : ∃ ask ∈ a, (∃ name, ask.attributeName = some name ∧ name ∉ attributeList) ∧
      b.any ask.concerns = false ∧ ask.concerns first = true
  · obtain ⟨ask, hask, ⟨name, hname, hnot⟩, hbefore, hconcerns⟩ := hnarrow
    obtain ⟨m, after, rfl⟩ := List.append_of_mem hask
    have hfind : (b ++ first :: m).find? ask.concerns = some first := by
      rw [List.find?_append, List.find?_eq_none.2 fun x hx hc => by
        have hany : b.any ask.concerns = true := List.any_eq_true.2 ⟨x, hx, hc⟩
        rw [hbefore] at hany
        cases hany]
      simp [hconcerns]
    have hcount := h (b ++ first :: m) ask after (by simp) name hname hnot first hfind hfirst
    -- another ask for the entity is not in front, where it would concern the attribute
    have hfront : b.countP first.wholeFor = 0 := by
      rw [List.countP_eq_zero]
      intro x hx hwhole
      have hany : b.any ask.concerns = true :=
        List.any_eq_true.2 ⟨x, hx, Ask.concerns_trans hconcerns (concerns_of_wholeFor hwhole)⟩
      rw [hbefore] at hany
      cases hany
    have hrest : 0 < (m ++ ask :: after).countP first.wholeFor := by
      rw [List.countP_append, hfront, List.countP_cons, wholeFor_self hfirst] at hcount
      simp only [if_true] at hcount
      omega
    obtain ⟨second, hsecond, hwhole⟩ := List.countP_pos_iff.1 hrest
    obtain ⟨m', after', heq⟩ := List.append_of_mem hsecond
    have hagain : (b ++ first :: m').any second.concerns = true := by
      have hback : second.concerns first = true := by
        unfold Ask.wholeFor at hwhole
        simp only [Bool.and_eq_true, decide_eq_true_eq] at hwhole
        unfold Ask.concerns
        simp only [Bool.and_eq_true, decide_eq_true_eq]
        exact ⟨hwhole.1.2.symm, entityIdMatch_of_listKey hwhole.2.symm⟩
      exact List.any_eq_true.2 ⟨first, List.mem_append_right _ List.mem_cons_self, hback⟩
    unfold Ask.wholeFor at hwhole
    simp only [Bool.and_eq_true, decide_eq_true_eq, Option.isNone_iff_eq_none] at hwhole
    have hsecondWhole : AskedWhole attributeList (b ++ first :: m' ++ second :: after') second :=
      askedWhole_of_again hwhole.1.1 hagain
    obtain ⟨r, hr, hprovider, hlists, hlist⟩ := hsecondWhole
    refine ⟨r, ?_, hprovider.trans hwhole.1.2, ?_, hlist⟩
    · rw [heq]
      simpa using hr
    · unfold QueryContextRequest.lists at hlists ⊢
      rwa [← hwhole.2]
  · obtain ⟨front, back, hrun, -, -⟩ := requests_split attributeList b a hfirst
    refine ⟨extended (a.filter (reaches (requests attributeList b)
      (QueryContextRequest.ofEntity first.contextProvider first.eP attributeList)))
      (QueryContextRequest.ofEntity first.contextProvider first.eP attributeList), ?_, contextProvider_extended _, ?_,
      attributeList_extended _ ?_⟩
    · rw [hrun]
      exact List.mem_append_right _ List.mem_cons_self
    · exact lists_extended _ (List.mem_singleton.2 rfl)
    · intro ask hask name hname
      rw [List.mem_filter, reaches_ofEntity] at hask
      simp only [Bool.and_eq_true, Bool.not_eq_true'] at hask
      by_contra hnot
      exact hnarrow ⟨ask, hask.1, ⟨name, hname, hnot⟩, hask.2.1.2, hask.2.2⟩

private theorem notNarrowed_of_askedWhole
    (h : ∀ ask ∈ asks, ask.attributeName = none → AskedWhole attributeList asks ask) :
    NotNarrowed attributeList asks := by
  rintro before ask after rfl name hname hnot first hfind hfirst
  obtain ⟨hconcerns, b, m, rfl, hb⟩ := List.find?_eq_some_iff_append.1 hfind
  have hbefore : b.any ask.concerns = false := List.any_eq_false.2 fun x hx => by simpa using hb x hx
  have hsplit : b ++ first :: m ++ ask :: after = b ++ first :: (m ++ ask :: after) := by simp
  rw [hsplit] at h ⊢
  obtain ⟨r, hr, hprovider, hlists, hlist⟩ := h first (mem_of_append_cons.2 (Or.inr (Or.inl rfl))) hfirst
  obtain ⟨front, back, hrun, hfront, hback⟩ := requests_split attributeList b (m ++ ask :: after) hfirst
  have hheaded := headed_requests attributeList (b ++ first :: (m ++ ask :: after)) r hr
  obtain ⟨x, hx, hkey⟩ := List.mem_map.1 hlists
  have hsame : entityIdMatch x first.eP = true := entityIdMatch_of_listKey hkey
  rw [hrun, List.mem_append, List.mem_cons] at hr
  rcases hr with hr | rfl | hr
  · -- a request in front would have been found for the attribute
    have hentity : r.isFor first.contextProvider first.eP = true := hprovider ▸ isFor_trans (hheaded x hx) hsame
    unfold Ask.concerns at hconcerns
    simp only [Bool.and_eq_true, decide_eq_true_eq] at hconcerns
    have hfits : r.isFor ask.contextProvider ask.eP = true := hconcerns.1 ▸ isFor_trans hentity hconcerns.2
    have hany : front.any (QueryContextRequest.isFor ask.contextProvider ask.eP) = true :=
      List.any_eq_true.2 ⟨r, hr, hfits⟩
    rw [isFor_eq, ← List.any_map, hfront, List.any_map, ← isFor_eq, any_isFor_requests, hbefore] at hany
    cases hany
  · -- the request of the first ask has been narrowed
    have hreach : ask ∈ (m ++ ask :: after).filter (reaches (requests attributeList b)
        (QueryContextRequest.ofEntity first.contextProvider first.eP attributeList)) := by
      rw [List.mem_filter, reaches_ofEntity, hbefore, hname, hconcerns]
      exact ⟨List.mem_append_right _ List.mem_cons_self, rfl⟩
    have hmem := (mem_attributeList_extended (n := name) _ (r := QueryContextRequest.ofEntity first.contextProvider
      first.eP attributeList)).2 (Or.inr ⟨ask, hreach, hname⟩)
    rw [hlist] at hmem
    exact absurd hmem hnot
  · -- a request behind was made for the whole entity
    have hfor : (QueryContextRequest.ofEntity first.contextProvider first.eP attributeList).isFor r.contextProvider x =
        true := by
      have hmatch : entityIdMatch first.eP x = true := entityIdMatch_of_listKey hkey.symm
      simp [QueryContextRequest.isFor, QueryContextRequest.ofEntity, hprovider, hmatch]
    have hother := hback r hr x hx hfor
    have hpos : 0 < (m ++ ask :: after).countP first.wholeFor := by
      refine List.countP_pos_iff.2 ⟨_, hother, ?_⟩
      simp [Ask.wholeFor, hprovider, hkey]
    rw [List.countP_append, List.countP_cons, wholeFor_self hfirst]
    simp only [if_true]
    omega

theorem askedWhole_iff :
    (∀ ask ∈ asks, ask.attributeName = none → AskedWhole attributeList asks ask) ↔ NotNarrowed attributeList asks :=
  ⟨notNarrowed_of_askedWhole, fun h _ hask hwhole => askedWhole_of_notNarrowed h hask hwhole⟩

end Entities

/-! ### All that is asked for -/

section All

variable {attributeList : List String} {cers : List ContextElementResponse} {isLocal : ContextElementResponse → Bool}

/-- Every found attribute without a provider is copied once to an entry of its entity, and the local entities have
entries; every attribute with a provider is put into a request to it that lists the entity; and every provider of an
entity has a request for it with the attributes of the query. -/
structure AsksAll (attributeList : List String) (isLocal : ContextElementResponse → Bool)
    (cers : List ContextElementResponse) : Prop where
  localAttributes :
    ((sortAnswer attributeList cers).localQcrs.flatMap ContextElementResponse.attributesOfEntity).Perm
      (cers.flatMap ContextElementResponse.foundLocally)
  localEntities : ∀ cer ∈ cers, isLocal cer = true →
    cer.entity ∈ (sortAnswer attributeList cers).localQcrs.map ContextElementResponse.entity
  attributes : ∀ cer ∈ cers, ∀ aP ∈ cer.contextElement.contextAttributeVector, aP.providingApplication ≠ "" →
    ∃ r ∈ (sortAnswer attributeList cers).requestV, r.contextProvider = aP.providingApplication ∧
      r.lists cer.contextElement.entityId ∧ r.puts aP.name
  entities : ∀ cer ∈ cers, ∀ pa ∈ cer.contextElement.providingApplicationList,
    ∃ r ∈ (sortAnswer attributeList cers).requestV, r.contextProvider = pa ∧ r.lists cer.contextElement.entityId ∧
      r.attributeList = attributeList

/-- The providers are asked for all exactly if every local entity has a found attribute without a provider in some
entry, and no request for a whole entity is narrowed. -/
theorem query_forwarding_iff :
    AsksAll attributeList isLocal cers ↔
      (∀ cer ∈ cers, isLocal cer = true → ∃ cer' ∈ cers, cer'.entity = cer.entity ∧
        ∃ aP ∈ cer'.contextElement.contextAttributeVector, aP.providingApplication = "" ∧ aP.found = true) ∧
      NotNarrowed attributeList (asked cers) := by
  have hrequestV : (sortAnswer attributeList cers).requestV = requests attributeList (asked cers) := by
    rw [sortAnswer_eq]
  have hlocal : ∀ cer : ContextElementResponse, cer.entity ∈ (sortAnswer attributeList cers).localQcrs.map ContextElementResponse.entity ↔
      ∃ cer' ∈ cers, cer'.entity = cer.entity ∧
        ∃ aP ∈ cer'.contextElement.contextAttributeVector, aP.providingApplication = "" ∧ aP.found = true := by
    intro cer
    simp only [entity_localQcrs, isFoundLocal, Bool.and_eq_true, decide_eq_true_eq]
  have hwhole : (∀ cer ∈ cers, ∀ pa ∈ cer.contextElement.providingApplicationList,
      AskedWhole attributeList (asked cers) ⟨pa, cer.contextElement.entityId, none⟩) ↔
        NotNarrowed attributeList (asked cers) := by
    rw [← askedWhole_iff]
    constructor
    · intro h ask hask hnone
      obtain ⟨cer, hcer, hask⟩ := List.mem_flatMap.1 hask
      unfold ContextElementResponse.asks at hask
      rw [List.mem_append, List.mem_map, List.mem_map] at hask
      rcases hask with ⟨pa, hpa, rfl⟩ | ⟨aP, -, rfl⟩
      · exact h cer hcer pa hpa
      · cases hnone
    · intro h cer hcer pa hpa
      have hask := List.mem_append_left ((cer.contextElement.contextAttributeVector.filter fun aP =>
        aP.providingApplication ≠ "").map fun aP =>
          (⟨aP.providingApplication, cer.contextElement.entityId, some aP.name⟩ : Ask))
        (List.mem_map_of_mem (f := fun pa => (⟨pa, cer.contextElement.entityId, none⟩ : Ask)) hpa)
      exact h _ (List.mem_flatMap.2 ⟨cer, hcer, hask⟩) rfl
  constructor
  · intro h
    refine ⟨fun cer hcer hloc => (hlocal cer).1 (h.localEntities cer hcer hloc), hwhole.1 ?_⟩
    intro cer hcer pa hpa
    have hentity := h.entities cer hcer pa hpa
    rwa [hrequestV] at hentity
  · rintro ⟨hentities, hnarrow⟩
    refine ⟨attributes_localQcrs attributeList cers, fun cer hcer hloc => (hlocal cer).2 (hentities cer hcer hloc), ?_, ?_⟩
    · intro cer hcer aP haP hpa
      have hask : (⟨aP.providingApplication, cer.contextElement.entityId, some aP.name⟩ : Ask) ∈ asked cers := by
        refine List.mem_flatMap.2 ⟨cer, hcer, List.mem_append_right _ (List.mem_map.2 ⟨aP, ?_, rfl⟩)⟩
        exact List.mem_filter.2 ⟨haP, by simpa using hpa⟩
      rw [hrequestV]
      exact exists_request_of_mem hask rfl
    · intro cer hcer pa hpa
      rw [hrequestV]
      exact hwhole.2 hnarrow cer hcer pa hpa

end All

/-- An entity for which a provider has an attribute; there may be providers of the whole entity. -/
def entryWithProvider (providingApplicationList : List String) : ContextElementResponse where
  contextElement :=
    { entityId := { id := "E", type := "T", isPattern := "false" }
      providingApplicationList := providingApplicationList
      contextAttributeVector := [{ name := "a", type := "", providingApplication := "http://cp.example/v1" }] }
  statusCode := ⟨.SccOk, ""⟩

/-- The provider is asked for one attribute, where all are queried; and the entity is not in the local response. -/
theorem forwarding_narrows_entity :
    ¬ AsksAll [] (fun _ => false) [entryWithProvider ["http://cp.example/v1"]] ∧
      ¬ AsksAll ["a"] (fun _ => true) [entryWithProvider []] := by
  constructor
  · intro h
    obtain ⟨r, hr, -, -, hempty⟩ := h.entities _ (List.mem_singleton.2 rfl) "http://cp.example/v1"
      (List.mem_singleton.2 rfl)
    have hlists : (sortAnswer [] [entryWithProvider ["http://cp.example/v1"]]).requestV.map QueryContextRequest.attributeList = [["a"]] := by
      decide +kernel
    have hmem := List.mem_map_of_mem (f := QueryContextRequest.attributeList) hr
    rw [hlists, hempty] at hmem
    revert hmem
    decide
  · intro h
    have hmem := h.localEntities _ (List.mem_singleton.2 rfl) rfl
    revert hmem
    decide +kernel

end OrionBroker
