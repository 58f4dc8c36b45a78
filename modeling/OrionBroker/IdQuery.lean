import OrionBroker.ForbiddenChars
import OrionBroker.InitialNotification
import OrionBroker.SearchPattern
import OrionBroker.ServicePath

/-!
# Queries by a list of ids (`getEntities.cpp`)

The ids of the URI parameter `id` are put between anchors and joined to one pattern, which the database searches for in
the ids of the entities.  Nothing of them is escaped, so the query is exact if no id has a character with a special
meaning; of the lists whose pattern can be read it is exact for no others (`id_query_exact_iff`).
-/

namespace OrionBroker

open SearchPattern InitialNotification

/-! ### The query -/

/-- The loop over `idsV`; `ix` is the number of ids before. -/
def idsPattern (pattern : String) : Nat → List String → String
  | _, [] => pattern
  | ix, id :: idsV => idsPattern (pattern ++ (if ix ≠ 0 then "|^" else "^") ++ (id ++ "$")) (ix + 1) idsV

/-- The pattern of the query, or the error if both parameters are used. -/
def entitiesPattern (id idPattern : String) : Except String String :=
  if idPattern ≠ "" && id ≠ "" then .error "Incompatible parameters: id, IdPattern"
  else if id ≠ "" then .ok (idsPattern "" 0 (stringSplit id ','))
  else if idPattern ≠ "" then .ok idPattern
  else .ok ".*"

/-- The entities of the query: one for each type of the URI parameter `type`. -/
def queriedEntities (pattern type : String) (uriParamTypes : List String) : List EntityId :=
  match uriParamTypes with
  | [] => [{ id := pattern, type := "", isPattern := "true" }]
  | [_] => [{ id := pattern, type := type, isPattern := "true" }]
  | _ => uriParamTypes.map fun t => { id := pattern, type := t, isPattern := "true" }

/-- An id that an entity can have: it is not empty (`EntityId::check`), and no character of it is forbidden. -/
structure AcceptedId (checkIdv1 : Bool) (id : String) : Prop where
  nonempty : id ≠ ""
  chars : forbiddenIdChars checkIdv1 .v2 id [] = false

/-- The database searches ids for patterns as usual. -/
def Searches (store : EntityStore) : Prop :=
  ∀ pattern id : String, Readable pattern.toList → '\n' ∉ id.toList →
    (store.regexHolds pattern id = true ↔ Found pattern.toList id.toList)

/-- The query for a list of ids selects the entities that have one of them, and one of the types. -/
def ExactQuery (checkIdv1 : Bool) (store : EntityStore) (ids : List String) : Prop :=
  ∀ pattern, entitiesPattern (",".intercalate ids) "" = .ok pattern → ∀ type uriParamTypes,
    ∀ en ∈ queriedEntities pattern type uriParamTypes, ∀ d : EntityDoc, AcceptedId checkIdv1 d.id →
      (store.matchesEntity d en = true ↔ d.id ∈ ids ∧ (en.type = "" ∨ d.type = en.type))

/-! ### The pattern of the ids -/

section Pattern

variable {checkIdv1 : Bool} {store : EntityStore} {ids : List String}

theorem idsPattern_toList (pattern : String) (ix : Nat) (idsV : List String) (hix : ix ≠ 0) :
    (idsPattern pattern ix idsV).toList =
      pattern.toList ++ (idsV.map String.toList).flatMap fun text => '|' :: '^' :: (text ++ ['$']) := by
  induction idsV generalizing pattern ix with
  | nil => simp [idsPattern]
  | cons id idsV ih =>
    rw [idsPattern, ih _ _ (Nat.succ_ne_zero ix), if_pos hix]
    simp

/-- The pattern is the one of the alternatives. -/
theorem idsPattern_eq (id : String) (idsV : List String) :
    (idsPattern "" 0 (id :: idsV)).toList = alternatives id.toList (idsV.map String.toList) := by
  rw [idsPattern, idsPattern_toList _ _ _ (Nat.succ_ne_zero 0)]
  simp [alternatives]

theorem stringSplit_intercalate (hne : ids ≠ []) (hids : ∀ id ∈ ids, id ≠ "" ∧ ',' ∉ id.toList) :
    stringSplit (",".intercalate ids) ',' = ids := by
  obtain ⟨id, idsV, rfl⟩ := List.exists_cons_of_ne_nil hne
  obtain ⟨hid, hcomma⟩ := hids id List.mem_cons_self
  obtain ⟨c, s, hs⟩ := List.exists_cons_of_ne_nil fun hnil => hid (String.toList_eq_nil_iff.1 hnil)
  have htext : (",".intercalate (id :: idsV)).toList = [','].intercalate ((id :: idsV).map String.toList) :=
    String.toList_intercalate
  obtain ⟨t, ht⟩ : ∃ t, (",".intercalate (id :: idsV)).toList = c :: t := by
    rw [htext]
    cases idsV with
    | nil => exact ⟨s, by simp [hs]⟩
    | cons id' idsV =>
      rw [List.map_cons, List.map_cons, List.intercalate_cons_cons, hs]
      exact ⟨_, rfl⟩
  have hc : c ≠ ',' := by
    rintro rfl
    exact hcomma (by rw [hs]; exact List.mem_cons_self)
  -- the first id is not empty, so no comma is skipped
  have hskip : (",".intercalate (id :: idsV)).toList.dropWhile (· = ',') = (",".intercalate (id :: idsV)).toList := by
    rw [ht, List.dropWhile_cons_of_neg (by simpa using hc)]
  have hne' : (",".intercalate (id :: idsV)).toList ≠ [] := by
    rw [ht]
    exact List.cons_ne_nil _ _
  rw [stringSplit, hskip, if_neg hne', htext, List.splitOn_intercalate]
  · simp
  · exact List.forall_mem_map.2 fun t ht => (hids t ht).2
  · simp

theorem AcceptedId.char_forbidden {id : String} (h : AcceptedId checkIdv1 id) {c : Char} (hc : c ∈ id.toList) :
    idForbidden c = false := by
  have hall := h.chars
  rw [forbiddenIdChars, if_neg (by simp)] at hall
  simpa using List.any_eq_false.1 hall c hc

theorem AcceptedId.of_chars {s : List Char} (hne : s ≠ []) (h : ∀ c ∈ s, idForbidden c = false) :
    AcceptedId checkIdv1 (String.ofList s) := by
  refine ⟨?_, ?_⟩
  · intro hempty
    apply hne
    simpa using congrArg String.toList hempty
  · rw [forbiddenIdChars, if_neg (by simp), String.toList_ofList]
    exact List.any_eq_false.2 fun c hc => by simp [h c hc]

theorem mem_queriedEntities {pattern type : String} {uriParamTypes : List String} {en : EntityId}
    (h : en ∈ queriedEntities pattern type uriParamTypes) : en.id = pattern ∧ en.isPattern = "true" := by
  unfold queriedEntities at h
  split at h
  · rw [List.mem_singleton.1 h]
    exact ⟨rfl, rfl⟩
  · rw [List.mem_singleton.1 h]
    exact ⟨rfl, rfl⟩
  · obtain ⟨t, -, rfl⟩ := List.mem_map.1 h
    exact ⟨rfl, rfl⟩

theorem entitiesPattern_ids (hne : ids ≠ []) (hids : ∀ id ∈ ids, id ≠ "" ∧ ',' ∉ id.toList) :
    entitiesPattern (",".intercalate ids) "" = .ok (idsPattern "" 0 ids) := by
  have hsplit := stringSplit_intercalate hne hids
  have hgiven : ",".intercalate ids ≠ "" := by
    intro hempty
    rw [hempty] at hsplit
    exact hne hsplit.symm
  simp [entitiesPattern, hgiven, hsplit]

/-- The query is exact if the pattern finds the ids and no others. -/
theorem exactQuery_iff (hne : ids ≠ []) (hids : ∀ id ∈ ids, AcceptedId checkIdv1 id ∧ ',' ∉ id.toList) :
    ExactQuery checkIdv1 store ids ↔
      ∀ e, AcceptedId checkIdv1 e → (store.regexHolds (idsPattern "" 0 ids) e = true ↔ e ∈ ids) := by
  have hpattern := entitiesPattern_ids hne fun id hid => ⟨(hids id hid).1.nonempty, (hids id hid).2⟩
  constructor
  · intro h e he
    have hdoc := h _ hpattern "" [] { id := idsPattern "" 0 ids, type := "", isPattern := "true" } (by simp [queriedEntities])
      { id := e, type := "", servicePath := "/", attrNames := [], attrs := [], creDate := none, modDate := none,
        location := none } he
    simpa [EntityStore.matchesEntity] using hdoc
  · intro h pattern hok type uriParamTypes en hen d hd
    rw [hpattern] at hok
    cases hok
    obtain ⟨hid, hisPattern⟩ := mem_queriedEntities hen
    simp [EntityStore.matchesEntity, hid, hisPattern, h d.id hd]

theorem AcceptedId.no_newline {id : String} (h : AcceptedId checkIdv1 id) : '\n' ∉ id.toList := by
  intro hmem
  have hforbidden := h.char_forbidden hmem
  revert hforbidden
  decide

/-- A query for a list of ids is exact, if no id has a special character; a list whose pattern can be read is queried
exactly for no other reason. -/
theorem id_query_exact_iff (hsearches : Searches store) (hne : ids ≠ [])
    (hids : ∀ id ∈ ids, AcceptedId checkIdv1 id ∧ ',' ∉ id.toList) :
    ((∀ id ∈ ids, inert id.toList = true) → ExactQuery checkIdv1 store ids) ∧
      (Readable (idsPattern "" 0 ids).toList → ExactQuery checkIdv1 store ids → ∀ id ∈ ids, inert id.toList = true) := by
  rw [exactQuery_iff hne hids]
  obtain ⟨first, rest, rfl⟩ := List.exists_cons_of_ne_nil hne
  have hpattern := idsPattern_eq first rest
  have hmem : ∀ e : String, e.toList ∈ first.toList :: rest.map String.toList ↔ e ∈ first :: rest := by
    intro e
    rw [← List.map_cons, List.mem_map]
    exact ⟨fun ⟨id, hid, heq⟩ => String.toList_inj.1 heq ▸ hid, fun h => ⟨e, h, rfl⟩⟩
  have htexts : ∀ {p : List Char → Prop}, (∀ id ∈ first :: rest, p id.toList) →
      ∀ text ∈ first.toList :: rest.map String.toList, p text := by
    intro p hp text htext
    rw [← List.map_cons] at htext
    obtain ⟨id, hid, rfl⟩ := List.mem_map.1 htext
    exact hp id hid
  constructor
  · intro hinert e he
    have hinert : ∀ text ∈ first.toList :: rest.map String.toList, inert text = true := htexts hinert
    rw [hsearches _ e (by rw [hpattern]; exact readable_alternatives hinert) he.no_newline, hpattern,
      found_alternatives hinert, hmem]
  · intro hread hexact id hid
    have hforbidden : idForbidden ',' = false := by decide
    have hallowed : ∀ text ∈ first.toList :: rest.map String.toList, ∀ c ∈ text, idForbidden c = false :=
      htexts (p := fun text => ∀ c ∈ text, idForbidden c = false) fun id hid c hc => (hids id hid).1.char_forbidden hc
    refine inert_of_found_iff (x := ',') (by decide)
      (htexts fun id hid => ⟨fun hnil => (hids id hid).1.nonempty (String.toList_eq_nil_iff.1 hnil), (hids id hid).2⟩)
      ?_ ?_ id.toList ((hmem id).2 hid)
    · obtain ⟨ts, hts, -⟩ := hread
      rw [← hpattern, hts]
      rfl
    · -- a string of accepted characters is the id of an entity
      intro s hs hchars
      have haccepted : AcceptedId checkIdv1 (String.ofList s) := by
        refine .of_chars hs fun c hc => ?_
        rcases hchars c hc with rfl | ⟨text, htext, hc⟩
        · exact hforbidden
        · exact hallowed text htext c hc
      have hfound := hsearches _ _ hread haccepted.no_newline
      rw [hexact _ haccepted, hpattern, ← hmem, String.toList_ofList] at hfound
      exact hfound.symm

/-- A database that searches as usual. -/
theorem exists_searches : ∃ store, Searches store := by
  classical
  let store : EntityStore :=
    { docs := none
      regexHolds := fun pattern id => decide (Found pattern.toList id.toList)
      inServicePath := fun _ => true
      passesRestriction := fun _ => true
      passesExpression := fun _ _ => true }
  refine ⟨store, ?_⟩
  intro pattern id _ _
  exact decide_eq_true_iff

theorem rooms_exact : ∃ store, Searches store ∧ ExactQuery false store ["Room1", "Room-2\x7bb\x7d"] := by
  obtain ⟨store, hstore⟩ := exists_searches
  refine ⟨store, hstore, (id_query_exact_iff hstore (by simp) ?_).1 (by decide)⟩
  intro id hid
  simp only [List.mem_cons, List.not_mem_nil, or_false] at hid
  rcases hid with rfl | rfl
  · exact ⟨⟨by decide, by decide⟩, by decide⟩
  · exact ⟨⟨by decide, by decide⟩, by decide⟩

/-- The dot of an id stands for other characters too. -/
theorem dot_selects_others : ¬∀ (checkIdv1 : Bool) (store : EntityStore) (ids : List String), Searches store → ids ≠ [] →
    (∀ id ∈ ids, AcceptedId checkIdv1 id ∧ ',' ∉ id.toList) → ExactQuery checkIdv1 store ids := by
  intro h
  obtain ⟨store, hstore⟩ := exists_searches
  have hids : ∀ id ∈ ["a.b"], AcceptedId false id ∧ ',' ∉ id.toList := by
    intro id hid
    rw [List.mem_singleton.1 hid]
    exact ⟨⟨by decide, by decide⟩, by decide⟩
  have hexact := (exactQuery_iff (by simp) hids).1 (h false store ["a.b"] hstore (by simp) hids) "axb" ⟨by decide, by decide⟩
  have hlex : lex .between "^a.b$".toList =
      some [.start, .char 'a' false, .any, .char 'b' false, .finish] := by decide
  have hfound : Found "^a.b$".toList "axb".toList := by
    refine ⟨_, hlex, by unfold Valid; decide, [.start, .char 'a' false, .any, .char 'b' false, .finish], ?_, [],
      "axb".toList, rfl, .start ?_⟩
    · rw [branches, List.splitOnP_eq_singleton (by decide)]
      exact List.mem_singleton_self _
    · exact .once rfl (by decide) (.once rfl (by decide) (.once rfl (by decide) (.finish (.done _ _))))
  have hpattern : idsPattern "" 0 ["a.b"] = "^a.b$" := by decide
  rw [hpattern] at hexact
  have hread : Readable "^a.b$".toList := ⟨_, hlex, by decide⟩
  exact absurd (hexact.1 ((hstore _ "axb" hread (by decide)).2 hfound)) (by decide)

end Pattern

end OrionBroker
