import OrionBroker.KeyedList
import OrionBroker.RegisterContext
import OrionBroker.TypeListing

/-!
# The discovery of registrations (`mongoRegisterContext.cpp`, `mongoDiscoverContextAvailability.cpp`)

A registration is stored under a new id, or in the place of another one, which is named by its id and must have the same
service path.  A discovery lists pages of the registrations that the database selects, in the order of their ids.

After any requests a discovery answers with the last registration that was acknowledged for each id
(`discovery_of_run`).  A page may be answered with an error though there are more registrations behind it, since a
registration may be selected of which nothing is kept.
-/

namespace OrionBroker.Availability

open Bson

/-! ### The last element with a key -/

section Last

variable {α κ : Type*} {key : α → κ} [DecidableEq κ] {l l' : List α}

/-- The last element with a given key. -/
def last (key : α → κ) (k : κ) (l : List α) : Option α := KeyedList.get key k l.reverse

theorem last_append (k : κ) (l : List α) (x : α) : last key k (l ++ [x]) = if key x = k then some x else last key k l := by
  unfold last
  rw [List.reverse_append, List.reverse_singleton, List.singleton_append, KeyedList.get_cons]

theorem last_isSome_iff {k : κ} : (last key k l).isSome = true ↔ k ∈ l.map key := by
  unfold last
  rw [← Option.ne_none_iff_isSome, ne_eq, KeyedList.get_eq_none_iff, not_not, List.map_reverse, List.mem_reverse]

theorem get_of_perm (h : l.Perm l') (hl : (l.map key).Nodup) (k : κ) : KeyedList.get key k l' = KeyedList.get key k l := by
  have hl' : (l'.map key).Nodup := (h.map key).nodup_iff.1 hl
  cases hget : KeyedList.get key k l with
  | none =>
    rw [KeyedList.get_eq_none_iff] at hget ⊢
    rwa [← (h.map key).mem_iff]
  | some x =>
    obtain ⟨hx, rfl⟩ := KeyedList.mem_of_get hget
    exact KeyedList.get_of_nodup hl' (h.mem_iff.1 hx)

/-- A list with different keys is given by its keys and what is under them. -/
theorem filterMap_get_keys (hl : (l.map key).Nodup) : (l.map key).filterMap (fun k => KeyedList.get key k l) = l := by
  have hall : ∀ part ⊆ l, (part.map key).filterMap (fun k => KeyedList.get key k l) = part := by
    intro part
    induction part with
    | nil => exact fun _ => rfl
    | cons x part ih =>
      intro hsubset
      obtain ⟨hx, hrest⟩ := List.cons_subset.1 hsubset
      rw [List.map_cons, List.filterMap_cons, KeyedList.get_of_nodup hl hx, ih hrest]
  exact hall l (List.Subset.refl l)

end Last

/-! ### Registrations -/

/-- A request with what it finds around it.  `OID` reads an id; its exception is that of an assertion, or another one with
a text.  `registrationsFindOne` is the error of the query. -/
structure RegisterCall where
  env : RegisterEnv
  OID : String → Except (Option String) String
  registrationsFindOne : Option String := none
  request : RegisterContextRequest
  registrationId : String
  servicePath : String

structure RegisterContextResponse where
  errorCode : StatusCode
  registrationId : String := ""
  duration : String := ""

def safeGetRegId (call : RegisterCall) : Except StatusCode String :=
  match call.OID call.registrationId with
  | .ok id => .ok id
  | .error none => .error ⟨.SccContextElementNotFound, ""⟩
  | .error (some what) => .error ⟨.SccReceiverInternalError, what⟩

def RegisterCall.sPath (call : RegisterCall) : String :=
  if call.servicePath = "" then DEFAULT_SERVICE_PATH_UPDATES else call.servicePath

/-- The response to what `processRegisterContext` has done. -/
def registered (call : RegisterCall) (id : Option String) (db : AvailabilityDB) : AvailabilityDB × RegisterContextResponse :=
  match processRegisterContext call.env call.request id call.sPath db with
  | .error err => (db, { errorCode := ⟨.SccReceiverInternalError, err⟩ })
  | .ok result => (result.db, { errorCode := ⟨.SccOk, ""⟩, registrationId := result.registrationId, duration := result.duration })

def mongoRegisterContext (call : RegisterCall) (db : AvailabilityDB) : AvailabilityDB × RegisterContextResponse :=
  if call.registrationId = "" then registered call none db
  else
    match safeGetRegId call with
    | .error errorCode => (db, { errorCode := errorCode, registrationId := call.registrationId })
    | .ok id =>
      match call.registrationsFindOne with
      | some err => (db, { errorCode := ⟨.SccReceiverInternalError, err⟩ })
      | none =>
        if db.registrations.any fun r => r.1 = id && r.2.servicePath = some call.sPath then registered call (some id) db
        else
          (db,
            { errorCode := ⟨.SccContextElementNotFound, "registration id: /" ++ call.registrationId ++ "/"⟩
              registrationId := call.registrationId })

/-- What has been acknowledged for an id. -/
def acknowledged (call : RegisterCall) (response : RegisterContextResponse) : Option (String × Registration) :=
  if response.errorCode.code = .SccOk then some (response.registrationId, newRegistration call.env call.request call.sPath)
  else none

/-- The requests one after the other: what is stored, and what has been acknowledged. -/
def registerAll : AvailabilityDB → List RegisterCall → AvailabilityDB × List (String × Registration)
  | db, [] => (db, [])
  | db, call :: calls =>
    let result := mongoRegisterContext call db
    let rest := registerAll result.1 calls
    (rest.1, (acknowledged call result.2).toList ++ rest.2)

/-! ### Discoveries -/

structure DiscoverContextAvailabilityRequest where
  entityIdVector : List EntityId
  attributeList : List String

structure DiscoverContextAvailabilityResponse where
  responseVector : List ContextRegistrationResponse := []
  errorCode : StatusCode := {}

/-- The surroundings of a discovery, with the service paths of the request; `collectionRangedQuery` is the error of the
database. -/
structure DiscoverEnv where
  getCurrentTime : Int
  regexec : String → String → Bool
  pcre : String → Option (String → Bool)
  first : String
  servicePath : List String
  collectionRangedQuery : Option String := none
  /-- The text for a filter that the database refuses. -/
  refused : String

section Discover

variable (env : DiscoverEnv) (request : DiscoverContextAvailabilityRequest)

/-- What `collectionRangedQuery` counts, for a filter that the database accepts. -/
def countRegistrations (docs : List BSONObj) : Nat :=
  docs.countP ((registrationsFilter env.getCurrentTime request.entityIdVector request.attributeList env.first
    env.servicePath).accepts env.pcre)

def processDiscoverContextAvailability (offset limit : Nat) (details : Bool) (docs : List BSONObj) :
    DiscoverContextAvailabilityResponse :=
  match env.collectionRangedQuery, registrationsQuery env.regexec env.pcre env.getCurrentTime request.entityIdVector
      request.attributeList env.first env.servicePath offset limit docs with
  | some err, _ => { errorCode := ⟨.SccReceiverInternalError, err⟩ }
  | none, none => { errorCode := ⟨.SccReceiverInternalError, env.refused⟩ }
  | none, some [] =>
    let count := countRegistrations env request docs
    if details ∧ count > 0 ∧ offset ≥ count then
      { errorCode := ⟨.SccContextElementNotFound, "Number of matching registrations: " ++ toString count ++ ". Offset is " ++
          toString offset⟩ }
    else { errorCode := ⟨.SccContextElementNotFound, ""⟩ }
  | none, some (crr :: crrs) =>
    { responseVector := crr :: crrs
      errorCode := if details then ⟨.SccOk, "Count: " ++ toString (countRegistrations env request docs)⟩ else {} }

def mongoDiscoverContextAvailability (offset limit : Nat) (detailsString : String) (db : AvailabilityDB) :
    DiscoverContextAvailabilityResponse :=
  processDiscoverContextAvailability env request offset limit (Text.strcasecmp "on" detailsString)
    (registrationDocs db.registrations)

end Discover

/-! ### What is stored after a run -/

section Stored

variable {env : RegisterEnv} {request : RegisterContextRequest} {servicePath : String} {db : AvailabilityDB}

/-- A notification changes only the subscriptions. -/
theorem registrations_processAvailabilitySubscription (enV : List EntityId) (attrL : List String) (subId notifyUrl : String)
    (db : AvailabilityDB) :
    (processAvailabilitySubscription env enV attrL subId notifyUrl db).1.registrations = db.registrations := by
  unfold processAvailabilitySubscription
  split <;> rfl

theorem registrations_processSubscriptions (triggerEntitiesV : List EntityId) (subs : List TriggeredSubscription)
    (db : AvailabilityDB) : (processSubscriptions env triggerEntitiesV subs db).1.registrations = db.registrations := by
  induction subs generalizing db with
  | nil => rfl
  | cons t subs ih =>
    unfold processSubscriptions
    dsimp only
    rw [ih, registrations_processAvailabilitySubscription]

theorem registrations_processRegisterContext {id : Option String} {result : RegisterResult}
    (h : processRegisterContext env request id servicePath db = .ok result) :
    result.registrationId = id.getD env.oidInit ∧ result.db.registrations =
      upsertRegistration (id.getD env.oidInit) (newRegistration env request servicePath) db.registrations := by
  unfold processRegisterContext at h
  dsimp only at h
  split at h
  · cases h
  · split at h
    · cases h
    · cases h
      refine ⟨rfl, ?_⟩
      dsimp only
      rw [registrations_processSubscriptions]

end Stored

section Upsert

variable {oid : String} {reg : Registration} {registrations : List (String × Registration)}

theorem keys_upsertRegistration (h : (registrations.map Prod.fst).Nodup) :
    ((upsertRegistration oid reg registrations).map Prod.fst).Nodup := by
  unfold upsertRegistration
  split
  · have hkeys : (registrations.map fun r => if r.1 = oid then (oid, reg) else r).map Prod.fst = registrations.map Prod.fst := by
      rw [List.map_map]
      refine List.map_congr_left fun r _ => ?_
      show (if r.1 = oid then (oid, reg) else r).1 = r.1
      split
      · rename_i heq
        exact heq.symm
      · rfl
    rwa [hkeys]
  · rename_i hnone
    rw [List.map_append, List.nodup_append']
    refine ⟨h, by simp, fun k hk hnew => hnone ?_⟩
    obtain rfl : k = oid := by simpa using hnew
    obtain ⟨r, hr, hkey⟩ := List.mem_map.1 hk
    exact List.any_eq_true.2 ⟨r, hr, by simpa using hkey⟩

theorem get_upsertRegistration (id : String) :
    KeyedList.get Prod.fst id (upsertRegistration oid reg registrations) =
      if oid = id then some (oid, reg) else KeyedList.get Prod.fst id registrations := by
  have hmap : ∀ l : List (String × Registration), KeyedList.get Prod.fst id (l.map fun r => if r.1 = oid then (oid, reg) else r) =
      if oid = id ∧ oid ∈ l.map Prod.fst then some (oid, reg) else KeyedList.get Prod.fst id l := by
    intro l
    induction l with
    | nil => simp [KeyedList.get]
    | cons r l ih =>
      rw [List.map_cons, KeyedList.get_cons, ih, KeyedList.get_cons]
      by_cases hr : r.1 = oid
      · by_cases hid : oid = id <;> simp [hr, hid]
      · by_cases hid : oid = id
        · have hne : r.1 ≠ id := fun heq => hr (heq.trans hid.symm)
          have hmem : oid ∈ (r :: l).map Prod.fst ↔ oid ∈ l.map Prod.fst := by
            rw [List.map_cons, List.mem_cons, or_iff_right (Ne.symm hr)]
          simp only [hmem, if_neg hr, if_neg hne]
        · simp [hr, hid]
  unfold upsertRegistration
  split
  · rename_i hany
    rw [hmap]
    obtain ⟨r, hr, hkey⟩ := List.any_eq_true.1 hany
    have hmem : oid ∈ registrations.map Prod.fst := by
      rw [← of_decide_eq_true hkey]
      exact List.mem_map_of_mem hr
    simp [hmem]
  · rename_i hnone
    rw [KeyedList.get_append, KeyedList.get_cons]
    by_cases hid : oid = id
    · have hget : KeyedList.get Prod.fst id registrations = none := by
        rw [KeyedList.get_eq_none_iff]
        intro hmem
        obtain ⟨r, hr, hkey⟩ := List.mem_map.1 hmem
        exact hnone (List.any_eq_true.2 ⟨r, hr, by simpa [hid] using hkey⟩)
      simp [hid, hget]
    · simp [hid, KeyedList.get]

end Upsert

section Run

variable {db : AvailabilityDB} {calls : List RegisterCall}

/-- The stored registrations are those of a log: each id once, with the last registration for it. -/
structure StoresLast (registrations log : List (String × Registration)) : Prop where
  nodup : (registrations.map Prod.fst).Nodup
  get : ∀ id, KeyedList.get Prod.fst id registrations = last Prod.fst id log

theorem StoresLast.upsert {registrations log : List (String × Registration)} (h : StoresLast registrations log) (oid : String)
    (reg : Registration) : StoresLast (upsertRegistration oid reg registrations) (log ++ [(oid, reg)]) := by
  refine ⟨keys_upsertRegistration h.nodup, fun id => ?_⟩
  rw [get_upsertRegistration, last_append, h.get]

/-- A request changes the registrations as it is acknowledged. -/
theorem storesLast_mongoRegisterContext {log : List (String × Registration)} (h : StoresLast db.registrations log)
    (call : RegisterCall) :
    StoresLast (mongoRegisterContext call db).1.registrations
      (log ++ (acknowledged call (mongoRegisterContext call db).2).toList) := by
  have hregistered : ∀ id, StoresLast (registered call id db).1.registrations
      (log ++ (acknowledged call (registered call id db).2).toList) := by
    intro id
    unfold registered
    split
    · simpa [acknowledged] using h
    · rename_i result hresult
      obtain ⟨hid, hregistrations⟩ := registrations_processRegisterContext hresult
      dsimp only
      rw [acknowledged, if_pos rfl, Option.toList_some, hregistrations, hid]
      exact h.upsert _ _
  have hrefused : ∀ response : RegisterContextResponse, response.errorCode.code ≠ .SccOk →
      StoresLast db.registrations (log ++ (acknowledged call response).toList) := by
    intro response hcode
    simpa [acknowledged, hcode] using h
  unfold mongoRegisterContext
  split
  · exact hregistered none
  · split
    · rename_i errorCode herror
      refine hrefused { errorCode := errorCode, registrationId := call.registrationId } ?_
      unfold safeGetRegId at herror
      split at herror
      · cases herror
      · cases herror
        simp
      · cases herror
        simp
    · split
      · rename_i err _
        exact hrefused { errorCode := ⟨.SccReceiverInternalError, err⟩ } (by simp)
      · split
        · exact hregistered _
        · exact hrefused
            { errorCode := ⟨.SccContextElementNotFound, "registration id: /" ++ call.registrationId ++ "/"⟩
              registrationId := call.registrationId } (by simp)

theorem storesLast_registerAll (calls : List RegisterCall) {log : List (String × Registration)}
    (h : StoresLast db.registrations log) :
    StoresLast (registerAll db calls).1.registrations (log ++ (registerAll db calls).2) := by
  induction calls generalizing db log with
  | nil => simpa [registerAll] using h
  | cons call calls ih =>
    unfold registerAll
    dsimp only
    rw [← List.append_assoc]
    exact ih (storesLast_mongoRegisterContext h call)

end Run

/-! ### What is discovered -/

/-- The ids of a log in order. -/
def loggedIds (log : List (String × Registration)) : List String := (log.map Prod.fst).dedup.insertionSort (· ≤ ·)

/-- The last registration for each id. -/
def latest (log : List (String × Registration)) : List Registration :=
  (loggedIds log).filterMap fun id => (last Prod.fst id log).map Prod.snd

theorem registrationDocs_eq {registrations log : List (String × Registration)} (h : StoresLast registrations log) :
    registrationDocs registrations = (latest log).map Registration.toBson := by
  have hperm := List.perm_insertionSort (fun r r' : String × Registration => r.1 ≤ r'.1) registrations
  have hnodup : ((registrations.insertionSort fun r r' => r.1 ≤ r'.1).map Prod.fst).Nodup :=
    (hperm.map Prod.fst).nodup_iff.2 h.nodup
  have hkeys : (registrations.insertionSort fun r r' => r.1 ≤ r'.1).map Prod.fst = loggedIds log := by
    refine List.Perm.eq_of_pairwise (fun (a b : String) _ _ (hab : a ≤ b) (hba : b ≤ a) => le_antisymm hab hba) ?_ ?_ ?_
    · rw [List.pairwise_map]
      exact List.pairwise_insertionSort _ _
    · exact List.pairwise_insertionSort _ _
    · refine (List.perm_ext_iff_of_nodup hnodup ?_).2 fun id => ?_
      · exact (List.perm_insertionSort _ _).nodup_iff.2 (List.nodup_dedup _)
      · unfold loggedIds
        have hstored : id ∈ registrations.map Prod.fst ↔ (last Prod.fst id log).isSome = true := by
          rw [← h.get, ← Option.ne_none_iff_isSome, ne_eq, KeyedList.get_eq_none_iff, not_not]
        rw [(hperm.map Prod.fst).mem_iff, hstored, (List.perm_insertionSort _ _).mem_iff, List.mem_dedup, last_isSome_iff]
  unfold registrationDocs latest
  rw [← hkeys]
  conv_lhs => rw [← filterMap_get_keys hnodup]
  rw [List.map_filterMap, List.map_filterMap]
  refine List.filterMap_congr fun id _ => ?_
  rw [get_of_perm hperm.symm h.nodup, h.get, Option.map_map]
  rfl

section Discovery

variable (env : DiscoverEnv) (request : DiscoverContextAvailabilityRequest)

/-- A discovery finds a registration: by one of its entities, with a time left, by one of its attributes if any are asked
for, and in a service path of the request. -/
def Found (r : Registration) : Prop :=
  (∃ en ∈ request.entityIdVector, Selects env.pcre en r) ∧ env.getCurrentTime < r.expiration ∧
    (request.attributeList = [] ∨ ∃ cr ∈ r.contextRegistration, ∃ a ∈ cr.attrs.getD [], a.name ∈ request.attributeList) ∧
      r.InPath env.pcre env.first env.servicePath = true

instance (r : Registration) : Decidable (Found env request r) := by unfold Found; infer_instance

/-- The registrations that are found after a log. -/
def foundIn (log : List (String × Registration)) : List Registration := (latest log).filter fun r => Found env request r

/-- What is kept of the registrations of a page. -/
def keptOfPage (offset limit : Nat) (found : List Registration) : List ContextRegistrationResponse :=
  (if limit = 0 then found.drop offset else (found.drop offset).take limit).flatMap
    (Registration.kept env.regexec request.entityIdVector request.attributeList)

/-- The error code for a page. -/
def errorCodeOfPage (details : Bool) (offset limit : Nat) (found : List Registration) : StatusCode :=
  if keptOfPage env request offset limit found ≠ [] then
    if details then ⟨.SccOk, "Count: " ++ toString found.length⟩ else {}
  else if details ∧ 0 < found.length ∧ found.length ≤ offset then
    ⟨.SccContextElementNotFound, "Number of matching registrations: " ++ toString found.length ++ ". Offset is " ++
      toString offset⟩
  else ⟨.SccContextElementNotFound, ""⟩

variable {env request}

theorem accepts_iff_found {r : Registration} :
    (registrationsFilter env.getCurrentTime request.entityIdVector request.attributeList env.first env.servicePath).accepts
      env.pcre r.toBson = decide (Found env request r) := by
  rw [Bool.eq_iff_iff, decide_eq_true_eq]
  exact accepts_registrationsFilter_iff

theorem countRegistrations_eq (log : List (String × Registration)) :
    countRegistrations env request ((latest log).map Registration.toBson) = (foundIn env request log).length := by
  unfold countRegistrations foundIn
  rw [List.countP_map, List.countP_eq_length_filter]
  simp only [Function.comp_def, accepts_iff_found]

theorem kept_of_doc (regexec : String → String → Bool) (enV : List EntityId) (attrL : List String) (r : Registration) :
    ((arrayItems r.toBson "contextRegistration").filterMap fun cr =>
      processContextRegistrationElement regexec enV attrL (embeddedObject cr)) = r.kept regexec enV attrL := by
  have hitems : arrayItems r.toBson "contextRegistration" = r.contextRegistration.map fun cr => .object cr.toBson := by
    unfold arrayItems Registration.toBson
    cases r.servicePath <;> simp [lookup_cons_eq]
  rw [hitems, Registration.kept, List.filterMap_map]
  rfl

theorem registrationsQuery_page (hcompiles : queryCompiles env.pcre request.entityIdVector env.first env.servicePath = true)
    (offset limit : Nat) (log : List (String × Registration)) :
    registrationsQuery env.regexec env.pcre env.getCurrentTime request.entityIdVector request.attributeList env.first
        env.servicePath offset limit ((latest log).map Registration.toBson) =
      some (keptOfPage env request offset limit (foundIn env request log)) := by
  -- without offset and limit the query gives all, so that the filter is one that the database accepts
  have hall := @registrationsQuery_all env.regexec env.pcre env.getCurrentTime request.entityIdVector request.attributeList
    env.first env.servicePath (latest log)
  rw [if_pos hcompiles, registrationsQuery, Option.map_eq_some_iff] at hall
  obtain ⟨docs, hfind, -⟩ := hall
  have hdocs : docs = (foundIn env request log).map Registration.toBson := by
    unfold find at hfind
    split at hfind
    · rw [← Option.some.inj hfind, List.filter_map]
      simp only [Function.comp_def, accepts_iff_found]
      rfl
    · cases hfind
  rw [registrationsQuery, hfind, hdocs, Option.map_some]
  dsimp only
  unfold keptOfPage
  rw [← List.map_drop, ← List.map_take]
  split
  · rw [List.flatMap_map]
    simp only [kept_of_doc]
  · rw [List.flatMap_map]
    simp only [kept_of_doc]

/-- The response for a page. -/
theorem response_of_page {db : AvailabilityDB} {log : List (String × Registration)} (h : StoresLast db.registrations log)
    (hanswers : env.collectionRangedQuery = none)
    (hcompiles : queryCompiles env.pcre request.entityIdVector env.first env.servicePath = true) (offset limit : Nat)
    (detailsString : String) :
    mongoDiscoverContextAvailability env request offset limit detailsString db =
      { responseVector := keptOfPage env request offset limit (foundIn env request log)
        errorCode := errorCodeOfPage env request (Text.strcasecmp "on" detailsString) offset limit (foundIn env request log) } := by
  unfold mongoDiscoverContextAvailability processDiscoverContextAvailability
  rw [registrationDocs_eq h, hanswers, registrationsQuery_page hcompiles, countRegistrations_eq]
  unfold errorCodeOfPage
  generalize foundIn env request log = found
  cases keptOfPage env request offset limit found with
  | nil =>
    simp only [ne_eq, not_true_eq_false, if_false, gt_iff_lt, ge_iff_le]
    split <;> rfl
  | cons crr crrs => simp only [ne_eq, reduceCtorEq, not_false_eq_true, if_true]

theorem storesLast_of_run {db : AvailabilityDB} (hempty : db.registrations = []) (calls : List RegisterCall) :
    StoresLast (registerAll db calls).1.registrations (registerAll db calls).2 := by
  have hinitial : StoresLast db.registrations [] := by
    rw [hempty]
    exact ⟨List.nodup_nil, fun id => rfl⟩
  have hstored := storesLast_registerAll calls hinitial
  rwa [List.nil_append] at hstored

/-- After any requests, a discovery finds the last registrations that were acknowledged for each id, and lists a page of
them. -/
theorem discovery_of_run {db : AvailabilityDB} (hempty : db.registrations = []) (calls : List RegisterCall)
    (hanswers : env.collectionRangedQuery = none)
    (hcompiles : queryCompiles env.pcre request.entityIdVector env.first env.servicePath = true) (offset limit : Nat)
    (detailsString : String) :
    let found := foundIn env request (registerAll db calls).2
    let response := mongoDiscoverContextAvailability env request offset limit detailsString (registerAll db calls).1
    response.responseVector = keptOfPage env request offset limit found ∧
      response.errorCode = errorCodeOfPage env request (Text.strcasecmp "on" detailsString) offset limit found := by
  dsimp only
  rw [response_of_page (storesLast_of_run hempty calls) hanswers hcompiles]
  exact ⟨rfl, rfl⟩

/-- The pages one after the other give everything, once; a page is answered with an error if nothing is kept of its
registrations, even if there are others behind it. -/
theorem pages_of_discovery {db : AvailabilityDB} (hempty : db.registrations = []) (calls : List RegisterCall)
    (hanswers : env.collectionRangedQuery = none)
    (hcompiles : queryCompiles env.pcre request.entityIdVector env.first env.servicePath = true) {limit pages : Nat}
    (hlimit : 0 < limit) (hpages : (foundIn env request (registerAll db calls).2).length ≤ pages * limit)
    (detailsString : String) :
    let found := foundIn env request (registerAll db calls).2
    let page := fun i => mongoDiscoverContextAvailability env request (i * limit) limit detailsString (registerAll db calls).1
    ((List.range pages).flatMap fun i => (page i).responseVector) =
        found.flatMap (Registration.kept env.regexec request.entityIdVector request.attributeList) ∧
      ∀ i, (page i).errorCode.code = .SccContextElementNotFound ↔ ∀ r ∈ (found.drop (i * limit)).take limit,
        ∀ cr ∈ r.contextRegistration, ¬cr.Kept env.regexec request.entityIdVector request.attributeList := by
  dsimp only
  simp only [response_of_page (storesLast_of_run hempty calls) hanswers hcompiles]
  generalize foundIn env request (registerAll db calls).2 = found at hpages
  have hpage : ∀ i, keptOfPage env request (i * limit) limit found = ((found.drop (i * limit)).take limit).flatMap
      (Registration.kept env.regexec request.entityIdVector request.attributeList) := by
    intro i
    rw [keptOfPage, if_neg (by omega)]
  constructor
  · simp only [hpage]
    rw [← List.flatMap_assoc, TypeListing.flatMap_pages, List.take_of_length_le hpages]
  · intro i
    have hnone : keptOfPage env request (i * limit) limit found = [] ↔ ∀ r ∈ (found.drop (i * limit)).take limit,
        ∀ cr ∈ r.contextRegistration, ¬cr.Kept env.regexec request.entityIdVector request.attributeList := by
      rw [hpage, List.flatMap_eq_nil_iff]
      refine forall_congr' fun r => forall_congr' fun _ => ?_
      rw [← not_iff_not, ← ne_eq, kept_ne_nil_iff]
      push Not
      rfl
    rw [← hnone]
    unfold errorCodeOfPage
    by_cases hkept : keptOfPage env request (i * limit) limit found = []
    · rw [if_neg (not_not.2 hkept)]
      refine iff_of_true ?_ hkept
      split <;> rfl
    · rw [if_pos hkept]
      refine iff_of_false ?_ hkept
      split <;> simp

end Discovery

/-! ### A registration that is replaced -/

/-- The surroundings of a request at some time, with the id that a new registration would get. -/
def registering (now : Int) (oidInit : String) : RegisterEnv where
  getCurrentTime := now
  parse8601 := fun _ => 3600
  oidInit := oidInit
  regexec := fun pattern s => pattern = s
  pcre := fun _ => some fun s => s.toList.head? = some '/'
  jsArray := fun _ => some []
  jsMatch := fun s pattern => pattern = s

/-- A registration of the attribute `temperature` of `Room1`. -/
def registersRoom (now : Int) (registrationId application : String) : RegisterCall where
  env := registering now "51307b66f481db11bf860001"
  OID := fun id => .ok id
  request :=
    { contextRegistrationVector :=
        [{ entityIdVector := [{ id := "Room1", type := "Room", isPattern := "false" }]
           contextRegistrationAttributeVector := [⟨"temperature", "float", "false"⟩]
           providingApplication := application }] }
  registrationId := registrationId
  servicePath := ""

def discovering (now : Int) : DiscoverEnv where
  getCurrentTime := now
  regexec := fun pattern s => pattern = s
  pcre := fun _ => some fun s => s.toList.head? = some '/'
  first := ""
  servicePath := []
  refused := ""

def asksRoom : DiscoverContextAvailabilityRequest where
  entityIdVector := [{ id := "Room1", type := "Room", isPattern := "false" }]
  attributeList := ["temperature"]

/-- Registers `Room1`, and then again under the id that was given. -/
def registersRoomTwice : List RegisterCall :=
  [registersRoom 0 "" "http://old", registersRoom 10 "51307b66f481db11bf860001" "http://new"]

example : (registerAll ⟨[], []⟩ registersRoomTwice).2.map Prod.fst = ["51307b66f481db11bf860001", "51307b66f481db11bf860001"] := by
  decide

theorem discovery_replaced :
    let found := foundIn (discovering 20) asksRoom (registerAll ⟨[], []⟩ registersRoomTwice).2
    let response := mongoDiscoverContextAvailability (discovering 20) asksRoom 0 20 "on" (registerAll ⟨[], []⟩ registersRoomTwice).1
    response.responseVector = keptOfPage (discovering 20) asksRoom 0 20 found ∧
      response.errorCode = errorCodeOfPage (discovering 20) asksRoom (Text.strcasecmp "on" "on") 0 20 found :=
  discovery_of_run rfl registersRoomTwice rfl (by decide) 0 20 "on"

theorem pages_replaced :
    let found := foundIn (discovering 20) asksRoom (registerAll ⟨[], []⟩ registersRoomTwice).2
    let page := fun i => mongoDiscoverContextAvailability (discovering 20) asksRoom (i * 1) 1 "on"
      (registerAll ⟨[], []⟩ registersRoomTwice).1
    ((List.range 3).flatMap fun i => (page i).responseVector) =
        found.flatMap (Registration.kept (discovering 20).regexec asksRoom.entityIdVector asksRoom.attributeList) ∧
      ∀ i, (page i).errorCode.code = .SccContextElementNotFound ↔ ∀ r ∈ (found.drop (i * 1)).take 1,
        ∀ cr ∈ r.contextRegistration, ¬cr.Kept (discovering 20).regexec asksRoom.entityIdVector asksRoom.attributeList :=
  pages_of_discovery rfl registersRoomTwice rfl (by decide) (by decide) (by decide) "on"

end OrionBroker.Availability
