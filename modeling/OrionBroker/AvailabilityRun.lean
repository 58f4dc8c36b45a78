import OrionBroker.AvailabilityHeard
import OrionBroker.Discovery

/-!
# The life of an availability subscription

An availability subscription is made (`mongoSubscribeContextAvailability.cpp`), changed
(`mongoUpdateContextAvailabilitySubscription.cpp`) and removed (`mongoUnsubscribeContextAvailability.cpp`); a registration
and each of the first two may send notifications, which are counted in the document.

After any requests the documents are what the clients have been told (`stored_as_told`): a request that has been answered
with an error has changed nothing, each notification is counted once and is sent to the reference of a subscription that
has not been removed.
-/

namespace OrionBroker.Availability

open Bson

/-! ### Changes and removals -/

/-- What a request about a stored subscription finds around it.  `OID` reads an id; its exception is that of an assertion,
or another one with a text.  The others are the errors of the operations on the collection. -/
structure CasubEnv where
  env : RegisterEnv
  OID : String → Except (Option String) String
  casubsFindOne : Option String := none
  casubsUpdate : Option String := none
  casubsRemove : Option String := none

structure UpdateContextAvailabilitySubscriptionRequest where
  entityIdVector : List EntityId
  attributeList : List String
  subscriptionId : String
  duration : String := ""

structure UpdateContextAvailabilitySubscriptionResponse where
  errorCode : StatusCode := {}
  subscriptionId : String := ""
  duration : String := ""

section Operations

variable (call : CasubEnv)

def safeGetSubId (subId : String) : Except StatusCode String :=
  match call.OID subId with
  | .ok id => .ok id
  | .error none => .error ⟨.SccContextElementNotFound, ""⟩
  | .error (some what) => .error ⟨.SccReceiverInternalError, what⟩

/-- The document behind an update. -/
def updatedCasub (request : UpdateContextAvailabilitySubscriptionRequest) (sub : AvailabilitySubscription) :
    AvailabilitySubscription :=
  { sub with
    entities := request.entityIdVector
    attrs := request.attributeList
    expiration := if request.duration = "" then sub.expiration
      else call.env.getCurrentTime + call.env.parse8601 request.duration }

/-- What is stored, the response, and the initial notification; it carries the id as the request has it. -/
def mongoUpdateContextAvailabilitySubscription (request : UpdateContextAvailabilitySubscriptionRequest)
    (db : AvailabilityDB) :
    AvailabilityDB × UpdateContextAvailabilitySubscriptionResponse × Option AvailabilityNotification :=
  match safeGetSubId call request.subscriptionId with
  | .error errorCode => (db, { errorCode := errorCode }, none)
  | .ok id =>
    match call.casubsFindOne with
    | some err => (db, { errorCode := ⟨.SccReceiverInternalError, err⟩ }, none)
    | none =>
      match KeyedList.get AvailabilitySubscription.id id db.casubs with
      | none => (db, { errorCode := ⟨.SccContextElementNotFound, ""⟩ }, none)
      | some sub =>
        match call.casubsUpdate with
        | some err => (db, { errorCode := ⟨.SccReceiverInternalError, err⟩ }, none)
        | none =>
          let casubs := db.casubs.map fun s => if s.id = id then updatedCasub call request sub else s
          let (db, notification) := processAvailabilitySubscription call.env request.entityIdVector request.attributeList id
            sub.reference { db with casubs := casubs }
          (db, { subscriptionId := request.subscriptionId, duration := request.duration },
            notification.map fun n => { n with subscriptionId := request.subscriptionId })

/-- What is stored, and the status. -/
def mongoUnsubscribeContextAvailability (subscriptionId : String) (db : AvailabilityDB) : AvailabilityDB × StatusCode :=
  match safeGetSubId call subscriptionId with
  | .error statusCode => (db, statusCode)
  | .ok id =>
    match call.casubsFindOne with
    | some err => (db, ⟨.SccReceiverInternalError, err⟩)
    | none =>
      match KeyedList.get AvailabilitySubscription.id id db.casubs with
      | none => (db, ⟨.SccContextElementNotFound, ""⟩)
      | some _ =>
        match call.casubsRemove with
        | some err => (db, ⟨.SccReceiverInternalError, err⟩)
        | none => ({ db with casubs := db.casubs.filter fun s => s.id ≠ id }, ⟨.SccOk, ""⟩)

end Operations

/-- The id with which a registration reaches `processRegisterContext`, if it does. -/
def reachedWith (call : RegisterCall) (db : AvailabilityDB) : Option (Option String) :=
  if call.registrationId = "" then some none
  else
    match safeGetRegId call with
    | .error _ => none
    | .ok id =>
      if call.registrationsFindOne = none ∧ (db.registrations.any fun r => r.1 = id && r.2.servicePath = some call.sPath) = true
        then some (some id)
      else none

/-- What a registration has done, unless it has failed. -/
def registerResult (call : RegisterCall) (db : AvailabilityDB) : Option RegisterResult :=
  (reachedWith call db).bind fun id => (processRegisterContext call.env call.request id call.sPath db).toOption

/-! ### What the clients are told -/

/-- What a client is told by a response, and the owner of a reference by a notification. -/
inductive Message where
  | subscribed (id reference : String) (entities : List EntityId) (attrs : List String) (expiration : Int)
  | updated (id : String) (entities : List EntityId) (attrs : List String) (expiration : Option Int)
  | unsubscribed (id : String)
  | notified (id reference : String) (time : Int) (initial : Bool)

/-- A notification is counted. -/
def counted (time : Int) (s : AvailabilitySubscription) : AvailabilitySubscription :=
  { s with lastNotification := some time, count := some (s.count.getD 0 + 1) }

/-- What is known of the subscription of an id after one more message. -/
def Message.apply (id : String) (sub : Option AvailabilitySubscription) : Message → Option AvailabilitySubscription
  | .subscribed i reference entities attrs expiration =>
    if i = id then some { id := i, expiration := expiration, reference := reference, entities := entities, attrs := attrs }
    else sub
  | .updated i entities attrs expiration =>
    if i = id then
      sub.map fun s => { s with entities := entities, attrs := attrs, expiration := expiration.getD s.expiration }
    else sub
  | .unsubscribed i => if i = id then none else sub
  | .notified i _ time _ => if i = id then sub.map (counted time) else sub

/-- The subscription of an id as the messages tell it. -/
def standing (told : List Message) (id : String) : Option AvailabilitySubscription := told.foldl (Message.apply id) none

inductive AvailabilityRequest where
  | register (call : RegisterCall)
  | subscribe (env : RegisterEnv) (request : SubscribeContextAvailabilityRequest)
  | update (call : CasubEnv) (request : UpdateContextAvailabilitySubscriptionRequest)
  | unsubscribe (call : CasubEnv) (subscriptionId : String)

/-- The message of a notification. -/
def notice (env : RegisterEnv) (initial : Bool) (id : String) (n : AvailabilityNotification) : Message :=
  .notified id n.reference env.getCurrentTime initial

/-- A request: what is stored behind it, and what is told. -/
def serve (db : AvailabilityDB) : AvailabilityRequest → AvailabilityDB × List Message
  | .register call =>
    ((mongoRegisterContext call db).1, ((registerResult call db).map fun result =>
      result.notifications.map fun n => notice call.env false n.subscriptionId n).getD [])
  | .subscribe env request =>
    match mongoSubscribeContextAvailability env request db with
    | (db', .error _) => (db', [])
    | (db', .ok notification) =>
      (db', .subscribed env.oidInit request.reference request.entityIdVector request.attributeList
          (env.getCurrentTime + env.parse8601 (if request.duration = "" then DEFAULT_DURATION else request.duration)) ::
        notification.toList.map (notice env true env.oidInit))
  | .update call request =>
    let result := mongoUpdateContextAvailabilitySubscription call request db
    (result.1,
      match safeGetSubId call request.subscriptionId with
      | .error _ => []
      | .ok id =>
        if result.2.1.errorCode.code = .SccNone then
          .updated id request.entityIdVector request.attributeList
              (if request.duration = "" then none else some (call.env.getCurrentTime + call.env.parse8601 request.duration)) ::
            result.2.2.toList.map (notice call.env true id)
        else [])
  | .unsubscribe call subscriptionId =>
    let result := mongoUnsubscribeContextAvailability call subscriptionId db
    (result.1,
      match safeGetSubId call subscriptionId with
      | .error _ => []
      | .ok id => if result.2.code = .SccOk then [.unsubscribed id] else [])

/-- The id of a new subscription is not in use. -/
def AvailabilityRequest.Fresh (db : AvailabilityDB) : AvailabilityRequest → Prop
  | .subscribe env _ => env.oidInit ∉ db.casubs.map AvailabilitySubscription.id
  | _ => True

/-- The requests one after the other, from any registrations and no subscription. -/
inductive AvailabilityRun : AvailabilityDB → List Message → Prop where
  | start (registrations : List (String × Registration)) :
      AvailabilityRun { casubs := [], registrations := registrations } []
  | request {db : AvailabilityDB} {told : List Message} (h : AvailabilityRun db told) {request : AvailabilityRequest}
      (hfresh : request.Fresh db) : AvailabilityRun (serve db request).1 (told ++ (serve db request).2)

/-! ### The documents are as told -/

/-- Each notification is for a subscription that stands, and is sent to its reference; one that is not sent at the
beginning comes before the subscription expires. -/
def NotifiesStanding (told : List Message) : Prop :=
  ∀ before id reference time initial after, told = before ++ .notified id reference time initial :: after →
    ∃ s, standing before id = some s ∧ s.reference = reference ∧ (initial = false → time < s.expiration)

/-- The documents have different ids and are those that the messages tell. -/
structure StoredAsTold (casubs : List AvailabilitySubscription) (told : List Message) : Prop where
  nodup : (casubs.map AvailabilitySubscription.id).Nodup
  get : ∀ id, KeyedList.get AvailabilitySubscription.id id casubs = standing told id
  notifies : NotifiesStanding told

section Steps

variable {env : RegisterEnv} {casubs : List AvailabilitySubscription} {told : List Message}

theorem standing_snoc (told : List Message) (e : Message) (id : String) :
    standing (told ++ [e]) id = Message.apply id (standing told id) e := by
  unfold standing
  rw [List.foldl_append]
  rfl

theorem notifiesStanding_snoc {e : Message} (h : NotifiesStanding told)
    (he : ∀ id reference time initial, e = .notified id reference time initial →
      ∃ s, standing told id = some s ∧ s.reference = reference ∧ (initial = false → time < s.expiration)) :
    NotifiesStanding (told ++ [e]) := by
  intro before id reference time initial after heq
  rcases List.eq_nil_or_concat after with rfl | ⟨after', e', rfl⟩
  · obtain ⟨rfl, hlast⟩ := List.append_inj' heq rfl
    rw [List.singleton_inj] at hlast
    exact he id reference time initial hlast
  · rw [List.concat_eq_append, ← List.cons_append, ← List.append_assoc] at heq
    exact h before id reference time initial after' (List.append_inj' heq rfl).1

theorem keys_mapWhere {change : AvailabilitySubscription → AvailabilitySubscription} (hchange : ∀ s, (change s).id = s.id)
    (hnodup : (casubs.map AvailabilitySubscription.id).Nodup) (id : String) :
    (casubs.map fun s => if s.id = id then change s else s).map AvailabilitySubscription.id =
      casubs.map AvailabilitySubscription.id := by
  rw [← KeyedList.modify_eq_map hnodup]
  exact KeyedList.keys_modify (fun s hs => (hchange s).trans hs) casubs

theorem get_mapWhere {change : AvailabilitySubscription → AvailabilitySubscription} (hchange : ∀ s, (change s).id = s.id)
    (hnodup : (casubs.map AvailabilitySubscription.id).Nodup) (id j : String) :
    KeyedList.get AvailabilitySubscription.id j (casubs.map fun s => if s.id = id then change s else s) =
      if id = j then (KeyedList.get AvailabilitySubscription.id j casubs).map change
      else KeyedList.get AvailabilitySubscription.id j casubs := by
  have hget := KeyedList.get_modify (fun s hs => (hchange s).trans hs) j casubs (k := id)
  rw [← KeyedList.modify_eq_map hnodup, hget]
  by_cases hid : id = j
  · rw [if_pos hid, if_pos hid.symm, hid]
  · rw [if_neg hid, if_neg (Ne.symm hid)]

/-- A notification is counted as it is told. -/
theorem storedAsTold_counted (h : StoredAsTold casubs told) {s : AvailabilitySubscription} {id : String}
    (hs : KeyedList.get AvailabilitySubscription.id id casubs = some s) {initial : Bool}
    (htime : initial = false → env.getCurrentTime < s.expiration) :
    StoredAsTold (mongoUpdateCasubNewNotification env id casubs)
      (told ++ [.notified id s.reference env.getCurrentTime initial]) := by
  have hchange : ∀ s : AvailabilitySubscription, (counted env.getCurrentTime s).id = s.id := fun _ => rfl
  have hcasubs : mongoUpdateCasubNewNotification env id casubs =
      casubs.map fun s => if s.id = id then counted env.getCurrentTime s else s := rfl
  rw [hcasubs]
  refine ⟨?_, fun j => ?_, notifiesStanding_snoc h.notifies ?_⟩
  · rw [keys_mapWhere hchange h.nodup]
    exact h.nodup
  · rw [get_mapWhere hchange h.nodup, standing_snoc, h.get]
    rfl
  · rintro i reference time initial' he
    cases he
    exact ⟨s, (h.get id).symm.trans hs, rfl, htime⟩

/-- What is sent for a subscription that stands is told. -/
theorem storedAsTold_process {db : AvailabilityDB} (h : StoredAsTold db.casubs told) {s : AvailabilitySubscription}
    {id : String} (hs : KeyedList.get AvailabilitySubscription.id id db.casubs = some s) {initial : Bool}
    (htime : initial = false → env.getCurrentTime < s.expiration) (enV : List EntityId) (attrL : List String) :
    StoredAsTold (processAvailabilitySubscription env enV attrL id s.reference db).1.casubs
      (told ++ (processAvailabilitySubscription env enV attrL id s.reference db).2.toList.map (notice env initial id)) := by
  unfold processAvailabilitySubscription
  split
  · simpa using h
  · simpa using h
  · exact storedAsTold_counted h hs htime

/-- A notification leaves the other fields of the subscriptions as they are. -/
theorem get_process {db : AvailabilityDB} (hnodup : (db.casubs.map AvailabilitySubscription.id).Nodup)
    {s : AvailabilitySubscription} {j : String}
    (hs : KeyedList.get AvailabilitySubscription.id j db.casubs = some s) (enV : List EntityId) (attrL : List String)
    (id notifyUrl : String) :
    ∃ s', KeyedList.get AvailabilitySubscription.id j (processAvailabilitySubscription env enV attrL id notifyUrl db).1.casubs =
      some s' ∧ s'.reference = s.reference ∧ s'.expiration = s.expiration := by
  unfold processAvailabilitySubscription
  split
  · exact ⟨s, hs, rfl, rfl⟩
  · exact ⟨s, hs, rfl, rfl⟩
  · have hget := @get_mapWhere db.casubs (counted env.getCurrentTime) (fun _ => rfl) hnodup id j
    rw [hs] at hget
    by_cases hid : id = j
    · rw [if_pos hid] at hget
      exact ⟨_, hget, rfl, rfl⟩
    · rw [if_neg hid] at hget
      exact ⟨s, hget, rfl, rfl⟩

/-- The notifications of a registration, one after the other. -/
theorem storedAsTold_processSubscriptions {db : AvailabilityDB} (h : StoredAsTold db.casubs told)
    (triggerEntitiesV : List EntityId) {subs : List TriggeredSubscription}
    (hsubs : ∀ t ∈ subs, ∃ s, KeyedList.get AvailabilitySubscription.id t.subId db.casubs = some s ∧
      s.reference = t.reference ∧ env.getCurrentTime < s.expiration) :
    StoredAsTold (processSubscriptions env triggerEntitiesV subs db).1.casubs
      (told ++ (processSubscriptions env triggerEntitiesV subs db).2.map fun n => notice env false n.subscriptionId n) := by
  induction subs generalizing db told with
  | nil => simpa [processSubscriptions] using h
  | cons t subs ih =>
    obtain ⟨⟨s, hs, href, htime⟩, hrest⟩ := List.forall_mem_cons.1 hsubs
    have hone := @storedAsTold_process env told db h s t.subId hs false (fun _ => htime) triggerEntitiesV t.attrL
    rw [href] at hone
    have hids : (processAvailabilitySubscription env triggerEntitiesV t.attrL t.subId t.reference db).2.toList.map
        (fun n => notice env false n.subscriptionId n) =
          (processAvailabilitySubscription env triggerEntitiesV t.attrL t.subId t.reference db).2.toList.map
            (notice env false t.subId) := by
      refine List.map_congr_left fun n hn => ?_
      have hid : n.subscriptionId = t.subId := by
        unfold processAvailabilitySubscription at hn
        split at hn
        · cases hn
        · cases hn
        · rw [Option.toList_some, List.mem_singleton] at hn
          rw [hn]
      rw [hid]
    unfold processSubscriptions
    dsimp only
    rw [List.map_append, hids, ← List.append_assoc]
    refine ih hone fun t' ht' => ?_
    obtain ⟨s', hs', href', htime'⟩ := hrest t' ht'
    obtain ⟨s'', hs'', href'', hexp⟩ := @get_process env db h.nodup s' t'.subId hs' triggerEntitiesV t.attrL t.subId t.reference
    exact ⟨s'', hs'', href''.trans href', by rw [hexp]; exact htime'⟩

/-! ### The requests -/

/-- The notifications of a registration are for subscriptions that stand. -/
theorem storedAsTold_processRegisterContext {db : AvailabilityDB} (h : StoredAsTold db.casubs told)
    {request : RegisterContextRequest} {id : Option String} {servicePath : String} {result : RegisterResult}
    (hresult : processRegisterContext env request id servicePath db = .ok result) :
    StoredAsTold result.db.casubs (told ++ result.notifications.map fun n => notice env false n.subscriptionId n) := by
  unfold processRegisterContext at hresult
  dsimp only at hresult
  split at hresult
  · cases hresult
  · rename_i subs hsubs
    split at hresult
    · cases hresult
    · cases hresult
      have hdb : StoredAsTold (AvailabilityDB.mk db.casubs (upsertRegistration (id.getD env.oidInit)
          (newRegistration env request servicePath) db.registrations)).casubs told := h
      refine storedAsTold_processSubscriptions hdb _ fun t ht => ?_
      rw [(List.perm_insertionSort _ _).mem_iff, mem_triggeredByAll h.nodup (fun _ ht => by cases ht) hsubs] at ht
      rcases ht with ht | ⟨s, hs, rfl, htime, -⟩
      · cases ht
      · exact ⟨s, KeyedList.get_of_nodup h.nodup hs, rfl, htime⟩

theorem casubs_mongoRegisterContext (call : RegisterCall) (db : AvailabilityDB) :
    (mongoRegisterContext call db).1.casubs = ((registerResult call db).map fun result => result.db.casubs).getD db.casubs := by
  have hregistered : ∀ id, (registered call id db).1.casubs =
      (((processRegisterContext call.env call.request id call.sPath db).toOption).map fun result => result.db.casubs).getD
        db.casubs := by
    intro id
    unfold registered
    cases processRegisterContext call.env call.request id call.sPath db <;> rfl
  unfold mongoRegisterContext registerResult reachedWith
  split
  · exact hregistered none
  · cases safeGetRegId call with
    | error errorCode => rfl
    | ok id =>
      dsimp only
      cases call.registrationsFindOne with
      | some err => simp
      | none =>
        by_cases hfound : (db.registrations.any fun r => r.1 = id && r.2.servicePath = some call.sPath) = true
        · rw [if_pos hfound, if_pos ⟨rfl, hfound⟩]
          exact hregistered (some id)
        · rw [if_neg hfound, if_neg fun h => hfound h.2]
          rfl

theorem storedAsTold_register {db : AvailabilityDB} (h : StoredAsTold db.casubs told) (call : RegisterCall) :
    StoredAsTold (serve db (.register call)).1.casubs (told ++ (serve db (.register call)).2) := by
  show StoredAsTold (mongoRegisterContext call db).1.casubs (told ++ ((registerResult call db).map fun result =>
    result.notifications.map fun n => notice call.env false n.subscriptionId n).getD [])
  rw [casubs_mongoRegisterContext]
  cases hresult : registerResult call db with
  | none => simpa using h
  | some result =>
    obtain ⟨id, -, hprocess⟩ := Option.bind_eq_some_iff.1 hresult
    have hok : processRegisterContext call.env call.request id call.sPath db = .ok result := by
      cases hcontext : processRegisterContext call.env call.request id call.sPath db with
      | error err =>
        rw [hcontext] at hprocess
        cases hprocess
      | ok result' =>
        rw [hcontext] at hprocess
        cases hprocess
        rfl
    exact storedAsTold_processRegisterContext h hok

theorem storedAsTold_subscribe {db : AvailabilityDB} (h : StoredAsTold db.casubs told)
    {request : SubscribeContextAvailabilityRequest} (hfresh : env.oidInit ∉ db.casubs.map AvailabilitySubscription.id) :
    StoredAsTold (serve db (.subscribe env request)).1.casubs (told ++ (serve db (.subscribe env request)).2) := by
  cases hinsert : env.casubsInsert with
  | some err =>
    have hstep : mongoSubscribeContextAvailability env request db = (db, .error err) := by
      rw [mongoSubscribeContextAvailability, hinsert]
    rw [serve, hstep]
    simpa using h
  | none =>
    -- the new document, before the initial notification
    have hnew : StoredAsTold (db.casubs ++ [newCasub env request]) (told ++
        [.subscribed env.oidInit request.reference request.entityIdVector request.attributeList
          (env.getCurrentTime + env.parse8601 (if request.duration = "" then DEFAULT_DURATION else request.duration))]) := by
      refine ⟨?_, fun j => ?_, notifiesStanding_snoc h.notifies fun _ _ _ _ he => by cases he⟩
      · rw [List.map_append, List.nodup_append']
        refine ⟨h.nodup, by simp, fun i hi hnew => hfresh ?_⟩
        rw [List.map_singleton, List.mem_singleton] at hnew
        rwa [hnew] at hi
      · rw [KeyedList.get_append, standing_snoc, h.get, Message.apply, KeyedList.get_cons]
        have hid : (newCasub env request).id = env.oidInit := rfl
        rw [hid]
        by_cases hj : env.oidInit = j
        · have hnone : standing told j = none := by
            rw [← h.get, KeyedList.get_eq_none_iff, ← hj]
            exact hfresh
          rw [if_pos hj, if_pos hj, hnone]
          rfl
        · rw [if_neg hj, if_neg hj]
          exact Option.or_none
    have hget : KeyedList.get AvailabilitySubscription.id env.oidInit (db.casubs ++ [newCasub env request]) =
        some (newCasub env request) := by
      have hmem : newCasub env request ∈ db.casubs ++ [newCasub env request] := by simp
      exact KeyedList.get_of_nodup hnew.nodup hmem
    have hprocess := @storedAsTold_process env _ { db with casubs := db.casubs ++ [newCasub env request] } hnew _ _ hget true
      (fun h => by cases h) request.entityIdVector request.attributeList
    rw [List.append_assoc] at hprocess
    rw [serve, mongoSubscribeContextAvailability, hinsert]
    exact hprocess

theorem safeGetSubId_error {call : CasubEnv} {subId : String} {errorCode : StatusCode}
    (h : safeGetSubId call subId = .error errorCode) : errorCode.code ≠ .SccNone ∧ errorCode.code ≠ .SccOk := by
  unfold safeGetSubId at h
  split at h
  · cases h
  · cases h
    exact ⟨by decide, by decide⟩
  · cases h
    exact ⟨by simp, by simp⟩

/-- An update does nothing and is answered with an error, or it changes the document and may send a notification. -/
theorem mongoUpdate_cases (call : CasubEnv) (request : UpdateContextAvailabilitySubscriptionRequest) (db : AvailabilityDB) :
    (∃ response, mongoUpdateContextAvailabilitySubscription call request db = (db, response, none) ∧
      response.errorCode.code ≠ .SccNone) ∨
    ∃ id sub, safeGetSubId call request.subscriptionId = .ok id ∧
      KeyedList.get AvailabilitySubscription.id id db.casubs = some sub ∧
      mongoUpdateContextAvailabilitySubscription call request db =
        let result := processAvailabilitySubscription call.env request.entityIdVector request.attributeList id sub.reference
          { db with casubs := db.casubs.map fun s => if s.id = id then updatedCasub call request sub else s }
        (result.1, { subscriptionId := request.subscriptionId, duration := request.duration },
          result.2.map fun n => { n with subscriptionId := request.subscriptionId }) := by
  unfold mongoUpdateContextAvailabilitySubscription
  cases hid : safeGetSubId call request.subscriptionId with
  | error errorCode => exact Or.inl ⟨_, rfl, (safeGetSubId_error hid).1⟩
  | ok id =>
    cases call.casubsFindOne with
    | some err => exact Or.inl ⟨_, rfl, by simp⟩
    | none =>
      cases hget : KeyedList.get AvailabilitySubscription.id id db.casubs with
      | none =>
        refine Or.inl ⟨{ errorCode := ⟨.SccContextElementNotFound, ""⟩ }, ?_, by decide⟩
        simp only [hget]
      | some sub =>
        cases call.casubsUpdate with
        | some err =>
          refine Or.inl ⟨{ errorCode := ⟨.SccReceiverInternalError, err⟩ }, ?_, by simp⟩
          simp only [hget]
        | none =>
          refine Or.inr ⟨id, sub, rfl, hget, ?_⟩
          simp only [hget]

theorem storedAsTold_update {db : AvailabilityDB} (h : StoredAsTold db.casubs told) (call : CasubEnv)
    (request : UpdateContextAvailabilitySubscriptionRequest) :
    StoredAsTold (serve db (.update call request)).1.casubs (told ++ (serve db (.update call request)).2) := by
  rcases mongoUpdate_cases call request db with ⟨response, hstep, hcode⟩ | ⟨id, sub, hid, hget, hstep⟩
  · rw [serve, hstep]
    dsimp only
    split
    · simpa using h
    · rw [if_neg hcode]
      simpa using h
  · -- the new document, before the initial notification
    have hchange : ∀ s, (updatedCasub call request s).id = s.id := fun _ => rfl
    have hsame : (db.casubs.map fun s => if s.id = id then updatedCasub call request sub else s) =
        db.casubs.map fun s => if s.id = id then updatedCasub call request s else s := by
      refine List.map_congr_left fun s hs => ?_
      split
      · rename_i hkey
        have hstored := KeyedList.get_of_nodup h.nodup hs
        rw [hkey, hget] at hstored
        cases hstored
        rfl
      · rfl
    have hnew : StoredAsTold (db.casubs.map fun s => if s.id = id then updatedCasub call request s else s) (told ++
        [.updated id request.entityIdVector request.attributeList
          (if request.duration = "" then none
            else some (call.env.getCurrentTime + call.env.parse8601 request.duration))]) := by
      refine ⟨?_, fun j => ?_, notifiesStanding_snoc h.notifies fun _ _ _ _ he => by cases he⟩
      · rw [keys_mapWhere hchange h.nodup]
        exact h.nodup
      · rw [get_mapWhere hchange h.nodup, standing_snoc, h.get, Message.apply]
        congr 2
        funext s
        unfold updatedCasub
        split <;> rfl
    have hsub : KeyedList.get AvailabilitySubscription.id id
        (db.casubs.map fun s => if s.id = id then updatedCasub call request s else s) =
          some (updatedCasub call request sub) := by
      rw [get_mapWhere hchange h.nodup, if_pos rfl, hget]
      rfl
    have hprocess := @storedAsTold_process call.env _
      { db with casubs := db.casubs.map fun s => if s.id = id then updatedCasub call request s else s } hnew _ _ hsub
      true (fun h => by cases h) request.entityIdVector request.attributeList
    have hnotices : ∀ notification : Option AvailabilityNotification,
        (notification.map fun n => { n with subscriptionId := request.subscriptionId }).toList.map
          (notice call.env true id) = notification.toList.map (notice call.env true id) := by
      intro notification
      cases notification <;> rfl
    rw [List.append_assoc] at hprocess
    rw [serve, hstep]
    dsimp only
    rw [hid]
    dsimp only
    rw [if_pos rfl, hnotices, hsame]
    exact hprocess

/-- A removal does nothing and is answered with an error, or it removes the document. -/
theorem mongoUnsubscribe_cases (call : CasubEnv) (subscriptionId : String) (db : AvailabilityDB) :
    (∃ statusCode, mongoUnsubscribeContextAvailability call subscriptionId db = (db, statusCode) ∧
      statusCode.code ≠ .SccOk) ∨
    ∃ id, safeGetSubId call subscriptionId = .ok id ∧ mongoUnsubscribeContextAvailability call subscriptionId db =
      ({ db with casubs := db.casubs.filter fun s => s.id ≠ id }, ⟨.SccOk, ""⟩) := by
  unfold mongoUnsubscribeContextAvailability
  cases hid : safeGetSubId call subscriptionId with
  | error statusCode => exact Or.inl ⟨_, rfl, (safeGetSubId_error hid).2⟩
  | ok id =>
    cases call.casubsFindOne with
    | some err => exact Or.inl ⟨_, rfl, by simp⟩
    | none =>
      cases hget : KeyedList.get AvailabilitySubscription.id id db.casubs with
      | none =>
        refine Or.inl ⟨⟨.SccContextElementNotFound, ""⟩, ?_, by decide⟩
        simp only [hget]
      | some sub =>
        cases call.casubsRemove with
        | some err =>
          refine Or.inl ⟨⟨.SccReceiverInternalError, err⟩, ?_, by simp⟩
          simp only [hget]
        | none =>
          refine Or.inr ⟨id, rfl, ?_⟩
          simp only [hget]

theorem storedAsTold_unsubscribe {db : AvailabilityDB} (h : StoredAsTold db.casubs told) (call : CasubEnv)
    (subscriptionId : String) :
    StoredAsTold (serve db (.unsubscribe call subscriptionId)).1.casubs
      (told ++ (serve db (.unsubscribe call subscriptionId)).2) := by
  rcases mongoUnsubscribe_cases call subscriptionId db with ⟨statusCode, hstep, hcode⟩ | ⟨id, hid, hstep⟩
  · rw [serve, hstep]
    dsimp only
    split
    · simpa using h
    · rw [if_neg hcode]
      simpa using h
  · rw [serve, hstep]
    dsimp only
    rw [hid]
    dsimp only
    rw [if_pos rfl]
    refine ⟨?_, fun j => ?_, notifiesStanding_snoc h.notifies fun _ _ _ _ he => by cases he⟩
    · exact h.nodup.sublist (List.filter_sublist.map _)
    · rw [standing_snoc, ← h.get, Message.apply]
      by_cases hj : id = j
      · rw [if_pos hj, KeyedList.get_eq_none_iff]
        intro hmem
        obtain ⟨s, hs, hkey⟩ := List.mem_map.1 hmem
        have hne := of_decide_eq_true (List.mem_filter.1 hs).2
        exact hne (hkey.trans hj.symm)
      · rw [if_neg hj]
        have hkept : KeyedList.get AvailabilitySubscription.id j (db.casubs.filter fun s => s.id ≠ id) =
            if true = true then KeyedList.get AvailabilitySubscription.id j db.casubs else none :=
          KeyedList.get_filter fun s _ hs => by simpa [hs] using Ne.symm hj
        simpa using hkept

end Steps

/-- After any requests the documents are as the clients have been told, and each notification was for a subscription that
stood. -/
theorem stored_as_told {db : AvailabilityDB} {told : List Message} (h : AvailabilityRun db told) :
    StoredAsTold db.casubs told := by
  induction h with
  | start registrations =>
    refine ⟨List.nodup_nil, fun _ => rfl, fun before id reference time initial after heq => ?_⟩
    exact absurd heq.symm (by simp)
  | @request db told _ request hfresh ih =>
    cases request with
    | register call => exact storedAsTold_register ih call
    | subscribe env request => exact storedAsTold_subscribe ih hfresh
    | update call request => exact storedAsTold_update ih call request
    | unsubscribe call subscriptionId => exact storedAsTold_unsubscribe ih call subscriptionId

/-- A subscription for `E1` that is changed to one for the attribute `b`, after a registration of `E1` has notified it. -/
theorem stored_as_told_changed :
    StoredAsTold [{ subscriptionOfE1 with id := "r1", expiration := 15, attrs := ["b"], lastNotification := some 5, count := some 1 }]
      [.subscribed "r1" "http://sub.com" subscriptionOfE1.entities [] 15, .notified "r1" "http://sub.com" 5 false,
        .updated "r1" subscriptionOfE1.entities ["b"] none] := by
  have hsubscribed := @AvailabilityRun.request _ _ (.start [])
    (.subscribe quietRegister { entityIdVector := subscriptionOfE1.entities, attributeList := [], reference := "http://sub.com" })
    List.not_mem_nil
  have hregistered := @AvailabilityRun.request _ _ hsubscribed
    (.register { env := quietRegister, OID := .ok, request := { contextRegistrationVector := [registrationOf "E1"] },
                 registrationId := "", servicePath := "/" }) trivial
  have hupdated := @AvailabilityRun.request _ _ hregistered
    (.update { env := quietRegister, OID := .ok }
      { entityIdVector := subscriptionOfE1.entities, attributeList := ["b"], subscriptionId := "r1" }) trivial
  exact stored_as_told hupdated

end OrionBroker.Availability
