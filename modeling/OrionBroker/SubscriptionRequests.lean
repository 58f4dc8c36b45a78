import OrionBroker.NotificationRun

/-!
# Requests and synchronizations at the same time

A request about a subscription is made of two steps: it works on the database, and then, with the semaphore of the cache,
on the cache.  The semaphore of the requests is held over both, so at most one request is between its steps; a
synchronization has only the semaphore of the cache, so it may run while a request is between them.  `step` is one step
of a request or of the synchronization.

The document of a new subscription is in the database before its item is in the cache.  A synchronization that reads the
database in between loads the item, and the request then inserts it once more.  `cached_once_of_run` says that nothing
else goes wrong: in the runs without such a synchronization, and whose updates and removals find the item that they are
about, the cache holds one item for each stored subscription with a condition of type `ONCHANGE` and no other.
-/

namespace OrionBroker

variable {Item : Type}

/-! ### Steps of a request -/

/-- What an update hands over to its second step. -/
structure UpdateToCache (Item : Type) where
  tenant : String
  subscriptionId : String
  newSub : Csub
  lastNotificationTime : Int
  expirationTime : Int
  status : String
  expression : SubscriptionExpression
  stringFilterP : Option (List Item)
  renderFormat : RenderFormat

/-- A request between its two steps. -/
inductive PendingRequest (Item : Type) where
  | subscribe (tenant oid : String) (item : Option (CachedSubscription Item))
  | update (u : UpdateToCache Item)
  | unsubscribe (tenant subscriptionId : String)

/-- What an update does to the old item while it writes the document. -/
def CachedSubscription.sentToDb (notificationDone : Bool) (now : Int) (cSub : CachedSubscription Item) :
    CachedSubscription Item :=
  { cSub with
    count := 0
    lastNotificationTime := if notificationDone then now else cSub.lastNotificationTime }

section Steps

variable (code : FilterCode Item)

/-- The first step of `mongoSubscribeContext`. -/
def insertCsub (call : Subscribing) (now : Int) (tenant servicePath oid : String) (request : SubscribeContextRequest Item)
    (st : SubState Item) : SubState Item × PendingRequest Item :=
  ({ st with
      csubs := Function.update st.csubs tenant (st.csubs tenant ++ [newCsub call now servicePath oid request]) },
    .subscribe tenant oid (newItem code call now tenant servicePath oid request))

/-- The first step of `mongoUpdateContextSubscription`, if there is such a subscription. -/
def writeCsub (call : Subscribing) (now : Int) (version : ApiVersion) (tenant servicePath subscriptionId : String)
    (request : SubscribeContextRequest Item) (st : SubState Item) : Option (SubState Item × PendingRequest Item) :=
  match safeGetSubId subscriptionId with
  | none => none
  | some id =>
    match KeyedList.get Csub.id id (st.csubs tenant) with
    | none => none
    | some sub =>
      let cSubP := subCacheItemLookup tenant subscriptionId st.cache
      let newSub := request.updatedCsub call now version sub servicePath cSubP
      let notificationDone := (request.updatedProcessed call sub).notificationDone
      some ({ csubs := Function.update st.csubs tenant (KeyedList.modify Csub.id id (fun _ => newSub) (st.csubs tenant))
              cache := KeyedList.modify CachedSubscription.key (tenant, subscriptionId)
                (CachedSubscription.sentToDb notificationDone now) st.cache },
        .update
          { tenant := tenant
            subscriptionId := subscriptionId
            newSub := newSub
            lastNotificationTime := request.updatedTime call now sub cSubP
            expirationTime := request.updatedExpiration call now version sub
            status := request.updatedStatus sub
            expression := request.expression
            stringFilterP := scopeFilter request.scopeVector
            renderFormat := request.updatedFormat sub })

/-- The first step of `mongoUnsubscribeContext`, if there is such a subscription. -/
def removeCsub (tenant subscriptionId : String) (st : SubState Item) : Option (SubState Item × PendingRequest Item) :=
  match safeGetSubId subscriptionId with
  | none => none
  | some id =>
    match KeyedList.get Csub.id id (st.csubs tenant) with
    | none => none
    | some _ =>
      some ({ st with
          csubs := Function.update st.csubs tenant ((st.csubs tenant).eraseP fun sub => sub.id = id) },
        .unsubscribe tenant subscriptionId)

/-- The item made by the second step of an update, or the number of the error; `cSubP` is the item found in it. -/
def UpdateToCache.item (u : UpdateToCache Item) (cSubP : Option (CachedSubscription Item)) :
    Except Int (CachedSubscription Item) :=
  Update.mongoSubCacheItemInsert code u.tenant u.newSub u.subscriptionId
    ((cSubP.map CachedSubscription.servicePath).getD "") u.lastNotificationTime u.expirationTime u.status u.expression
    u.stringFilterP u.renderFormat

/-- The second step of a request. -/
def PendingRequest.toCache (cache : List (CachedSubscription Item)) : PendingRequest Item → List (CachedSubscription Item)
  | .subscribe _ _ item => cache ++ item.toList
  | .update u =>
    let cSubP := subCacheItemLookup u.tenant u.subscriptionId cache
    subCacheItemRemove cSubP (cache ++ (u.item code cSubP).toOption.toList)
  | .unsubscribe tenant subscriptionId => subCacheItemRemove (subCacheItemLookup tenant subscriptionId cache) cache

end Steps

/-! ### Steps of a synchronization -/

/-- How far a synchronization is: which databases are to be read, or which items are to be flushed. -/
inductive SyncPhase (Item : Type) where
  | idle
  | loading (savedSubV : List (String × CachedSubSaved)) (databases : List String)
  | flushing (savedSubV : List (String × CachedSubSaved)) (items : List (CachedSubscription Item))

/-- One step of `subCacheSync` with the databases that there are; the first one does not return when an id is found
twice. -/
def syncStep (databases : List String) (st : SubState Item) : SyncPhase Item → Option (SubState Item × SyncPhase Item)
  | .idle => (saveSubs st.cache []).map fun savedSubV => ({ st with cache := [] }, .loading savedSubV databases)
  | .loading savedSubV (tenant :: tenants) =>
    some ({ st with cache := st.cache ++ loadedItems tenant (st.csubs tenant) }, .loading savedSubV tenants)
  | .loading savedSubV [] => some (st, .flushing (compareSaved st.cache savedSubV) st.cache)
  | .flushing savedSubV (cSub :: items) =>
    some ({ st with csubs := flushItem savedSubV st.csubs cSub }, .flushing savedSubV items)
  | .flushing _ [] => some (st, .idle)

/-! ### The machine -/

namespace Requests

/-- The subscriptions, the databases of the tenants other than the default one, and what is in progress. -/
structure State (Item : Type) where
  subs : SubState Item
  orionDatabases : List String
  pending : Option (PendingRequest Item) := none
  sync : SyncPhase Item := .idle

inductive Action (Item : Type) where
  | subscribe (call : Subscribing) (now : Int) (tenant servicePath oid : String)
      (request : SubscribeContextRequest Item)
  | updateSubscription (call : Subscribing) (now : Int) (version : ApiVersion) (tenant servicePath subscriptionId : String)
      (request : SubscribeContextRequest Item)
  | unsubscribe (tenant subscriptionId : String)
  | toCache
  | sync

variable (code : FilterCode Item) (multitenant : Bool)

/-- A request begins if no other one is in progress; without a subscription to work on it is over at once. -/
def begin (s : State Item) (first : Option (SubState Item × PendingRequest Item)) : Option (State Item) :=
  match s.pending, first with
  | some _, _ => none
  | none, none => some s
  | none, some (subs, pending) => some { s with subs := subs, pending := some pending }

/-- The database of a tenant is made when its first document is written. -/
def withDatabase (tenant : String) (orionDatabases : List String) : List String :=
  if tenant = "" ∨ tenant ∈ orionDatabases then orionDatabases else orionDatabases ++ [tenant]

def step : Action Item → State Item → Option (State Item)
  | .subscribe call now tenant servicePath oid request, s =>
    (begin s (some (insertCsub code call now tenant servicePath oid request s.subs))).map fun s' =>
      { s' with orionDatabases := withDatabase tenant s.orionDatabases }
  | .updateSubscription call now version tenant servicePath subscriptionId request, s =>
    begin s (writeCsub call now version tenant servicePath subscriptionId request s.subs)
  | .unsubscribe tenant subscriptionId, s => begin s (removeCsub tenant subscriptionId s.subs)
  | .toCache, s =>
    match s.pending, s.sync with
    | some pending, .idle =>
      some { s with subs := { s.subs with cache := pending.toCache code s.subs.cache }, pending := none }
    | _, _ => none
  | .sync, s =>
    (syncStep (databases multitenant s.orionDatabases) s.subs s.sync).map fun after =>
      { s with subs := after.1, sync := after.2 }

end Requests

/-! ### The steps together -/

section Together

variable (code : FilterCode Item)

/-- The two steps of a new subscription. -/
theorem insertCsub_toCache (call : Subscribing) (now : Int) (tenant servicePath oid : String)
    (request : SubscribeContextRequest Item) (st : SubState Item) :
    let first := insertCsub code call now tenant servicePath oid request st
    { first.1 with cache := first.2.toCache code first.1.cache } =
      (mongoSubscribeContext code call now tenant servicePath oid request st).1 := rfl

/-- The two steps of an update.  The count and the time that the first step writes into the old item are gone with it. -/
theorem writeCsub_toCache (call : Subscribing) (now : Int) (version : ApiVersion)
    (tenant servicePath subscriptionId : String) (request : SubscribeContextRequest Item) (st : SubState Item) :
    ((writeCsub call now version tenant servicePath subscriptionId request st).map fun first =>
        { first.1 with cache := first.2.toCache code first.1.cache }) =
      (mongoUpdateContextSubscription code call now version tenant servicePath subscriptionId request st).map Prod.fst := by
  unfold writeCsub mongoUpdateContextSubscription
  cases safeGetSubId subscriptionId with
  | none => rfl
  | some id =>
    dsimp only
    cases KeyedList.get Csub.id id (st.csubs tenant) with
    | none => rfl
    | some sub =>
      simp only [Option.map_some, PendingRequest.toCache, UpdateToCache.item, updatedItem, Option.some.injEq,
        SubState.mk.injEq, and_true]
      generalize (request.updatedProcessed call sub).notificationDone = notificationDone
      have hkeys : ∀ cSub : CachedSubscription Item, cSub.key = (tenant, subscriptionId) →
          (cSub.sentToDb notificationDone now).key = (tenant, subscriptionId) := fun _ hkey => hkey
      cases hlookup : subCacheItemLookup tenant subscriptionId st.cache with
      | none =>
        have hmodify : KeyedList.modify CachedSubscription.key (tenant, subscriptionId)
            (CachedSubscription.sentToDb notificationDone now) st.cache = st.cache :=
          KeyedList.modify_of_get_eq_none hlookup
        rw [hmodify, hlookup]
      | some cSub =>
        have hlookup' : subCacheItemLookup tenant subscriptionId
            (KeyedList.modify CachedSubscription.key (tenant, subscriptionId)
              (CachedSubscription.sentToDb notificationDone now) st.cache) =
                some (cSub.sentToDb notificationDone now) := by
          have hlookup : KeyedList.get CachedSubscription.key (tenant, subscriptionId) st.cache = some cSub := hlookup
          rw [subCacheItemLookup, KeyedList.get_modify hkeys, if_pos rfl, hlookup]
          rfl
        obtain ⟨hmem, hkey⟩ := KeyedList.mem_of_get hlookup
        have hmem' : cSub.sentToDb notificationDone now ∈ KeyedList.modify CachedSubscription.key
            (tenant, subscriptionId) (CachedSubscription.sentToDb notificationDone now) st.cache :=
          (KeyedList.mem_of_get hlookup').1
        have hpath : ((some (cSub.sentToDb notificationDone now)).map CachedSubscription.servicePath).getD "" =
            ((some cSub).map CachedSubscription.servicePath).getD "" := rfl
        have hkey' := hkeys cSub hkey
        rw [hlookup', hpath]
        simp only [subCacheItemRemove, hkey, hkey']
        rw [List.eraseP_append_left (by simpa using hkey') _ hmem', List.eraseP_append_left (by simpa using hkey) _ hmem,
          KeyedList.eraseP_modify hkeys]

private theorem run_flushing (multitenant : Bool) (orionDatabases : List String) (pending : Option (PendingRequest Item))
    (savedSubV : List (String × CachedSubSaved)) (items : List (CachedSubscription Item)) (st : SubState Item) :
    StepRun.run (Requests.step code multitenant) (List.replicate (items.length + 1) .sync)
        ⟨st, orionDatabases, pending, .flushing savedSubV items⟩ =
      some ⟨{ st with csubs := items.foldl (flushItem savedSubV) st.csubs }, orionDatabases, pending, .idle⟩ := by
  induction items generalizing st with
  | nil => rfl
  | cons cSub items ih =>
    have ih := ih { st with csubs := flushItem savedSubV st.csubs cSub }
    exact ih

private theorem run_loading (multitenant : Bool) (orionDatabases : List String) (pending : Option (PendingRequest Item))
    (savedSubV : List (String × CachedSubSaved)) (tenants : List String) (st : SubState Item) :
    StepRun.run (Requests.step code multitenant) (List.replicate (tenants.length + 1) .sync)
        ⟨st, orionDatabases, pending, .loading savedSubV tenants⟩ =
      let cache := st.cache ++ tenants.flatMap fun tenant => loadedItems tenant (st.csubs tenant)
      some ⟨{ st with cache := cache }, orionDatabases, pending, .flushing (compareSaved cache savedSubV) cache⟩ := by
  induction tenants generalizing st with
  | nil =>
    simp only [List.flatMap_nil, List.append_nil]
    rfl
  | cons tenant tenants ih =>
    have ih := ih { st with cache := st.cache ++ loadedItems tenant (st.csubs tenant) }
    rw [List.flatMap_cons, ← List.append_assoc]
    exact ih

/-- A synchronization that is not interrupted does what `subCacheSync` does. -/
theorem run_syncStep (multitenant : Bool) {s : Requests.State Item} {st : SubState Item} (hidle : s.sync = .idle)
    (hsync : subCacheSync multitenant s.orionDatabases (fun _ => true) s.subs = some st) :
    ∃ turns, StepRun.run (Requests.step code multitenant) (List.replicate turns .sync) s = some { s with subs := st } := by
  obtain ⟨subs, orionDatabases, pending, sync⟩ := s
  cases hidle
  unfold subCacheSync at hsync
  cases hsaved : saveSubs subs.cache [] with
  | none =>
    dsimp only at hsync
    rw [hsaved] at hsync
    cases hsync
  | some savedSubV =>
    dsimp only at hsync
    rw [hsaved] at hsync
    have hst := (Option.some.inj hsync).symm
    have hrefresh : ((databases multitenant orionDatabases).flatMap fun tenant =>
        (loadedItems tenant (subs.csubs tenant) : List (CachedSubscription Item))) =
          subCacheRefresh multitenant orionDatabases (fun _ => true) subs.csubs := by
      rw [subCacheRefresh]
      rfl
    generalize (subCacheRefresh multitenant orionDatabases (fun _ => true) subs.csubs :
      List (CachedSubscription Item)) = cache at hst hrefresh
    have hload := run_loading code multitenant orionDatabases pending savedSubV (databases multitenant orionDatabases)
      { subs with cache := [] }
    rw [List.nil_append, hrefresh] at hload
    have hflush := run_flushing code multitenant orionDatabases pending (compareSaved cache savedSubV) cache
      { subs with cache := cache }
    have hsave : Requests.step code multitenant .sync ⟨subs, orionDatabases, pending, .idle⟩ =
        some ⟨{ subs with cache := [] }, orionDatabases, pending,
          .loading savedSubV (databases multitenant orionDatabases)⟩ := by
      rw [Requests.step, syncStep, hsaved]
      rfl
    refine ⟨1 + (((databases multitenant orionDatabases).length + 1) + (cache.length + 1)), ?_⟩
    rw [List.replicate_add, List.replicate_add, StepRun.run_append, List.replicate_one, StepRun.run, hsave,
      Option.bind_some, StepRun.run, Option.bind_some, StepRun.run_append, hload, Option.bind_some, hflush, hst]
    rfl

end Together

/-! ### What the cache should hold -/

/-- A document with this key is stored, and has a condition of type `ONCHANGE`. -/
def stored (csubs : String → List Csub) (k : String × String) : Bool :=
  (KeyedList.get Csub.id k.2 (csubs k.1)).any fun sub => sub.onChangeConditions ≠ []

/-- One item for each stored subscription with a condition of type `ONCHANGE`, and no other one. -/
def CachedOnce (st : SubState Item) : Prop :=
  ∀ k, KeyedList.times CachedSubscription.key k st.cache = if stored st.csubs k then 1 else 0

section Stored

variable {csubs : String → List Csub} {tenant id : String} {l : List Csub}

/-- A change of the documents of one tenant, seen at another key. -/
theorem stored_update_of_ne (hl : ∀ j, j ≠ id → KeyedList.get Csub.id j l = KeyedList.get Csub.id j (csubs tenant))
    {k : String × String} (hk : k ≠ (tenant, id)) : stored (Function.update csubs tenant l) k = stored csubs k := by
  obtain ⟨t, j⟩ := k
  by_cases ht : t = tenant
  · subst ht
    have hj : j ≠ id := fun h => hk (by rw [h])
    simp only [stored, Function.update_self, hl j hj]
  · simp only [stored, Function.update_of_ne ht]

theorem stored_update_self : stored (Function.update csubs tenant l) (tenant, id) =
    (KeyedList.get Csub.id id l).any fun sub => sub.onChangeConditions ≠ [] := by
  simp only [stored, Function.update_self]

/-- A document counts or does not count for the cache whatever its count and its notification time are. -/
theorem stored_mongoSubCacheUpdate (count lastNotificationTime : Int) (k : String × String) :
    stored (mongoSubCacheUpdate tenant id count lastNotificationTime csubs) k = stored csubs k := by
  have hget : ∀ j, KeyedList.get Csub.id j
      (KeyedList.modify Csub.id id (Csub.flush count lastNotificationTime) (csubs tenant)) =
        if j = id then (KeyedList.get Csub.id id (csubs tenant)).map (Csub.flush count lastNotificationTime)
        else KeyedList.get Csub.id j (csubs tenant) := by
    intro j
    apply KeyedList.get_modify
    intro sub hsub
    exact hsub
  by_cases hk : k = (tenant, id)
  · subst hk
    rw [mongoSubCacheUpdate, stored_update_self, hget id, if_pos rfl, stored]
    cases KeyedList.get Csub.id id (csubs tenant) with
    | none => rfl
    | some sub => rfl
  · rw [mongoSubCacheUpdate]
    refine stored_update_of_ne (fun j hj => ?_) hk
    rw [hget j, if_neg hj]

/-- The items that are loaded for a tenant. -/
theorem times_loadedItems (hids : ((csubs tenant).map Csub.id).Nodup)
    (hentities : ∀ sub ∈ csubs tenant, sub.entityInfos ≠ []) (k : String × String) :
    KeyedList.times CachedSubscription.key k (loadedItems tenant (csubs tenant) : List (CachedSubscription Item)) =
      if k.1 = tenant ∧ stored csubs k = true then 1 else 0 := by
  obtain ⟨t, j⟩ := k
  by_cases ht : t = tenant
  · subst ht
    rw [KeyedList.times_of_nodup (nodup_loadedItems t hids), get_loadedItems hids, stored]
    cases hg : KeyedList.get Csub.id j (csubs t) with
    | none => simp
    | some sub =>
      have hsub := hentities sub (KeyedList.mem_of_get hg).1
      by_cases hc : sub.onChangeConditions = []
      · simp [load_eq, Csub.Loadable, hc]
      · simp [load_eq, Csub.Loadable, hc, hsub]
  · rw [if_neg (fun h => ht h.1), ← KeyedList.get_eq_none_iff_times, KeyedList.get_eq_none_iff]
    intro hk
    obtain ⟨item, hitem, hkey⟩ := List.mem_map.1 hk
    have htenant := tenant_of_loadedItems hitem
    rw [hkey] at htenant
    exact ht htenant

end Stored

/-! ### Runs in which nothing goes wrong -/

namespace Requests

/-- What holds of the requests in any case: an OID is new when it is made, a new subscription has an entity, and without
multitenancy there is only the default tenant. -/
def Action.Possible (multitenant : Bool) : Action Item → State Item → Prop
  | .subscribe _ _ tenant _ oid request, s =>
    safeGetSubId oid = some oid ∧ oid ∉ (s.subs.csubs tenant).map Csub.id ∧ request.entityIdVector ≠ [] ∧
      (multitenant = true ∨ tenant = "")
  | _, _ => True

end Requests

/-- The second step of a request does what it is for.  An update that leaves a subscription with a condition `ONCHANGE`
finds its item, with a service path; an update or a removal whose text of the id is not the one that is cached has
nothing to do in the cache. -/
def PendingRequest.FindsItem (cache : List (CachedSubscription Item)) : PendingRequest Item → Prop
  | .subscribe _ _ _ => True
  | .update u =>
    if u.subscriptionId = u.newSub.id then
      u.newSub.onChangeConditions ≠ [] →
        ∃ cSub, subCacheItemLookup u.tenant u.subscriptionId cache = some cSub ∧ cSub.servicePath ≠ ""
    else
      u.newSub.onChangeConditions ≠ [] ↔ (subCacheItemLookup u.tenant u.newSub.id cache).isSome = true
  | .unsubscribe tenant subscriptionId =>
    ∀ id, safeGetSubId subscriptionId = some id →
      id = subscriptionId ∨ subCacheItemLookup tenant id cache = none

namespace Requests

/-- The condition on one step.  A new subscription has its conditions in capital letters, the second step of a request
finds the item that it is about, and no synchronization reads the documents of a tenant while a new subscription of this
tenant is between its steps. -/
def Action.Orderly : Action Item → State Item → Prop
  | .subscribe _ _ _ _ _ request, _ =>
    (∃ nc ∈ request.notifyConditionVector, Text.strcasecmp nc.type ON_CHANGE_CONDITION = true) →
      ∃ nc ∈ request.notifyConditionVector, nc.type = ON_CHANGE_CONDITION
  | .toCache, s => ∀ p, s.pending = some p → p.FindsItem s.subs.cache
  | .sync, s =>
    ∀ savedSubV tenant tenants, s.sync = .loading savedSubV (tenant :: tenants) →
      ∀ oid item, s.pending = some (.subscribe tenant oid item) → item = none
  | _, _ => True

end Requests

/-! ### What holds between the steps -/

/-- The tenant and the id of the subscription that a request is about. -/
def PendingRequest.key : PendingRequest Item → String × String
  | .subscribe tenant oid _ => (tenant, oid)
  | .update u => (u.tenant, u.newSub.id)
  | .unsubscribe tenant subscriptionId => (tenant, (safeGetSubId subscriptionId).getD subscriptionId)

/-- What the first step of a request has done to the documents. -/
def PendingRequest.Written (csubs : String → List Csub) : PendingRequest Item → Prop
  | .subscribe tenant oid item => stored csubs (tenant, oid) = item.isSome ∧ ∀ i, item = some i → i.key = (tenant, oid)
  | .update u =>
    safeGetSubId u.subscriptionId = some u.newSub.id ∧ u.newSub.entityInfos ≠ [] ∧
      stored csubs (u.tenant, u.newSub.id) = decide (u.newSub.onChangeConditions ≠ [])
  | .unsubscribe tenant subscriptionId =>
    ∃ id, safeGetSubId subscriptionId = some id ∧ stored csubs (tenant, id) = false

/-- How often the cache may have the subscription of a request before the second step. -/
def PendingRequest.bound : PendingRequest Item → Nat
  | .subscribe _ _ _ => 0
  | _ => 1

namespace Requests

/-- The documents and the databases: the ids of a tenant are different and are OIDs as the broker prints them, a
subscription has an entity, and a tenant with documents has a database. -/
structure Documents (multitenant : Bool) (csubs : String → List Csub) (orionDatabases : List String) : Prop where
  ids : ∀ t, ((csubs t).map Csub.id).Nodup
  printed : ∀ t, ∀ id ∈ (csubs t).map Csub.id, safeGetSubId id = some id
  entities : ∀ t, ∀ sub ∈ csubs t, sub.entityInfos ≠ []
  tenants : ∀ t, csubs t ≠ [] → t ∈ databases multitenant orionDatabases
  distinct : (databases multitenant orionDatabases).Nodup

/-- The tenants that a synchronization has still to read. -/
def State.unread (s : State Item) : List String :=
  match s.sync with
  | .loading _ tenants => tenants
  | _ => []

/-- The cache has nothing of the tenants that are not read yet; for the others it is as it should be, the subscription of
the pending request apart. -/
structure State.Consistent (multitenant : Bool) (s : State Item) : Prop where
  documents : Documents multitenant s.subs.csubs s.orionDatabases
  written : ∀ p, s.pending = some p → p.Written s.subs.csubs
  unreadOnce : s.unread.Nodup
  notRead : ∀ k, k.1 ∈ s.unread → KeyedList.times CachedSubscription.key k s.subs.cache = 0
  settled : ∀ k, k.1 ∉ s.unread → s.pending.map PendingRequest.key ≠ some k →
    KeyedList.times CachedSubscription.key k s.subs.cache = if stored s.subs.csubs k then 1 else 0
  pending : ∀ p, s.pending = some p → KeyedList.times CachedSubscription.key p.key s.subs.cache ≤ p.bound

variable {multitenant : Bool} {s : State Item}

/-! ### The first steps -/

/-- A first step changes the documents at the key of the request only, and not which items the cache has. -/
private theorem consistent_begin {subs : SubState Item} {p : PendingRequest Item} {orionDatabases : List String}
    (h : s.Consistent multitenant) (hidle : s.pending = none)
    (hdocuments : Documents multitenant subs.csubs orionDatabases) (hwritten : p.Written subs.csubs)
    (hstored : ∀ k, k ≠ p.key → stored subs.csubs k = stored s.subs.csubs k)
    (htimes : ∀ k, KeyedList.times CachedSubscription.key k subs.cache =
      KeyedList.times CachedSubscription.key k s.subs.cache)
    (hbound : (if stored s.subs.csubs p.key then 1 else 0) ≤ p.bound) :
    State.Consistent multitenant
      { s with subs := subs, pending := some p, orionDatabases := orionDatabases } where
  documents := hdocuments
  written := by
    intro q hq
    cases hq
    exact hwritten
  unreadOnce := h.unreadOnce
  notRead := by
    intro k hk
    rw [htimes]
    exact h.notRead k hk
  settled := by
    intro k hk hne
    have hk' : k ≠ p.key := fun he => hne (by rw [he]; rfl)
    rw [htimes, hstored k hk']
    exact h.settled k hk (by rw [hidle]; simp)
  pending := by
    intro q hq
    cases hq
    rw [htimes]
    by_cases hk : p.key.1 ∈ s.unread
    · rw [h.notRead _ hk]
      exact Nat.zero_le _
    · rw [h.settled _ hk (by rw [hidle]; simp)]
      exact hbound

theorem mem_databases_withDatabase {tenant t : String} {orionDatabases : List String}
    (h : t ∈ databases multitenant orionDatabases) : t ∈ databases multitenant (withDatabase tenant orionDatabases) := by
  unfold withDatabase
  split
  · exact h
  · cases multitenant with
    | false => exact h
    | true =>
      simp only [databases, if_true, List.mem_append, List.mem_singleton] at h ⊢
      rcases h with h | h
      · exact Or.inl (Or.inl h)
      · exact Or.inr h

theorem nodup_withDatabase {tenant : String} {orionDatabases : List String}
    (h : (databases multitenant orionDatabases).Nodup) :
    (databases multitenant (withDatabase tenant orionDatabases)).Nodup := by
  unfold withDatabase
  split
  · exact h
  · rename_i hnew
    rw [not_or] at hnew
    cases multitenant with
    | false => exact h
    | true =>
      simp only [databases, if_true, List.nodup_append, List.mem_singleton, List.mem_append] at h ⊢
      obtain ⟨h, -, hdefault⟩ := h
      refine ⟨⟨h, List.nodup_singleton _, ?_⟩, List.nodup_singleton _, ?_⟩
      · rintro t ht t' rfl rfl
        exact hnew.2 ht
      · rintro t (ht | rfl) t' rfl
        · exact hdefault t ht "" rfl
        · exact hnew.1

theorem mem_databases_self {tenant : String} {orionDatabases : List String} (h : multitenant = true ∨ tenant = "") :
    tenant ∈ databases multitenant (withDatabase tenant orionDatabases) := by
  by_cases ht : tenant = ""
  · simp [ht, databases]
  · rw [h.resolve_right ht]
    unfold withDatabase
    by_cases hmem : tenant ∈ orionDatabases
    · simp [databases, hmem]
    · simp [databases, hmem, ht]

variable {code : FilterCode Item}

/-- A change of the documents of one tenant. -/
private theorem documents_update {csubs : String → List Csub} {orionDatabases orionDatabases' : List String}
    {tenant : String} {l : List Csub} (h : Documents multitenant csubs orionDatabases) (hids : (l.map Csub.id).Nodup)
    (hprinted : ∀ id ∈ l.map Csub.id, safeGetSubId id = some id) (hentities : ∀ sub ∈ l, sub.entityInfos ≠ [])
    (hdatabases : ∀ t, t ∈ databases multitenant orionDatabases → t ∈ databases multitenant orionDatabases')
    (htenant : l ≠ [] → tenant ∈ databases multitenant orionDatabases')
    (hdistinct : (databases multitenant orionDatabases').Nodup) :
    Documents multitenant (Function.update csubs tenant l) orionDatabases' where
  ids := by
    intro t
    by_cases ht : t = tenant
    · subst ht
      rwa [Function.update_self]
    · rw [Function.update_of_ne ht]
      exact h.ids t
  printed := by
    intro t
    by_cases ht : t = tenant
    · subst ht
      rwa [Function.update_self]
    · rw [Function.update_of_ne ht]
      exact h.printed t
  entities := by
    intro t
    by_cases ht : t = tenant
    · subst ht
      rwa [Function.update_self]
    · rw [Function.update_of_ne ht]
      exact h.entities t
  tenants := by
    intro t
    by_cases ht : t = tenant
    · subst ht
      rwa [Function.update_self]
    · rw [Function.update_of_ne ht]
      exact fun hne => hdatabases t (h.tenants t hne)
  distinct := hdistinct

private theorem stored_insertCsub {call : Subscribing} {now : Int} {tenant servicePath oid : String}
    {request : SubscribeContextRequest Item} {st : SubState Item} (hnew : oid ∉ (st.csubs tenant).map Csub.id) :
    stored (insertCsub code call now tenant servicePath oid request st).1.csubs (tenant, oid) = true ↔
      ∃ nc ∈ request.notifyConditionVector, nc.type = ON_CHANGE_CONDITION := by
  have hnone : KeyedList.get Csub.id oid (st.csubs tenant) = none := KeyedList.get_eq_none_iff.2 hnew
  have hget : KeyedList.get Csub.id oid (st.csubs tenant ++ [newCsub call now servicePath oid request]) =
      some (newCsub call now servicePath oid request) := by
    rw [KeyedList.get_append, hnone, Option.none_or, KeyedList.get_cons]
    exact if_pos rfl
  have hconditions : (newCsub call now servicePath oid request).onChangeConditions =
      request.notifyConditionVector.filter fun nc => nc.type = ON_CHANGE_CONDITION := by
    rw [Csub.onChangeConditions, newCsub, SubscribeContextRequest.processed, conds_processConditionVector,
      List.filter_filter]
    simp
  rw [insertCsub, stored_update_self, hget, Option.any_some, decide_eq_true_eq, hconditions, ne_eq,
    List.filter_eq_nil_iff]
  simp

private theorem isSome_newItem {call : Subscribing} {now : Int} {tenant servicePath oid : String}
    {request : SubscribeContextRequest Item} :
    (newItem code call now tenant servicePath oid request).isSome = true ↔
      ∃ nc ∈ request.notifyConditionVector, Text.strcasecmp nc.type ON_CHANGE_CONDITION = true := by
  rw [newItem, subCacheItemInsert, ← List.any_eq_true]
  split
  · rename_i h
    simp [h]
  · rename_i h
    simp [h]

private theorem consistent_subscribe {call : Subscribing} {now : Int} {tenant servicePath oid : String}
    {request : SubscribeContextRequest Item} (h : s.Consistent multitenant) (hidle : s.pending = none)
    (hposs : (Action.subscribe call now tenant servicePath oid request).Possible multitenant s)
    (horderly : (Action.subscribe call now tenant servicePath oid request).Orderly s) :
    State.Consistent multitenant
      { s with
        subs := (insertCsub code call now tenant servicePath oid request s.subs).1
        pending := some (insertCsub code call now tenant servicePath oid request s.subs).2
        orionDatabases := withDatabase tenant s.orionDatabases } := by
  obtain ⟨hprinted, hnew, hentities, htenant⟩ := hposs
  have hinfos : (newCsub call now servicePath oid request).entityInfos ≠ [] := by
    have hof : (newCsub call now servicePath oid request).entities = entitiesOfRequest request.entityIdVector := rfl
    rw [entityInfos_entitiesOfRequest hof]
    simpa using hentities
  have hnone : KeyedList.get Csub.id oid (s.subs.csubs tenant) = none := KeyedList.get_eq_none_iff.2 hnew
  refine consistent_begin h hidle ?_ ?_ ?_ ?_ ?_
  · refine documents_update h.documents ?_ ?_ ?_ (fun t => mem_databases_withDatabase)
      (fun _ => mem_databases_self htenant) (nodup_withDatabase h.documents.distinct)
    · rw [List.map_append, List.nodup_append]
      refine ⟨h.documents.ids tenant, List.nodup_singleton _, ?_⟩
      intro id hid id' hid' he
      rw [he, List.mem_singleton.1 hid'] at hid
      exact hnew hid
    · intro id hid
      rw [List.map_append, List.mem_append] at hid
      rcases hid with hid | hid
      · exact h.documents.printed tenant id hid
      · rw [List.mem_singleton.1 hid]
        exact hprinted
    · intro sub hsub
      rw [List.mem_append] at hsub
      rcases hsub with hsub | hsub
      · exact h.documents.entities tenant sub hsub
      · rw [List.mem_singleton.1 hsub]
        exact hinfos
  · refine ⟨?_, fun i hi => key_newItem now hi⟩
    rw [Bool.eq_iff_iff, stored_insertCsub hnew, isSome_newItem]
    constructor
    · rintro ⟨nc, hnc, htype⟩
      exact ⟨nc, hnc, by rw [htype]; decide⟩
    · exact horderly
  · intro k hk
    refine stored_update_of_ne (fun j hj => ?_) hk
    rw [KeyedList.get_append, KeyedList.get_cons, if_neg fun he => hj he.symm]
    exact Option.or_none
  · intro k
    rfl
  · have hfalse : stored s.subs.csubs (tenant, oid) = false := by
      rw [stored, hnone]
      rfl
    change (if stored s.subs.csubs (tenant, oid) = true then 1 else 0) ≤ 0
    rw [hfalse]
    rfl

/-- What an update of a stored subscription writes. -/
private theorem writeCsub_eq_some {call : Subscribing} {now : Int} {version : ApiVersion}
    {tenant servicePath subscriptionId : String} {request : SubscribeContextRequest Item} {st st' : SubState Item}
    {p : PendingRequest Item}
    (h : writeCsub call now version tenant servicePath subscriptionId request st = some (st', p)) :
    ∃ id sub u notificationDone, safeGetSubId subscriptionId = some id ∧
      KeyedList.get Csub.id id (st.csubs tenant) = some sub ∧ p = .update u ∧ u.tenant = tenant ∧
      u.subscriptionId = subscriptionId ∧
      u.newSub = request.updatedCsub call now version sub servicePath (subCacheItemLookup tenant subscriptionId st.cache) ∧
      st'.csubs = Function.update st.csubs tenant (KeyedList.modify Csub.id id (fun _ => u.newSub) (st.csubs tenant)) ∧
      st'.cache = KeyedList.modify CachedSubscription.key (tenant, subscriptionId)
        (CachedSubscription.sentToDb notificationDone now) st.cache := by
  unfold writeCsub at h
  split at h
  · cases h
  · rename_i id hid
    split at h
    · cases h
    · rename_i sub hsub
      cases h
      exact ⟨id, sub, _, _, hid, hsub, rfl, rfl, rfl, rfl, rfl, rfl⟩

private theorem entityInfos_updatedCsub {call : Subscribing} {now : Int} {version : ApiVersion} {servicePath : String}
    {request : SubscribeContextRequest Item} {sub : Csub} (cSubP : Option (CachedSubscription Item))
    (h : sub.entityInfos ≠ []) : (request.updatedCsub call now version sub servicePath cSubP).entityInfos ≠ [] := by
  by_cases hv : version = .v2 ∧ request.entityIdVector ≠ []
  · have hentities : (request.updatedCsub call now version sub servicePath cSubP).entities =
        entitiesOfRequest request.entityIdVector := by
      rw [SubscribeContextRequest.updatedCsub, SubscribeContextRequest.updatedEntities, if_pos hv]
    rw [entityInfos_entitiesOfRequest hentities]
    simpa using hv.2
  · have hentities : (request.updatedCsub call now version sub servicePath cSubP).entities = sub.entities := by
      rw [SubscribeContextRequest.updatedCsub, SubscribeContextRequest.updatedEntities, if_neg hv]
    rw [Csub.entityInfos, hentities]
    exact h

private theorem consistent_updateSubscription {call : Subscribing} {now : Int} {version : ApiVersion}
    {tenant servicePath subscriptionId : String} {request : SubscribeContextRequest Item} {subs : SubState Item}
    {p : PendingRequest Item} (h : s.Consistent multitenant) (hidle : s.pending = none)
    (hfirst : writeCsub call now version tenant servicePath subscriptionId request s.subs = some (subs, p)) :
    State.Consistent multitenant { s with subs := subs, pending := some p } := by
  obtain ⟨id, sub, u, notificationDone, hid, hsub, rfl, rfl, rfl, hnewSub, hcsubs, hcache⟩ := writeCsub_eq_some hfirst
  obtain ⟨hmem, hsubId⟩ := KeyedList.mem_of_get hsub
  have hnewId : u.newSub.id = id := by
    rw [hnewSub]
    exact hsubId
  have hinfos : u.newSub.entityInfos ≠ [] := by
    rw [hnewSub]
    exact entityInfos_updatedCsub _ (h.documents.entities _ sub hmem)
  have hids : (KeyedList.modify Csub.id id (fun _ => u.newSub) (s.subs.csubs u.tenant)).map Csub.id =
      (s.subs.csubs u.tenant).map Csub.id := KeyedList.keys_modify (fun _ _ => hnewId) _
  refine consistent_begin h hidle ?_ ?_ ?_ ?_ ?_
  · rw [hcsubs]
    refine documents_update h.documents ?_ ?_ ?_ (fun _ ht => ht) (fun _ => ?_) h.documents.distinct
    · rw [hids]
      exact h.documents.ids _
    · rw [hids]
      exact h.documents.printed _
    · intro sub' hsub'
      rcases KeyedList.mem_modify hsub' with hsub' | ⟨_, _, _, rfl⟩
      · exact h.documents.entities _ sub' hsub'
      · exact hinfos
    · exact h.documents.tenants _ (List.ne_nil_of_mem hmem)
  · refine ⟨by rw [hnewId]; exact hid, hinfos, ?_⟩
    rw [hcsubs, hnewId, stored_update_self, KeyedList.get_modify fun _ _ => hnewId, if_pos rfl, hsub]
    rfl
  · intro k hk
    rw [hcsubs]
    refine stored_update_of_ne (fun j hj => ?_) hk
    rw [KeyedList.get_modify fun _ _ => hnewId, if_neg fun he => hj (he.trans hnewId.symm)]
  · intro k
    rw [hcache]
    apply KeyedList.times_modify
    intro cSub hkey
    exact hkey
  · change (if stored s.subs.csubs (u.tenant, u.newSub.id) = true then 1 else 0) ≤ 1
    split
    · exact Nat.le_refl 1
    · exact Nat.zero_le 1

private theorem consistent_unsubscribe {tenant subscriptionId : String} {subs : SubState Item} {p : PendingRequest Item}
    (h : s.Consistent multitenant) (hidle : s.pending = none)
    (hfirst : removeCsub tenant subscriptionId s.subs = some (subs, p)) :
    State.Consistent multitenant { s with subs := subs, pending := some p } := by
  unfold removeCsub at hfirst
  split at hfirst
  · cases hfirst
  · rename_i id hid
    split at hfirst
    · cases hfirst
    · rename_i sub hsub
      cases hfirst
      obtain ⟨hmem, -⟩ := KeyedList.mem_of_get hsub
      have hkey : (PendingRequest.unsubscribe tenant subscriptionId : PendingRequest Item).key = (tenant, id) := by
        rw [PendingRequest.key, hid]
        rfl
      have hsublist : ((s.subs.csubs tenant).eraseP fun sub => sub.id = id).Sublist (s.subs.csubs tenant) :=
        List.eraseP_sublist
      refine consistent_begin h hidle ?_ ?_ ?_ (fun _ => rfl) ?_
      · refine documents_update h.documents ((h.documents.ids tenant).sublist (hsublist.map _)) ?_ ?_ (fun _ ht => ht)
          (fun _ => ?_) h.documents.distinct
        · intro id' hid'
          exact h.documents.printed tenant id' ((hsublist.map _).subset hid')
        · intro sub' hsub'
          exact h.documents.entities tenant sub' (hsublist.subset hsub')
        · exact h.documents.tenants tenant (List.ne_nil_of_mem hmem)
      · refine ⟨id, hid, ?_⟩
        rw [stored_update_self, KeyedList.get_eraseP (h.documents.ids tenant), if_pos rfl]
        rfl
      · rw [hkey]
        intro k hk
        refine stored_update_of_ne (fun j hj => ?_) hk
        rw [KeyedList.get_eraseP (h.documents.ids tenant), if_neg hj]
      · rw [hkey]
        change (if stored s.subs.csubs (tenant, id) = true then 1 else 0) ≤ 1
        split
        · exact Nat.le_refl 1
        · exact Nat.zero_le 1

/-! ### The second steps -/

private theorem times_of_lookup {tenant id : String} {cache : List (CachedSubscription Item)}
    (h : subCacheItemLookup tenant id cache = none) : KeyedList.times CachedSubscription.key (tenant, id) cache = 0 :=
  KeyedList.get_eq_none_iff_times.1 h

/-- The item of an update that has not found the old one. -/
private theorem item_none {u : UpdateToCache Item} (hid : u.subscriptionId ≠ "") :
    (u.item code none).toOption = none := by
  simp [UpdateToCache.item, Update.mongoSubCacheItemInsert, hid, Except.toOption]

private theorem isSome_item {u : UpdateToCache Item} {cSub : CachedSubscription Item} (hid : u.subscriptionId ≠ "")
    (hinfos : u.newSub.entityInfos ≠ []) (hpath : u.newSub.onChangeConditions ≠ [] → cSub.servicePath ≠ "") :
    (u.item code (some cSub)).toOption.isSome = decide (u.newSub.onChangeConditions ≠ []) := by
  by_cases hc : u.newSub.onChangeConditions = []
  · by_cases hs : cSub.servicePath = ""
    · simp [UpdateToCache.item, Update.mongoSubCacheItemInsert, hid, hs, hc, Except.toOption]
    · simp [UpdateToCache.item, Update.mongoSubCacheItemInsert, hid, hs, hinfos, hc, Except.toOption]
  · simp [UpdateToCache.item, Update.mongoSubCacheItemInsert, hid, hpath hc, hinfos, hc, Except.toOption]

private theorem key_of_item {u : UpdateToCache Item} {cSubP : Option (CachedSubscription Item)}
    {item : CachedSubscription Item} (h : (u.item code cSubP).toOption = some item) :
    item.key = (u.tenant, u.subscriptionId) := by
  unfold UpdateToCache.item Update.mongoSubCacheItemInsert at h
  split at h
  · cases h
  · split at h
    · cases h
    · split at h
      · cases h
      · split at h
        · cases h
        · cases h
          rfl

private theorem times_toList {k : String × String} {item : Option (CachedSubscription Item)} {k' : String × String}
    (hkey : ∀ i, item = some i → i.key = k') :
    KeyedList.times CachedSubscription.key k item.toList = if k = k' ∧ item.isSome = true then 1 else 0 := by
  cases item with
  | none => simp [KeyedList.times]
  | some i =>
    rw [Option.toList_some, KeyedList.times_cons, hkey i rfl]
    by_cases hk : k = k'
    · simp [KeyedList.times, hk]
    · simp [KeyedList.times, hk, Ne.symm hk]

/-- An id that is not printed as the broker does it is not cached. -/
private theorem lookup_unprinted {subscriptionId id tenant : String} (h : s.Consistent multitenant)
    (hunread : s.unread = []) (hid : safeGetSubId subscriptionId = some id) (hne : subscriptionId ≠ id)
    (hkey : s.pending.map PendingRequest.key = some (tenant, id)) :
    subCacheItemLookup tenant subscriptionId s.subs.cache = none := by
  rw [subCacheItemLookup, KeyedList.get_eq_none_iff_times, h.settled (tenant, subscriptionId) (by rw [hunread]; simp)
    (by rw [hkey]; exact fun he => hne (congrArg Prod.snd (Option.some.inj he)).symm)]
  have hstored : stored s.subs.csubs (tenant, subscriptionId) = false := by
    rw [stored]
    cases hg : KeyedList.get Csub.id subscriptionId (s.subs.csubs tenant) with
    | none => rfl
    | some sub =>
      obtain ⟨hmem, hsubId⟩ := KeyedList.mem_of_get hg
      have hprinted := h.documents.printed tenant subscriptionId (List.mem_map.2 ⟨sub, hmem, hsubId⟩)
      rw [hid] at hprinted
      exact absurd (Option.some.inj hprinted).symm hne
  rw [hstored]
  rfl

/-- The old item is removed. -/
private theorem times_subCacheItemRemove {cache cache' : List (CachedSubscription Item)} {tenant id : String}
    {cSub : CachedSubscription Item} (h : subCacheItemLookup tenant id cache = some cSub) (k : String × String) :
    KeyedList.times CachedSubscription.key k (subCacheItemRemove (some cSub) cache') =
      KeyedList.times CachedSubscription.key k cache' - if k = (tenant, id) then 1 else 0 := by
  have hkey : cSub.key = (tenant, id) := (KeyedList.mem_of_get h).2
  rw [subCacheItemRemove, hkey]
  exact KeyedList.times_eraseP k cache'

/-- After the second step the subscription of the request is cached as it should be, and the others are as before. -/
private theorem times_toCache {p : PendingRequest Item} (h : s.Consistent multitenant) (hunread : s.unread = [])
    (hp : s.pending = some p) (hfinds : p.FindsItem s.subs.cache) (k : String × String) :
    KeyedList.times CachedSubscription.key k (p.toCache code s.subs.cache) =
      if k = p.key then if stored s.subs.csubs k then 1 else 0
      else KeyedList.times CachedSubscription.key k s.subs.cache := by
  have hwritten := h.written p hp
  have hbound := h.pending p hp
  have hkey : s.pending.map PendingRequest.key = some p.key := by rw [hp]; rfl
  cases p with
  | subscribe tenant oid item =>
    obtain ⟨hstored, hitem⟩ := hwritten
    have hzero : KeyedList.times CachedSubscription.key (tenant, oid) s.subs.cache = 0 := Nat.le_zero.1 hbound
    rw [PendingRequest.toCache, KeyedList.times_append, times_toList hitem, PendingRequest.key]
    by_cases hk : k = (tenant, oid)
    · rw [hk, hzero, hstored]
      simp
    · simp [hk]
  | update u =>
    obtain ⟨hid, hinfos, hstored⟩ := hwritten
    have hne := ne_empty_of_safeGetSubId hid
    rw [PendingRequest.FindsItem] at hfinds
    rw [PendingRequest.key] at hkey hbound ⊢
    rw [PendingRequest.toCache]
    by_cases hprinted : u.subscriptionId = u.newSub.id
    · rw [if_pos hprinted] at hfinds
      cases hlookup : subCacheItemLookup u.tenant u.subscriptionId s.subs.cache with
      | none =>
        -- there was no item, so there is no condition `ONCHANGE`
        have hnone : ¬ u.newSub.onChangeConditions ≠ [] := by
          intro hc
          obtain ⟨cSub, hsome, -⟩ := hfinds hc
          rw [hlookup] at hsome
          cases hsome
        have hzero := times_of_lookup hlookup
        rw [hprinted] at hzero
        simp only [subCacheItemRemove, item_none hne, Option.toList_none, List.append_nil]
        by_cases hk : k = (u.tenant, u.newSub.id)
        · rw [if_pos hk, hk, hzero, hstored, decide_eq_false hnone]
          rfl
        · rw [if_neg hk]
      | some cSub =>
        have hpath : u.newSub.onChangeConditions ≠ [] → cSub.servicePath ≠ "" := by
          intro hc
          obtain ⟨cSub', hsome, hpath⟩ := hfinds hc
          rw [hlookup] at hsome
          cases hsome
          exact hpath
        have hone : 1 ≤ KeyedList.times CachedSubscription.key (u.tenant, u.newSub.id) s.subs.cache := by
          rw [Nat.one_le_iff_ne_zero, ne_eq, ← hprinted, ← KeyedList.get_eq_none_iff_times]
          intro hnone
          rw [subCacheItemLookup, hnone] at hlookup
          cases hlookup
        have hbound : KeyedList.times CachedSubscription.key (u.tenant, u.newSub.id) s.subs.cache ≤ 1 := hbound
        rw [times_subCacheItemRemove hlookup, KeyedList.times_append, times_toList fun i => key_of_item,
          isSome_item hne hinfos hpath, hprinted]
        by_cases hk : k = (u.tenant, u.newSub.id)
        · rw [hk, hstored]
          simp only [true_and, if_true]
          omega
        · simp [hk]
    · rw [if_neg hprinted] at hfinds
      have hnone := lookup_unprinted h hunread hid hprinted hkey
      rw [hnone]
      simp only [subCacheItemRemove, item_none hne, Option.toList_none, List.append_nil]
      by_cases hk : k = (u.tenant, u.newSub.id)
      · rw [if_pos hk, hk, hstored]
        have hbound : KeyedList.times CachedSubscription.key (u.tenant, u.newSub.id) s.subs.cache ≤ 1 := hbound
        by_cases hc : u.newSub.onChangeConditions ≠ []
        · have hsome := hfinds.1 hc
          have hpos : KeyedList.times CachedSubscription.key (u.tenant, u.newSub.id) s.subs.cache ≠ 0 := by
            intro hzero
            rw [subCacheItemLookup, KeyedList.get_eq_none_iff_times.2 hzero] at hsome
            cases hsome
          rw [decide_eq_true hc, if_pos rfl]
          omega
        · have hnone' : subCacheItemLookup u.tenant u.newSub.id s.subs.cache = none := by
            rw [← Option.not_isSome_iff_eq_none]
            exact fun hsome => hc (hfinds.2 hsome)
          rw [times_of_lookup hnone', decide_eq_false hc]
          rfl
      · rw [if_neg hk]
  | unsubscribe tenant subscriptionId =>
    obtain ⟨id, hid, hstored⟩ := hwritten
    have hkey' : (PendingRequest.unsubscribe tenant subscriptionId : PendingRequest Item).key = (tenant, id) := by
      rw [PendingRequest.key, hid]
      rfl
    rw [hkey'] at hkey hbound ⊢
    rw [PendingRequest.toCache]
    have hzero_of : ∀ cache : List (CachedSubscription Item),
        KeyedList.times CachedSubscription.key (tenant, id) cache = 0 →
        KeyedList.times CachedSubscription.key (tenant, id) cache =
          if stored s.subs.csubs (tenant, id) = true then 1 else 0 := by
      intro cache hzero
      rw [hzero, hstored]
      rfl
    by_cases hprinted : subscriptionId = id
    · subst hprinted
      cases hlookup : subCacheItemLookup tenant subscriptionId s.subs.cache with
      | none =>
        by_cases hk : k = (tenant, subscriptionId)
        · rw [if_pos hk, hk]
          exact hzero_of _ (times_of_lookup hlookup)
        · rw [if_neg hk]
          rfl
      | some cSub =>
        rw [times_subCacheItemRemove hlookup]
        by_cases hk : k = (tenant, subscriptionId)
        · have hbound : KeyedList.times CachedSubscription.key (tenant, subscriptionId) s.subs.cache ≤ 1 := hbound
          rw [if_pos hk, if_pos hk, hk, hstored]
          simp only [Bool.false_eq_true, if_false]
          omega
        · rw [if_neg hk, if_neg hk]
          exact Nat.sub_zero _
    · rw [lookup_unprinted h hunread hid hprinted hkey]
      have hgone := (hfinds id hid).resolve_left fun he => hprinted he.symm
      by_cases hk : k = (tenant, id)
      · rw [if_pos hk, hk]
        exact hzero_of _ (times_of_lookup hgone)
      · rw [if_neg hk]
        rfl

private theorem unread_of_idle (h : s.sync = .idle) : s.unread = [] := by rw [State.unread, h]

private theorem consistent_toCache {p : PendingRequest Item} (h : s.Consistent multitenant) (hp : s.pending = some p)
    (hidle : s.sync = .idle) (hfinds : p.FindsItem s.subs.cache) :
    State.Consistent multitenant
      { s with subs := { s.subs with cache := p.toCache code s.subs.cache }, pending := none } := by
  have hunread := unread_of_idle hidle
  have hafter : ({ s with
      subs := { s.subs with cache := p.toCache code s.subs.cache }, pending := none } : State Item).unread = [] :=
    unread_of_idle hidle
  constructor
  · exact h.documents
  · intro q hq
    exact absurd hq (Option.some_ne_none q).symm
  · rw [hafter]
    exact List.nodup_nil
  · intro k hk
    rw [hafter] at hk
    cases hk
  · intro k _ _
    rw [times_toCache h hunread hp hfinds k]
    split
    · rfl
    · rename_i hne
      refine h.settled k (by rw [hunread]; simp) ?_
      rw [hp]
      exact fun he => hne (Option.some.inj he).symm
  · intro q hq
    exact absurd hq (Option.some_ne_none q).symm

/-! ### The steps of a synchronization -/

private theorem written_congr {csubs csubs' : String → List Csub} (hstored : ∀ k, stored csubs' k = stored csubs k)
    {p : PendingRequest Item} (h : p.Written csubs) : p.Written csubs' := by
  cases p with
  | subscribe tenant oid item => exact ⟨(hstored _).trans h.1, h.2⟩
  | update u => exact ⟨h.1, h.2.1, (hstored _).trans h.2.2⟩
  | unsubscribe tenant subscriptionId =>
    obtain ⟨id, hid, hnot⟩ := h
    exact ⟨id, hid, (hstored _).trans hnot⟩

private theorem consistent_save {savedSubV : List (String × CachedSubSaved)} (h : s.Consistent multitenant) :
    State.Consistent multitenant
      { s with
        subs := { s.subs with cache := [] }
        sync := .loading savedSubV (databases multitenant s.orionDatabases) } where
  documents := h.documents
  written := h.written
  unreadOnce := h.documents.distinct
  notRead := fun _ _ => rfl
  settled := by
    intro k hk _
    have hempty : s.subs.csubs k.1 = [] := by
      by_contra hne
      exact hk (h.documents.tenants k.1 hne)
    have hstored : stored s.subs.csubs k = false := by
      rw [stored, hempty]
      rfl
    change 0 = if stored s.subs.csubs k = true then 1 else 0
    rw [hstored]
    rfl
  pending := fun p _ => Nat.zero_le p.bound

private theorem consistent_load {savedSubV : List (String × CachedSubSaved)} {tenant : String} {tenants : List String}
    (h : s.Consistent multitenant) (hsync : s.sync = .loading savedSubV (tenant :: tenants))
    (horderly : ∀ oid item, s.pending = some (.subscribe tenant oid item) → item = none) :
    State.Consistent multitenant
      { s with
        subs := { s.subs with cache := s.subs.cache ++ loadedItems tenant (s.subs.csubs tenant) }
        sync := .loading savedSubV tenants } := by
  have hunread : s.unread = tenant :: tenants := by rw [State.unread, hsync]
  have honce := h.unreadOnce
  rw [hunread, List.nodup_cons] at honce
  have htimes : ∀ k, KeyedList.times CachedSubscription.key k
      (s.subs.cache ++ loadedItems tenant (s.subs.csubs tenant)) =
        KeyedList.times CachedSubscription.key k s.subs.cache +
          if k.1 = tenant ∧ stored s.subs.csubs k = true then 1 else 0 := by
    intro k
    rw [KeyedList.times_append, times_loadedItems (h.documents.ids tenant) (h.documents.entities tenant)]
  have hnotRead : ∀ k : String × String, k.1 = tenant → KeyedList.times CachedSubscription.key k s.subs.cache = 0 :=
    fun k hk => h.notRead k (by rw [hunread, hk]; exact List.mem_cons_self)
  refine ⟨h.documents, h.written, honce.2, ?_, ?_, ?_⟩
  · intro k hk
    have hk : k.1 ∈ tenants := hk
    have hne : k.1 ≠ tenant := fun he => honce.1 (he ▸ hk)
    rw [htimes, h.notRead k (by rw [hunread]; exact List.mem_cons_of_mem _ hk), if_neg fun hc => hne hc.1]
  · intro k hk hpending
    rw [htimes]
    by_cases ht : k.1 = tenant
    · rw [hnotRead k ht]
      simp [ht]
    · rw [if_neg fun hc => ht hc.1, Nat.add_zero]
      exact h.settled k (by rw [hunread]; exact fun hm => (List.mem_cons.1 hm).elim ht hk) hpending
  · intro p hp
    rw [htimes]
    by_cases ht : p.key.1 = tenant
    · rw [hnotRead _ ht]
      cases p with
      | subscribe tenant' oid item =>
        have ht : tenant' = tenant := ht
        subst ht
        have hstored := (h.written _ hp).1
        rw [horderly oid item hp] at hstored
        simp [PendingRequest.key, hstored]
      | update u =>
        change _ ≤ 1
        split
        · exact Nat.le_refl 1
        · exact Nat.zero_le 1
      | unsubscribe tenant' subscriptionId =>
        change _ ≤ 1
        split
        · exact Nat.le_refl 1
        · exact Nat.zero_le 1
    · rw [if_neg fun hc => ht hc.1]
      exact h.pending p hp

private theorem consistent_flush {savedSubV : List (String × CachedSubSaved)} {cSub : CachedSubscription Item}
    {items : List (CachedSubscription Item)} (h : s.Consistent multitenant)
    (hsync : s.sync = .flushing savedSubV (cSub :: items)) :
    State.Consistent multitenant
      { s with
        subs := { s.subs with csubs := flushItem savedSubV s.subs.csubs cSub }
        sync := .flushing savedSubV items } := by
  have hunread : s.unread = [] := by rw [State.unread, hsync]
  have hdocuments : Documents multitenant (flushItem savedSubV s.subs.csubs cSub) s.orionDatabases ∧
      ∀ k, stored (flushItem savedSubV s.subs.csubs cSub) k = stored s.subs.csubs k := by
    unfold flushItem
    split
    · exact ⟨h.documents, fun _ => rfl⟩
    · refine ⟨?_, fun k => stored_mongoSubCacheUpdate _ _ k⟩
      rw [mongoSubCacheUpdate]
      rename_i css hcss
      have hids : (KeyedList.modify Csub.id cSub.subscriptionId (Csub.flush css.2.count css.2.lastNotificationTime)
          (s.subs.csubs cSub.tenant)).map Csub.id = (s.subs.csubs cSub.tenant).map Csub.id := by
        apply KeyedList.keys_modify
        intro sub hsub
        exact hsub
      refine documents_update h.documents ?_ ?_ ?_ (fun _ ht => ht) ?_ h.documents.distinct
      · rw [hids]
        exact h.documents.ids _
      · rw [hids]
        exact h.documents.printed _
      · intro sub hsub
        rcases KeyedList.mem_modify hsub with hsub | ⟨sub', hsub', -, rfl⟩
        · exact h.documents.entities _ sub hsub
        · exact h.documents.entities _ sub' hsub'
      · intro hne
        refine h.documents.tenants _ fun hnil => hne ?_
        rw [hnil]
        rfl
  refine ⟨hdocuments.1, fun p hp => written_congr hdocuments.2 (h.written p hp), List.nodup_nil, fun k hk => ?_, ?_,
    h.pending⟩
  · cases hk
  · intro k _ hpending
    rw [hdocuments.2 k]
    exact h.settled k (by rw [hunread]; simp) hpending

/-- A change of the phase after which nothing is unread, as before. -/
private theorem consistent_phase {sync : SyncPhase Item} (h : s.Consistent multitenant)
    (hunread : ({ s with sync := sync } : State Item).unread = s.unread) :
    State.Consistent multitenant { s with sync := sync } where
  documents := h.documents
  written := h.written
  unreadOnce := by rw [hunread]; exact h.unreadOnce
  notRead := by rw [hunread]; exact h.notRead
  settled := by rw [hunread]; exact h.settled
  pending := h.pending

private theorem consistent_sync {s' : State Item} (h : s.Consistent multitenant)
    (horderly : (Action.sync : Action Item).Orderly s) (hstep : step code multitenant .sync s = some s') :
    s'.Consistent multitenant := by
  obtain ⟨⟨subs, sync⟩, hsync, rfl⟩ := Option.map_eq_some_iff.1 hstep
  cases hphase : s.sync with
  | idle =>
    rw [hphase] at hsync
    obtain ⟨savedSubV, -, he⟩ := Option.map_eq_some_iff.1 hsync
    cases he
    exact consistent_save h
  | loading savedSubV tenants =>
    rw [hphase] at hsync
    cases tenants with
    | nil =>
      cases hsync
      exact consistent_phase h (by rw [State.unread, State.unread, hphase])
    | cons tenant tenants =>
      cases hsync
      exact consistent_load h hphase (horderly savedSubV tenant tenants hphase)
  | flushing savedSubV items =>
    rw [hphase] at hsync
    cases items with
    | nil =>
      cases hsync
      exact consistent_phase h (by rw [State.unread, State.unread, hphase])
    | cons cSub items =>
      cases hsync
      exact consistent_flush h hphase

/-! ### Runs -/

private theorem begin_eq_some {first : Option (SubState Item × PendingRequest Item)} {s' : State Item}
    (h : begin s first = some s') :
    s.pending = none ∧ ((first = none ∧ s' = s) ∨
      ∃ subs p, first = some (subs, p) ∧ s' = { s with subs := subs, pending := some p }) := by
  unfold begin at h
  split at h
  · cases h
  · rename_i hidle
    cases h
    exact ⟨hidle, Or.inl ⟨rfl, rfl⟩⟩
  · rename_i subs p hidle
    cases h
    exact ⟨hidle, Or.inr ⟨subs, p, rfl, rfl⟩⟩

private theorem consistent_step {a : Action Item} {s' : State Item} (hposs : a.Possible multitenant s)
    (horderly : a.Orderly s) (h : s.Consistent multitenant) (hstep : step code multitenant a s = some s') :
    s'.Consistent multitenant := by
  cases a with
  | subscribe call now tenant servicePath oid request =>
    obtain ⟨s₁, hbegin, rfl⟩ := Option.map_eq_some_iff.1 hstep
    obtain ⟨hidle, ⟨hnone, -⟩ | ⟨subs, p, hfirst, rfl⟩⟩ := begin_eq_some hbegin
    · cases hnone
    · cases hfirst
      exact consistent_subscribe h hidle hposs horderly
  | updateSubscription call now version tenant servicePath subscriptionId request =>
    obtain ⟨hidle, ⟨-, rfl⟩ | ⟨subs, p, hfirst, rfl⟩⟩ := begin_eq_some hstep
    · exact h
    · exact consistent_updateSubscription h hidle hfirst
  | unsubscribe tenant subscriptionId =>
    obtain ⟨hidle, ⟨-, rfl⟩ | ⟨subs, p, hfirst, rfl⟩⟩ := begin_eq_some hstep
    · exact h
    · exact consistent_unsubscribe h hidle hfirst
  | toCache =>
    rw [step] at hstep
    split at hstep
    · rename_i p hp hidle
      cases hstep
      exact consistent_toCache h hp hidle (horderly p hp)
    · cases hstep
  | sync => exact consistent_sync h horderly hstep

/-- The broker when the cache has just been loaded. -/
def start (multitenant : Bool) (csubs : String → List Csub) (orionDatabases : List String) : State Item where
  subs := { cache := subCacheRefresh multitenant orionDatabases (fun _ => true) csubs, csubs := csubs }
  orionDatabases := orionDatabases

private theorem consistent_start {csubs : String → List Csub} {orionDatabases : List String}
    (h : Documents multitenant csubs orionDatabases) :
    (start multitenant csubs orionDatabases : State Item).Consistent multitenant := by
  constructor
  · exact h
  · intro p hp
    exact absurd hp (Option.some_ne_none p).symm
  · exact List.nodup_nil
  · intro k hk
    cases hk
  · intro k _ _
    have hlookup := @lookup_subCacheRefresh Item multitenant orionDatabases (fun _ => true) csubs h.ids k.1 k.2
    have hkeys : ((start multitenant csubs orionDatabases : State Item).subs.cache.map CachedSubscription.key).Nodup :=
      nodup_subCacheRefresh h.distinct h.ids
    rw [KeyedList.times_of_nodup hkeys]
    change (if (subCacheItemLookup k.1 k.2 (subCacheRefresh multitenant orionDatabases (fun _ => true) csubs :
      List (CachedSubscription Item))).isSome = true then 1 else 0) = if stored csubs k = true then 1 else 0
    rw [hlookup, stored]
    cases hget : KeyedList.get Csub.id k.2 (csubs k.1) with
    | none => simp
    | some sub =>
      obtain ⟨hmem, -⟩ := KeyedList.mem_of_get hget
      have htenant := h.tenants k.1 (List.ne_nil_of_mem hmem)
      have hentities := h.entities k.1 sub hmem
      by_cases hc : sub.onChangeConditions = []
      · simp [htenant, load_eq, Csub.Loadable, hc]
      · simp [htenant, load_eq, Csub.Loadable, hc, hentities]
  · intro p hp
    exact absurd hp (Option.some_ne_none p).symm

/-- No request and no synchronization is in progress. -/
def State.Quiet (s : State Item) : Prop := s.pending = none ∧ s.sync = .idle

/-- In a run whose steps all are orderly, the cache holds one item for each stored subscription with a condition of type
`ONCHANGE` and no other, whenever nothing is in progress. -/
theorem cached_once_of_run {csubs : String → List Csub} {orionDatabases : List String} {actions : List (Action Item)}
    (hdocuments : Documents multitenant csubs orionDatabases)
    (hposs : StepRun.Along (step code multitenant) (Action.Possible multitenant) actions
      (start multitenant csubs orionDatabases))
    (horderly : StepRun.Along (step code multitenant) Action.Orderly actions (start multitenant csubs orionDatabases))
    (hrun : StepRun.run (step code multitenant) actions (start multitenant csubs orionDatabases) = some s)
    (hquiet : s.Quiet) : CachedOnce s.subs := by
  have hboth : StepRun.Along (step code multitenant) (fun a s => a.Possible multitenant s ∧ a.Orderly s) actions
      (start multitenant csubs orionDatabases) := StepRun.along_and hposs horderly
  have hinv : s.Consistent multitenant := StepRun.invariant_of_run
    (fun a t t' ha ht hstep => consistent_step ha.1 ha.2 ht hstep) hboth (consistent_start hdocuments) hrun
  intro k
  refine hinv.settled k ?_ ?_
  · rw [unread_of_idle hquiet.2]
    exact List.not_mem_nil
  · rw [hquiet.1]
    exact (Option.some_ne_none k).symm

private theorem documents_empty : Documents false (fun _ => []) [] where
  ids := fun _ => List.nodup_nil
  printed := fun _ id h => absurd h List.not_mem_nil
  entities := fun _ sub h => absurd h List.not_mem_nil
  tenants := fun _ h => absurd rfl h
  distinct := by decide

/-- A new subscription in an empty database. -/
theorem cached_once_of_subscribe :
    ∃ s : State Unit, StepRun.run (step refusingEnv.toFilterCode false)
        [.subscribe noEntities 100 "" "/" exampleId (subscribeToA none), .toCache] (start false (fun _ => []) []) = some s ∧
      s.subs.cache.length = 1 ∧ CachedOnce s.subs := by
  obtain ⟨s, hrun, hlength, hquiet⟩ : ∃ s : State Unit, StepRun.run (step refusingEnv.toFilterCode false)
      [.subscribe noEntities 100 "" "/" exampleId (subscribeToA none), .toCache] (start false (fun _ => []) []) = some s ∧
        s.subs.cache.length = 1 ∧ s.Quiet := ⟨_, rfl, rfl, rfl, rfl⟩
  refine ⟨s, hrun, hlength, cached_once_of_run documents_empty ?_ ?_ hrun hquiet⟩
  · exact ⟨⟨by decide, List.not_mem_nil, by decide, Or.inr rfl⟩, fun _ _ => ⟨trivial, fun _ _ => trivial⟩⟩
  · refine ⟨fun _ => ⟨_, List.mem_singleton_self _, rfl⟩, fun s₁ h₁ => ⟨?_, fun _ _ => trivial⟩⟩
    cases h₁
    intro p hp
    cases hp
    trivial

/-- A synchronization between the two steps of a new subscription loads the subscription, and the second step inserts it
once more. -/
theorem cached_twice_after_sync :
    Documents false (fun _ => []) [] ∧
    StepRun.Along (step refusingEnv.toFilterCode false) (Action.Possible false)
      [.subscribe noEntities 100 "" "/" exampleId (subscribeToA none), .sync, .sync, .sync, .sync, .sync, .toCache]
      (start false (fun _ => []) []) ∧
    ∃ s : State Unit, StepRun.run (step refusingEnv.toFilterCode false)
        [.subscribe noEntities 100 "" "/" exampleId (subscribeToA none), .sync, .sync, .sync, .sync, .sync, .toCache]
        (start false (fun _ => []) []) = some s ∧ s.Quiet ∧ ¬ CachedOnce s.subs := by
  refine ⟨documents_empty, ?_, _, rfl, ⟨rfl, rfl⟩, ?_⟩
  · refine ⟨⟨by decide, List.not_mem_nil, by decide, Or.inr rfl⟩, fun _ _ => ?_⟩
    exact ⟨trivial, fun _ _ => ⟨trivial, fun _ _ => ⟨trivial, fun _ _ => ⟨trivial, fun _ _ =>
      ⟨trivial, fun _ _ => ⟨trivial, fun _ _ => trivial⟩⟩⟩⟩⟩⟩
  · intro h
    have hkey := h ("", exampleId)
    revert hkey
    decide

end Requests

end OrionBroker
