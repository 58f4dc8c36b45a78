import OrionBroker.UpdateSubscription
import OrionBroker.StepRun

/-!
# Runs of the broker, as far as subscriptions are concerned

The state of the broker is the cache, the documents, the clock and a log of the notifications that were sent.  The
actions are the passing of time, an update of an entity, a synchronization of the cache, a new subscription and an
update of a subscription.  `notifyUpdate_withCache` and `notifyUpdate_noCache` say what an update of an entity does to
the cache and to the documents.

In a well-formed state an id belongs to one document only, and only stored subscriptions are cached.  Every action
keeps a state well-formed (`wellFormed_of_step`).
-/

namespace OrionBroker

variable {Item : Type} (env : SubEnv Item) (now : Int) (u : EntityUpdate) (cer : ContextElementResponse)

/-! ### What an update of an entity records -/

/-- The item leads to a notification. -/
def CachedSubscription.notified (cSub : CachedSubscription Item) : Bool :=
  cSub.triggers env now u && (cSub.triggered cSub.stringFilter).notifies now env.toFilterCode cer

/-- The item after a notification. -/
def CachedSubscription.record (cSub : CachedSubscription Item) : CachedSubscription Item :=
  { cSub with lastNotificationTime := now, count := cSub.count + 1 }

/-- The item after an update of an entity. -/
def CachedSubscription.recorded (cSub : CachedSubscription Item) : CachedSubscription Item :=
  if cSub.notified env now u cer then cSub.record now else cSub

/-- The document leads to a notification. -/
def Csub.notified (sub : Csub) : Bool :=
  sub.triggers env now u &&
    (sub.triggered ((sub.stringFilter env.toFilterCode).getD none)).notifies now env.toFilterCode cer

/-- The document after a notification. -/
def Csub.record (sub : Csub) : Csub :=
  { sub with lastNotification := some now, count := some (sub.count.getD 0 + 1) }

/-- The document after an update of an entity. -/
def Csub.recorded (sub : Csub) : Csub := if sub.notified env now u cer then sub.record now else sub

@[simp] theorem CachedSubscription.key_record (cSub : CachedSubscription Item) : (cSub.record now).key = cSub.key := rfl

@[simp] theorem Csub.id_record (sub : Csub) : (sub.record now).id = sub.id := rfl

@[simp]
theorem CachedSubscription.key_recorded (cSub : CachedSubscription Item) :
    (cSub.recorded env now u cer).key = cSub.key := by
  unfold CachedSubscription.recorded
  split <;> rfl

@[simp]
theorem CachedSubscription.subscriptionId_recorded (cSub : CachedSubscription Item) :
    (cSub.recorded env now u cer).subscriptionId = cSub.subscriptionId :=
  congrArg Prod.snd (cSub.key_recorded env now u cer)

@[simp]
theorem CachedSubscription.throttling_recorded (cSub : CachedSubscription Item) :
    (cSub.recorded env now u cer).throttling = cSub.throttling := by
  unfold CachedSubscription.recorded
  split <;> rfl

@[simp]
theorem Csub.id_recorded (sub : Csub) : (sub.recorded env now u cer).id = sub.id := by
  unfold Csub.recorded
  split <;> rfl

@[simp]
theorem Csub.throttling_recorded (sub : Csub) : (sub.recorded env now u cer).throttling = sub.throttling := by
  unfold Csub.recorded
  split <;> rfl

private theorem recordNotification_cached {tenant : String} {L : List (CachedSubscription Item)}
    (hne : ∀ cSub ∈ L, cSub.subscriptionId ≠ "") (st : SubState Item) :
    (L.map fun cSub => (cSub.subscriptionId, cSub.triggered cSub.stringFilter)).foldl
        (fun st x => recordNotification now true tenant x.1 x.2 st) st =
      { st with
        cache := (L.map CachedSubscription.key).foldl (fun cache k =>
          KeyedList.modify CachedSubscription.key k (CachedSubscription.record now) cache) st.cache } := by
  induction L generalizing st with
  | nil => rfl
  | cons cSub L ih =>
    rw [List.forall_mem_cons] at hne
    have hstep : recordNotification now true tenant cSub.subscriptionId (cSub.triggered cSub.stringFilter) st =
        { st with
          cache := KeyedList.modify CachedSubscription.key cSub.key (CachedSubscription.record now) st.cache } := by
      unfold recordNotification
      rw [if_neg (show (cSub.triggered cSub.stringFilter).cacheSubId ≠ "" from hne.1)]
      rfl
    rw [List.map_cons, List.foldl_cons, hstep, ih hne.2, List.map_cons, List.foldl_cons]

private theorem recordNotification_stored {tenant : String} (L : List Csub) (filter : Csub → Option (List Item))
    (st : SubState Item) :
    (L.map fun sub => (sub.id, sub.triggered (filter sub))).foldl
        (fun st x => recordNotification now false tenant x.1 x.2 st) st =
      { st with
        csubs := Function.update st.csubs tenant ((L.map Csub.id).foldl (fun csubs id =>
          KeyedList.modify Csub.id id (Csub.record now) csubs) (st.csubs tenant)) } := by
  induction L generalizing st with
  | nil => simp
  | cons sub L ih =>
    have hstep : recordNotification now false tenant sub.id (sub.triggered (filter sub)) st =
        { st with
          csubs := Function.update st.csubs tenant
            (KeyedList.modify Csub.id sub.id (Csub.record now) (st.csubs tenant)) } := rfl
    rw [List.map_cons, List.foldl_cons, hstep, ih, List.map_cons, List.foldl_cons]
    simp

/-- With the cache: either nothing happens, or the items that lead to a notification are recorded. -/
theorem notifyUpdate_withCache {st : SubState Item} (hids : (st.cache.map CachedSubscription.subscriptionId).Nodup)
    (hne : ∀ cSub ∈ st.cache, cSub.subscriptionId ≠ "") :
    notifyUpdate env now u false cer st = (st, []) ∨
      ((notifyUpdate env now u false cer st).1 =
          { st with cache := st.cache.map (CachedSubscription.recorded env now u cer) } ∧
        (notifyUpdate env now u false cer st).2.map Notification.subscriptionId =
          (st.cache.filter (CachedSubscription.notified env now u cer)).map CachedSubscription.subscriptionId) := by
  have hkeys : (st.cache.map CachedSubscription.key).Nodup := by
    refine List.Nodup.of_map Prod.snd ?_
    rw [List.map_map]
    exact hids
  have hsub : ((st.cache.filter (CachedSubscription.triggers env now u)).map CachedSubscription.subscriptionId).Nodup :=
    hids.sublist (List.filter_sublist.map _)
  unfold notifyUpdate addTriggeredSubscriptions
  rw [if_neg (by decide), withCache_eq env now u st.cache [] (by simpa using hsub)]
  split
  · exact Or.inl rfl
  · rename_i subs hsubs
    split at hsubs
    · cases hsubs
      refine Or.inr ?_
      have hfilter : (((st.cache.filter (CachedSubscription.triggers env now u)).map fun cSub =>
          (cSub.subscriptionId, cSub.triggered cSub.stringFilter)).filter fun x =>
            x.2.notifies now env.toFilterCode cer) =
          (st.cache.filter (CachedSubscription.notified env now u cer)).map fun cSub =>
            (cSub.subscriptionId, cSub.triggered cSub.stringFilter) := by
        rw [List.filter_map, List.filter_filter]
        congr 2
        funext cSub
        exact Bool.and_comm _ _
      simp only [List.nil_append, processSubscriptions_eq, hfilter, Bool.not_false]
      constructor
      · rw [recordNotification_cached now fun cSub hc => hne cSub (List.mem_filter.1 hc).1]
        congr 1
        exact KeyedList.foldl_modify_filter (CachedSubscription.key_record now) _ hkeys
      · simp
    · cases hsubs

/-- Without the cache: either nothing happens, or the documents that lead to a notification are recorded. -/
theorem notifyUpdate_noCache {st : SubState Item} (hids : ((st.csubs u.tenant).map Csub.id).Nodup) :
    notifyUpdate env now u true cer st = (st, []) ∨
      ((notifyUpdate env now u true cer st).1 =
          { st with
            csubs := Function.update st.csubs u.tenant
              ((st.csubs u.tenant).map (Csub.recorded env now u cer)) } ∧
        (notifyUpdate env now u true cer st).2.map Notification.subscriptionId =
          ((st.csubs u.tenant).filter (Csub.notified env now u cer)).map Csub.id) := by
  have hsub : (((st.csubs u.tenant).filter (Csub.triggers env now u)).map Csub.id).Nodup :=
    hids.sublist (List.filter_sublist.map _)
  unfold notifyUpdate addTriggeredSubscriptions
  rw [if_pos rfl, noCache_eq env now u (st.csubs u.tenant) [] (by simpa using hsub)]
  split
  · exact Or.inl rfl
  · rename_i subs hsubs
    split at hsubs
    · cases hsubs
      refine Or.inr ?_
      have hfilter : ((((st.csubs u.tenant).filter (Csub.triggers env now u)).map fun sub =>
          (sub.id, sub.triggered ((sub.stringFilter env.toFilterCode).getD none))).filter fun x =>
            x.2.notifies now env.toFilterCode cer) =
          ((st.csubs u.tenant).filter (Csub.notified env now u cer)).map fun sub =>
            (sub.id, sub.triggered ((sub.stringFilter env.toFilterCode).getD none)) := by
        rw [List.filter_map, List.filter_filter]
        congr 2
        funext sub
        exact Bool.and_comm _ _
      simp only [List.nil_append, processSubscriptions_eq, hfilter, Bool.not_true]
      constructor
      · rw [recordNotification_stored]
        congr 2
        exact KeyedList.foldl_modify_filter (Csub.id_record now) _ hids
      · simp
    · cases hsubs

/-! ### Well-formed states -/

/-- The keys of the cache are different, an id belongs to one document of one tenant, ids are OIDs as the broker prints
them, and only stored subscriptions are cached. -/
structure WellFormed (st : SubState Item) : Prop where
  keys : (st.cache.map CachedSubscription.key).Nodup
  ids : ∀ t, ((st.csubs t).map Csub.id).Nodup
  tenants : ∀ t t' id, id ∈ (st.csubs t).map Csub.id → id ∈ (st.csubs t').map Csub.id → t = t'
  printed : ∀ t, ∀ id ∈ (st.csubs t).map Csub.id, safeGetSubId id = some id
  cachedStored : ∀ k ∈ st.cache.map CachedSubscription.key, k.2 ∈ (st.csubs k.1).map Csub.id

namespace WellFormed

variable {st : SubState Item}

/-- Also the ids of the cached subscriptions are different. -/
theorem cachedIds (h : WellFormed st) : (st.cache.map CachedSubscription.subscriptionId).Nodup := by
  have hmap : st.cache.map CachedSubscription.subscriptionId = (st.cache.map CachedSubscription.key).map Prod.snd := by
    rw [List.map_map]
    rfl
  rw [hmap]
  refine List.Nodup.map_on ?_ h.keys
  intro k hk k' hk' he
  refine Prod.ext ?_ he
  exact h.tenants _ _ k.2 (h.cachedStored k hk) (he ▸ h.cachedStored k' hk')

theorem stored_of_cached (h : WellFormed st) {cSub : CachedSubscription Item} (hc : cSub ∈ st.cache) :
    cSub.subscriptionId ∈ (st.csubs cSub.tenant).map Csub.id :=
  h.cachedStored _ (List.mem_map_of_mem hc)

theorem printed_of_cached (h : WellFormed st) {cSub : CachedSubscription Item} (hc : cSub ∈ st.cache) :
    safeGetSubId cSub.subscriptionId = some cSub.subscriptionId :=
  h.printed _ _ (h.stored_of_cached hc)

theorem ne_empty_of_cached (h : WellFormed st) {cSub : CachedSubscription Item} (hc : cSub ∈ st.cache) :
    cSub.subscriptionId ≠ "" :=
  ne_empty_of_safeGetSubId (h.printed_of_cached hc)

/-- The document of a cached subscription, and its item, are found by the id of either. -/
theorem tenant_eq (h : WellFormed st) {cSub : CachedSubscription Item} (hc : cSub ∈ st.cache) {t : String}
    (hid : cSub.subscriptionId ∈ (st.csubs t).map Csub.id) : cSub.tenant = t :=
  h.tenants _ _ _ (h.stored_of_cached hc) hid

/-- A change of the cache that keeps the ids of the documents. -/
theorem of_ids {st' : SubState Item} (h : WellFormed st)
    (hids : ∀ t, (st'.csubs t).map Csub.id = (st.csubs t).map Csub.id)
    (hkeys : (st'.cache.map CachedSubscription.key).Nodup)
    (hstored : ∀ k ∈ st'.cache.map CachedSubscription.key, k.2 ∈ (st.csubs k.1).map Csub.id) : WellFormed st' where
  keys := hkeys
  ids := fun t => by rw [hids]; exact h.ids t
  tenants := fun t t' id hid hid' => by rw [hids] at hid hid'; exact h.tenants t t' id hid hid'
  printed := fun t id hid => by rw [hids] at hid; exact h.printed t id hid
  cachedStored := fun k hk => by rw [hids]; exact hstored k hk

end WellFormed

/-! ### The broker -/

/-- A notification in the log; it is an initial one, or it was triggered by an update of an entity. -/
structure SentNotification where
  time : Int
  subscriptionId : String
  initial : Bool
deriving DecidableEq

structure Broker (Item : Type) where
  subs : SubState Item
  now : Int
  sent : List SentNotification

inductive Action (Item : Type) where
  | tick (seconds : Nat)
  | update (u : EntityUpdate) (cer : ContextElementResponse)
  | sync (orionDatabases : List String)
  | subscribe (call : Subscribing) (tenant servicePath oid : String) (request : SubscribeContextRequest Item)
  | updateSubscription (call : Subscribing) (version : ApiVersion) (tenant servicePath subscriptionId : String)
      (request : SubscribeContextRequest Item)

variable (noCache : Bool)

/-- One action.  Nothing happens if there is no subscription to update.  No operation on the database fails. -/
def step : Action Item → Broker Item → Option (Broker Item)
  | .tick seconds, b => some { b with now := b.now + seconds }
  | .update u cer, b =>
    let notified := notifyUpdate env b.now u noCache cer b.subs
    some { subs := notified.1, now := b.now,
           sent := b.sent ++ notified.2.map fun n => ⟨b.now, n.subscriptionId, false⟩ }
  | .sync orionDatabases, b =>
    (subCacheSync env.subCacheMultitenant orionDatabases (fun _ => true) b.subs).map fun st => { b with subs := st }
  | .subscribe call tenant servicePath oid request, b =>
    let subscribed := mongoSubscribeContext env.toFilterCode call b.now tenant servicePath oid request b.subs
    some { subs := subscribed.1, now := b.now, sent := b.sent ++ List.replicate subscribed.2 ⟨b.now, oid, true⟩ }
  | .updateSubscription call version tenant servicePath subscriptionId request, b =>
    match mongoUpdateContextSubscription env.toFilterCode call b.now version tenant servicePath subscriptionId request
        b.subs with
    | none => some b
    | some (st, sent) =>
      some { subs := st, now := b.now,
             sent := b.sent ++ List.replicate sent ⟨b.now, (safeGetSubId subscriptionId).getD subscriptionId, true⟩ }

/-- What holds of the actions in any case: the databases are different, and a new OID is new. -/
def Action.Possible : Action Item → Broker Item → Prop
  | .sync orionDatabases, _ => (databases env.subCacheMultitenant orionDatabases).Nodup
  | .subscribe _ _ _ oid _, b => safeGetSubId oid = some oid ∧ ∀ t, oid ∉ (b.subs.csubs t).map Csub.id
  | _, _ => True

/-! ### Every action keeps a state well-formed -/

private theorem keys_recorded (cache : List (CachedSubscription Item)) :
    (cache.map (CachedSubscription.recorded env now u cer)).map CachedSubscription.key =
      cache.map CachedSubscription.key := by
  rw [List.map_map]
  exact List.map_congr_left fun c _ => c.key_recorded env now u cer

private theorem ids_recorded (csubs : List Csub) :
    (csubs.map (Csub.recorded env now u cer)).map Csub.id = csubs.map Csub.id := by
  rw [List.map_map]
  exact List.map_congr_left fun sub _ => sub.id_recorded env now u cer

private theorem wellFormed_notifyUpdate {st : SubState Item} (h : WellFormed st) :
    WellFormed (notifyUpdate env now u noCache cer st).1 := by
  cases noCache with
  | false =>
    rcases notifyUpdate_withCache env now u cer h.cachedIds (fun c hc => h.ne_empty_of_cached hc) with he | ⟨he, -⟩
    · rw [he]
      exact h
    · have hkeys := keys_recorded env now u cer st.cache
      rw [he]
      refine h.of_ids (fun _ => rfl) ?_ ?_
      · rw [hkeys]
        exact h.keys
      · rw [hkeys]
        exact h.cachedStored
  | true =>
    rcases notifyUpdate_noCache env now u cer (h.ids u.tenant) with he | ⟨he, -⟩
    · rw [he]
      exact h
    · rw [he]
      refine h.of_ids (fun t => ?_) h.keys h.cachedStored
      dsimp only
      by_cases ht : t = u.tenant
      · subst ht
        rw [Function.update_self, ids_recorded]
      · rw [Function.update_of_ne ht]

private theorem wellFormed_subCacheSync {orionDatabases : List String} {st st' : SubState Item} (h : WellFormed st)
    (hdb : (databases env.subCacheMultitenant orionDatabases).Nodup)
    (hsync : subCacheSync env.subCacheMultitenant orionDatabases (fun _ => true) st = some st') : WellFormed st' := by
  obtain ⟨-, hcache, -⟩ := subCacheSync_spec hdb h.ids hsync
  refine h.of_ids (ids_subCacheSync hsync) ?_ ?_
  · rw [hcache]
    exact nodup_subCacheRefresh hdb h.ids
  · intro k hk
    rw [hcache] at hk
    obtain ⟨item, hitem, rfl⟩ := List.mem_map.1 hk
    obtain ⟨-, -, sub, hsub, hload⟩ := mem_subCacheRefresh.1 hitem
    have hid : item.subscriptionId = sub.id := congrArg Prod.snd (key_of_load hload)
    exact List.mem_map.2 ⟨sub, hsub, hid.symm⟩

theorem key_newItem {code : FilterCode Item} {call : Subscribing} {tenant servicePath oid : String}
    {request : SubscribeContextRequest Item} {item : CachedSubscription Item}
    (h : newItem code call now tenant servicePath oid request = some item) : item.key = (tenant, oid) := by
  unfold newItem subCacheItemInsert at h
  split at h
  · cases h
    rfl
  · cases h

theorem ids_mongoSubscribeContext (code : FilterCode Item) (call : Subscribing) (tenant servicePath oid : String)
    (request : SubscribeContextRequest Item) (st : SubState Item) (t : String) :
    ((mongoSubscribeContext code call now tenant servicePath oid request st).1.csubs t).map Csub.id =
      (st.csubs t).map Csub.id ++ if t = tenant then [oid] else [] := by
  unfold mongoSubscribeContext
  dsimp only
  by_cases ht : t = tenant
  · subst ht
    rw [Function.update_self, List.map_append, if_pos rfl]
    rfl
  · rw [Function.update_of_ne ht, if_neg ht, List.append_nil]

private theorem wellFormed_mongoSubscribeContext {call : Subscribing} {tenant servicePath oid : String}
    {request : SubscribeContextRequest Item} {st : SubState Item} (h : WellFormed st)
    (hprinted : safeGetSubId oid = some oid) (hnew : ∀ t, oid ∉ (st.csubs t).map Csub.id) :
    WellFormed (mongoSubscribeContext env.toFilterCode call now tenant servicePath oid request st).1 := by
  have hids := ids_mongoSubscribeContext now env.toFilterCode call tenant servicePath oid request st
  have hmem : ∀ t id, id ∈ ((mongoSubscribeContext env.toFilterCode call now tenant servicePath oid request st).1.csubs
      t).map Csub.id → id ∈ (st.csubs t).map Csub.id ∨ (t = tenant ∧ id = oid) := by
    intro t id hid
    rw [hids, List.mem_append] at hid
    rcases hid with hid | hid
    · exact Or.inl hid
    · split at hid
      · rename_i ht
        exact Or.inr ⟨ht, List.mem_singleton.1 hid⟩
      · cases hid
  have hcache : (mongoSubscribeContext env.toFilterCode call now tenant servicePath oid request st).1.cache =
      st.cache ++ (newItem env.toFilterCode call now tenant servicePath oid request).toList := rfl
  refine ⟨?_, ?_, ?_, ?_, ?_⟩
  · rw [hcache, List.map_append, List.nodup_append]
    refine ⟨h.keys, ?_, ?_⟩
    · cases newItem env.toFilterCode call now tenant servicePath oid request <;> simp
    · intro k hk k' hk' he
      obtain ⟨item, hitem, rfl⟩ := List.mem_map.1 hk'
      rw [he, key_newItem now (Option.mem_toList.1 hitem)] at hk
      exact hnew tenant (h.cachedStored _ hk)
  · intro t
    rw [hids, List.nodup_append]
    refine ⟨h.ids t, ?_, ?_⟩
    · split <;> simp
    · intro id hid id' hid' he
      split at hid'
      · rw [he, List.mem_singleton.1 hid'] at hid
        exact hnew t hid
      · cases hid'
  · intro t t' id hid hid'
    rcases hmem t id hid with hid | ⟨ht, hid⟩
    · rcases hmem t' id hid' with hid' | ⟨-, hid'⟩
      · exact h.tenants t t' id hid hid'
      · exact absurd (hid' ▸ hid) (hnew t)
    · rcases hmem t' id hid' with hid' | ⟨ht', -⟩
      · exact absurd (hid ▸ hid') (hnew t')
      · exact ht.trans ht'.symm
  · intro t id hid
    rcases hmem t id hid with hid | ⟨-, hid⟩
    · exact h.printed t id hid
    · rw [hid]
      exact hprinted
  · intro k hk
    rw [hcache, List.map_append, List.mem_append] at hk
    rw [hids, List.mem_append]
    rcases hk with hk | hk
    · exact Or.inl (h.cachedStored k hk)
    · obtain ⟨item, hitem, rfl⟩ := List.mem_map.1 hk
      rw [key_newItem now (Option.mem_toList.1 hitem)]
      simp

private theorem wellFormed_mongoUpdateContextSubscription {call : Subscribing} {version : ApiVersion}
    {tenant servicePath subscriptionId : String} {request : SubscribeContextRequest Item} {st st' : SubState Item}
    {sent : Nat} (h : WellFormed st)
    (hupdate : mongoUpdateContextSubscription env.toFilterCode call now version tenant servicePath subscriptionId request
      st = some (st', sent)) : WellFormed st' := by
  obtain ⟨id, sub, hid, hsub, -, hkeys, hlookup, hids, -⟩ := mongoUpdateContextSubscription_spec h.keys hupdate
  refine h.of_ids hids hkeys ?_
  intro k hk
  refine h.cachedStored k ?_
  by_contra hnot
  -- an item that was not there is not inserted
  have hnone : subCacheItemLookup k.1 k.2 st.cache = none := KeyedList.get_eq_none_iff.2 hnot
  have hnone' : subCacheItemLookup k.1 k.2 st'.cache = none := by
    rw [hlookup]
    split
    · rename_i he
      cases he
      rw [hnone, updatedItem_toOption]
      rfl
    · exact hnone
  exact KeyedList.get_eq_none_iff.1 hnone' hk

/-- Every action keeps a state well-formed. -/
theorem wellFormed_of_step {a : Action Item} {b b' : Broker Item} (hposs : a.Possible env b) (h : WellFormed b.subs)
    (hstep : step env noCache a b = some b') : WellFormed b'.subs := by
  cases a with
  | tick seconds =>
    cases hstep
    exact h
  | update u cer =>
    cases hstep
    exact wellFormed_notifyUpdate env b.now u cer noCache h
  | sync orionDatabases =>
    obtain ⟨st, hsync, rfl⟩ := Option.map_eq_some_iff.1 hstep
    exact wellFormed_subCacheSync env h hposs hsync
  | subscribe call tenant servicePath oid request =>
    cases hstep
    exact wellFormed_mongoSubscribeContext env b.now h hposs.1 hposs.2
  | updateSubscription call version tenant servicePath subscriptionId request =>
    rw [step] at hstep
    split at hstep
    · cases hstep
      exact h
    · rename_i st sent hupdate
      cases hstep
      exact wellFormed_mongoUpdateContextSubscription env b.now h hupdate

/-! ### A broker with one subscription -/

/-- No filters, one tenant, and patterns that accept themselves. -/
def plainEnv : SubEnv Empty where
  toFilterCode := noFilters
  regexec := fun pattern id => pattern = id
  subCacheMultitenant := false

/-- The subscription of `changesOfE`, stored and cached and never notified, with a throttling. -/
def freshBroker (throttling : Int) : Broker Empty where
  subs :=
    { cache := [{ cachedChangesOfE exampleId (-1) 0 with throttling := throttling }]
      csubs := onlyDocument { changesOfE exampleId none with throttling := some throttling } }
  now := 100
  sent := []

theorem wellFormed_freshBroker (throttling : Int) : WellFormed (freshBroker throttling).subs := by
  have hids : ∀ t, ((freshBroker throttling).subs.csubs t).map Csub.id = if t = "" then [exampleId] else [] := by
    intro t
    unfold freshBroker onlyDocument
    dsimp only
    split <;> rfl
  refine ⟨by simp [freshBroker], ?_, ?_, ?_, ?_⟩
  · intro t
    rw [hids]
    split <;> simp
  · intro t t' id hid hid'
    rw [hids] at hid hid'
    split at hid
    · split at hid'
      · rename_i ht ht'
        exact ht.trans ht'.symm
      · cases hid'
    · cases hid
  · intro t id hid
    rw [hids] at hid
    split at hid
    · rw [List.mem_singleton.1 hid]
      decide
    · cases hid
  · intro k hk
    rw [List.mem_singleton.1 hk, hids]
    exact List.mem_singleton.2 rfl

end OrionBroker
