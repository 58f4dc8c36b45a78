import OrionBroker.NotificationRun

/-!
# Counts of notifications

The number of notifications of a subscription is split: a part is in the document, and the rest is in the cache until it
is flushed.  `counts_conserved_of_run` says for which runs the sum is the number of notifications that were sent.

The number of initial notifications matters, since the code only knows whether there was one: a new subscription that has
sent one counts it in the document and in the cache.
-/

namespace OrionBroker

variable {Item : Type} (env : SubEnv Item)

/-- The number of notifications of a subscription in the log. -/
def sentCount (id : String) (sent : List SentNotification) : Nat := sent.countP fun n => n.subscriptionId = id

/-- The count in the cache, 0 if the subscription is not cached. -/
def cachedCount (tenant id : String) (cache : List (CachedSubscription Item)) : Int :=
  ((subCacheItemLookup tenant id cache).map CachedSubscription.count).getD 0

/-- The count of a document and the count in the cache are the number of notifications. -/
def CountsConserved (b : Broker Item) : Prop :=
  ∀ t, ∀ sub ∈ b.subs.csubs t, sub.count.getD 0 + cachedCount t sub.id b.subs.cache = sentCount sub.id b.sent

/-- The number of initial notifications for a request, if the subscription gets the given status. -/
def SubscribeContextRequest.initialNotifications (call : Subscribing) (status : String)
    (request : SubscribeContextRequest Item) : Nat :=
  if status = STATUS_ACTIVE then
    request.onChangeConditions.countP fun nc => call.processOnChangeConditionForSubscription nc.condValueList
  else 0

/-- The conditions on an action.  In a synchronization, subscriptions with a count in the cache are loaded again; a new
subscription sends no initial notification, or two; the update of a subscription sends one at most, and if it sends none,
then the document has a count already, or nothing is counted in the cache. -/
def Action.CountsOnce : Action Item → Broker Item → Prop
  | .sync orionDatabases, b =>
    ∀ cSub ∈ b.subs.cache, cSub.count ≠ 0 → cSub.tenant ∈ databases env.subCacheMultitenant orionDatabases ∧
      ∀ sub ∈ b.subs.csubs cSub.tenant, sub.id = cSub.subscriptionId → sub.Loadable
  | .subscribe call _ _ _ request, _ =>
    request.initialNotifications call request.newStatus = 0 ∨ request.initialNotifications call request.newStatus = 2
  | .updateSubscription call _ tenant _ subscriptionId request, b =>
    ∀ sub ∈ b.subs.csubs tenant, safeGetSubId subscriptionId = some sub.id →
      request.initialNotifications call (request.updatedStatus sub) ≤ 1 ∧
        (request.initialNotifications call (request.updatedStatus sub) = 0 →
          sub.count ≠ none ∨ cachedCount tenant subscriptionId b.subs.cache = 0)
  | _, _ => True

/-! ### Initial notifications -/

private theorem sent_processConditionVector (call : Subscribing) (status : String)
    (request : SubscribeContextRequest Item) :
    (processConditionVector call status request.notifyConditionVector).sent =
      request.initialNotifications call status := by
  unfold SubscribeContextRequest.initialNotifications SubscribeContextRequest.onChangeConditions
  induction request.notifyConditionVector with
  | nil => simp [processConditionVector]
  | cons nc ncv ih =>
    unfold processConditionVector
    by_cases ht : nc.type = ON_CHANGE_CONDITION
    · by_cases hs : status = STATUS_ACTIVE
      · by_cases hi : call.processOnChangeConditionForSubscription nc.condValueList = true
        · simp_all
        · simp_all
      · simp_all
    · simp_all

/-! ### The invariant -/

structure CountedState (b : Broker Item) : Prop where
  wellFormed : WellFormed b.subs
  conserved : CountsConserved b
  logged : ∀ n ∈ b.sent, ∃ t, n.subscriptionId ∈ (b.subs.csubs t).map Csub.id

private theorem sentCount_append (id : String) (sent sent' : List SentNotification) :
    sentCount id (sent ++ sent') = sentCount id sent + sentCount id sent' := List.countP_append

private theorem sentCount_replicate (id : String) (k : Nat) (n : SentNotification) :
    sentCount id (List.replicate k n) = if n.subscriptionId = id then k else 0 := by
  unfold sentCount
  rw [List.countP_replicate]
  simp

private theorem sentCount_notifications (id : String) (now : Int) (ns : List Notification) :
    sentCount id (ns.map fun n => ⟨now, n.subscriptionId, false⟩) = (ns.map Notification.subscriptionId).count id := by
  unfold sentCount List.count
  rw [List.countP_map, List.countP_map]
  rfl

private theorem cachedCount_of_mem {st : SubState Item} (hwf : WellFormed st) {c : CachedSubscription Item}
    (hc : c ∈ st.cache) : cachedCount c.tenant c.subscriptionId st.cache = c.count := by
  unfold cachedCount subCacheItemLookup
  have hget := KeyedList.get_of_nodup hwf.keys hc
  unfold CachedSubscription.key at hget ⊢
  rw [hget]
  rfl

private theorem cachedCount_of_not {cache : List (CachedSubscription Item)} {t id : String}
    (hnot : ∀ c ∈ cache, c.subscriptionId ≠ id) : cachedCount t id cache = 0 := by
  have hnone : subCacheItemLookup t id cache = none := by
    refine KeyedList.get_eq_none_iff.2 fun hk => ?_
    obtain ⟨c, hc, hkey⟩ := List.mem_map.1 hk
    exact hnot c hc (congrArg Prod.snd hkey)
  unfold cachedCount
  rw [hnone]
  rfl

/-- The item of a stored subscription, if it is cached. -/
private theorem cached_or_not {st : SubState Item} (hwf : WellFormed st) {t : String} {sub : Csub}
    (hsub : sub ∈ st.csubs t) :
    (∃ c ∈ st.cache, c.subscriptionId = sub.id ∧ c.tenant = t) ∨ ∀ c ∈ st.cache, c.subscriptionId ≠ sub.id := by
  by_cases hc : ∃ c ∈ st.cache, c.subscriptionId = sub.id
  · obtain ⟨c, hc, hid⟩ := hc
    exact Or.inl ⟨c, hc, hid, hwf.tenant_eq hc (hid ▸ List.mem_map_of_mem hsub)⟩
  · push Not at hc
    exact Or.inr hc

/-! ### Updates of entities -/

private theorem countedState_update {b : Broker Item} {u : EntityUpdate} {cer : ContextElementResponse}
    (h : CountedState b) (hwf' : WellFormed (notifyUpdate env b.now u false cer b.subs).1) :
    CountedState
      { subs := (notifyUpdate env b.now u false cer b.subs).1, now := b.now,
        sent := b.sent ++ (notifyUpdate env b.now u false cer b.subs).2.map fun n => ⟨b.now, n.subscriptionId, false⟩ } := by
  have hwf := h.wellFormed
  rcases notifyUpdate_withCache env b.now u cer hwf.cachedIds (fun c hc => hwf.ne_empty_of_cached hc) with he | ⟨he, hids⟩
  · rw [he]
    simpa using h
  · have hdistinct : ((notifyUpdate env b.now u false cer b.subs).2.map Notification.subscriptionId).Nodup := by
      rw [hids]
      exact hwf.cachedIds.sublist (List.filter_sublist.map _)
    have hnotified : ∀ id, id ∈ (notifyUpdate env b.now u false cer b.subs).2.map Notification.subscriptionId ↔
        ∃ c ∈ b.subs.cache, c.subscriptionId = id ∧ c.notified env b.now u cer = true := by
      intro id
      rw [hids]
      exact KeyedList.mem_keys_filter
    have hcsubs : (notifyUpdate env b.now u false cer b.subs).1.csubs = b.subs.csubs := by rw [he]
    refine ⟨hwf', ?_, ?_⟩
    · intro t sub hsub
      dsimp only at hsub ⊢
      rw [hcsubs] at hsub
      have hold := h.conserved t sub hsub
      rw [sentCount_append, sentCount_notifications]
      rcases cached_or_not hwf hsub with ⟨c, hc, hid, ht⟩ | hnot
      · have hc' : c.recorded env b.now u cer ∈ (notifyUpdate env b.now u false cer b.subs).1.cache := by
          rw [he]
          exact List.mem_map_of_mem hc
        have hcount := cachedCount_of_mem hwf hc
        have hcount' := cachedCount_of_mem hwf' hc'
        unfold CachedSubscription.recorded at hcount'
        rw [hid, ht] at hcount
        by_cases hn : c.notified env b.now u cer = true
        · have hone := List.count_eq_one_of_mem hdistinct ((hnotified sub.id).2 ⟨c, hc, hid, hn⟩)
          rw [if_pos hn] at hcount'
          change cachedCount c.tenant c.subscriptionId _ = c.count + 1 at hcount'
          rw [hid, ht] at hcount'
          rw [hone, hcount']
          omega
        · have hzero : ((notifyUpdate env b.now u false cer b.subs).2.map Notification.subscriptionId).count sub.id = 0 := by
            refine List.count_eq_zero_of_not_mem fun hmem => ?_
            obtain ⟨c', hc', hid', hn'⟩ := (hnotified sub.id).1 hmem
            rw [List.inj_on_of_nodup_map hwf.cachedIds hc' hc (hid'.trans hid.symm)] at hn'
            exact hn hn'
          rw [if_neg hn, hid, ht] at hcount'
          rw [hzero, hcount']
          omega
      · have hzero : ((notifyUpdate env b.now u false cer b.subs).2.map Notification.subscriptionId).count sub.id = 0 := by
          refine List.count_eq_zero_of_not_mem fun hmem => ?_
          obtain ⟨c', hc', hid', -⟩ := (hnotified sub.id).1 hmem
          exact hnot c' hc' hid'
        have hnot' : ∀ c ∈ (notifyUpdate env b.now u false cer b.subs).1.cache, c.subscriptionId ≠ sub.id := by
          intro c hc
          rw [he] at hc
          obtain ⟨c₀, hc₀, rfl⟩ := List.mem_map.1 hc
          rw [CachedSubscription.subscriptionId_recorded]
          exact hnot c₀ hc₀
        rw [cachedCount_of_not hnot] at hold
        rw [hzero, cachedCount_of_not hnot']
        omega
    · intro n hn
      dsimp only at hn ⊢
      rw [hcsubs]
      rcases List.mem_append.1 hn with hn | hn
      · exact h.logged n hn
      · obtain ⟨n', hn', rfl⟩ := List.mem_map.1 hn
        obtain ⟨c, hc, hid, -⟩ := (hnotified n'.subscriptionId).1 (List.mem_map_of_mem hn')
        exact ⟨c.tenant, hid ▸ hwf.stored_of_cached hc⟩

/-! ### Synchronizations -/

private theorem count_flush (count time : Int) (sub : Csub) :
    (sub.flush count time).count.getD 0 = sub.count.getD 0 + count := by
  unfold Csub.flush
  dsimp only
  split
  · rfl
  · rename_i hzero
    have hzero : count = 0 := not_not.1 hzero
    rw [hzero, Int.add_zero]

private theorem countedState_sync {b : Broker Item} {orionDatabases : List String} {st : SubState Item}
    (h : CountedState b) (hdb : (databases env.subCacheMultitenant orionDatabases).Nodup)
    (hloaded : ∀ cSub ∈ b.subs.cache, cSub.count ≠ 0 →
      cSub.tenant ∈ databases env.subCacheMultitenant orionDatabases ∧
        ∀ sub ∈ b.subs.csubs cSub.tenant, sub.id = cSub.subscriptionId → sub.Loadable)
    (hsync : subCacheSync env.subCacheMultitenant orionDatabases (fun _ => true) b.subs = some st)
    (hwf' : WellFormed st) : CountedState { b with subs := st } := by
  have hwf := h.wellFormed
  obtain ⟨-, hcache, hdocs⟩ := subCacheSync_spec hdb hwf.ids hsync
  -- nothing is counted in a cache that was just loaded
  have hzero : ∀ t id, cachedCount t id st.cache = 0 := by
    intro t id
    unfold cachedCount
    cases hc : subCacheItemLookup t id st.cache with
    | none => rfl
    | some item =>
      obtain ⟨hmem, -⟩ := KeyedList.mem_of_get hc
      rw [hcache] at hmem
      obtain ⟨-, -, sub, -, hload⟩ := mem_subCacheRefresh.1 hmem
      rw [load_eq_some hload]
      rfl
  refine ⟨hwf', ?_, ?_⟩
  · intro t sub' hsub'
    dsimp only at hsub' ⊢
    have hget := hdocs t sub'.id
    rw [KeyedList.get_of_nodup (hwf'.ids t) hsub'] at hget
    obtain ⟨sub, hgetsub, he⟩ := Option.map_eq_some_iff.1 hget.symm
    obtain ⟨hsub, hid⟩ := KeyedList.mem_of_get hgetsub
    have hold := h.conserved t sub hsub
    rw [hzero, Int.add_zero, ← hid, ← hold]
    rcases cached_or_not hwf hsub with ⟨c, hc, hcid, ht⟩ | hnot
    · have hgetc : KeyedList.get CachedSubscription.subscriptionId sub'.id b.subs.cache = some c := by
        rw [← hid, ← hcid]
        exact KeyedList.get_of_nodup hwf.cachedIds hc
      have hcount := cachedCount_of_mem hwf hc
      rw [hcid, ht] at hcount
      rw [hcount]
      by_cases hcz : c.count = 0
      · rw [hcz, Int.add_zero, ← he]
        split
        · rw [hgetc, Option.elim_some]
          unfold Csub.synced
          rw [count_flush, hcz, Int.add_zero]
        · rfl
      · obtain ⟨htenant, hload⟩ := hloaded c hc hcz
        rw [ht] at htenant hload
        have hsome : (subCacheItemLookup t sub'.id st.cache).isSome = true := by
          rw [hcache, lookup_subCacheRefresh hwf.ids, if_pos ⟨htenant, rfl⟩, hgetsub, Option.bind_some]
          exact load_isSome_iff.2 (hload sub hsub hcid.symm)
        rw [if_pos hsome, hgetc, Option.elim_some] at he
        rw [← he]
        exact count_flush _ _ _
    · have hgetc : KeyedList.get CachedSubscription.subscriptionId sub'.id b.subs.cache = none := by
        refine KeyedList.get_eq_none_iff.2 fun hk => ?_
        obtain ⟨c, hc, hcid⟩ := List.mem_map.1 hk
        exact hnot c hc (hcid.trans hid.symm)
      rw [cachedCount_of_not hnot, Int.add_zero, ← he]
      split
      · rw [hgetc]
        rfl
      · rfl
  · intro n hn
    obtain ⟨t, ht⟩ := h.logged n hn
    exact ⟨t, by rw [ids_subCacheSync hsync]; exact ht⟩

/-! ### New subscriptions -/

private theorem sentCount_eq_zero {b : Broker Item} (h : CountedState b) {id : String}
    (hid : ∀ t, id ∉ (b.subs.csubs t).map Csub.id) : sentCount id b.sent = 0 := by
  unfold sentCount
  rw [List.countP_eq_zero]
  intro n hn he
  obtain ⟨t, ht⟩ := h.logged n hn
  exact hid t (of_decide_eq_true he ▸ ht)

/-- A new subscription counts its initial notification twice. -/
private theorem count_new {code : FilterCode Item} {call : Subscribing} {now : Int} {tenant servicePath oid : String}
    {request : SubscribeContextRequest Item} :
    (newCsub call now servicePath oid request).count.getD 0 +
        ((newItem code call now tenant servicePath oid request).map CachedSubscription.count).getD 0 =
      if (request.processed call).notificationDone then 2 else 0 := by
  cases hdone : (request.processed call).notificationDone with
  | false =>
    have hitem : ((newItem code call now tenant servicePath oid request).map CachedSubscription.count).getD 0 = 0 := by
      unfold newItem subCacheItemInsert
      rw [hdone]
      split <;> rfl
    rw [hitem]
    unfold newCsub
    rw [hdone]
    rfl
  | true =>
    obtain ⟨-, nc, hnc, -⟩ :=
      (notificationDone_processConditionVector call request.newStatus request.notifyConditionVector).1 hdone
    obtain ⟨hnc, htype⟩ := List.mem_filter.1 hnc
    have hcached : (request.notifyConditionVector.any fun condition =>
        Text.strcasecmp condition.type ON_CHANGE_CONDITION) = true := by
      refine List.any_eq_true.2 ⟨nc, hnc, ?_⟩
      rw [of_decide_eq_true htype]
      decide
    have hitem : ((newItem code call now tenant servicePath oid request).map CachedSubscription.count).getD 0 = 1 := by
      unfold newItem subCacheItemInsert
      rw [if_pos hcached, hdone]
      rfl
    rw [hitem]
    unfold newCsub
    rw [hdone]
    rfl

private theorem countedState_subscribe {b : Broker Item} {call : Subscribing} {tenant servicePath oid : String}
    {request : SubscribeContextRequest Item} (h : CountedState b) (hnew : ∀ t, oid ∉ (b.subs.csubs t).map Csub.id)
    (honce : request.initialNotifications call request.newStatus = 0 ∨
      request.initialNotifications call request.newStatus = 2)
    (hwf' : WellFormed (mongoSubscribeContext env.toFilterCode call b.now tenant servicePath oid request b.subs).1) :
    CountedState
      { subs := (mongoSubscribeContext env.toFilterCode call b.now tenant servicePath oid request b.subs).1, now := b.now,
        sent := b.sent ++ List.replicate
          (mongoSubscribeContext env.toFilterCode call b.now tenant servicePath oid request b.subs).2
          ⟨b.now, oid, true⟩ } := by
  have hwf := h.wellFormed
  have hids := ids_mongoSubscribeContext b.now env.toFilterCode call tenant servicePath oid request b.subs
  have hlookup : ∀ t id, subCacheItemLookup t id
      (mongoSubscribeContext env.toFilterCode call b.now tenant servicePath oid request b.subs).1.cache =
        (subCacheItemLookup t id b.subs.cache).or (KeyedList.get CachedSubscription.key (t, id)
          (newItem env.toFilterCode call b.now tenant servicePath oid request).toList) :=
    fun t id => KeyedList.get_append _ _
  have hsent : (mongoSubscribeContext env.toFilterCode call b.now tenant servicePath oid request b.subs).2 =
      request.initialNotifications call request.newStatus := sent_processConditionVector call request.newStatus request
  refine ⟨hwf', ?_, ?_⟩
  · intro t sub hsub
    dsimp only at hsub ⊢
    rw [sentCount_append, sentCount_replicate, hsent]
    have hmem : sub ∈ b.subs.csubs t ∨ (t = tenant ∧ sub = newCsub call b.now servicePath oid request) := by
      unfold mongoSubscribeContext at hsub
      dsimp only at hsub
      by_cases ht : t = tenant
      · subst ht
        rw [Function.update_self, List.mem_append, List.mem_singleton] at hsub
        exact hsub.imp_right fun he => ⟨rfl, he⟩
      · rw [Function.update_of_ne ht] at hsub
        exact Or.inl hsub
    unfold cachedCount
    rw [hlookup]
    rcases hmem with hsub | ⟨rfl, rfl⟩
    · have hne : sub.id ≠ oid := fun he => hnew t (List.mem_map.2 ⟨sub, hsub, he⟩)
      have hnone : KeyedList.get CachedSubscription.key (t, sub.id)
          (newItem env.toFilterCode call b.now tenant servicePath oid request).toList = none := by
        refine KeyedList.get_eq_none_iff.2 fun hk => ?_
        obtain ⟨item, hitem, hkey⟩ := List.mem_map.1 hk
        rw [key_newItem b.now (Option.mem_toList.1 hitem)] at hkey
        exact hne (congrArg Prod.snd hkey).symm
      rw [hnone, Option.or_none, if_neg hne.symm]
      exact h.conserved t sub hsub
    · have hnone : subCacheItemLookup t oid b.subs.cache = none := by
        refine KeyedList.get_eq_none_iff.2 fun hk => ?_
        exact hnew t (hwf.cachedStored _ hk)
      have hitem : KeyedList.get CachedSubscription.key (t, oid)
          (newItem env.toFilterCode call b.now t servicePath oid request).toList =
            newItem env.toFilterCode call b.now t servicePath oid request := by
        cases hi : newItem env.toFilterCode call b.now t servicePath oid request with
        | none => rfl
        | some item => rw [Option.toList_some, KeyedList.get_cons, if_pos (key_newItem b.now hi)]
      change (newCsub call b.now servicePath oid request).count.getD 0 +
        ((Option.or (subCacheItemLookup t oid b.subs.cache) (KeyedList.get CachedSubscription.key (t, oid)
          (newItem env.toFilterCode call b.now t servicePath oid request).toList)).map CachedSubscription.count).getD 0 =
        ((sentCount oid b.sent + if oid = oid then request.initialNotifications call request.newStatus else 0 : Nat) : Int)
      have hdone := notificationDone_iff_sent call request.newStatus request.notifyConditionVector
      rw [sent_processConditionVector] at hdone
      rw [hnone, hitem, Option.none_or, count_new, sentCount_eq_zero h hnew, if_pos rfl]
      unfold SubscribeContextRequest.processed
      rcases honce with hzero | htwo
      · rw [if_neg fun hd => hdone.1 hd hzero, hzero]
        rfl
      · rw [if_pos (hdone.2 (by omega)), htwo]
        rfl
  · intro n hn
    dsimp only at hn ⊢
    rcases List.mem_append.1 hn with hn | hn
    · obtain ⟨t, ht⟩ := h.logged n hn
      exact ⟨t, by rw [hids]; exact List.mem_append_left _ ht⟩
    · rw [List.eq_of_mem_replicate hn]
      exact ⟨tenant, by rw [hids]; simp⟩

/-! ### Updates of subscriptions -/

/-- The new document counts what the old one and the cache have counted, and the initial notification. -/
private theorem count_updatedCsub {call : Subscribing} {now : Int} {version : ApiVersion} {servicePath : String}
    {tenant subscriptionId : String} {request : SubscribeContextRequest Item} {old sub : Csub}
    {cache : List (CachedSubscription Item)} {sent : Nat}
    (hdone : (request.updatedProcessed call old).notificationDone = true ↔ sent ≠ 0) (hone : sent ≤ 1)
    (hcounted : sent = 0 → old.count ≠ none ∨ cachedCount tenant subscriptionId cache = 0)
    (hsub : some sub = some (request.updatedCsub call now version old servicePath
      (subCacheItemLookup tenant subscriptionId cache))) :
    sub.count.getD 0 = old.count.getD 0 + cachedCount tenant subscriptionId cache + sent := by
  cases hsub
  unfold SubscribeContextRequest.updatedCsub
  dsimp only
  change (if (request.updatedProcessed call old).notificationDone then
      some (old.count.getD 0 + cachedCount tenant subscriptionId cache + 1)
    else old.count.map fun count => count + cachedCount tenant subscriptionId cache).getD 0 = _
  by_cases hzero : sent = 0
  · rw [if_neg fun hd => hdone.1 hd hzero, hzero]
    cases hc : old.count with
    | none =>
      have hnothing := (hcounted hzero).resolve_left fun hne => hne hc
      rw [hnothing]
      rfl
    | some count => simp
  · rw [if_pos (hdone.2 hzero)]
    have hsent : sent = 1 := by omega
    rw [hsent]
    rfl

private theorem count_updatedItem {call : Subscribing} {now : Int} {version : ApiVersion}
    {tenant servicePath subscriptionId : String} {request : SubscribeContextRequest Item} {sub : Csub}
    {cSubP : Option (CachedSubscription Item)} :
    ((updatedItem env.toFilterCode call now version tenant servicePath subscriptionId request sub
      cSubP).toOption.map CachedSubscription.count).getD 0 = 0 := by
  rw [updatedItem_toOption]
  cases cSubP with
  | none => rfl
  | some cSub =>
    rw [Option.bind_some]
    split <;> rfl

private theorem countedState_updateSubscription {b : Broker Item} {call : Subscribing} {version : ApiVersion}
    {tenant servicePath subscriptionId : String} {request : SubscribeContextRequest Item} {st : SubState Item}
    {sent : Nat} (h : CountedState b)
    (honce : ∀ sub ∈ b.subs.csubs tenant, safeGetSubId subscriptionId = some sub.id →
      request.initialNotifications call (request.updatedStatus sub) ≤ 1 ∧
        (request.initialNotifications call (request.updatedStatus sub) = 0 →
          sub.count ≠ none ∨ cachedCount tenant subscriptionId b.subs.cache = 0))
    (hupdate : mongoUpdateContextSubscription env.toFilterCode call b.now version tenant servicePath subscriptionId
      request b.subs = some (st, sent)) (hwf' : WellFormed st) :
    CountedState
      { subs := st, now := b.now,
        sent := b.sent ++ List.replicate sent ⟨b.now, (safeGetSubId subscriptionId).getD subscriptionId, true⟩ } := by
  have hwf := h.wellFormed
  obtain ⟨id, old, hid, hget, hsent, -, hlookup, hids, hdocs⟩ := mongoUpdateContextSubscription_spec hwf.keys hupdate
  obtain ⟨hold, holdid⟩ := KeyedList.mem_of_get hget
  obtain ⟨hone, hcounted⟩ := honce old hold (by rw [hid, holdid])
  have hsent : sent = request.initialNotifications call (request.updatedStatus old) :=
    hsent.trans (sent_processConditionVector call (request.updatedStatus old) request)
  have hdone := notificationDone_iff_sent call (request.updatedStatus old) request.notifyConditionVector
  rw [sent_processConditionVector, ← hsent] at hdone
  rw [← hsent] at hone hcounted
  rw [hid, Option.getD_some]
  refine ⟨hwf', ?_, ?_⟩
  · intro t sub hsub
    dsimp only at hsub ⊢
    have hsubget := KeyedList.get_of_nodup (hwf'.ids t) hsub
    rw [hdocs] at hsubget
    rw [sentCount_append, sentCount_replicate]
    by_cases hk : (t, sub.id) = (tenant, id)
    · rw [if_pos hk] at hsubget
      have ht : t = tenant := congrArg Prod.fst hk
      have hsid : sub.id = id := congrArg Prod.snd hk
      have hcount := count_updatedCsub hdone hone hcounted hsubget.symm
      have hconserved := h.conserved tenant old hold
      rw [holdid] at hconserved
      rw [ht, hsid, if_pos rfl, hcount]
      by_cases he : subscriptionId = id
      · have hzero : cachedCount tenant id st.cache = 0 := by
          unfold cachedCount
          rw [hlookup, if_pos (by rw [he])]
          exact count_updatedItem env
        rw [he, hzero]
        omega
      · -- the cache was asked with another text
        have hsame : cachedCount tenant id st.cache = cachedCount tenant id b.subs.cache := by
          unfold cachedCount
          rw [hlookup, if_neg fun hke => he (congrArg Prod.snd hke).symm]
        have hzero : cachedCount tenant subscriptionId b.subs.cache = 0 := by
          refine cachedCount_of_not fun c hc hcid => he ?_
          have hprinted := hwf.printed_of_cached hc
          rw [hcid, hid] at hprinted
          exact (Option.some.inj hprinted).symm
        rw [hsame, hzero]
        omega
    · rw [if_neg hk] at hsubget
      obtain ⟨hsub, -⟩ := KeyedList.mem_of_get hsubget
      have hmem : sub.id ∈ (b.subs.csubs t).map Csub.id := List.mem_map_of_mem hsub
      have hsid : id ≠ sub.id := by
        rintro rfl
        exact hk (Prod.ext (hwf.tenants t tenant old.id (holdid ▸ hmem) (List.mem_map_of_mem hold)) rfl)
      have hsame : cachedCount t sub.id st.cache = cachedCount t sub.id b.subs.cache := by
        unfold cachedCount
        rw [hlookup, if_neg]
        intro hke
        have hprinted := hwf.printed t sub.id hmem
        rw [show sub.id = subscriptionId from congrArg Prod.snd hke, hid] at hprinted
        exact hsid ((Option.some.inj hprinted).trans (congrArg Prod.snd hke).symm)
      rw [hsame, if_neg hsid]
      exact h.conserved t sub hsub
  · intro n hn
    dsimp only at hn ⊢
    rcases List.mem_append.1 hn with hn | hn
    · obtain ⟨t, ht⟩ := h.logged n hn
      exact ⟨t, by rw [hids]; exact ht⟩
    · rw [List.eq_of_mem_replicate hn]
      refine ⟨tenant, ?_⟩
      rw [hids, ← holdid]
      exact List.mem_map_of_mem hold

/-! ### Runs -/

private theorem countedState_step {a : Action Item} {b b' : Broker Item} (hposs : a.Possible env b)
    (honce : a.CountsOnce env b) (h : CountedState b) (hstep : step env false a b = some b') : CountedState b' := by
  have hwf' := wellFormed_of_step env false hposs h.wellFormed hstep
  cases a with
  | tick seconds =>
    cases hstep
    exact ⟨h.wellFormed, h.conserved, h.logged⟩
  | update u cer =>
    cases hstep
    exact countedState_update env h hwf'
  | sync orionDatabases =>
    obtain ⟨st, hsync, rfl⟩ := Option.map_eq_some_iff.1 hstep
    exact countedState_sync env h hposs honce hsync hwf'
  | subscribe call tenant servicePath oid request =>
    cases hstep
    exact countedState_subscribe env h hposs.2 honce hwf'
  | updateSubscription call version tenant servicePath subscriptionId request =>
    rw [step] at hstep
    split at hstep
    · cases hstep
      exact h
    · rename_i st sent hupdate
      cases hstep
      exact countedState_updateSubscription env h honce hupdate hwf'

/-- A broker that has no subscriptions yet. -/
def emptyBroker (now : Int) : Broker Item where
  subs := { cache := [], csubs := fun _ => [] }
  now := now
  sent := []

private theorem countedState_emptyBroker (now : Int) : CountedState (emptyBroker now : Broker Item) := by
  refine ⟨⟨List.nodup_nil, fun _ => List.nodup_nil, ?_, ?_, ?_⟩, ?_, ?_⟩
  · intro t t' id hid
    cases hid
  · intro t id hid
    cases hid
  · intro k hk
    cases hk
  · intro t sub hsub
    cases hsub
  · intro n hn
    cases hn

/-- In every run with the cache from an empty broker whose actions count each notification once, the count of every
document and the count in the cache are the number of notifications that were sent for the subscription. -/
theorem counts_conserved_of_run {now : Int} {actions : List (Action Item)} {b : Broker Item}
    (hactions : StepRun.Along (step env false) (fun a b => a.Possible env b ∧ a.CountsOnce env b) actions
      (emptyBroker now))
    (hrun : StepRun.run (step env false) actions (emptyBroker now) = some b) : CountsConserved b :=
  (StepRun.invariant_of_run (fun _ _ _ ha h hstep => countedState_step env ha.1 ha.2 h hstep) hactions
    (countedState_emptyBroker now) hrun).conserved

/-- A subscription on every change of the entity `E`. -/
def subscribeToE : SubscribeContextRequest Empty where
  entityIdVector := [{ id := "E", type := "", isPattern := "false" }]
  notifyConditionVector := [⟨ON_CHANGE_CONDITION, []⟩]
  reference := "http://localhost/notify"
  expires := 1000
  attrsFormat := .NGSI_V2_NORMALIZED

/-- The entity is stored already, so that there is an initial notification. -/
def entityStored : Subscribing := { noEntities with processOnChangeConditionForSubscription := fun _ => true }

/-- A notification that is flushed to the document before the subscription is updated. -/
def flushedBeforeUpdate : List (Action Empty) :=
  [.subscribe noEntities "" "/" exampleId subscribeToE, .update changeOfA entityWithA, .sync [],
    .updateSubscription noEntities .v2 "" "/" exampleId deactivate]

private theorem countsOnce_flushedBeforeUpdate :
    StepRun.Along (step plainEnv false) (fun a b => a.Possible plainEnv b ∧ a.CountsOnce plainEnv b) flushedBeforeUpdate
      (emptyBroker 100) := by
  refine ⟨⟨⟨by decide, fun t => List.not_mem_nil⟩, Or.inl (by decide)⟩, ?_⟩
  rintro _ ⟨⟩
  refine ⟨⟨trivial, trivial⟩, ?_⟩
  rintro _ ⟨⟩
  refine ⟨⟨by unfold Action.Possible; decide, ?_⟩, ?_⟩
  · intro c hc _
    rw [List.mem_singleton.1 hc]
    refine ⟨by decide, ?_⟩
    intro sub hsub _
    rw [List.mem_singleton.1 hsub]
    decide
  rintro _ ⟨⟩
  refine ⟨⟨trivial, ?_⟩, fun _ _ => trivial⟩
  intro sub hsub _
  rw [List.mem_singleton.1 hsub]
  decide

theorem counts_conserved_flushed :
    ∃ b, StepRun.run (step plainEnv false) flushedBeforeUpdate (emptyBroker 100) = some b ∧ CountsConserved b :=
  ⟨_, rfl, counts_conserved_of_run plainEnv countsOnce_flushedBeforeUpdate rfl⟩

/-- An initial notification is counted in the document and in the cache; and the update of a subscription whose document
has no count forgets what was counted in the cache. -/
theorem counts_not_conserved :
    (∃ b, StepRun.run (step plainEnv false) [.subscribe entityStored "" "/" exampleId subscribeToE] (emptyBroker 100) =
        some b ∧ ¬ CountsConserved b) ∧
      ∃ b, StepRun.run (step plainEnv false)
          [.subscribe noEntities "" "/" exampleId subscribeToE, .update changeOfA entityWithA,
            .updateSubscription noEntities .v2 "" "/" exampleId deactivate] (emptyBroker 100) = some b ∧
        ¬ CountsConserved b := by
  refine ⟨⟨_, rfl, fun h => ?_⟩, ⟨_, rfl, fun h => ?_⟩⟩
  · have hcount := h "" _ (List.mem_singleton.2 rfl)
    revert hcount
    decide
  · have hcount := h "" _ (List.mem_singleton.2 rfl)
    revert hcount
    decide

end OrionBroker
