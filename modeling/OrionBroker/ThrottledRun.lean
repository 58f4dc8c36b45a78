import OrionBroker.NotificationRun

/-!
# Throttling over a run

A subscription with a throttling is not notified twice within that time, by updates of entities, as long as no
synchronization loads a notification time that is older than the cached one, and, without the cache, the throttling is
not 1 (`throttled_of_run`).

The invariant: the cache, or the document, has a notification time that is not older than that of the last notification.
For a subscription that is not cached any more because it cannot be loaded there is nothing to have.
-/

namespace OrionBroker

variable {Item : Type} (env : SubEnv Item) (noCache : Bool) (id : String) (throttling : Int)

/-- The times of the notifications of a subscription that updates of entities have triggered. -/
def notificationTimes (sent : List SentNotification) : List Int :=
  (sent.filter fun n => n.subscriptionId = id && !n.initial).map SentNotification.time

/-- Consecutive notifications are apart by the throttling. -/
def Throttled (sent : List SentNotification) : Prop :=
  (notificationTimes id sent).IsChain fun time time' => throttling ≤ time' - time

/-- The throttling of the subscription, where it is stored and where it is cached. -/
structure HasThrottling (st : SubState Item) : Prop where
  cached : ∀ cSub ∈ st.cache, cSub.subscriptionId = id → cSub.throttling = throttling
  stored : ∀ t, ∀ sub ∈ st.csubs t, sub.id = id → sub.throttling = some throttling

/-- The actions are updates of entities, synchronizations and the passing of time.  With the cache, the database of the
tenant is read in a synchronization, and the stored notification time is not older than the cached one. -/
def Action.KeepsTime : Action Item → Broker Item → Prop
  | .tick _, _ => True
  | .update _ _, _ => True
  | .sync orionDatabases, b =>
    (databases env.subCacheMultitenant orionDatabases).Nodup ∧
      (noCache = false → ∀ cSub ∈ b.subs.cache, cSub.subscriptionId = id →
        cSub.tenant ∈ databases env.subCacheMultitenant orionDatabases ∧
          ∀ sub ∈ b.subs.csubs cSub.tenant, sub.id = id → cSub.lastNotificationTime ≤ sub.notificationTime)
  | _, _ => False

/-! ### The invariant -/

/-- A notification at the time `last` is recorded where the next update will look. -/
def RecordedSince (last : Int) (st : SubState Item) : Prop :=
  if noCache then
    ∀ t, ∀ sub ∈ st.csubs t, sub.id = id → ∃ stored, sub.lastNotification = some stored ∧ last ≤ stored
  else
    (∀ cSub ∈ st.cache, cSub.subscriptionId = id → last ≤ cSub.lastNotificationTime) ∧
      ((∀ cSub ∈ st.cache, cSub.subscriptionId ≠ id) → ∀ t, ∀ sub ∈ st.csubs t, sub.id = id → ¬ sub.Loadable)

theorem recordedSince_cached {last : Int} {st : SubState Item} :
    RecordedSince false id last st ↔
      (∀ cSub ∈ st.cache, cSub.subscriptionId = id → last ≤ cSub.lastNotificationTime) ∧
        ((∀ cSub ∈ st.cache, cSub.subscriptionId ≠ id) → ∀ t, ∀ sub ∈ st.csubs t, sub.id = id → ¬ sub.Loadable) :=
  Iff.rfl

theorem recordedSince_stored {last : Int} {st : SubState Item} :
    RecordedSince true id last st ↔
      ∀ t, ∀ sub ∈ st.csubs t, sub.id = id → ∃ stored, sub.lastNotification = some stored ∧ last ≤ stored :=
  Iff.rfl

structure ThrottledState (b : Broker Item) : Prop where
  wellFormed : WellFormed b.subs
  hasThrottling : HasThrottling id throttling b.subs
  clock : 1 < b.now
  throttled : Throttled id throttling b.sent
  recorded : ∀ last ∈ (notificationTimes id b.sent).getLast?, 1 < last ∧ RecordedSince noCache id last b.subs

/-! ### Updates of entities -/

private theorem notificationTimes_append (sent : List SentNotification) (now : Int) (ns : List Notification) :
    notificationTimes id (sent ++ ns.map fun n => ⟨now, n.subscriptionId, false⟩) =
      notificationTimes id sent ++
        ((ns.map Notification.subscriptionId).filter fun i => i = id).map fun _ => now := by
  unfold notificationTimes
  rw [List.filter_append, List.map_append]
  congr 1
  induction ns with
  | nil => rfl
  | cons n ns ih =>
    by_cases hn : n.subscriptionId = id
    · simp only [List.map_cons, List.filter_cons, hn, decide_true, Bool.not_false, Bool.and_self, if_true, ih]
    · simp only [List.map_cons, List.filter_cons, hn, decide_false, Bool.false_and, Bool.false_eq_true, if_false, ih]

/-- What an update of an entity does to the notification times. -/
structure UpdateRecords (now : Int) (st : SubState Item) (r : SubState Item × List Notification) : Prop where
  hasThrottling : HasThrottling id throttling r.1
  distinct : (r.2.map Notification.subscriptionId).Nodup
  apart : id ∈ r.2.map Notification.subscriptionId → ∀ last, 1 < last → RecordedSince noCache id last st →
    throttling ≤ now - last
  recorded : id ∈ r.2.map Notification.subscriptionId → RecordedSince noCache id now r.1
  kept : id ∉ r.2.map Notification.subscriptionId → ∀ last, RecordedSince noCache id last st →
    RecordedSince noCache id last r.1

variable {id throttling}

private theorem updateRecords_nothing {now : Int} {st : SubState Item} (h : HasThrottling id throttling st) :
    UpdateRecords noCache id throttling now st (st, []) where
  hasThrottling := h
  distinct := List.nodup_nil
  apart := fun hmem => by cases hmem
  recorded := fun hmem => by cases hmem
  kept := fun _ _ hrec => hrec

private theorem updateRecords_withCache {now : Int} {u : EntityUpdate} {cer : ContextElementResponse}
    {st : SubState Item} (hwf : WellFormed st) (h : HasThrottling id throttling st) (hpos : 0 < throttling) :
    UpdateRecords false id throttling now st (notifyUpdate env now u false cer st) := by
  rcases notifyUpdate_withCache env now u cer hwf.cachedIds (fun c hc => hwf.ne_empty_of_cached hc) with he | ⟨he, hids⟩
  · rw [he]
    exact updateRecords_nothing false h
  · have hmem : ∀ c ∈ (notifyUpdate env now u false cer st).1.cache, ∃ c₀ ∈ st.cache,
        c = if c₀.notified env now u cer then c₀.record now else c₀ := by
      intro c hc
      rw [he] at hc
      obtain ⟨c₀, hc₀, rfl⟩ := List.mem_map.1 hc
      exact ⟨c₀, hc₀, rfl⟩
    have hfields : ∀ c₀ : CachedSubscription Item,
        (if c₀.notified env now u cer then c₀.record now else c₀).subscriptionId = c₀.subscriptionId ∧
          (if c₀.notified env now u cer then c₀.record now else c₀).throttling = c₀.throttling := by
      intro c₀
      split <;> exact ⟨rfl, rfl⟩
    have hcsubs : (notifyUpdate env now u false cer st).1.csubs = st.csubs := by rw [he]
    have hnotified : id ∈ (notifyUpdate env now u false cer st).2.map Notification.subscriptionId ↔
        ∃ c ∈ st.cache, c.subscriptionId = id ∧ c.notified env now u cer = true := by
      rw [hids]
      exact KeyedList.mem_keys_filter
    refine ⟨⟨?_, ?_⟩, ?_, ?_, ?_, ?_⟩
    · intro c hc hid
      obtain ⟨c₀, hc₀, rfl⟩ := hmem c hc
      rw [(hfields c₀).1] at hid
      rw [(hfields c₀).2]
      exact h.cached c₀ hc₀ hid
    · rw [hcsubs]
      exact h.stored
    · rw [hids]
      exact hwf.cachedIds.sublist (List.filter_sublist.map _)
    · intro hid last hlast hrec
      obtain ⟨c, hc, hcid, hn⟩ := hnotified.1 hid
      have htriggers : c.triggers env now u = true := (Bool.and_eq_true_iff.1 hn).1
      have hthrottled := (CachedSubscription.triggers_iff.1 htriggers).2.2.2
      have hle : last ≤ c.lastNotificationTime := ((recordedSince_cached id).1 hrec).1 c hc hcid
      unfold CachedSubscription.throttled at hthrottled
      rw [h.cached c hc hcid] at hthrottled
      simp only [Bool.and_eq_false_iff, decide_eq_false_iff_not, not_not, not_lt, ne_eq] at hthrottled
      omega
    · intro hid
      obtain ⟨c, hc, hcid, hn⟩ := hnotified.1 hid
      refine (recordedSince_cached id).2 ⟨?_, ?_⟩
      · intro c' hc' hid'
        obtain ⟨c₀, hc₀, rfl⟩ := hmem c' hc'
        rw [(hfields c₀).1] at hid'
        have heq : c₀ = c := List.inj_on_of_nodup_map hwf.cachedIds hc₀ hc (hid'.trans hcid.symm)
        rw [heq, if_pos hn]
        exact le_refl now
      · intro hno
        refine absurd hcid ?_
        rw [← (hfields c).1]
        refine hno _ ?_
        rw [he]
        exact List.mem_map_of_mem hc
    · intro hid last hrec
      have hrec := (recordedSince_cached id).1 hrec
      refine (recordedSince_cached id).2 ⟨?_, ?_⟩
      · intro c hc hcid
        obtain ⟨c₀, hc₀, rfl⟩ := hmem c hc
        rw [(hfields c₀).1] at hcid
        have hn : ¬ c₀.notified env now u cer = true := fun hn => hid (hnotified.2 ⟨c₀, hc₀, hcid, hn⟩)
        rw [if_neg hn]
        exact hrec.1 c₀ hc₀ hcid
      · intro hno
        rw [hcsubs]
        refine hrec.2 fun c₀ hc₀ => ?_
        rw [← (hfields c₀).1]
        refine hno _ ?_
        rw [he]
        exact List.mem_map_of_mem hc₀

private theorem updateRecords_noCache {now : Int} {u : EntityUpdate} {cer : ContextElementResponse}
    {st : SubState Item} (hwf : WellFormed st) (h : HasThrottling id throttling st) (hone : throttling ≠ 1) :
    UpdateRecords true id throttling now st (notifyUpdate env now u true cer st) := by
  rcases notifyUpdate_noCache env now u cer (hwf.ids u.tenant) with he | ⟨he, hids⟩
  · rw [he]
    exact updateRecords_nothing true h
  · have hmem : ∀ t, ∀ sub ∈ (notifyUpdate env now u true cer st).1.csubs t, ∃ sub₀ ∈ st.csubs t,
        (t = u.tenant ∧ sub = if sub₀.notified env now u cer then sub₀.record now else sub₀) ∨
          (t ≠ u.tenant ∧ sub = sub₀) := by
      intro t sub hsub
      rw [he] at hsub
      dsimp only at hsub
      by_cases ht : t = u.tenant
      · subst ht
        rw [Function.update_self] at hsub
        obtain ⟨sub₀, hsub₀, rfl⟩ := List.mem_map.1 hsub
        exact ⟨sub₀, hsub₀, Or.inl ⟨rfl, rfl⟩⟩
      · rw [Function.update_of_ne ht] at hsub
        exact ⟨sub, hsub, Or.inr ⟨ht, rfl⟩⟩
    have hfields : ∀ sub₀ : Csub, (if sub₀.notified env now u cer then sub₀.record now else sub₀).id = sub₀.id ∧
        (if sub₀.notified env now u cer then sub₀.record now else sub₀).throttling = sub₀.throttling := by
      intro sub₀
      split <;> exact ⟨rfl, rfl⟩
    have hcache : (notifyUpdate env now u true cer st).1.cache = st.cache := by rw [he]
    have hnotified : id ∈ (notifyUpdate env now u true cer st).2.map Notification.subscriptionId ↔
        ∃ sub ∈ st.csubs u.tenant, sub.id = id ∧ sub.notified env now u cer = true := by
      rw [hids]
      exact KeyedList.mem_keys_filter
    refine ⟨⟨?_, ?_⟩, ?_, ?_, ?_, ?_⟩
    · rw [hcache]
      exact h.cached
    · intro t sub hsub hid
      obtain ⟨sub₀, hsub₀, ⟨-, rfl⟩ | ⟨-, rfl⟩⟩ := hmem t sub hsub
      · rw [(hfields sub₀).1] at hid
        rw [(hfields sub₀).2]
        exact h.stored t sub₀ hsub₀ hid
      · exact h.stored t sub hsub₀ hid
    · rw [hids]
      exact (hwf.ids u.tenant).sublist (List.filter_sublist.map _)
    · intro hid last hlast hrec
      obtain ⟨sub, hsub, hsid, hn⟩ := hnotified.1 hid
      obtain ⟨stored, hstored, hle⟩ := (recordedSince_stored id).1 hrec u.tenant sub hsub hsid
      have hblocked := (TriggeredSubscription.notifies_iff.1 (Bool.and_eq_true_iff.1 hn).2).1
      unfold TriggeredSubscription.blocked at hblocked
      simp only [Csub.triggered, h.stored u.tenant sub hsub hsid, hstored, Option.getD_some, Bool.and_eq_false_iff,
        decide_eq_false_iff_not, not_not, not_lt, ne_eq, gt_iff_lt] at hblocked
      omega
    · intro hid
      obtain ⟨sub, hsub, hsid, hn⟩ := hnotified.1 hid
      refine (recordedSince_stored id).2 ?_
      intro t sub' hsub' hid'
      obtain ⟨sub₀, hsub₀, ⟨ht, rfl⟩ | ⟨ht, rfl⟩⟩ := hmem t sub' hsub'
      · rw [(hfields sub₀).1] at hid'
        rw [ht] at hsub₀
        have heq : sub₀ = sub := List.inj_on_of_nodup_map (hwf.ids u.tenant) hsub₀ hsub (hid'.trans hsid.symm)
        rw [heq, if_pos hn]
        exact ⟨now, rfl, le_refl now⟩
      · -- the subscription belongs to one tenant only
        refine absurd (hwf.tenants t u.tenant id ?_ ?_) ht
        · exact List.mem_map.2 ⟨sub', hsub₀, hid'⟩
        · exact List.mem_map.2 ⟨sub, hsub, hsid⟩
    · intro hid last hrec
      have hrec := (recordedSince_stored id).1 hrec
      refine (recordedSince_stored id).2 ?_
      intro t sub' hsub' hid'
      obtain ⟨sub₀, hsub₀, ⟨ht, rfl⟩ | ⟨ht, rfl⟩⟩ := hmem t sub' hsub'
      · rw [(hfields sub₀).1] at hid'
        have hn : ¬ sub₀.notified env now u cer = true := by
          intro hn
          rw [ht] at hsub₀
          exact hid (hnotified.2 ⟨sub₀, hsub₀, hid', hn⟩)
        rw [if_neg hn]
        exact hrec t sub₀ hsub₀ hid'
      · exact hrec t sub' hsub₀ hid'

/-! ### Synchronizations -/

private theorem loadable_flush {count time : Int} {sub : Csub} : (sub.flush count time).Loadable ↔ sub.Loadable := Iff.rfl

/-- Flushing never sets back a notification time. -/
private theorem time_flush {count time stored last : Int} {sub : Csub} (hstored : sub.lastNotification = some stored)
    (hle : last ≤ stored) : ∃ stored', (sub.flush count time).lastNotification = some stored' ∧ last ≤ stored' := by
  unfold Csub.flush
  dsimp only
  split
  · rename_i htime
    rw [hstored] at htime
    have hlt : stored < time := by simpa using htime.2
    exact ⟨time, rfl, by omega⟩
  · exact ⟨stored, hstored, hle⟩

private theorem hasThrottling_subCacheSync {orionDatabases : List String} {st st' : SubState Item} (hwf : WellFormed st)
    (hdb : (databases env.subCacheMultitenant orionDatabases).Nodup)
    (hsync : subCacheSync env.subCacheMultitenant orionDatabases (fun _ => true) st = some st')
    (h : HasThrottling id throttling st) : HasThrottling id throttling st' := by
  refine ⟨?_, ?_⟩
  · intro c hc hid
    obtain ⟨-, hcache, -⟩ := subCacheSync_spec hdb hwf.ids hsync
    rw [hcache] at hc
    obtain ⟨-, -, sub, hsub, hload⟩ := mem_subCacheRefresh.1 hc
    have hsid : sub.id = id := (congrArg Prod.snd (key_of_load hload)).symm.trans hid
    have hstored := h.stored _ sub hsub hsid
    rw [load_eq_some hload]
    unfold Csub.cached
    rw [hstored]
    rfl
  · intro t sub' hsub' hid
    obtain ⟨sub, hsub, rfl | ⟨count, time, rfl⟩⟩ := mem_subCacheSync hdb hwf.ids hsync hsub'
    · exact h.stored t sub' hsub hid
    · exact h.stored t sub hsub hid

private theorem recordedSince_subCacheSync {orionDatabases : List String} {st st' : SubState Item} {last : Int}
    (hwf : WellFormed st) (hdb : (databases env.subCacheMultitenant orionDatabases).Nodup)
    (hsync : subCacheSync env.subCacheMultitenant orionDatabases (fun _ => true) st = some st')
    (hnewer : noCache = false → ∀ cSub ∈ st.cache, cSub.subscriptionId = id →
      cSub.tenant ∈ databases env.subCacheMultitenant orionDatabases ∧
        ∀ sub ∈ st.csubs cSub.tenant, sub.id = id → cSub.lastNotificationTime ≤ sub.notificationTime)
    (hrec : RecordedSince noCache id last st) : RecordedSince noCache id last st' := by
  cases noCache with
  | true =>
    refine (recordedSince_stored id).2 ?_
    intro t sub' hsub' hid
    obtain ⟨sub, hsub, rfl | ⟨count, time, rfl⟩⟩ := mem_subCacheSync hdb hwf.ids hsync hsub'
    · exact (recordedSince_stored id).1 hrec t sub' hsub hid
    · obtain ⟨stored, hstored, hle⟩ := (recordedSince_stored id).1 hrec t sub hsub hid
      exact time_flush hstored hle
  | false =>
    have hrec := (recordedSince_cached id).1 hrec
    obtain ⟨-, hcache, -⟩ := subCacheSync_spec hdb hwf.ids hsync
    refine (recordedSince_cached id).2 ⟨?_, ?_⟩
    · intro item hitem hid
      rw [hcache] at hitem
      obtain ⟨-, -, sub, hsub, hload⟩ := mem_subCacheRefresh.1 hitem
      have hsid : sub.id = id := (congrArg Prod.snd (key_of_load hload)).symm.trans hid
      have htime : item.lastNotificationTime = sub.notificationTime := by
        rw [load_eq_some hload]
        rfl
      rw [htime]
      by_cases hc : ∃ c ∈ st.cache, c.subscriptionId = id
      · obtain ⟨c, hc, hcid⟩ := hc
        have htenant : c.tenant = item.tenant :=
          hwf.tenant_eq hc (List.mem_map.2 ⟨sub, hsub, hsid.trans hcid.symm⟩)
        rw [← htenant] at hsub
        exact (hrec.1 c hc hcid).trans ((hnewer rfl c hc hcid).2 sub hsub hsid)
      · push Not at hc
        refine absurd ?_ (hrec.2 hc item.tenant sub hsub hsid)
        exact load_isSome_iff.1 (by rw [hload]; rfl)
    · intro hno t sub' hsub' hid hload
      obtain ⟨sub, hsub, hsub'⟩ := mem_subCacheSync hdb hwf.ids hsync hsub'
      have hsame : sub.id = id ∧ sub.Loadable := by
        rcases hsub' with rfl | ⟨count, time, rfl⟩
        · exact ⟨hid, hload⟩
        · exact ⟨hid, loadable_flush.1 hload⟩
      by_cases hc : ∃ c ∈ st.cache, c.subscriptionId = id
      · obtain ⟨c, hc, hcid⟩ := hc
        have htenant : c.tenant = t := hwf.tenant_eq hc (List.mem_map.2 ⟨sub, hsub, hsame.1.trans hcid.symm⟩)
        have hdatabase := (hnewer rfl c hc hcid).1
        rw [htenant] at hdatabase
        have hitem : (sub.cached t : CachedSubscription Item) ∈ st'.cache := by
          rw [hcache]
          exact mem_subCacheRefresh.2 ⟨hdatabase, rfl, sub, hsub, (load_eq t sub).trans (if_pos hsame.2)⟩
        exact hno _ hitem hsame.1
      · push Not at hc
        exact hrec.2 hc t sub hsub hsame.1 hsame.2

/-! ### Runs -/

private theorem throttledState_update {b : Broker Item} {u : EntityUpdate} {cer : ContextElementResponse}
    (hpos : 0 < throttling) (hone : noCache = true → throttling ≠ 1) (h : ThrottledState noCache id throttling b)
    (hwf : WellFormed (notifyUpdate env b.now u noCache cer b.subs).1) :
    ThrottledState noCache id throttling
      { subs := (notifyUpdate env b.now u noCache cer b.subs).1, now := b.now,
        sent := b.sent ++ (notifyUpdate env b.now u noCache cer b.subs).2.map fun n => ⟨b.now, n.subscriptionId, false⟩ } := by
  have hrecords : UpdateRecords noCache id throttling b.now b.subs (notifyUpdate env b.now u noCache cer b.subs) := by
    cases noCache with
    | true => exact updateRecords_noCache env h.wellFormed h.hasThrottling (hone rfl)
    | false => exact updateRecords_withCache env h.wellFormed h.hasThrottling hpos
  have htimes := notificationTimes_append id b.sent b.now (notifyUpdate env b.now u noCache cer b.subs).2
  by_cases hid : id ∈ (notifyUpdate env b.now u noCache cer b.subs).2.map Notification.subscriptionId
  · rw [List.filter_eq, List.count_eq_one_of_mem hrecords.distinct hid] at htimes
    refine ⟨hwf, hrecords.hasThrottling, h.clock, ?_, ?_⟩
    · unfold Throttled
      rw [htimes, List.isChain_append]
      refine ⟨h.throttled, List.isChain_singleton _, ?_⟩
      intro last hlast time htime
      cases htime
      exact hrecords.apart hid last (h.recorded last hlast).1 (h.recorded last hlast).2
    · intro last hlast
      rw [htimes] at hlast
      have hnow : b.now = last := by simpa using hlast
      rw [← hnow]
      exact ⟨h.clock, hrecords.recorded hid⟩
  · rw [List.filter_eq, List.count_eq_zero_of_not_mem hid] at htimes
    simp only [List.replicate_zero, List.map_nil, List.append_nil] at htimes
    refine ⟨hwf, hrecords.hasThrottling, h.clock, ?_, ?_⟩
    · unfold Throttled
      rw [htimes]
      exact h.throttled
    · intro last hlast
      rw [htimes] at hlast
      exact ⟨(h.recorded last hlast).1, hrecords.kept hid last (h.recorded last hlast).2⟩

private theorem throttledState_step {a : Action Item} {b b' : Broker Item} (hpos : 0 < throttling)
    (hone : noCache = true → throttling ≠ 1) (ha : a.KeepsTime env noCache id b)
    (h : ThrottledState noCache id throttling b) (hstep : step env noCache a b = some b') :
    ThrottledState noCache id throttling b' := by
  cases a with
  | tick seconds =>
    cases hstep
    refine ⟨h.wellFormed, h.hasThrottling, ?_, h.throttled, h.recorded⟩
    have := h.clock
    dsimp only
    omega
  | update u cer =>
    have hwf := wellFormed_of_step env noCache (a := .update u cer) trivial h.wellFormed hstep
    cases hstep
    exact throttledState_update env noCache hpos hone h hwf
  | sync orionDatabases =>
    have hwf := wellFormed_of_step env noCache (a := .sync orionDatabases) ha.1 h.wellFormed hstep
    obtain ⟨st, hsync, rfl⟩ := Option.map_eq_some_iff.1 hstep
    refine ⟨hwf, hasThrottling_subCacheSync env h.wellFormed ha.1 hsync h.hasThrottling, h.clock, h.throttled, ?_⟩
    intro last hlast
    exact ⟨(h.recorded last hlast).1,
      recordedSince_subCacheSync env noCache h.wellFormed ha.1 hsync ha.2 (h.recorded last hlast).2⟩
  | subscribe call tenant servicePath oid request => cases ha
  | updateSubscription call version tenant servicePath subscriptionId request => cases ha

/-- In every run of updates, synchronizations and the passing of time that keeps the notification times, two consecutive
notifications of a subscription that updates trigger are at least its throttling apart. -/
theorem throttled_of_run {actions : List (Action Item)} {b b' : Broker Item} (hwf : WellFormed b.subs)
    (hclock : 1 < b.now) (hsent : b.sent = []) (hthrottling : HasThrottling id throttling b.subs) (hpos : 0 < throttling)
    (hone : noCache = true → throttling ≠ 1)
    (hactions : StepRun.Along (step env noCache) (Action.KeepsTime env noCache id) actions b)
    (hrun : StepRun.run (step env noCache) actions b = some b') : Throttled id throttling b'.sent := by
  have hinit : ThrottledState noCache id throttling b := by
    refine ⟨hwf, hthrottling, hclock, ?_, ?_⟩
    · rw [hsent]
      exact List.IsChain.nil
    · rw [hsent]
      intro last hlast
      cases hlast
  exact (StepRun.invariant_of_run (fun _ _ _ ha h hstep => throttledState_step env noCache hpos hone ha h hstep)
    hactions hinit hrun).throttled

private theorem hasThrottling_freshBroker (throttling : Int) :
    HasThrottling exampleId throttling (freshBroker throttling).subs := by
  refine ⟨?_, ?_⟩
  · intro c hc _
    rw [List.mem_singleton.1 hc]
  · intro t sub hsub _
    change sub ∈ onlyDocument _ t at hsub
    unfold onlyDocument at hsub
    split at hsub
    · rw [List.mem_singleton.1 hsub]
    · cases hsub

/-- A synchronization before the first notification, and then two updates five seconds apart. -/
theorem throttled_after_sync :
    ∃ b', StepRun.run (step plainEnv false)
        [.sync [], .update changeOfA entityWithA, .tick 5, .update changeOfA entityWithA] (freshBroker 5) = some b' ∧
      notificationTimes exampleId b'.sent = [100, 105] ∧ Throttled exampleId 5 b'.sent := by
  have hactions : StepRun.Along (step plainEnv false) (Action.KeepsTime plainEnv false exampleId)
      [.sync [], .update changeOfA entityWithA, .tick 5, .update changeOfA entityWithA] (freshBroker 5) := by
    refine ⟨⟨by decide, ?_⟩, fun _ _ => ⟨trivial, fun _ _ => ⟨trivial, fun _ _ => ⟨trivial, fun _ _ => trivial⟩⟩⟩⟩
    intro _ c hc _
    rw [List.mem_singleton.1 hc]
    refine ⟨by decide, ?_⟩
    intro sub hsub _
    have hsub' : sub = { changesOfE exampleId none with throttling := some 5 } := List.mem_singleton.1 hsub
    rw [hsub']
    decide
  refine ⟨_, rfl, by decide, ?_⟩
  exact throttled_of_run plainEnv false (wellFormed_freshBroker 5) (by decide) rfl (hasThrottling_freshBroker 5)
    (by decide) (by decide) hactions rfl

/-- A synchronization after a notification loads the old notification time, so that there is another notification one
second later; and without the cache a throttling of one second is not looked at. -/
theorem unthrottled_after_sync :
    (∃ b', StepRun.run (step plainEnv false)
        [.update changeOfA entityWithA, .sync [], .tick 1, .update changeOfA entityWithA] (freshBroker 5) = some b' ∧
      ¬ Throttled exampleId 5 b'.sent) ∧
    ∃ b', StepRun.run (step plainEnv true)
        [.update changeOfA entityWithA, .update changeOfA entityWithA] (freshBroker 1) = some b' ∧
      ¬ Throttled exampleId 1 b'.sent := by
  refine ⟨⟨_, rfl, ?_⟩, ⟨_, rfl, ?_⟩⟩
  · have htimes : ∀ times, times = [100, 101] → ¬ times.IsChain fun time time' : Int => 5 ≤ time' - time := by
      rintro times rfl
      simp
    exact htimes _ (by decide)
  · have htimes : ∀ times, times = [100, 100] → ¬ times.IsChain fun time time' : Int => 1 ≤ time' - time := by
      rintro times rfl
      simp
    exact htimes _ (by decide)

end OrionBroker
