import OrionBroker.SubCacheSync

/-!
# Which subscriptions are notified

The two ways to collect the triggered subscriptions are loops over the items of the cache and over the documents.  Both
are filters followed by a map (`withCache_eq`, `noCache_eq`), as long as no two of the subscriptions that pass have the
same id; and sending is a filter of the triggered subscriptions (`processSubscriptions_eq`).

From this follows when the broker notifies the same subscriptions with a cache that was just loaded as it does without
(`notified_agreement_iff`).
-/

namespace OrionBroker

variable {Item : Type} (env : SubEnv Item) (now : Int) (u : EntityUpdate)

/-! ### The loops as filters -/

/-- The item passes the tests of `addTriggeredSubscriptions_withCache`. -/
def CachedSubscription.triggers (cSub : CachedSubscription Item) : Bool :=
  subMatch env.subCacheMultitenant env.regexec cSub u.tenant u.servicePath u.entityId u.entityType u.modifiedAttrs &&
    now ≤ cSub.expirationTime && cSub.status ≠ STATUS_INACTIVE && !cSub.throttled now

/-- The document passes the tests of `addTriggeredSubscriptions_noCache`. -/
def Csub.triggers (sub : Csub) : Bool :=
  csubsQuery env now u sub && (someEmptyCondValue sub || condValueAttrMatch sub u.modifiedAttrs)

variable {env now u} in
theorem CachedSubscription.triggers_iff {cSub : CachedSubscription Item} :
    cSub.triggers env now u = true ↔
      subMatch env.subCacheMultitenant env.regexec cSub u.tenant u.servicePath u.entityId u.entityType u.modifiedAttrs =
          true ∧
        now ≤ cSub.expirationTime ∧ cSub.status ≠ STATUS_INACTIVE ∧ cSub.throttled now = false := by
  unfold CachedSubscription.triggers
  simp only [Bool.and_eq_true, decide_eq_true_eq, Bool.not_eq_true', and_assoc]

variable {now} in
theorem TriggeredSubscription.notifies_iff {code : FilterCode Item} {cer : ContextElementResponse}
    {trigs : TriggeredSubscription Item} :
    trigs.notifies now code cer = true ↔
      trigs.blocked now = false ∧ (trigs.stringFilterP.all fun filter => code.matchFilter filter cer) = true ∧
        notifiedAttributes trigs.attrL cer.contextElement.contextAttributeVector ≠ [] := by
  unfold TriggeredSubscription.notifies
  simp only [Bool.and_eq_true, decide_eq_true_eq, Bool.not_eq_true', and_assoc]

theorem insert_new {id : String} {trigs : TriggeredSubscription Item} {subs : TriggeredMap Item}
    (h : id ∉ subs.map Prod.fst) : subs.insert id trigs = subs ++ [(id, trigs)] := by
  unfold TriggeredMap.insert
  induction subs with
  | nil => rfl
  | cons x subs ih =>
    rw [List.map_cons, List.mem_cons, not_or] at h
    unfold KeyedList.upsert
    rw [if_neg (fun he => h.1 he.symm), ih h.2]
    rfl

private theorem withCache_cons (cSub : CachedSubscription Item) (cache : List (CachedSubscription Item))
    (subs : TriggeredMap Item) :
    addTriggeredSubscriptions_withCache env now u (cSub :: cache) subs =
      if cSub.triggers env now u then
        (env.clone cSub.stringFilter).bind fun filter =>
          addTriggeredSubscriptions_withCache env now u cache (subs.insert cSub.subscriptionId (cSub.triggered filter))
      else addTriggeredSubscriptions_withCache env now u cache subs := by
  rw [addTriggeredSubscriptions_withCache]
  unfold CachedSubscription.triggers
  split
  · rename_i hm
    simp [hm]
  · rename_i hm
    rw [Bool.not_eq_false] at hm
    split
    · rename_i he
      simp [he]
    · rename_i he
      split
      · rename_i hi
        simp [hi]
      · rename_i hi
        split
        · rename_i ht
          simp [ht]
        · rename_i ht
          rw [if_pos (by simp [hm, hi, ht, not_lt.1 he])]
          cases env.clone cSub.stringFilter with
          | none => rfl
          | some filter => rfl

private theorem clone_eq_some {code : FilterCode Item} {filters filter : List Item} (h : code.clone filters = some filter) :
    filter = filters := by
  unfold FilterCode.clone at h
  split at h
  · exact (Option.some.inj h).symm
  · cases h

/-- With the cache, all items that pass are triggered, unless the filter of one of them cannot be copied. -/
theorem withCache_eq (cache : List (CachedSubscription Item)) (subs : TriggeredMap Item)
    (hids : (subs.map Prod.fst ++ (cache.filter (CachedSubscription.triggers env now u)).map
      CachedSubscription.subscriptionId).Nodup) :
    addTriggeredSubscriptions_withCache env now u cache subs =
      if (cache.filter (CachedSubscription.triggers env now u)).all fun cSub => (env.clone cSub.stringFilter).isSome then
        some (subs ++ (cache.filter (CachedSubscription.triggers env now u)).map fun cSub =>
          (cSub.subscriptionId, cSub.triggered cSub.stringFilter))
      else none := by
  induction cache generalizing subs with
  | nil => simp [addTriggeredSubscriptions_withCache]
  | cons cSub cache ih =>
    rw [withCache_cons]
    by_cases hp : cSub.triggers env now u = true
    · rw [List.filter_cons_of_pos hp] at hids ⊢
      rw [if_pos hp]
      have hnew : cSub.subscriptionId ∉ subs.map Prod.fst := by
        intro hm
        exact (List.nodup_append.1 hids).2.2 _ hm _ List.mem_cons_self rfl
      cases hf : env.clone cSub.stringFilter with
      | none => simp [hf]
      | some filter =>
        rw [Option.bind_some, insert_new hnew, clone_eq_some hf, ih _ (by simpa using hids)]
        simp [hf]
    · rw [List.filter_cons_of_neg hp] at hids ⊢
      rw [if_neg hp, ih subs hids]

private theorem noCache_cons {sub : Csub} (csubs : List Csub) {subs : TriggeredMap Item}
    (hnew : sub.triggers env now u = true → sub.id ∉ subs.map Prod.fst) :
    addTriggeredSubscriptions_noCache env now u (sub :: csubs) subs =
      if sub.triggers env now u then
        (sub.stringFilter env.toFilterCode).bind fun filter =>
          addTriggeredSubscriptions_noCache env now u csubs (subs.insert sub.id (sub.triggered filter))
      else addTriggeredSubscriptions_noCache env now u csubs subs := by
  rw [addTriggeredSubscriptions_noCache]
  unfold Csub.triggers at hnew ⊢
  split
  · rename_i hq
    simp [hq]
  · rename_i hq
    rw [Bool.not_eq_false] at hq
    rw [hq, Bool.true_and] at hnew ⊢
    by_cases ha : (someEmptyCondValue sub || condValueAttrMatch sub u.modifiedAttrs) = true
    · have ha' : ¬ (!someEmptyCondValue sub && !condValueAttrMatch sub u.modifiedAttrs) = true := by
        rw [← Bool.not_or, ha]
        decide
      rw [if_neg (hnew ha), if_neg ha', if_pos ha]
      cases sub.stringFilter env.toFilterCode with
      | none => rfl
      | some filter => rfl
    · have ha' : (!someEmptyCondValue sub && !condValueAttrMatch sub u.modifiedAttrs) = true := by
        rw [← Bool.not_or, Bool.eq_false_of_not_eq_true ha]
        rfl
      rw [if_pos ha', if_neg ha]
      split <;> rfl

/-- Without the cache, all documents that pass are triggered, unless the filter of one of them cannot be made. -/
theorem noCache_eq (csubs : List Csub) (subs : TriggeredMap Item)
    (hids : (subs.map Prod.fst ++ (csubs.filter (Csub.triggers env now u)).map Csub.id).Nodup) :
    addTriggeredSubscriptions_noCache env now u csubs subs =
      if (csubs.filter (Csub.triggers env now u)).all fun sub => (sub.stringFilter env.toFilterCode).isSome then
        some (subs ++ (csubs.filter (Csub.triggers env now u)).map fun sub =>
          (sub.id, sub.triggered ((sub.stringFilter env.toFilterCode).getD none)))
      else none := by
  induction csubs generalizing subs with
  | nil => simp [addTriggeredSubscriptions_noCache]
  | cons sub csubs ih =>
    have hnew : sub.triggers env now u = true → sub.id ∉ subs.map Prod.fst := by
      intro hp hm
      rw [List.filter_cons_of_pos hp] at hids
      exact (List.nodup_append.1 hids).2.2 _ hm _ List.mem_cons_self rfl
    rw [noCache_cons env now u csubs hnew]
    by_cases hp : sub.triggers env now u = true
    · rw [List.filter_cons_of_pos hp] at hids ⊢
      rw [if_pos hp]
      cases hf : sub.stringFilter env.toFilterCode with
      | none => simp [hf]
      | some filter =>
        rw [Option.bind_some, insert_new (hnew hp), ih _ (by simpa using hids)]
        simp [hf]
    · rw [List.filter_cons_of_neg hp] at hids ⊢
      rw [if_neg hp, ih subs hids]

/-- Sending goes through the triggered subscriptions that are notified. -/
theorem processSubscriptions_eq (subCacheActive : Bool) (tenant : String) (cer : ContextElementResponse)
    (subs : TriggeredMap Item) (st : SubState Item) :
    processSubscriptions env now subCacheActive tenant cer subs st =
      ((subs.filter fun x => x.2.notifies now env.toFilterCode cer).foldl
          (fun st x => recordNotification now subCacheActive tenant x.1 x.2 st) st,
        (subs.filter fun x => x.2.notifies now env.toFilterCode cer).map fun x =>
          { tenant := tenant, subscriptionId := x.1, reference := x.2.reference, renderFormat := x.2.renderFormat,
            attrsOrder := x.2.attrL,
            attributes := notifiedAttributes x.2.attrL cer.contextElement.contextAttributeVector }) := by
  induction subs generalizing st with
  | nil => rfl
  | cons x subs ih =>
    obtain ⟨id, trigs⟩ := x
    rw [processSubscriptions]
    by_cases hn : trigs.notifies now env.toFilterCode cer = true
    · rw [if_pos hn, List.filter_cons, if_pos hn, ih]
      rfl
    · rw [if_neg hn, List.filter_cons, if_neg hn, ih]

/-! ### Who is notified -/

variable (cer : ContextElementResponse)

private theorem notified_withCache_iff {st : SubState Item} (hclone : ∀ cSub ∈ st.cache, cSub.triggers env now u = true →
      (env.clone cSub.stringFilter).isSome = true)
    (hids : ((st.cache.filter (CachedSubscription.triggers env now u)).map CachedSubscription.subscriptionId).Nodup)
    (id : String) :
    id ∈ (notifyUpdate env now u false cer st).2.map Notification.subscriptionId ↔
      ∃ cSub ∈ st.cache, cSub.subscriptionId = id ∧ cSub.triggers env now u = true ∧
        (cSub.triggered cSub.stringFilter).notifies now env.toFilterCode cer = true := by
  have hall : ((st.cache.filter (CachedSubscription.triggers env now u)).all fun cSub =>
      (env.clone cSub.stringFilter).isSome) = true := by
    rw [List.all_eq_true]
    intro cSub hc
    exact hclone cSub (List.mem_filter.1 hc).1 (List.mem_filter.1 hc).2
  have hadd : addTriggeredSubscriptions env now u false st =
      some ((st.cache.filter (CachedSubscription.triggers env now u)).map fun cSub =>
        (cSub.subscriptionId, cSub.triggered cSub.stringFilter)) := by
    unfold addTriggeredSubscriptions
    rw [if_neg (by decide), withCache_eq env now u st.cache [] (by simpa using hids), if_pos hall]
    rfl
  unfold notifyUpdate
  rw [hadd]
  simp only [processSubscriptions_eq, List.mem_map, List.mem_filter]
  constructor
  · rintro ⟨_, ⟨_, ⟨⟨cSub, ⟨hc, ht⟩, rfl⟩, hn⟩, rfl⟩, rfl⟩
    exact ⟨cSub, hc, rfl, ht, hn⟩
  · rintro ⟨cSub, hc, rfl, ht, hn⟩
    exact ⟨_, ⟨_, ⟨⟨cSub, ⟨hc, ht⟩, rfl⟩, hn⟩, rfl⟩, rfl⟩

/-- The filters of all documents that pass can be made. -/
def FiltersUsable (csubs : List Csub) : Prop :=
  ∀ sub ∈ csubs, sub.triggers env now u = true → (sub.stringFilter env.toFilterCode).isSome = true

private theorem notified_noCache_iff {st : SubState Item} (hids : ((st.csubs u.tenant).map Csub.id).Nodup) (id : String) :
    id ∈ (notifyUpdate env now u true cer st).2.map Notification.subscriptionId ↔
      FiltersUsable env now u (st.csubs u.tenant) ∧
        ∃ sub ∈ st.csubs u.tenant, sub.id = id ∧ sub.triggers env now u = true ∧
          (sub.triggered ((sub.stringFilter env.toFilterCode).getD none)).notifies now env.toFilterCode cer = true := by
  have hids' : (((st.csubs u.tenant).filter (Csub.triggers env now u)).map Csub.id).Nodup :=
    hids.sublist (List.Sublist.map _ List.filter_sublist)
  have hall : (((st.csubs u.tenant).filter (Csub.triggers env now u)).all fun sub =>
      (sub.stringFilter env.toFilterCode).isSome) = true ↔ FiltersUsable env now u (st.csubs u.tenant) := by
    rw [List.all_eq_true]
    constructor
    · intro h sub hsub ht
      exact h sub (List.mem_filter.2 ⟨hsub, ht⟩)
    · intro h sub hsub
      exact h sub (List.mem_filter.1 hsub).1 (List.mem_filter.1 hsub).2
  unfold notifyUpdate addTriggeredSubscriptions
  rw [if_pos rfl, noCache_eq env now u (st.csubs u.tenant) [] (by simpa using hids'), ← hall]
  split
  · rename_i hnone
    split at hnone
    · cases hnone
    · rename_i hno
      simp [hno]
  · rename_i subs hsome
    split at hsome
    · rename_i hyes
      cases hsome
      simp only [processSubscriptions_eq, List.mem_map, List.mem_filter, List.nil_append]
      constructor
      · rintro ⟨_, ⟨_, ⟨⟨sub, ⟨hsub, ht⟩, rfl⟩, hn⟩, rfl⟩, rfl⟩
        exact ⟨hyes, sub, hsub, rfl, ht, hn⟩
      · rintro ⟨-, sub, hsub, rfl, ht, hn⟩
        exact ⟨_, ⟨_, ⟨⟨sub, ⟨hsub, ht⟩, rfl⟩, hn⟩, rfl⟩, rfl⟩
    · cases hsome

/-! ### With a cache that was just loaded -/

/-- The first throttling test, for a subscription as it is loaded. -/
def Csub.throttled (sub : Csub) : Bool :=
  sub.throttling.getD (-1) ≠ -1 && sub.notificationTime ≠ 0 && now - sub.notificationTime < sub.throttling.getD (-1)

/-- The second throttling test, which is the same for both. -/
def Csub.blocked (sub : Csub) : Bool :=
  sub.throttling.getD (-1) ≠ 1 && sub.notificationTime ≠ 1 && sub.throttling.getD (-1) > now - sub.notificationTime

/-- Both implementations find that the service path and the entities of the subscription are those of the update. -/
structure MatchedByBoth (sub : Csub) : Prop where
  cachedPath : servicePathMatch (sub.servicePath.getD "/") u.servicePath = some true
  storedPath : (sub.servicePath.all fun servicePath =>
    AnchoredPattern.accepts (servicePathSubscriptionRegex u.servicePath) servicePath) = true
  cachedEntities : (sub.entityInfos.any fun info => info.matches env.regexec u.entityId u.entityType) = true
  storedEntities : queryEntities env.regexec u.entityId u.entityType sub.entities = true

/-- The decisions that are the same for both: the subscription is active, the second throttling test lets it pass, and
there is an attribute to send. -/
structure Csub.Sendable (sub : Csub) : Prop where
  active : sub.status ≠ some STATUS_INACTIVE
  unblocked : sub.blocked now = false
  attributes : notifiedAttributes sub.attrs cer.contextElement.contextAttributeVector ≠ []

/-- The filter of the document accepts the entity. -/
def Csub.FilterAccepts (sub : Csub) : Prop :=
  (((sub.stringFilter env.toFilterCode).getD none).all fun filter => env.matchFilter filter cer) = true

def Csub.Unexpired (sub : Csub) : Prop := ∃ expiration, sub.expiration = some expiration ∧ now < expiration

/-- What it takes to be notified from a cache that was just loaded. -/
private theorem notifies_cached_iff {sub : Csub} (hm : MatchedByBoth env u sub) :
    ((sub.cached u.tenant : CachedSubscription Item).triggers env now u = true ∧
        ((sub.cached u.tenant).triggered []).notifies now env.toFilterCode cer = true) ↔
      attributeMatch sub.onChangeConditions u.modifiedAttrs = true ∧ now ≤ sub.expiration.getD 0 ∧
        sub.throttled now = false ∧ sub.Sendable now cer := by
  have hstatus : sub.status.getD STATUS_ACTIVE ≠ STATUS_INACTIVE ↔ sub.status ≠ some STATUS_INACTIVE := by
    cases sub.status with
    | none => exact ⟨fun _ => by simp, fun _ => by decide⟩
    | some status => simp
  have htriggers : (sub.cached u.tenant : CachedSubscription Item).triggers env now u = true ↔
      attributeMatch sub.onChangeConditions u.modifiedAttrs = true ∧ now ≤ sub.expiration.getD 0 ∧
        sub.status ≠ some STATUS_INACTIVE ∧ sub.throttled now = false := by
    have hmatch : subMatch env.subCacheMultitenant env.regexec (sub.cached u.tenant : CachedSubscription Item) u.tenant
        u.servicePath u.entityId u.entityType u.modifiedAttrs = attributeMatch sub.onChangeConditions u.modifiedAttrs := by
      unfold subMatch
      simp [Csub.cached, hm.cachedPath, hm.cachedEntities]
    rw [CachedSubscription.triggers_iff, hmatch, ← hstatus]
    rfl
  have hnotifies : ((sub.cached u.tenant).triggered []).notifies now env.toFilterCode cer = true ↔
      sub.blocked now = false ∧ notifiedAttributes sub.attrs cer.contextElement.contextAttributeVector ≠ [] := by
    rw [TriggeredSubscription.notifies_iff]
    exact and_congr_right fun _ => and_iff_right rfl
  rw [htriggers, hnotifies]
  constructor
  · rintro ⟨⟨ha, he, hs, ht⟩, hb, hn⟩
    exact ⟨ha, he, ht, hs, hb, hn⟩
  · rintro ⟨ha, he, ht, hs, hb, hn⟩
    exact ⟨⟨ha, he, hs, ht⟩, hb, hn⟩

/-- What it takes to be notified without the cache. -/
private theorem notifies_stored_iff {sub : Csub} (hm : MatchedByBoth env u sub) :
    (sub.triggers env now u = true ∧
        (sub.triggered ((sub.stringFilter env.toFilterCode).getD none)).notifies now env.toFilterCode cer = true) ↔
      sub.onChangeConditions ≠ [] ∧ attributeMatch sub.conditions u.modifiedAttrs = true ∧ sub.Unexpired now ∧
        sub.FilterAccepts env cer ∧ sub.Sendable now cer := by
  have hmatch : attributeMatch sub.conditions u.modifiedAttrs =
      (someEmptyCondValue sub || condValueAttrMatch sub u.modifiedAttrs) := by
    unfold attributeMatch someEmptyCondValue condValueAttrMatch
    induction sub.conditions with
    | nil => rfl
    | cons condition conditions ih => simp only [List.any_cons, ih]; ac_rfl
  have honchange : (sub.conditions.any fun condition => condition.type = ON_CHANGE_CONDITION) = true ↔
      sub.onChangeConditions ≠ [] := by
    unfold Csub.onChangeConditions
    rw [List.any_eq_true, ne_eq, List.filter_eq_nil_iff]
    push Not
    rfl
  have hexp : (sub.expiration.any fun expiration => now < expiration) = true ↔ sub.Unexpired now := by
    unfold Csub.Unexpired
    cases sub.expiration with
    | none => simp
    | some expiration => simp
  have htriggers : sub.triggers env now u = true ↔ sub.onChangeConditions ≠ [] ∧ sub.Unexpired now ∧
      sub.status ≠ some STATUS_INACTIVE ∧ attributeMatch sub.conditions u.modifiedAttrs = true := by
    unfold Csub.triggers csubsQuery
    rw [← hmatch]
    simp only [hm.storedPath, hm.storedEntities, Bool.true_and, Bool.and_true, Bool.and_eq_true, decide_eq_true_eq,
      honchange, hexp, and_assoc]
  have hnotifies : (sub.triggered ((sub.stringFilter env.toFilterCode).getD none)).notifies now env.toFilterCode cer =
        true ↔ sub.blocked now = false ∧ sub.FilterAccepts env cer ∧
          notifiedAttributes sub.attrs cer.contextElement.contextAttributeVector ≠ [] := by
    rw [TriggeredSubscription.notifies_iff]
    rfl
  rw [htriggers, hnotifies]
  constructor
  · rintro ⟨⟨hc, he, hs, ha⟩, hb, hf, hn⟩
    exact ⟨hc, ha, he, hf, hs, hb, hn⟩
  · rintro ⟨hc, ha, he, hf, hs, hb, hn⟩
    exact ⟨⟨hc, he, hs, ha⟩, hb, hf, hn⟩

/-- The cache that is loaded from the documents, and the documents. -/
def freshState (orionDatabases : List String) (csubs : String → List Csub) : SubState Item where
  cache := subCacheRefresh env.subCacheMultitenant orionDatabases (fun _ => true) csubs
  csubs := csubs

private theorem tenant_of_triggers {orionDatabases : List String} {csubs : String → List Csub}
    {item : CachedSubscription Item} (htenant : u.tenant ∈ databases env.subCacheMultitenant orionDatabases)
    (h : item ∈ (freshState env orionDatabases csubs).cache) (ht : item.triggers env now u = true) :
    item.tenant = u.tenant := by
  cases hmt : env.subCacheMultitenant with
  | true =>
    unfold CachedSubscription.triggers subMatch at ht
    simp only [hmt, Bool.not_true, Bool.false_or, Bool.and_eq_true, decide_eq_true_eq] at ht
    exact ht.1.1.1.1.1.1
  | false =>
    -- there is one database only
    have hdb := (mem_subCacheRefresh.1 h).1
    rw [hmt] at hdb htenant
    exact (List.mem_singleton.1 hdb).trans (List.mem_singleton.1 htenant).symm

private theorem notified_fresh_iff {orionDatabases : List String} {csubs : String → List Csub}
    (hdb : (databases env.subCacheMultitenant orionDatabases).Nodup) (hids : ∀ t, ((csubs t).map Csub.id).Nodup)
    (htenant : u.tenant ∈ databases env.subCacheMultitenant orionDatabases) {sub : Csub} (hsub : sub ∈ csubs u.tenant)
    (hm : MatchedByBoth env u sub) :
    sub.id ∈ (notifyUpdate env now u false cer (freshState env orionDatabases csubs)).2.map Notification.subscriptionId ↔
      attributeMatch sub.onChangeConditions u.modifiedAttrs = true ∧ now ≤ sub.expiration.getD 0 ∧
        sub.throttled now = false ∧ sub.Sendable now cer := by
  have hcached : ∀ item ∈ (freshState env orionDatabases csubs).cache, item.triggers env now u = true →
      ∃ s ∈ csubs u.tenant, item = s.cached u.tenant := by
    intro item hitem ht
    obtain ⟨-, -, s, hs, hload⟩ := mem_subCacheRefresh.1 hitem
    rw [tenant_of_triggers env now u htenant hitem ht] at hs hload
    exact ⟨s, hs, load_eq_some hload⟩
  have hclone : ∀ item ∈ (freshState env orionDatabases csubs).cache, item.triggers env now u = true →
      (env.clone item.stringFilter).isSome = true := by
    intro item hitem ht
    obtain ⟨s, -, rfl⟩ := hcached item hitem ht
    rfl
  have hnodup : (((freshState env orionDatabases csubs).cache.filter (CachedSubscription.triggers env now u)).map
      CachedSubscription.subscriptionId).Nodup := by
    have hkeys : ((freshState env orionDatabases csubs).cache.map CachedSubscription.key).Nodup :=
      nodup_subCacheRefresh hdb hids
    have hfilter := hkeys.sublist
      (List.Sublist.map CachedSubscription.key (List.filter_sublist (p := CachedSubscription.triggers env now u)))
    refine List.Nodup.map_on ?_ (List.Nodup.of_map _ hfilter)
    intro a ha b hb he
    obtain ⟨ha, hta⟩ := List.mem_filter.1 ha
    obtain ⟨hb, htb⟩ := List.mem_filter.1 hb
    refine List.inj_on_of_nodup_map hkeys ha hb (Prod.ext ?_ he)
    exact (tenant_of_triggers env now u htenant ha hta).trans (tenant_of_triggers env now u htenant hb htb).symm
  rw [notified_withCache_iff env now u cer hclone hnodup, ← notifies_cached_iff env now u cer hm]
  constructor
  · rintro ⟨item, hitem, hid, ht, hn⟩
    obtain ⟨s, hs, rfl⟩ := hcached item hitem ht
    rw [List.inj_on_of_nodup_map (hids u.tenant) hs hsub hid] at ht hn
    exact ⟨ht, hn⟩
  · rintro ⟨ht, hn⟩
    refine ⟨sub.cached u.tenant, mem_subCacheRefresh.2 ⟨htenant, rfl, sub, hsub, ?_⟩, rfl, ht, hn⟩
    have hload : sub.Loadable := by
      obtain ⟨ha, -⟩ := (notifies_cached_iff env now u cer hm).1 ⟨ht, hn⟩
      refine ⟨fun he => ?_, fun hc => ?_⟩
      · have := hm.cachedEntities
        rw [he] at this
        cases this
      · rw [hc] at ha
        cases ha
    exact (load_eq u.tenant sub).trans (if_pos hload)

private theorem le_of_unexpired {sub : Csub} (h : sub.Unexpired now) : now ≤ sub.expiration.getD 0 := by
  obtain ⟨expiration, he, hlt⟩ := h
  rw [he]
  exact le_of_lt hlt

/-- For the subscriptions whose service path and entities both implementations match, the broker with a cache that was
just loaded notifies the same as the broker without. -/
def SameNotified (orionDatabases : List String) (csubs : String → List Csub) : Prop :=
  ∀ sub ∈ csubs u.tenant, MatchedByBoth env u sub →
    (sub.id ∈ (notifyUpdate env now u false cer (freshState env orionDatabases csubs)).2.map Notification.subscriptionId ↔
      sub.id ∈ (notifyUpdate env now u true cer (freshState env orionDatabases csubs)).2.map Notification.subscriptionId)

/-- The decisions that only one of the two makes, for a subscription that passes the common ones. -/
structure DecidedAlike (csubs : List Csub) (sub : Csub) : Prop where
  /-- At the instant of its expiration, it is throttled. -/
  expiring : attributeMatch sub.onChangeConditions u.modifiedAttrs = true →
    sub.expiration = some now ∨ (sub.expiration = none ∧ now ≤ 0) → sub.throttled now = true
  /-- Before its expiration, if the first throttling test lets it pass, then its filter accepts the entity, and the
  filters of all subscriptions that are found can be made. -/
  filtered : attributeMatch sub.onChangeConditions u.modifiedAttrs = true → sub.Unexpired now →
    sub.throttled now = false → sub.FilterAccepts env cer ∧ FiltersUsable env now u csubs
  /-- If it passes without the cache, then a condition of type `ONCHANGE` lets it pass, and so does the first throttling
  test. -/
  throttled : sub.onChangeConditions ≠ [] → attributeMatch sub.conditions u.modifiedAttrs = true → sub.Unexpired now →
    sub.FilterAccepts env cer → FiltersUsable env now u csubs →
      attributeMatch sub.onChangeConditions u.modifiedAttrs = true ∧ sub.throttled now = false

/-- The subscriptions notified with a cache that was just loaded are those notified without exactly if the decisions
that only one of the two makes have the same outcome. -/
theorem notified_agreement_iff {orionDatabases : List String} {csubs : String → List Csub}
    (hdb : (databases env.subCacheMultitenant orionDatabases).Nodup) (hids : ∀ t, ((csubs t).map Csub.id).Nodup)
    (htenant : u.tenant ∈ databases env.subCacheMultitenant orionDatabases) :
    SameNotified env now u cer orionDatabases csubs ↔
      ∀ sub ∈ csubs u.tenant, MatchedByBoth env u sub → sub.Sendable now cer →
        DecidedAlike env now u cer (csubs u.tenant) sub := by
  unfold SameNotified
  refine forall₂_congr fun sub hsub => forall_congr' fun hm => ?_
  have hstored : sub.id ∈ (notifyUpdate env now u true cer (freshState env orionDatabases csubs)).2.map
        Notification.subscriptionId ↔
      FiltersUsable env now u (csubs u.tenant) ∧ sub.onChangeConditions ≠ [] ∧
        attributeMatch sub.conditions u.modifiedAttrs = true ∧ sub.Unexpired now ∧ sub.FilterAccepts env cer ∧
          sub.Sendable now cer := by
    rw [notified_noCache_iff env now u cer (hids u.tenant), ← notifies_stored_iff env now u cer hm]
    refine and_congr_right fun _ => ⟨?_, fun h => ⟨sub, hsub, rfl, h⟩⟩
    rintro ⟨s, hs, hid, h⟩
    rw [List.inj_on_of_nodup_map (hids u.tenant) hs hsub hid] at h
    exact h
  rw [notified_fresh_iff env now u cer hdb hids htenant hsub hm, hstored]
  constructor
  · intro h hsend
    refine ⟨?_, ?_, ?_⟩
    · intro ha hexp
      by_contra ht
      have hle : now ≤ sub.expiration.getD 0 := by
        rcases hexp with hexp | ⟨hexp, hle⟩
        · rw [hexp]
          exact le_refl now
        · rw [hexp]
          exact hle
      obtain ⟨-, -, -, ⟨expiration, he, hlt⟩, -⟩ := h.1 ⟨ha, hle, Bool.eq_false_of_not_eq_true ht, hsend⟩
      rcases hexp with hexp | ⟨hexp, -⟩
      · rw [hexp, Option.some.injEq] at he
        omega
      · rw [hexp] at he
        cases he
    · intro ha hexp ht
      obtain ⟨hu, -, -, -, hf, -⟩ := h.1 ⟨ha, le_of_unexpired now hexp, ht, hsend⟩
      exact ⟨hf, hu⟩
    · intro hc ha hexp hf hu
      obtain ⟨ha', -, ht, -⟩ := h.2 ⟨hu, hc, ha, hexp, hf, hsend⟩
      exact ⟨ha', ht⟩
  · intro h
    constructor
    · rintro ⟨ha, hle, ht, hsend⟩
      have hexp : sub.Unexpired now := by
        by_contra hno
        refine Bool.noConfusion (ht.symm.trans ((h hsend).expiring ha ?_))
        cases hexp : sub.expiration with
        | none => exact Or.inr ⟨rfl, by rw [hexp] at hle; exact hle⟩
        | some expiration =>
          rw [hexp, Option.getD_some] at hle
          have : ¬ now < expiration := fun hlt => hno ⟨expiration, hexp, hlt⟩
          exact Or.inl (congrArg some (by omega))
      obtain ⟨hf, hu⟩ := (h hsend).filtered ha hexp ht
      have hc : sub.onChangeConditions ≠ [] := by
        intro hnil
        rw [hnil] at ha
        cases ha
      exact ⟨hu, hc, attributeMatch_of_filter ha, hexp, hf, hsend⟩
    · rintro ⟨hu, hc, ha, hexp, hf, hsend⟩
      obtain ⟨ha', ht⟩ := (h hsend).throttled hc ha hexp hf hu
      exact ⟨ha', le_of_unexpired now hexp, ht, hsend⟩

/-! ### The instant of expiration, and a filter -/

/-- Filters that accept nothing, and patterns that accept themselves. -/
def refusingEnv : SubEnv Unit where
  parse := fun _ => some [()]
  compiles := fun _ => true
  matchItem := fun _ _ => some false
  regexec := fun pattern id => pattern = id
  subCacheMultitenant := false

/-- A change of the attribute `A` of the entity `E`. -/
def changeOfA : EntityUpdate where
  tenant := ""
  servicePath := "/"
  entityId := "E"
  entityType := ""
  modifiedAttrs := ["A"]

/-- The entity `E` with the attribute `A`. -/
def entityWithA : ContextElementResponse where
  contextElement := { entityId := { id := "E", type := "" }, contextAttributeVector := [{ name := "A", type := "" }] }

/-- One document, of the default tenant. -/
def onlyDocument (sub : Csub) (tenant : String) : List Csub := if tenant = "" then [sub] else []

private theorem nodup_onlyDocument (sub : Csub) (t : String) : ((onlyDocument sub t).map Csub.id).Nodup := by
  unfold onlyDocument
  split <;> simp

/-- Before its expiration, a subscription without a filter is notified or not with and without the cache alike. -/
theorem notified_agreement_before_expiration :
    SameNotified refusingEnv 100 changeOfA entityWithA [] (onlyDocument (changesOfE "s" (some 90))) := by
  refine (notified_agreement_iff refusingEnv 100 changeOfA entityWithA (by decide) (nodup_onlyDocument _)
    (by decide)).2 ?_
  intro sub hsub _ _
  have hsub' : sub = changesOfE "s" (some 90) := List.mem_singleton.1 hsub
  subst hsub'
  refine ⟨?_, ?_, ?_⟩
  · intro _ h
    revert h
    decide
  · intro _ _ _
    refine ⟨rfl, ?_⟩
    intro sub hsub _
    have hsub' : sub = changesOfE "s" (some 90) := List.mem_singleton.1 hsub
    rw [hsub']
    rfl
  · intro _ _ _ _ _
    decide

/-- The subscription expires at 1000, and at 1000 only the broker with the cache notifies it; and a loaded subscription
has no filter. -/
theorem notified_disagreement :
    ¬ SameNotified refusingEnv 1000 changeOfA entityWithA [] (onlyDocument (changesOfE "s" none)) ∧
      ¬ SameNotified refusingEnv 100 changeOfA entityWithA []
        (onlyDocument { changesOfE "s" none with expression := some { q := "A==1" } }) := by
  refine ⟨fun h => ?_, fun h => ?_⟩
  · have := h (changesOfE "s" none) (List.mem_singleton.2 rfl) ⟨by decide, by decide, by decide, by decide⟩
    revert this
    decide
  · have := h { changesOfE "s" none with expression := some { q := "A==1" } } (List.mem_singleton.2 rfl)
      ⟨by decide, by decide, by decide, by decide⟩
    revert this
    decide

end OrionBroker
