import OrionBroker.TriggeredSubscription
import OrionBroker.WhileLoop

/-!
# Synchronization of the cache (`subCache.cpp`, `mongoSubCache.cpp`)

`subCacheSync` saves the notification time and the count of every cached subscription by its id, loads the cache anew
from the documents of all tenants, forgets the saved times that are not newer than the loaded ones, and adds the saved
counts and times to the documents of the subscriptions that are in the new cache.  The loop that saves them does not
advance at an id it has met before, so the function does not return for a cache with such an id.

`subCacheSync_spec` says what is found under every key after a synchronization.
-/

namespace OrionBroker

variable {Item : Type}

/-! ### Loading -/

/-- The items made from the documents of a tenant. -/
def loadedItems (tenant : String) (csubs : List Csub) : List (CachedSubscription Item) :=
  (csubs.filter fun sub => sub.conditions.any fun condition => condition.type = ON_CHANGE_CONDITION).filterMap
    fun sub => (Refresh.mongoSubCacheItemInsert tenant sub).toOption

/-- The tenants whose databases are read; the default tenant is the last. -/
def databases (multitenant : Bool) (orionDatabases : List String) : List String :=
  (if multitenant then orionDatabases else []) ++ [""]

/-- The cache after `subCacheRefresh`; `collectionQuery` says for which tenants the query succeeds. -/
def subCacheRefresh (multitenant : Bool) (orionDatabases : List String) (collectionQuery : String → Bool)
    (csubs : String → List Csub) : List (CachedSubscription Item) :=
  (databases multitenant orionDatabases).flatMap fun tenant =>
    if collectionQuery tenant then loadedItems tenant (csubs tenant) else []

/-! ### Saving, comparing and flushing -/

structure CachedSubSaved where
  lastNotificationTime : Int
  count : Int
deriving DecidableEq

/-- Step 1; `none` if the loop does not end. -/
def saveSubs : List (CachedSubscription Item) → List (String × CachedSubSaved) → Option (List (String × CachedSubSaved))
  | [], savedSubV => some savedSubV
  | cSub :: cache, savedSubV =>
    if cSub.subscriptionId ∈ savedSubV.map Prod.fst then none
    else saveSubs cache (savedSubV ++ [(cSub.subscriptionId, ⟨cSub.lastNotificationTime, cSub.count⟩)])

/-- Step 3: a saved time that is not newer than the loaded one is set to 0.  The loaded item stays as it is. -/
def compareSaved (cache : List (CachedSubscription Item)) (savedSubV : List (String × CachedSubSaved)) :
    List (String × CachedSubSaved) :=
  cache.foldl (fun saved cSub => KeyedList.modify Prod.fst cSub.subscriptionId
    (fun css => if css.2.lastNotificationTime ≤ cSub.lastNotificationTime
      then (css.1, { css.2 with lastNotificationTime := 0 }) else css) saved) savedSubV

/-- What `mongoSubCacheUpdate` does to the document. -/
def Csub.flush (count lastNotificationTime : Int) (sub : Csub) : Csub :=
  { sub with
    count := if count ≠ 0 then some (sub.count.getD 0 + count) else sub.count
    lastNotification :=
      if lastNotificationTime ≠ 0 ∧ (sub.lastNotification.all fun stored => stored < lastNotificationTime) = true
      then some lastNotificationTime else sub.lastNotification }

def mongoSubCacheUpdate (tenant subId : String) (count lastNotificationTime : Int) (csubs : String → List Csub) :
    String → List Csub :=
  Function.update csubs tenant (KeyedList.modify Csub.id subId (Csub.flush count lastNotificationTime) (csubs tenant))

/-- Steps 4 and 5 for one item. -/
def flushItem (savedSubV : List (String × CachedSubSaved)) (csubs : String → List Csub)
    (cSub : CachedSubscription Item) : String → List Csub :=
  match KeyedList.get Prod.fst cSub.subscriptionId savedSubV with
  | none => csubs
  | some css => mongoSubCacheUpdate cSub.tenant cSub.subscriptionId css.2.count css.2.lastNotificationTime csubs

def flushSaved (cache : List (CachedSubscription Item)) (savedSubV : List (String × CachedSubSaved))
    (csubs : String → List Csub) : String → List Csub :=
  cache.foldl (flushItem savedSubV) csubs

/-- `subCacheSync`; `none` if it does not return. -/
def subCacheSync (multitenant : Bool) (orionDatabases : List String) (collectionQuery : String → Bool)
    (st : SubState Item) : Option (SubState Item) :=
  match saveSubs st.cache [] with
  | none => none
  | some savedSubV =>
    let cache := subCacheRefresh multitenant orionDatabases collectionQuery st.csubs
    some { cache := cache, csubs := flushSaved cache (compareSaved cache savedSubV) st.csubs }

/-! ### What is found after loading -/

/-- The subscription can be loaded: it has an entity with an id and a condition of type `ONCHANGE`. -/
def Csub.Loadable (sub : Csub) : Prop := sub.entityInfos ≠ [] ∧ sub.onChangeConditions ≠ []

instance (sub : Csub) : Decidable sub.Loadable := by unfold Csub.Loadable; infer_instance

/-- The item that is made from a loadable document. -/
def Csub.load (tenant : String) (sub : Csub) : Option (CachedSubscription Item) :=
  (Refresh.mongoSubCacheItemInsert tenant sub).toOption

/-- The fields of that item. -/
def Csub.cached (tenant : String) (sub : Csub) : CachedSubscription Item where
  tenant := tenant
  subscriptionId := sub.id
  servicePath := sub.servicePath.getD "/"
  reference := sub.reference.getD "NO REF"
  renderFormat := stringToRenderFormat (sub.format.getD "legacy")
  throttling := sub.throttling.getD (-1)
  expirationTime := sub.expiration.getD 0
  lastNotificationTime := sub.lastNotification.getD (-1)
  status := sub.status.getD STATUS_ACTIVE
  count := 0
  entityIdInfos := sub.entityInfos
  attributes := sub.attrs
  notifyConditionVector := sub.onChangeConditions

theorem load_eq (tenant : String) (sub : Csub) :
    (sub.load tenant : Option (CachedSubscription Item)) = if sub.Loadable then some (sub.cached tenant) else none := by
  unfold Csub.load Refresh.mongoSubCacheItemInsert Csub.Loadable
  by_cases he : sub.entityInfos = []
  · simp [he, Except.toOption]
  · by_cases hc : sub.onChangeConditions = []
    · simp [he, hc, Except.toOption]
    · simp [he, hc, Except.toOption, Csub.cached]

theorem load_isSome_iff {tenant : String} {sub : Csub} :
    (sub.load tenant : Option (CachedSubscription Item)).isSome = true ↔ sub.Loadable := by
  rw [load_eq]
  split
  · rename_i hl
    simp [hl]
  · rename_i hl
    simp [hl]

theorem load_eq_some {tenant : String} {sub : Csub} {item : CachedSubscription Item} (h : sub.load tenant = some item) :
    item = sub.cached tenant := by
  rw [load_eq] at h
  split at h
  · exact (Option.some.inj h).symm
  · cases h

theorem key_of_load {tenant : String} {sub : Csub} {item : CachedSubscription Item} (h : sub.load tenant = some item) :
    item.key = (tenant, sub.id) := by
  rw [load_eq_some h]
  rfl

private theorem loadedItems_eq (tenant : String) (csubs : List Csub) :
    (loadedItems tenant csubs : List (CachedSubscription Item)) = csubs.filterMap (Csub.load tenant) := by
  unfold loadedItems
  rw [List.filterMap_filter]
  refine List.filterMap_congr ?_
  intro sub _
  -- a document that the query leaves out could not be loaded either
  split
  · rfl
  · rename_i hno
    cases hl : (sub.load tenant : Option (CachedSubscription Item)) with
    | none => rfl
    | some item =>
      have hload : sub.Loadable := load_isSome_iff.1 (by rw [hl]; rfl)
      refine absurd ?_ hno
      obtain ⟨condition, hc⟩ := List.exists_mem_of_ne_nil _ hload.2
      obtain ⟨hc, ht⟩ := List.mem_filter.1 hc
      exact List.any_eq_true.2 ⟨condition, hc, ht⟩

theorem get_loadedItems {tenant id : String} {csubs : List Csub} (hids : (csubs.map Csub.id).Nodup) :
    KeyedList.get CachedSubscription.key (tenant, id) (loadedItems tenant csubs : List (CachedSubscription Item)) =
      (KeyedList.get Csub.id id csubs).bind (Csub.load tenant) := by
  rw [loadedItems_eq]
  have hkeys : (csubs.map fun sub => (tenant, sub.id)).Nodup := by
    have := hids.map (Prod.mk_right_injective tenant)
    rwa [List.map_map] at this
  rw [KeyedList.get_filterMap (fun sub item h => key_of_load h) hkeys]
  congr 1
  unfold KeyedList.get
  congr 1
  funext sub
  simp

/-- The keys of the items of one tenant are different, if the ids are. -/
theorem nodup_loadedItems (tenant : String) {csubs : List Csub} (hids : (csubs.map Csub.id).Nodup) :
    ((loadedItems tenant csubs : List (CachedSubscription Item)).map CachedSubscription.key).Nodup := by
  rw [loadedItems_eq]
  refine List.Nodup.of_map Prod.snd ?_
  have hsub : List.Sublist (((csubs.filterMap (Csub.load tenant : Csub → Option (CachedSubscription Item))).map
      CachedSubscription.key).map Prod.snd) (csubs.map Csub.id) := by
    clear hids
    induction csubs with
    | nil => exact List.Sublist.refl _
    | cons sub subs ih =>
      cases hl : (sub.load tenant : Option (CachedSubscription Item)) with
      | none =>
        rw [List.filterMap_cons_none hl]
        exact ih.cons _
      | some item =>
        rw [List.filterMap_cons_some hl, List.map_cons, List.map_cons, key_of_load hl]
        exact ih.cons_cons _
  exact hids.sublist hsub

theorem tenant_of_loadedItems {tenant : String} {csubs : List Csub} {item : CachedSubscription Item}
    (h : item ∈ loadedItems tenant csubs) : item.key.1 = tenant := by
  rw [loadedItems_eq] at h
  obtain ⟨sub, -, hload⟩ := List.mem_filterMap.1 h
  rw [key_of_load hload]

private theorem tenant_of_loaded {b : Bool} {tenant : String} {csubs : List Csub} {item : CachedSubscription Item}
    (h : item ∈ (if b then loadedItems tenant csubs else [])) : item.key.1 = tenant := by
  split at h
  · exact tenant_of_loadedItems h
  · cases h

/-- The items of a cache that was just loaded are those of the documents of all tenants whose query succeeds. -/
theorem mem_subCacheRefresh {multitenant : Bool} {orionDatabases : List String} {collectionQuery : String → Bool}
    {csubs : String → List Csub} {item : CachedSubscription Item} :
    item ∈ (subCacheRefresh multitenant orionDatabases collectionQuery csubs : List (CachedSubscription Item)) ↔
      item.tenant ∈ databases multitenant orionDatabases ∧ collectionQuery item.tenant = true ∧
        ∃ sub ∈ csubs item.tenant, sub.load item.tenant = some item := by
  unfold subCacheRefresh
  rw [List.mem_flatMap]
  constructor
  · rintro ⟨t, ht, hitem⟩
    have htenant : item.tenant = t := tenant_of_loaded hitem
    rw [htenant]
    by_cases hq : collectionQuery t = true
    · rw [if_pos hq, loadedItems_eq] at hitem
      exact ⟨ht, hq, List.mem_filterMap.1 hitem⟩
    · rw [if_neg hq] at hitem
      cases hitem
  · rintro ⟨ht, hq, hsub⟩
    refine ⟨item.tenant, ht, ?_⟩
    rw [if_pos hq, loadedItems_eq]
    exact List.mem_filterMap.2 hsub

/-- What is found in a cache that was just loaded. -/
theorem lookup_subCacheRefresh {multitenant : Bool} {orionDatabases : List String} {collectionQuery : String → Bool}
    {csubs : String → List Csub} (hids : ∀ t, ((csubs t).map Csub.id).Nodup) (tenant id : String) :
    subCacheItemLookup tenant id
        (subCacheRefresh multitenant orionDatabases collectionQuery csubs : List (CachedSubscription Item)) =
      if tenant ∈ databases multitenant orionDatabases ∧ collectionQuery tenant = true
      then (KeyedList.get Csub.id id (csubs tenant)).bind (Csub.load tenant) else none := by
  unfold subCacheItemLookup subCacheRefresh
  rw [KeyedList.get_flatMap Prod.fst fun t item h => tenant_of_loaded h]
  by_cases ht : tenant ∈ databases multitenant orionDatabases
  · by_cases hq : collectionQuery tenant = true
    · simp [ht, hq, get_loadedItems (hids tenant)]
    · simp [hq, KeyedList.get]
  · simp [ht]

/-- The keys of a cache that was just loaded are different, if the tenants and the ids of a tenant are. -/
theorem nodup_subCacheRefresh {multitenant : Bool} {orionDatabases : List String} {collectionQuery : String → Bool}
    {csubs : String → List Csub} (hdb : (databases multitenant orionDatabases).Nodup)
    (hids : ∀ t, ((csubs t).map Csub.id).Nodup) :
    ((subCacheRefresh multitenant orionDatabases collectionQuery csubs : List (CachedSubscription Item)).map
      CachedSubscription.key).Nodup := by
  unfold subCacheRefresh
  generalize databases multitenant orionDatabases = tenants at hdb
  induction tenants with
  | nil => exact List.nodup_nil
  | cons t ts ih =>
    rw [List.nodup_cons] at hdb
    rw [List.flatMap_cons, List.map_append, List.nodup_append]
    refine ⟨?_, ih hdb.2, ?_⟩
    · split
      · exact nodup_loadedItems t (hids t)
      · exact List.nodup_nil
    · -- keys of different tenants differ
      intro k hk k' hk' he
      obtain ⟨item, hitem, rfl⟩ := List.mem_map.1 hk
      obtain ⟨item', hitem', rfl⟩ := List.mem_map.1 hk'
      obtain ⟨t', ht', hitem'⟩ := List.mem_flatMap.1 hitem'
      have h1 := tenant_of_loaded hitem
      have h2 := tenant_of_loaded hitem'
      rw [he, h2] at h1
      exact hdb.1 (h1 ▸ ht')

/-! ### Saving and comparing -/

/-- The entry that step 1 saves for an item. -/
def CachedSubscription.saved (cSub : CachedSubscription Item) : String × CachedSubSaved :=
  (cSub.subscriptionId, ⟨cSub.lastNotificationTime, cSub.count⟩)

private theorem saveSubs_of_nodup {cache : List (CachedSubscription Item)} {savedSubV : List (String × CachedSubSaved)}
    (h : (savedSubV.map Prod.fst ++ cache.map CachedSubscription.subscriptionId).Nodup) :
    saveSubs cache savedSubV = some (savedSubV ++ cache.map CachedSubscription.saved) := by
  induction cache generalizing savedSubV with
  | nil => simp [saveSubs]
  | cons cSub cache ih =>
    have hnew : cSub.subscriptionId ∉ savedSubV.map Prod.fst := by
      intro hm
      exact (List.nodup_append.1 h).2.2 _ hm _ List.mem_cons_self rfl
    unfold saveSubs
    rw [if_neg hnew, ih (by simpa using h)]
    simp [CachedSubscription.saved]

private theorem nodup_of_saveSubs {cache : List (CachedSubscription Item)} {savedSubV saved : List (String × CachedSubSaved)}
    (hs : (savedSubV.map Prod.fst).Nodup) (h : saveSubs cache savedSubV = some saved) :
    (savedSubV.map Prod.fst ++ cache.map CachedSubscription.subscriptionId).Nodup := by
  induction cache generalizing savedSubV with
  | nil => simpa using hs
  | cons cSub cache ih =>
    unfold saveSubs at h
    split at h
    · cases h
    · rename_i hnew
      have := ih (by
        rw [List.map_append, List.nodup_append]
        refine ⟨hs, by simp, ?_⟩
        intro a ha b hb he
        rw [List.map_singleton, List.mem_singleton] at hb
        rw [he, hb] at ha
        exact hnew ha) h
      simpa using this

/-- The synchronization returns exactly if no two cached subscriptions have the same id. -/
theorem saveSubs_isSome_iff {cache : List (CachedSubscription Item)} :
    (saveSubs cache []).isSome = true ↔ (cache.map CachedSubscription.subscriptionId).Nodup := by
  constructor
  · intro h
    obtain ⟨saved, hs⟩ := Option.isSome_iff_exists.1 h
    have := nodup_of_saveSubs (by simp) hs
    simpa using this
  · intro h
    rw [saveSubs_of_nodup (by simpa using h)]
    rfl

/-- The time that is left of a saved one when it was compared with all loaded items of the same id. -/
def remainingTime (cache : List (CachedSubscription Item)) (id : String) (time : Int) : Int :=
  if cache.any fun cSub => cSub.subscriptionId = id && time ≤ cSub.lastNotificationTime then 0 else time

private theorem get_compareSaved (cache : List (CachedSubscription Item)) (savedSubV : List (String × CachedSubSaved))
    (id : String) :
    KeyedList.get Prod.fst id (compareSaved cache savedSubV) =
      (KeyedList.get Prod.fst id savedSubV).map fun css =>
        (css.1, { css.2 with lastNotificationTime := remainingTime cache id css.2.lastNotificationTime }) := by
  induction cache generalizing savedSubV with
  | nil => simp [compareSaved, remainingTime]
  | cons cSub cache ih =>
    have hkey : ∀ css : String × CachedSubSaved, (if css.2.lastNotificationTime ≤ cSub.lastNotificationTime
        then (css.1, { css.2 with lastNotificationTime := 0 }) else css).1 = css.1 := by
      intro css
      split <;> rfl
    have hstep := ih (KeyedList.modify Prod.fst cSub.subscriptionId
      (fun css => if css.2.lastNotificationTime ≤ cSub.lastNotificationTime
        then (css.1, { css.2 with lastNotificationTime := 0 }) else css) savedSubV)
    unfold compareSaved at hstep ⊢
    rw [List.foldl_cons, hstep, KeyedList.get_modify fun css hcss => (hkey css).trans hcss]
    by_cases hid : id = cSub.subscriptionId
    · rw [if_pos hid, ← hid, Option.map_map]
      congr 1
      funext css
      unfold remainingTime
      simp only [Function.comp_apply, List.any_cons, ← hid, decide_true, Bool.true_and]
      by_cases hle : css.2.lastNotificationTime ≤ cSub.lastNotificationTime
      · -- a time that is 0 stays 0
        simp [hle]
      · simp [hle]
    · rw [if_neg hid]
      congr 1
      funext css
      have : cSub.subscriptionId ≠ id := fun h => hid h.symm
      simp [remainingTime, this]

/-! ### Flushing -/

private theorem get_flushItem (savedSubV : List (String × CachedSubSaved)) (csubs : String → List Csub)
    (cSub : CachedSubscription Item) (tenant id : String) :
    KeyedList.get Csub.id id (flushItem savedSubV csubs cSub tenant) =
      (KeyedList.get Csub.id id (csubs tenant)).map fun sub =>
        if cSub.key = (tenant, id) then
          (KeyedList.get Prod.fst id savedSubV).elim sub fun css => sub.flush css.2.count css.2.lastNotificationTime
        else sub := by
  have hflush : ∀ (k : String) count time (sub : Csub), sub.id = k → (sub.flush count time).id = k :=
    fun _ _ _ _ h => h
  unfold flushItem
  by_cases hk : cSub.key = (tenant, id)
  · have hid : cSub.subscriptionId = id := congrArg Prod.snd hk
    have ht : cSub.tenant = tenant := congrArg Prod.fst hk
    rw [hid, ht]
    cases hs : KeyedList.get Prod.fst id savedSubV with
    | none => simp
    | some css => simp [mongoSubCacheUpdate, KeyedList.get_modify (hflush _ _ _), hk]
  · have hsame : ∀ count time, KeyedList.get Csub.id id
        (mongoSubCacheUpdate cSub.tenant cSub.subscriptionId count time csubs tenant) =
          KeyedList.get Csub.id id (csubs tenant) := by
      intro count time
      unfold mongoSubCacheUpdate
      by_cases ht : tenant = cSub.tenant
      · subst ht
        have hid : id ≠ cSub.subscriptionId := fun h => hk (by rw [h]; rfl)
        rw [Function.update_self, KeyedList.get_modify (hflush _ _ _), if_neg hid]
      · rw [Function.update_of_ne ht]
    simp only [hk, if_false, Option.map_id']
    cases hs : KeyedList.get Prod.fst cSub.subscriptionId savedSubV with
    | none => rfl
    | some css => exact hsame _ _

private theorem get_flushSaved {cache : List (CachedSubscription Item)} (savedSubV : List (String × CachedSubSaved))
    (hkeys : (cache.map CachedSubscription.key).Nodup) (csubs : String → List Csub) (tenant id : String) :
    KeyedList.get Csub.id id (flushSaved cache savedSubV csubs tenant) =
      (KeyedList.get Csub.id id (csubs tenant)).map fun sub =>
        if (tenant, id) ∈ cache.map CachedSubscription.key then
          (KeyedList.get Prod.fst id savedSubV).elim sub fun css => sub.flush css.2.count css.2.lastNotificationTime
        else sub := by
  induction cache generalizing csubs with
  | nil => simp [flushSaved]
  | cons cSub cache ih =>
    rw [List.map_cons, List.nodup_cons] at hkeys
    unfold flushSaved at ih ⊢
    rw [List.foldl_cons, ih hkeys.2, get_flushItem, Option.map_map]
    congr 1
    funext sub
    by_cases hk : cSub.key = (tenant, id)
    · have hnot : (tenant, id) ∉ cache.map CachedSubscription.key := hk ▸ hkeys.1
      simp [hnot, hk]
    · have hk' : (tenant, id) ≠ cSub.key := fun h => hk h.symm
      simp [hk, hk']

private theorem ids_flushSaved (cache : List (CachedSubscription Item)) (savedSubV : List (String × CachedSubSaved))
    (csubs : String → List Csub) (tenant : String) :
    (flushSaved cache savedSubV csubs tenant).map Csub.id = (csubs tenant).map Csub.id := by
  induction cache generalizing csubs with
  | nil => rfl
  | cons cSub cache ih =>
    unfold flushSaved at ih ⊢
    rw [List.foldl_cons, ih]
    unfold flushItem
    cases KeyedList.get Prod.fst cSub.subscriptionId savedSubV with
    | none => rfl
    | some css =>
      have hflush : ∀ sub : Csub, sub.id = cSub.subscriptionId →
          (sub.flush css.2.count css.2.lastNotificationTime).id = cSub.subscriptionId := fun _ h => h
      dsimp only [mongoSubCacheUpdate]
      by_cases ht : tenant = cSub.tenant
      · subst ht
        rw [Function.update_self, KeyedList.keys_modify hflush]
      · rw [Function.update_of_ne ht]

/-! ### The synchronization -/

/-- The document of a subscription after a synchronization, if it was cached as `cSub` before and is in the new cache. -/
def Csub.synced (cache : List (CachedSubscription Item)) (cSub : CachedSubscription Item) (sub : Csub) : Csub :=
  sub.flush cSub.count (remainingTime cache sub.id cSub.lastNotificationTime)

/-- What a synchronization does: the new cache is loaded from the documents as they were, and the document of a
subscription that is in it gets the count and the time that were saved for its id. -/
theorem subCacheSync_spec {multitenant : Bool} {orionDatabases : List String} {collectionQuery : String → Bool}
    {st st' : SubState Item} (hdb : (databases multitenant orionDatabases).Nodup)
    (hids : ∀ t, ((st.csubs t).map Csub.id).Nodup)
    (h : subCacheSync multitenant orionDatabases collectionQuery st = some st') :
    (st.cache.map CachedSubscription.subscriptionId).Nodup ∧
      st'.cache = subCacheRefresh multitenant orionDatabases collectionQuery st.csubs ∧
      ∀ tenant id, KeyedList.get Csub.id id (st'.csubs tenant) =
        (KeyedList.get Csub.id id (st.csubs tenant)).map fun sub =>
          if (subCacheItemLookup tenant id st'.cache).isSome then
            (KeyedList.get CachedSubscription.subscriptionId id st.cache).elim sub fun cSub => sub.synced st'.cache cSub
          else sub := by
  unfold subCacheSync at h
  cases hs : saveSubs st.cache [] with
  | none => rw [hs] at h; cases h
  | some savedSubV =>
    rw [hs] at h
    cases h
    have hnodup : (st.cache.map CachedSubscription.subscriptionId).Nodup :=
      saveSubs_isSome_iff.1 (by rw [hs]; rfl)
    refine ⟨hnodup, rfl, ?_⟩
    intro tenant id
    rw [saveSubs_of_nodup (by simpa using hnodup)] at hs
    cases hs
    rw [get_flushSaved _ (nodup_subCacheRefresh hdb hids), get_compareSaved, List.nil_append, KeyedList.get_map]
    have hlookup : (subCacheItemLookup tenant id (subCacheRefresh multitenant orionDatabases collectionQuery st.csubs :
        List (CachedSubscription Item))).isSome = true ↔ (tenant, id) ∈
          (subCacheRefresh multitenant orionDatabases collectionQuery st.csubs : List (CachedSubscription Item)).map
            CachedSubscription.key := by
      rw [← not_iff_not, ← KeyedList.get_eq_none_iff, Option.not_isSome_iff_eq_none]
      rfl
    cases hg : KeyedList.get Csub.id id (st.csubs tenant) with
    | none => rfl
    | some sub =>
      have hsub : sub.id = id := (KeyedList.mem_of_get hg).2
      simp only [Option.map_some, hlookup]
      congr 2
      have hcomp : (Prod.fst ∘ CachedSubscription.saved : CachedSubscription Item → String) =
          CachedSubscription.subscriptionId := rfl
      rw [hcomp]
      cases KeyedList.get CachedSubscription.subscriptionId id st.cache with
      | none => rfl
      | some cSub => simp [CachedSubscription.saved, Csub.synced, hsub]

/-- The ids of the documents stay the same. -/
theorem ids_subCacheSync {multitenant : Bool} {orionDatabases : List String} {collectionQuery : String → Bool}
    {st st' : SubState Item} (h : subCacheSync multitenant orionDatabases collectionQuery st = some st') (tenant : String) :
    (st'.csubs tenant).map Csub.id = (st.csubs tenant).map Csub.id := by
  unfold subCacheSync at h
  cases hs : saveSubs st.cache [] with
  | none => rw [hs] at h; cases h
  | some savedSubV =>
    rw [hs] at h
    cases h
    exact ids_flushSaved _ _ _ _

/-- A document after a synchronization is the one that was there, perhaps with something flushed to it. -/
theorem mem_subCacheSync {multitenant : Bool} {orionDatabases : List String} {collectionQuery : String → Bool}
    {st st' : SubState Item} (hdb : (databases multitenant orionDatabases).Nodup)
    (hids : ∀ t, ((st.csubs t).map Csub.id).Nodup)
    (h : subCacheSync multitenant orionDatabases collectionQuery st = some st') {tenant : String} {sub' : Csub}
    (hsub' : sub' ∈ st'.csubs tenant) :
    ∃ sub ∈ st.csubs tenant, sub' = sub ∨ ∃ count time, sub' = sub.flush count time := by
  have hids' : ((st'.csubs tenant).map Csub.id).Nodup := by
    rw [ids_subCacheSync h]
    exact hids tenant
  obtain ⟨-, -, hdocs⟩ := subCacheSync_spec hdb hids h
  have hget := hdocs tenant sub'.id
  rw [KeyedList.get_of_nodup hids' hsub'] at hget
  obtain ⟨sub, hsub, he⟩ := Option.map_eq_some_iff.1 hget.symm
  refine ⟨sub, (KeyedList.mem_of_get hsub).1, ?_⟩
  split at he
  · cases hc : KeyedList.get CachedSubscription.subscriptionId sub'.id st.cache with
    | none =>
      rw [hc] at he
      exact Or.inl he.symm
    | some cSub =>
      rw [hc] at he
      exact Or.inr ⟨_, _, he.symm⟩
  · exact Or.inl he.symm

/-! ### Which time is kept -/

/-- The notification time of a document, as the cache reads it. -/
def Csub.notificationTime (sub : Csub) : Int := sub.lastNotification.getD (-1)

/-- After a synchronization without failures, each subscription that was cached has the newer of its two notification
times, both in the cache and in its document. -/
def KeepsNewestTime (multitenant : Bool) (orionDatabases : List String) (st : SubState Item) : Prop :=
  ∃ st', subCacheSync multitenant orionDatabases (fun _ => true) st = some st' ∧
    ∀ cSub ∈ st.cache, ∀ sub ∈ st.csubs cSub.tenant, sub.id = cSub.subscriptionId →
      (subCacheItemLookup cSub.tenant sub.id st'.cache).map CachedSubscription.lastNotificationTime =
          some (max cSub.lastNotificationTime sub.notificationTime) ∧
        (KeyedList.get Csub.id sub.id (st'.csubs cSub.tenant)).map Csub.notificationTime =
          some (max cSub.lastNotificationTime sub.notificationTime)

/-- The documents still contain the cached subscriptions, so that all of them are loaded again. -/
def StillStored (multitenant : Bool) (orionDatabases : List String) (st : SubState Item) : Prop :=
  ∀ cSub ∈ st.cache, cSub.tenant ∈ databases multitenant orionDatabases ∧
    ∃ sub ∈ st.csubs cSub.tenant, sub.id = cSub.subscriptionId ∧ sub.Loadable

private theorem lookup_of_stored {multitenant : Bool} {orionDatabases : List String} {collectionQuery : String → Bool}
    {csubs : String → List Csub} (hids : ∀ t, ((csubs t).map Csub.id).Nodup) {tenant : String} {sub : Csub}
    (ht : tenant ∈ databases multitenant orionDatabases) (hq : collectionQuery tenant = true) (hsub : sub ∈ csubs tenant) :
    subCacheItemLookup tenant sub.id
        (subCacheRefresh multitenant orionDatabases collectionQuery csubs : List (CachedSubscription Item)) =
      sub.load tenant := by
  rw [lookup_subCacheRefresh hids, if_pos ⟨ht, hq⟩, KeyedList.get_of_nodup (hids tenant) hsub]
  rfl

private theorem flush_old {count : Int} {sub : Csub} : (sub.flush count 0).notificationTime = sub.notificationTime := by
  simp [Csub.flush, Csub.notificationTime]

variable (multitenant : Bool) (orionDatabases : List String) (st : SubState Item)

/-- A synchronization keeps the newest notification times exactly if no two cached subscriptions have the same id (else
it does not return) and no cached time is newer than the stored one. -/
theorem sync_keeps_newest_iff (hdb : (databases multitenant orionDatabases).Nodup)
    (hids : ∀ t, ((st.csubs t).map Csub.id).Nodup) (hstored : StillStored multitenant orionDatabases st) :
    KeepsNewestTime multitenant orionDatabases st ↔
      (st.cache.map CachedSubscription.subscriptionId).Nodup ∧
        ∀ cSub ∈ st.cache, ∀ sub ∈ st.csubs cSub.tenant, sub.id = cSub.subscriptionId →
          cSub.lastNotificationTime ≤ sub.notificationTime := by
  have hloaded : ∀ cSub ∈ st.cache, ∀ sub ∈ st.csubs cSub.tenant, sub.id = cSub.subscriptionId →
      ∃ item : CachedSubscription Item, subCacheItemLookup cSub.tenant sub.id
        (subCacheRefresh multitenant orionDatabases (fun _ => true) st.csubs) = some item ∧
          item.key = (cSub.tenant, sub.id) ∧ item.lastNotificationTime = sub.notificationTime := by
    intro cSub hc sub hsub hid
    obtain ⟨ht, sub', hsub', hid', hload⟩ := hstored cSub hc
    have he : sub' = sub := List.inj_on_of_nodup_map (hids cSub.tenant) hsub' hsub (hid'.trans hid.symm)
    rw [he] at hload
    obtain ⟨item, hitem⟩ := Option.isSome_iff_exists.1 (load_isSome_iff.2 hload)
    refine ⟨item, (lookup_of_stored hids ht rfl hsub).trans hitem, key_of_load hitem, by rw [load_eq_some hitem]; rfl⟩
  constructor
  · rintro ⟨st', hsync, hkeeps⟩
    obtain ⟨hnodup, hcache, -⟩ := subCacheSync_spec hdb hids hsync
    refine ⟨hnodup, ?_⟩
    intro cSub hc sub hsub hid
    obtain ⟨item, hitem, -, htime⟩ := hloaded cSub hc sub hsub hid
    have := (hkeeps cSub hc sub hsub hid).1
    rw [hcache, hitem, Option.map_some, Option.some.injEq, htime] at this
    omega
  · rintro ⟨hnodup, hnewer⟩
    obtain ⟨savedSubV, hs⟩ := Option.isSome_iff_exists.1 (saveSubs_isSome_iff.2 hnodup)
    obtain ⟨st', hsync⟩ : ∃ st', subCacheSync multitenant orionDatabases (fun _ => true) st = some st' := by
      unfold subCacheSync
      rw [hs]
      exact ⟨_, rfl⟩
    obtain ⟨-, hcache, hdocs⟩ := subCacheSync_spec hdb hids hsync
    refine ⟨st', hsync, ?_⟩
    intro cSub hc sub hsub hid
    obtain ⟨item, hitem, hkey, htime⟩ := hloaded cSub hc sub hsub hid
    have hle := hnewer cSub hc sub hsub hid
    rw [max_eq_right hle]
    refine ⟨by rw [hcache, hitem, Option.map_some, htime], ?_⟩
    -- the saved time was thrown away
    have hmem : item ∈ (subCacheRefresh multitenant orionDatabases (fun _ => true) st.csubs :
        List (CachedSubscription Item)) := (KeyedList.mem_of_get hitem).1
    have hzero : remainingTime st'.cache sub.id cSub.lastNotificationTime = 0 := by
      unfold remainingTime
      refine if_pos (List.any_eq_true.2 ⟨item, hcache ▸ hmem, ?_⟩)
      have hid' : item.subscriptionId = sub.id := congrArg Prod.snd hkey
      simp [hid', htime, hle]
    have hsaved : KeyedList.get CachedSubscription.subscriptionId sub.id st.cache = some cSub := by
      rw [hid]
      exact KeyedList.get_of_nodup hnodup hc
    rw [hdocs, KeyedList.get_of_nodup (hids _) hsub, hcache, hitem, hsaved, ← hcache]
    simp only [Option.map_some, Option.isSome_some, if_true, Option.elim_some, Csub.synced, hzero, flush_old]

/-- A subscription on every change of the entity `E`. -/
def changesOfE (id : String) (lastNotification : Option Int) : Csub where
  id := id
  entities := [⟨some "E", none, some "false"⟩]
  attrs := []
  conditions := [⟨ON_CHANGE_CONDITION, []⟩]
  expiration := some 1000
  throttling := some 5
  lastNotification := lastNotification

/-- The item of the cache for `changesOfE`. -/
def cachedChangesOfE (id : String) (lastNotificationTime count : Int) : CachedSubscription Empty where
  tenant := ""
  servicePath := "/"
  subscriptionId := id
  reference := "NO REF"
  entityIdInfos := [⟨"E", "", false⟩]
  attributes := []
  notifyConditionVector := [⟨ON_CHANGE_CONDITION, []⟩]
  throttling := 5
  expirationTime := 1000
  lastNotificationTime := lastNotificationTime
  status := STATUS_ACTIVE
  count := count
  renderFormat := .NGSI_V1_LEGACY

/-- One subscription, notified at the given times according to its document and according to the cache. -/
def oneSubscription (stored cached : Int) : SubState Empty where
  cache := [cachedChangesOfE "s" cached 1]
  csubs := fun tenant => if tenant = "" then [changesOfE "s" (some stored)] else []

private theorem nodup_oneSubscription (stored cached : Int) (t : String) :
    (((oneSubscription stored cached).csubs t).map Csub.id).Nodup := by
  unfold oneSubscription
  simp only
  split <;> simp

private theorem stillStored_oneSubscription (stored cached : Int) :
    StillStored false [] (oneSubscription stored cached) := by
  intro cSub hc
  rw [List.mem_singleton.1 hc]
  refine ⟨by simp [databases, cachedChangesOfE], changesOfE "s" (some stored), ?_, rfl, ?_, ?_⟩
  · simp [oneSubscription, cachedChangesOfE]
  · simp [Csub.entityInfos, changesOfE]
  · simp [Csub.onChangeConditions, changesOfE]

theorem sync_keeps_newest_stored : KeepsNewestTime false [] (oneSubscription 20 10) := by
  refine (sync_keeps_newest_iff false [] (oneSubscription 20 10) (by decide) (nodup_oneSubscription 20 10)
    (stillStored_oneSubscription 20 10)).2 ⟨by decide, ?_⟩
  intro cSub hc sub hsub _
  rw [List.mem_singleton.1 hc] at hsub ⊢
  have hsub' : sub = changesOfE "s" (some 20) := List.mem_singleton.1 hsub
  rw [hsub']
  decide

/-- The time 20 of a notification that is only in the cache is written to the document, and the cache has the time 10
of the document again. -/
theorem sync_drops_newer_time :
    StillStored false [] (oneSubscription 10 20) ∧ ¬ KeepsNewestTime false [] (oneSubscription 10 20) := by
  refine ⟨stillStored_oneSubscription 10 20, ?_⟩
  rintro ⟨st', hsync, hkeeps⟩
  cases hsync
  have := (hkeeps _ (List.mem_singleton.2 rfl) (changesOfE "s" (some 10)) (List.mem_singleton.2 rfl) rfl).1
  revert this
  decide

/-! ### The loop that saves -/

/-- A turn of the loop that saves; the state is the list from `cSubP` on, and `savedSubV`. -/
def saveTurn : List (CachedSubscription Item) × List (String × CachedSubSaved) →
    (List (CachedSubscription Item) × List (String × CachedSubSaved)) ⊕ List (String × CachedSubSaved)
  | ([], savedSubV) => .inr savedSubV
  | (cSub :: next, savedSubV) =>
    -- `continue`, with `cSubP` as it was
    if cSub.subscriptionId ∈ savedSubV.map Prod.fst then .inl (cSub :: next, savedSubV)
    else .inl (next, savedSubV ++ [(cSub.subscriptionId, ⟨cSub.lastNotificationTime, cSub.count⟩)])

/-- `saveSubs` is the result of the loop. -/
theorem returns_saveTurn_iff {cache : List (CachedSubscription Item)} {savedSubV saved : List (String × CachedSubSaved)} :
    WhileLoop.Returns saveTurn (cache, savedSubV) saved ↔ saveSubs cache savedSubV = some saved := by
  induction cache generalizing savedSubV with
  | nil =>
    have hturn : saveTurn (([] : List (CachedSubscription Item)), savedSubV) = .inr savedSubV := rfl
    have hleave := WhileLoop.returns_of_leaves hturn
    constructor
    · intro h
      exact congrArg some (hleave.unique h)
    · intro h
      exact Option.some.inj h ▸ hleave
  | cons cSub next ih =>
    unfold saveSubs
    by_cases hmet : cSub.subscriptionId ∈ savedSubV.map Prod.fst
    · have hstuck : saveTurn (cSub :: next, savedSubV) = .inl (cSub :: next, savedSubV) := if_pos hmet
      rw [if_pos hmet]
      exact iff_of_false (WhileLoop.not_returns_of_stuck hstuck saved) nofun
    · have hturn : saveTurn (cSub :: next, savedSubV) =
          .inl (next, savedSubV ++ [(cSub.subscriptionId, ⟨cSub.lastNotificationTime, cSub.count⟩)]) := if_neg hmet
      rw [if_neg hmet, WhileLoop.returns_iff_of_goesOn hturn, ih]

/-- The loop ends, with one entry for every id in the cache. -/
def SavesEachId (cache : List (CachedSubscription Item)) : Prop :=
  ∃ savedSubV, WhileLoop.Returns saveTurn (cache, []) savedSubV ∧ (savedSubV.map Prod.fst).Nodup ∧
    ∀ id, id ∈ savedSubV.map Prod.fst ↔ id ∈ cache.map CachedSubscription.subscriptionId

theorem savesEachId_iff {cache : List (CachedSubscription Item)} :
    SavesEachId cache ↔ (cache.map CachedSubscription.subscriptionId).Nodup := by
  constructor
  · rintro ⟨savedSubV, hreturns, -⟩
    have hsaved : saveSubs cache [] = some savedSubV := returns_saveTurn_iff.1 hreturns
    exact saveSubs_isSome_iff.1 (hsaved ▸ rfl)
  · intro hnodup
    have hids : (cache.map CachedSubscription.saved).map Prod.fst = cache.map CachedSubscription.subscriptionId := by
      rw [List.map_map]
      rfl
    refine ⟨cache.map CachedSubscription.saved, ?_, ?_, ?_⟩
    · rw [returns_saveTurn_iff, saveSubs_of_nodup (by simpa using hnodup), List.nil_append]
    · rwa [hids]
    · intro id
      rw [hids]

/-- The loop does not end for a subscription id that two tenants have. -/
theorem not_savesEachId_of_two_tenants :
    ¬ SavesEachId [{ cachedChangesOfE "s" 10 1 with tenant := "t1" },
      { cachedChangesOfE "s" 10 1 with tenant := "t2" }] := by
  rintro ⟨savedSubV, hreturns, -⟩
  rw [returns_saveTurn_iff] at hreturns
  simp [saveSubs, cachedChangesOfE] at hreturns

/-! ### A failed query -/

/-- After a synchronization in which the query for the subscriptions of a tenant fails, those that were cached are
cached, and their counts and times are in the cache or in the documents. -/
def LosesNothing (collectionQuery : String → Bool) (tenant : String) : Prop :=
  ∃ st', subCacheSync multitenant orionDatabases collectionQuery st = some st' ∧
    ∀ cSub ∈ st.cache, cSub.tenant = tenant →
      ∃ item, subCacheItemLookup tenant cSub.subscriptionId st'.cache = some item ∧
        (item.count = cSub.count ∨ ∃ sub sub',
          KeyedList.get Csub.id cSub.subscriptionId (st.csubs tenant) = some sub ∧
          KeyedList.get Csub.id cSub.subscriptionId (st'.csubs tenant) = some sub' ∧
          sub'.count.getD 0 = sub.count.getD 0 + cSub.count) ∧
        (item.lastNotificationTime = cSub.lastNotificationTime ∨ ∃ sub',
          KeyedList.get Csub.id cSub.subscriptionId (st'.csubs tenant) = some sub' ∧
          cSub.lastNotificationTime ≤ sub'.notificationTime)

/-- A synchronization in which the query of a tenant fails loses nothing of the tenant exactly if nothing of it was
cached (and no two cached subscriptions have the same id, else it does not return). -/
theorem failed_refresh_loses_nothing_iff {collectionQuery : String → Bool} {tenant : String}
    (hq : collectionQuery tenant = false) :
    LosesNothing multitenant orionDatabases st collectionQuery tenant ↔
      (st.cache.map CachedSubscription.subscriptionId).Nodup ∧ ∀ cSub ∈ st.cache, cSub.tenant ≠ tenant := by
  constructor
  · rintro ⟨st', hsync, hkept⟩
    unfold subCacheSync at hsync
    cases hs : saveSubs st.cache [] with
    | none =>
      rw [hs] at hsync
      cases hsync
    | some savedSubV =>
      refine ⟨saveSubs_isSome_iff.1 (by rw [hs]; rfl), ?_⟩
      rw [hs] at hsync
      cases hsync
      intro cSub hc ht
      obtain ⟨item, hitem, -⟩ := hkept cSub hc ht
      obtain ⟨hmem, hkey⟩ := KeyedList.mem_of_get hitem
      have htenant : item.tenant = tenant := congrArg Prod.fst hkey
      have hquery := (mem_subCacheRefresh.1 hmem).2.1
      rw [htenant, hq] at hquery
      cases hquery
  · rintro ⟨hnodup, hnone⟩
    obtain ⟨savedSubV, hs⟩ := Option.isSome_iff_exists.1 (saveSubs_isSome_iff.2 hnodup)
    unfold LosesNothing subCacheSync
    rw [hs]
    exact ⟨_, rfl, fun cSub hc ht => absurd ht (hnone cSub hc)⟩

/-- The failure of another tenant does not matter to a cache with subscriptions of the default tenant only. -/
theorem failed_refresh_of_other_tenant :
    LosesNothing true ["t"] (oneSubscription 10 20) (fun tenant => tenant ≠ "t") "t" := by
  refine (failed_refresh_loses_nothing_iff true ["t"] (oneSubscription 10 20) (by decide)).2 ⟨by decide, ?_⟩
  intro cSub hc
  rw [List.mem_singleton.1 hc]
  decide

/-- If the query of the default tenant fails, its cached subscription is gone. -/
theorem failed_refresh_loses_subscription :
    ¬ LosesNothing false [] (oneSubscription 10 20) (fun _ => false) "" := by
  rintro ⟨st', hsync, hkept⟩
  cases hsync
  obtain ⟨item, hitem, -⟩ := hkept _ (List.mem_singleton.2 rfl) rfl
  revert hitem
  simp [subCacheItemLookup, subCacheRefresh, databases, KeyedList.get]

end OrionBroker
