import OrionBroker.SubscriptionReport

/-!
# Lists of subscriptions (`mongoGetSubscriptions.cpp`)

`mongoListSubscriptions` reads a page of the subscriptions of a service path, in the order of their ids.  A client reads one
page after the other while the broker goes on working: subscriptions are created, updated and notified, and the counts of
the cache are flushed.

A new subscription has the largest id of all, so it comes last and moves none of the others (`pages_list_subscriptions`).
A subscription that is removed, or taken out of the list by an update, is another matter: those behind it move forward, and
the first one of the next page is not listed any more.
-/

namespace OrionBroker.SubscriptionList

/-! ### Pages of the list -/

structure SubscriptionPage where
  subs : List ReportedSubscription
  count : Nat

section Pages

variable {Item : Type} (servicePath : String)

/-- The documents of the query. -/
def isListed (sub : DescribedCsub) : Bool :=
  (servicePath = "" || servicePath = "/#" || sub.servicePath = some servicePath) &&
    sub.conditions.any fun condition => condition.type = ON_CHANGE_CONDITION

/-- The documents that are listed, in the order of their ids. -/
def listedDocs (csubs : List DescribedCsub) : List DescribedCsub :=
  (csubs.filter (isListed servicePath)).insertionSort fun sub sub' => sub.id ≤ sub'.id

def listedIds (csubs : List DescribedCsub) : List String := (listedDocs servicePath csubs).map fun sub => sub.id

/-- A limit of 0 stands for none. -/
def ranged (limit offset : Nat) (docs : List DescribedCsub) : List DescribedCsub :=
  if limit = 0 then docs.drop offset else (docs.drop offset).take limit

/-- A page and the number of all documents, or the error of the query. -/
def mongoListSubscriptions (tenant : String) (now : Int) (err : Option String) (limit offset : Nat)
    (st : DescribedState Item) : Except StatusCode SubscriptionPage :=
  match err with
  | some err => .error ⟨.SccReceiverInternalError, err⟩
  | none =>
    let docs := listedDocs servicePath (st.csubs tenant)
    .ok { subs := (ranged limit offset docs).map fun r => reportSubscription tenant now r st.cache
          count := docs.length }

/-- Whether a subscription is listed after an update on a service path. -/
def listedAfter (path : String) (request : DescribedRequest Item) (sub : DescribedCsub) : Bool :=
  (servicePath = "" || servicePath = "/#" || requestedServicePath path = servicePath) &&
    (if request.notifyConditionVector = [] then sub.conditions else request.notifyConditionVector).any fun condition =>
      condition.type = ON_CHANGE_CONDITION

/-- What the broker does meanwhile.  The id of a new subscription is larger than those of the others, and an update leaves a
subscription in the list or out of it. -/
inductive Step (tenant : String) : DescribedState Item → DescribedState Item → Prop where
  | subscribe {st : DescribedState Item} (code : FilterCode Item) (call : Subscribing) (now : Int) (tenant' path : String)
      (request : DescribedRequest Item) {oid : String} (hoid : safeGetSubId oid = some oid)
      (hnew : ∀ sub ∈ st.csubs tenant', sub.id < oid) :
      Step tenant st (Described.mongoSubscribeContext code call now tenant' path request oid st).1
  | update {st st' : DescribedState Item} {code : FilterCode Item} {call : Subscribing} {now : Int} {tenant' path : String}
      {request : DescribedRequest Item} {subscriptionId : String} {sent : Nat}
      (hupdate : Described.mongoUpdateContextSubscription code call now tenant' path request subscriptionId st =
        some (st', sent))
      (hkept : tenant' = tenant → ∀ sub ∈ st.csubs tenant, safeGetSubId subscriptionId = some sub.id →
        listedAfter servicePath path request sub = isListed servicePath sub) : Step tenant st st'
  | later {st : DescribedState Item} (event : SentLater) (tenant' oid : String) :
      Step tenant st (event.apply tenant' oid st)

/-- An entry of a page, with the state it was read from. -/
structure ListedSubscription (Item : Type) where
  state : DescribedState Item
  now : Int
  report : ReportedSubscription

/-- The pages that are read one after the other, from the state `first` on; a page that cannot be read is asked for again. -/
inductive Paging (tenant : String) (limit : Nat) (first : DescribedState Item) :
    DescribedState Item → Nat → List (ListedSubscription Item) → Prop where
  | start : Paging tenant limit first first 0 []
  | broker {st st' : DescribedState Item} {pages : Nat} {listed : List (ListedSubscription Item)}
      (h : Paging tenant limit first st pages listed) (hstep : Step servicePath tenant st st') :
      Paging tenant limit first st' pages listed
  | page {st : DescribedState Item} {pages : Nat} {listed : List (ListedSubscription Item)}
      (h : Paging tenant limit first st pages listed) {now : Int} {err : Option String} {result : SubscriptionPage}
      (hpage : mongoListSubscriptions servicePath tenant now err limit (pages * limit) st = .ok result) :
      Paging tenant limit first st (pages + 1) (listed ++ result.subs.map fun report => ⟨st, now, report⟩)

end Pages

/-- The subscriptions that were there at the beginning are listed as far as the pages reach, nothing is listed twice or
before a smaller id, and each entry is what is answered for the id alone. -/
structure PagesListed {Item : Type} (servicePath tenant : String) (first last : List DescribedCsub) (reach : Nat)
    (listed : List (ListedSubscription Item)) : Prop where
  complete : ((listedIds servicePath first).take reach).Sublist (listed.map fun entry => entry.report.id)
  sound : (listed.map fun entry => entry.report.id).Sublist ((listedIds servicePath last).take reach)
  ordered : (listed.map fun entry => entry.report.id).Pairwise (· < ·)
  reported : ∀ entry ∈ listed, mongoGetSubscription tenant entry.now entry.report.id entry.state = .ok entry.report

/-- The ids are those of the database, and different. -/
structure HasIds (csubs : List DescribedCsub) : Prop where
  nodup : (csubs.map fun sub => sub.id).Nodup
  oid : ∀ sub ∈ csubs, safeGetSubId sub.id = some sub.id

/-! ### The order of the ids -/

/-- What is not smaller than all others comes last. -/
theorem insertionSort_concat {α : Type} [LinearOrder α] {l : List α} {a : α} (h : ∀ b ∈ l, b ≤ a) :
    (l ++ [a]).insertionSort (· ≤ ·) = l.insertionSort (· ≤ ·) ++ [a] := by
  have hperm : ((l ++ [a]).insertionSort (· ≤ ·)).Perm (l.insertionSort (· ≤ ·) ++ [a]) :=
    (List.perm_insertionSort _ _).trans ((List.perm_insertionSort _ _).symm.append_right [a])
  refine hperm.eq_of_pairwise' (List.pairwise_insertionSort _ _) ?_
  rw [List.pairwise_append]
  refine ⟨List.pairwise_insertionSort _ _, List.pairwise_singleton _ _, fun b hb c hc => ?_⟩
  rw [List.mem_singleton.1 hc]
  exact h b ((List.perm_insertionSort _ _).mem_iff.1 hb)

section Ids

variable {servicePath : String} {csubs : List DescribedCsub}

theorem listedIds_eq : listedIds servicePath csubs =
    ((csubs.filter (isListed servicePath)).map fun sub => sub.id).insertionSort (· ≤ ·) :=
  List.map_insertionSort _ _ _ _ fun _ _ _ _ => Iff.rfl

theorem mem_listedDocs {sub : DescribedCsub} : sub ∈ listedDocs servicePath csubs ↔ sub ∈ csubs ∧ isListed servicePath sub = true := by
  unfold listedDocs
  rw [(List.perm_insertionSort _ _).mem_iff, List.mem_filter]

theorem listedIds_ordered (h : HasIds csubs) : (listedIds servicePath csubs).Pairwise (· < ·) := by
  have hnodup : (listedIds servicePath csubs).Nodup := by
    rw [listedIds_eq, (List.perm_insertionSort _ _).nodup_iff]
    exact h.nodup.sublist (List.filter_sublist.map _)
  have hsorted : (listedIds servicePath csubs).Pairwise (· ≤ ·) := by
    rw [listedIds_eq]
    exact List.pairwise_insertionSort _ _
  exact (hsorted.and hnodup).imp fun ⟨hle, hne⟩ => lt_of_le_of_ne hle hne

/-- A new subscription comes last. -/
theorem listedIds_concat {new : DescribedCsub} (hnew : ∀ sub ∈ csubs, sub.id < new.id) :
    listedIds servicePath csubs <+: listedIds servicePath (csubs ++ [new]) := by
  rw [listedIds_eq, listedIds_eq, List.filter_append, List.map_append]
  by_cases hlisted : isListed servicePath new = true
  · rw [List.filter_cons_of_pos hlisted, List.filter_nil, List.map_singleton, insertionSort_concat]
    · exact List.prefix_append _ _
    · intro b hb
      obtain ⟨sub, hsub, rfl⟩ := List.mem_map.1 hb
      exact le_of_lt (hnew sub (List.mem_of_mem_filter hsub))
  · rw [List.filter_cons_of_neg hlisted, List.filter_nil, List.map_nil, List.append_nil]

theorem hasIds_concat (h : HasIds csubs) {new : DescribedCsub} (hnew : ∀ sub ∈ csubs, sub.id < new.id)
    (hoid : safeGetSubId new.id = some new.id) : HasIds (csubs ++ [new]) := by
  refine ⟨?_, fun sub hsub => ?_⟩
  · rw [List.map_append, List.nodup_append']
    refine ⟨h.nodup, List.nodup_singleton _, fun id hid hnewId => ?_⟩
    obtain ⟨sub, hsub, rfl⟩ := List.mem_map.1 hid
    exact absurd (List.mem_singleton.1 hnewId) (ne_of_lt (hnew sub hsub))
  · rcases List.mem_append.1 hsub with hsub | hsub
    · exact h.oid sub hsub
    · rw [List.mem_singleton.1 hsub]
      exact hoid

theorem hasIds_modify (h : HasIds csubs) {id : String} {change : DescribedCsub → DescribedCsub}
    (hkey : ∀ sub, sub.id = id → (change sub).id = id) :
    HasIds (KeyedList.modify (fun sub : DescribedCsub => sub.id) id change csubs) := by
  refine ⟨?_, fun sub hsub => ?_⟩
  · rw [KeyedList.keys_modify hkey]
    exact h.nodup
  · rcases KeyedList.mem_modify hsub with hsub | ⟨sub', hsub', hid, rfl⟩
    · exact h.oid sub hsub
    · rw [hkey sub' hid, ← hid]
      exact h.oid sub' hsub'

theorem listedIds_modify {id : String} {change : DescribedCsub → DescribedCsub}
    (hkey : ∀ sub, sub.id = id → (change sub).id = id)
    (hlisted : ∀ sub, KeyedList.get (fun sub : DescribedCsub => sub.id) id csubs = some sub →
      isListed servicePath (change sub) = isListed servicePath sub) :
    listedIds servicePath (KeyedList.modify (fun sub : DescribedCsub => sub.id) id change csubs) =
      listedIds servicePath csubs := by
  rw [listedIds_eq, listedIds_eq, KeyedList.keys_filter_modify hkey hlisted]

end Ids

/-! ### What the broker does between two pages -/

section Between

variable {Item : Type} {servicePath tenant : String} {st st' : DescribedState Item}

theorem any_conds (call : Subscribing) (status : String) (ncv : List SubscriptionCondition) :
    ((processConditionVector call status ncv).conds.any fun condition => condition.type = ON_CHANGE_CONDITION) =
      ncv.any fun condition => condition.type = ON_CHANGE_CONDITION := by
  rw [conds_processConditionVector, List.any_filter]
  simp

theorem isListed_updatedCsub (call : Subscribing) (now : Int) (path : String) (request : DescribedRequest Item)
    (sub : DescribedCsub) (cSubP : Option (CachedSubscription Item)) :
    isListed servicePath (Described.updatedCsub call now path request sub cSubP) =
      listedAfter servicePath path request sub := by
  have hconditions : (Described.updatedCsub call now path request sub cSubP).conditions =
      request.toSubscribeContextRequest.updatedConditions call sub.toCsub := rfl
  have hpath : (Described.updatedCsub call now path request sub cSubP).servicePath = some (requestedServicePath path) := rfl
  unfold isListed listedAfter
  rw [hconditions, hpath, SubscribeContextRequest.updatedConditions]
  congr 1
  · simp
  · split
    · rfl
    · exact any_conds call _ _

/-- An update changes the document of the id, and none of another tenant. -/
theorem csubs_of_update {code : FilterCode Item} {call : Subscribing} {now : Int} {tenant' path : String}
    {request : DescribedRequest Item} {subscriptionId : String} {sent : Nat}
    (h : Described.mongoUpdateContextSubscription code call now tenant' path request subscriptionId st = some (st', sent)) :
    ∃ id sub cSubP, safeGetSubId subscriptionId = some id ∧
      KeyedList.get (fun sub : DescribedCsub => sub.id) id (st.csubs tenant') = some sub ∧
      st'.csubs = Function.update st.csubs tenant' (KeyedList.modify (fun sub : DescribedCsub => sub.id) id
        (fun _ => Described.updatedCsub call now path request sub cSubP) (st.csubs tenant')) := by
  unfold Described.mongoUpdateContextSubscription at h
  split at h
  · cases h
  · rename_i id hid
    split at h
    · cases h
    · rename_i sub hsub
      cases h
      exact ⟨id, sub, _, hid, hsub, rfl⟩

/-- The ids stay as they are, and new ones come behind those that are listed. -/
theorem step_spec (h : Step servicePath tenant st st') (hids : HasIds (st.csubs tenant)) :
    HasIds (st'.csubs tenant) ∧ listedIds servicePath (st.csubs tenant) <+: listedIds servicePath (st'.csubs tenant) := by
  cases h with
  | subscribe code call now tenant' path request hoid hnew =>
    by_cases htenant : tenant = tenant'
    · subst htenant
      unfold Described.mongoSubscribeContext
      dsimp only
      rw [Function.update_self]
      exact ⟨hasIds_concat hids hnew hoid, listedIds_concat hnew⟩
    · unfold Described.mongoSubscribeContext
      dsimp only
      rw [Function.update_of_ne htenant]
      exact ⟨hids, List.prefix_rfl⟩
  | @update _ code call now tenant' path request subscriptionId sent hupdate hkept =>
    obtain ⟨id, sub, cSubP, hid, hsub, hcsubs⟩ := csubs_of_update hupdate
    rw [hcsubs]
    by_cases htenant : tenant = tenant'
    · subst htenant
      obtain ⟨hmem, hkey⟩ := KeyedList.mem_of_get hsub
      have hnewKey : ∀ sub' : DescribedCsub, sub'.id = id →
          (Described.updatedCsub call now path request sub cSubP).id = id := fun _ _ => hkey
      have hlisted : ∀ sub', KeyedList.get (fun sub : DescribedCsub => sub.id) id (st.csubs tenant) = some sub' →
          isListed servicePath (Described.updatedCsub call now path request sub cSubP) = isListed servicePath sub' := by
        intro sub' hsub'
        rw [hsub] at hsub'
        cases hsub'
        rw [isListed_updatedCsub]
        exact hkept rfl sub hmem (by rw [hid, ← hkey])
      have hsame := listedIds_modify hnewKey hlisted
      rw [Function.update_self]
      exact ⟨hasIds_modify hids hnewKey, hsame ▸ List.prefix_rfl⟩
    · rw [Function.update_of_ne htenant]
      exact ⟨hids, List.prefix_rfl⟩
  | later event tenant' oid =>
    cases event with
    | notified time => exact ⟨hids, List.prefix_rfl⟩
    | flushed =>
      unfold SentLater.apply
      dsimp only
      split
      · exact ⟨hids, List.prefix_rfl⟩
      · dsimp only
        by_cases htenant : tenant = tenant'
        · subst htenant
          rw [Function.update_self]
          refine ⟨hasIds_modify hids fun _ h => h, ?_⟩
          rw [@listedIds_modify _ _ oid (fun sub => { sub with toCsub := sub.toCsub.flush _ _ }) (fun _ h => h) fun _ _ => rfl]
        · rw [Function.update_of_ne htenant]
          exact ⟨hids, List.prefix_rfl⟩

end Between

/-! ### The pages -/

section Run

variable {Item : Type} {servicePath tenant : String} {limit : Nat} {first last : DescribedState Item}

/-- An entry of a page is what is answered for its id. -/
theorem reported_of_page {st : DescribedState Item} (hids : HasIds (st.csubs tenant)) {now : Int} {err : Option String}
    {offset : Nat} {result : SubscriptionPage}
    (h : mongoListSubscriptions servicePath tenant now err limit offset st = .ok result) {report : ReportedSubscription}
    (hreport : report ∈ result.subs) : mongoGetSubscription tenant now report.id st = .ok report := by
  unfold mongoListSubscriptions at h
  split at h
  · cases h
  · cases h
    obtain ⟨r, hr, rfl⟩ := List.mem_map.1 hreport
    have hsub : r ∈ listedDocs servicePath (st.csubs tenant) := by
      unfold ranged at hr
      split at hr
      · exact List.mem_of_mem_drop hr
      · exact List.mem_of_mem_drop (List.mem_of_mem_take hr)
    have hmem : r ∈ st.csubs tenant := (mem_listedDocs.1 hsub).1
    have hone : ((st.csubs tenant).filter fun sub => sub.id = r.id) = [r] := by
      have hfilter : ((st.csubs tenant).filter fun sub => sub.id = r.id) =
          (KeyedList.get (fun sub : DescribedCsub => sub.id) r.id (st.csubs tenant)).toList :=
        KeyedList.filter_of_nodup hids.nodup
      rw [hfilter, KeyedList.get_of_nodup hids.nodup hmem]
      rfl
    have hid : (reportSubscription tenant now r st.cache).id = r.id := rfl
    unfold mongoGetSubscription
    rw [hid, hids.oid r hmem]
    dsimp only
    rw [hone]

theorem ids_of_page (hlimit : 0 < limit) {st : DescribedState Item} {now : Int} {err : Option String} {offset : Nat}
    {result : SubscriptionPage}
    (h : mongoListSubscriptions servicePath tenant now err limit offset st = .ok result) :
    (result.subs.map fun report => report.id) = ((listedIds servicePath (st.csubs tenant)).drop offset).take limit := by
  unfold mongoListSubscriptions at h
  split at h
  · cases h
  · cases h
    dsimp only
    rw [ranged, if_neg (by omega), listedIds, List.map_map, ← List.map_drop, ← List.map_take]
    rfl

/-- After any pages, with anything in between, the ids are still those of the database, and those listed at the beginning
are still the first ones. -/
theorem run_spec {pages : Nat} {listed : List (ListedSubscription Item)} (hlimit : 0 < limit)
    (hfirst : HasIds (first.csubs tenant)) (h : Paging servicePath tenant limit first last pages listed) :
    HasIds (last.csubs tenant) ∧
      listedIds servicePath (first.csubs tenant) <+: listedIds servicePath (last.csubs tenant) ∧
      PagesListed servicePath tenant (first.csubs tenant) (last.csubs tenant) (pages * limit) listed := by
  induction h with
  | start =>
    refine ⟨hfirst, List.prefix_rfl, ?_, ?_, ?_, fun _ he => by cases he⟩
    · rw [Nat.zero_mul, List.take_zero]
      exact List.nil_sublist _
    · exact List.nil_sublist _
    · exact List.Pairwise.nil
  | broker _ hstep ih =>
    obtain ⟨hids, hgrown, hlisted⟩ := ih
    obtain ⟨hids', hgrows⟩ := step_spec hstep hids
    refine ⟨hids', hgrown.trans hgrows, hlisted.complete, ?_, hlisted.ordered, hlisted.reported⟩
    exact hlisted.sound.trans (hgrows.take _).sublist
  | @page st pages listed _ now err result hpage ih =>
    obtain ⟨hids, hgrown, hlisted⟩ := ih
    have hpageIds := ids_of_page hlimit hpage
    have hmap : ((listed ++ result.subs.map fun report => (⟨st, now, report⟩ : ListedSubscription Item)).map
        fun entry => entry.report.id) =
          (listed.map fun entry => entry.report.id) ++
            ((listedIds servicePath (st.csubs tenant)).drop (pages * limit)).take limit := by
      rw [List.map_append, List.map_map, ← hpageIds]
      rfl
    have hreach : (pages + 1) * limit = pages * limit + limit := Nat.succ_mul pages limit
    have hsound : ((listed ++ result.subs.map fun report => (⟨st, now, report⟩ : ListedSubscription Item)).map
        fun entry => entry.report.id).Sublist ((listedIds servicePath (st.csubs tenant)).take ((pages + 1) * limit)) := by
      rw [hmap, hreach, List.take_add]
      exact hlisted.sound.append (List.Sublist.refl _)
    refine ⟨hids, hgrown, ?_, hsound, (listedIds_ordered hids).sublist (hsound.trans (List.take_sublist _ _)), ?_⟩
    · rw [hmap, hreach, List.take_add]
      exact hlisted.complete.append ((hgrown.drop _).take _).sublist
    · intro entry hentry
      rcases List.mem_append.1 hentry with hentry | hentry
      · exact hlisted.reported entry hentry
      · obtain ⟨report, hreport, rfl⟩ := List.mem_map.1 hentry
        exact reported_of_page hids hpage hreport

/-- The pages that a client reads list the subscriptions, whatever the broker does in between. -/
theorem pages_list_subscriptions {pages : Nat} {listed : List (ListedSubscription Item)} (hlimit : 0 < limit)
    (hfirst : HasIds (first.csubs tenant)) (h : Paging servicePath tenant limit first last pages listed) :
    PagesListed servicePath tenant (first.csubs tenant) (last.csubs tenant) (pages * limit) listed :=
  (run_spec hlimit hfirst h).2.2

end Run

/-! ### A subscription that is created between two pages -/

def laterId : String := "51c0ac9ed714fb3b37d7d5a9"

def firstListed : DescribedState Empty :=
  (Described.mongoSubscribeContext noFilters noEntities 100 "" "/" room1Request exampleId noSubscriptions).1

def bothListed : DescribedState Empty :=
  (Described.mongoSubscribeContext noFilters noEntities 200 "" "/" room1Request laterId firstListed).1

/-- It is on the second page. -/
theorem pages_list_later :
    ∃ listed : List (ListedSubscription Empty), PagesListed "/" "" (firstListed.csubs "") (bothListed.csubs "") (2 * 1) listed ∧
      listed.map (fun entry => entry.report.id) = [exampleId, laterId] := by
  have hids : HasIds (firstListed.csubs "") := by
    refine ⟨List.nodup_singleton _, fun sub hsub => ?_⟩
    rw [List.mem_singleton.1 hsub]
    decide
  have hnew : ∀ sub ∈ firstListed.csubs "", sub.id < laterId := by
    intro sub hsub
    rw [List.mem_singleton.1 hsub]
    decide
  have hfirst := @Paging.page Empty "/" "" 1 firstListed _ _ _ .start 100 none _ rfl
  have hcreated := hfirst.broker (Step.subscribe noFilters noEntities 200 "" "/" room1Request (by decide) hnew)
  have hsecond := @Paging.page Empty "/" "" 1 firstListed _ _ _ hcreated 200 none _ rfl
  exact ⟨_, pages_list_subscriptions (by decide) hids hsecond, by decide⟩

end OrionBroker.SubscriptionList
