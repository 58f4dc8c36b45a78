import OrionBroker.LockedOperations

/-!
# No deadlock

Each operation keeps the order of the semaphores and gives back all it has taken, whatever the outcomes
(`keeps_program`).  So in every run in which the slots of the pool that are taken hold a connection, the operations
never block each other for ever, and when they have ended everything is free (`never_deadlocked`).  A slot that holds
NULL is not given back by the operations that get one (`deadlock_without_database`).
-/

namespace OrionBroker.Locks

open Threads

/-! ### Semaphores and connections in hand -/

section Rules

variable {α : Type} {h : Held} {Q : α → Held → Prop}

/-- The connections can be used. -/
def NoConnection (h : Held) : Prop := h.connectionSem = false ∧ h.connectionPoolSem = false ∧ h.slot = none

/-- The cache, and then the connections, can be used. -/
def NoCache (h : Held) : Prop := h.cacheSem = false ∧ NoConnection h

theorem NoCache.noConnection (hh : NoCache h) : NoConnection h := hh.2

/-- With a connection in hand. -/
def Held.connected (h : Held) (c : Nat) : Held := { h with connectionSem := true, slot := some c }

/-- With the cache semaphore in hand. -/
def Held.cached (h : Held) : Held := { h with cacheSem := true }

/-- With nothing in hand, but for the request semaphore if the policy says so. -/
def Held.requested (taken : Bool) : Held := { Held.nothing with reqSem := taken }

theorem noConnection_cached (hh : NoCache h) : NoConnection h.cached := hh.2

theorem noCache_requested (taken : Bool) : NoCache (.requested taken) := ⟨rfl, rfl, rfl, rfl⟩

theorem noCache_nothing : NoCache .nothing := ⟨rfl, rfl, rfl, rfl⟩

theorem keeps_getMongoConnection {k : Option Nat → Thread α} (hh : NoConnection h)
    (hk : ∀ c, Keeps discipline (k (some c)) Q (h.connected c)) :
    Keeps discipline (getMongoConnection >>= k) Q h := by
  obtain ⟨reqSem, cacheSem, connectionSem, connectionPoolSem, slot⟩ := h
  obtain ⟨h₁, h₂, h₃⟩ := hh
  simp only at h₁ h₂ h₃
  subst h₁ h₂ h₃
  refine ⟨?_, fun _ _ => ⟨?_, fun _ _ => ⟨⟨rfl, rfl⟩, fun r hr => ⟨⟨rfl, fun hs => nomatch hs⟩, fun _ _ => ?_⟩⟩⟩⟩
  · intro l hl
    cases l <;> first | decide | cases hl
  · intro l hl
    cases l <;> first | decide | cases hl
  · obtain ⟨c, rfl⟩ := Option.isSome_iff_exists.1 hr
    exact hk c

theorem keeps_releaseMongoConnection {c : Nat} {k : Unit → Thread α} (hh : NoConnection h)
    (hk : Keeps discipline (k ()) Q h) :
    Keeps discipline (releaseMongoConnection (some c) >>= k) Q (h.connected c) := by
  obtain ⟨reqSem, cacheSem, connectionSem, connectionPoolSem, slot⟩ := h
  obtain ⟨h₁, h₂, h₃⟩ := hh
  simp only at h₁ h₂ h₃
  subst h₁ h₂ h₃
  refine ⟨?_, fun _ _ => ⟨⟨rfl, rfl⟩, fun found hfound => ?_⟩⟩
  · intro l hl
    cases l <;> first | decide | cases hl
  · have hfound : found = true := hfound
    subst hfound
    exact ⟨⟨rfl, fun _ => rfl⟩, fun _ _ => ⟨⟨rfl, fun hs => nomatch hs⟩, fun _ _ => hk⟩⟩

theorem keeps_cacheSemTake {k : Unit → Thread α} (hh : NoCache h) (hk : Keeps discipline (k ()) Q h.cached) :
    Keeps discipline (cacheSemTake >>= k) Q h := by
  obtain ⟨reqSem, cacheSem, connectionSem, connectionPoolSem, slot⟩ := h
  obtain ⟨h₀, h₁, h₂, h₃⟩ := hh
  simp only at h₀ h₁ h₂ h₃
  subst h₀ h₁ h₂ h₃
  refine ⟨?_, fun _ _ => hk⟩
  intro l hl
  cases l <;> first | decide | cases hl

theorem keeps_cacheSemGive {k : Unit → Thread α} (hh : NoCache h) (hk : Keeps discipline (k ()) Q h) :
    Keeps discipline (cacheSemGive >>= k) Q h.cached := by
  obtain ⟨reqSem, cacheSem, connectionSem, connectionPoolSem, slot⟩ := h
  have h₀ : cacheSem = false := hh.1
  subst h₀
  exact ⟨⟨rfl, fun hs => nomatch hs⟩, fun _ _ => hk⟩

theorem keeps_reqSemTake {k : Bool → Thread α} (reqPolicy reqType : SemOpType)
    (hk : ∀ taken, Keeps discipline (k taken) Q (.requested taken)) :
    Keeps discipline (reqSemTake reqPolicy reqType >>= k) Q .nothing := by
  unfold reqSemTake
  split
  · exact hk false
  · split
    · exact hk false
    · split
      · exact hk false
      · refine ⟨?_, fun _ _ => hk true⟩
        intro l hl
        rw [Held.has_nothing] at hl
        cases hl

theorem keeps_reqSemGive (taken : Bool) :
    Keeps discipline (reqSemGive taken) (fun _ h => h = .nothing) (.requested taken) := by
  cases taken with
  | false => exact rfl
  | true => exact ⟨⟨rfl, fun hs => nomatch hs⟩, fun _ _ => rfl⟩

theorem restores_outcome {P : Held → Prop} : Restores discipline P outcome := fun _ _ => ⟨trivial, fun _ _ => rfl⟩

theorem restores_amount {P : Held → Prop} : Restores discipline P amount := fun _ _ => ⟨trivial, fun _ _ => rfl⟩

/-- What follows an outcome is kept whatever the outcome is. -/
theorem keeps_outcome {k : Bool → Thread α} (hk : ∀ b, Keeps discipline (k b) Q h) :
    Keeps discipline (outcome >>= k) Q h := ⟨trivial, fun b _ => hk b⟩

theorem keeps_amount {k : Nat → Thread α} (hk : ∀ n, Keeps discipline (k n) Q h) :
    Keeps discipline (amount >>= k) Q h := ⟨trivial, fun n _ => hk n⟩

/-- A query with a connection is answered, and the connection stays in hand. -/
theorem keeps_collectionQuery {c : Nat} {k : Bool → Thread α} (hk : ∀ ok, Keeps discipline (k ok) Q h) :
    Keeps discipline (collectionQuery (some c) >>= k) Q h := keeps_outcome hk

end Rules

/-! ### The operations -/

theorem restores_connectionOperation : Restores discipline NoConnection connectionOperation := by
  intro h hh
  refine keeps_getMongoConnection hh fun c => ?_
  refine keeps_outcome fun ok => ?_
  exact keeps_releaseMongoConnection hh rfl

theorem restores_documentsQuery : Restores discipline NoConnection documentsQuery := by
  intro h hh
  refine keeps_getMongoConnection hh fun c => ?_
  refine keeps_collectionQuery fun ok => ?_
  cases ok with
  | false => exact keeps_releaseMongoConnection hh rfl
  | true => exact keeps_releaseMongoConnection hh rfl

theorem restores_processOnChangeConditionForSubscription :
    Restores discipline NoConnection processOnChangeConditionForSubscription := by
  refine restores_documentsQuery.bind fun ok => restores_pure.ite ?_
  refine restores_outcome.bind fun found => restores_pure.ite ?_
  exact restores_documentsQuery.bind fun ok => restores_pure.ite restores_outcome

theorem restores_processConditionVector : Restores discipline NoConnection processConditionVector := by
  refine restores_amount.bind fun conditions => Restores.times ?_ conditions
  refine restores_outcome.bind fun active => Restores.onlyIf ?_ active
  exact restores_processOnChangeConditionForSubscription.bind fun _ => restores_pure

/-- The end of the operations on subscriptions: the change is made in the cache. -/
theorem keeps_cacheChange (taken : Bool) :
    Keeps discipline (do
      cacheSemTake
      cacheSemGive
      reqSemGive taken) (fun _ h => h = .nothing) (.requested taken) := by
  have hh := noCache_requested taken
  refine keeps_cacheSemTake hh ?_
  exact keeps_cacheSemGive hh (keeps_reqSemGive taken)

section Subscriptions

variable (reqPolicy : SemOpType)

theorem keeps_mongoSubscribeContext :
    Keeps discipline (mongoSubscribeContext reqPolicy) (fun _ h => h = .nothing) .nothing := by
  refine keeps_reqSemTake reqPolicy .writeOp fun taken => ?_
  have hh := (noCache_requested taken).noConnection
  refine restores_processConditionVector.bind_keeps hh fun _ => ?_
  refine restores_connectionOperation.bind_keeps hh fun inserted => ?_
  cases inserted with
  | false => exact keeps_reqSemGive taken
  | true => exact keeps_cacheChange taken

theorem keeps_mongoUpdateContextSubscription :
    Keeps discipline (mongoUpdateContextSubscription reqPolicy) (fun _ h => h = .nothing) .nothing := by
  refine keeps_reqSemTake reqPolicy .writeOp fun taken => ?_
  have hh := (noCache_requested taken).noConnection
  refine keeps_outcome fun safeGetSubId => ?_
  cases safeGetSubId with
  | false => exact keeps_reqSemGive taken
  | true =>
    refine restores_connectionOperation.bind_keeps hh fun found => ?_
    cases found with
    | false => exact keeps_reqSemGive taken
    | true =>
      refine keeps_outcome fun isEmpty => ?_
      cases isEmpty with
      | true => exact keeps_reqSemGive taken
      | false =>
        refine keeps_outcome fun conditions => ?_
        refine (restores_processConditionVector.onlyIf conditions).bind_keeps hh fun _ => ?_
        refine restores_connectionOperation.bind_keeps hh fun updated => ?_
        cases updated with
        | false => exact keeps_reqSemGive taken
        | true => exact keeps_cacheChange taken

theorem keeps_mongoUnsubscribeContext :
    Keeps discipline (mongoUnsubscribeContext reqPolicy) (fun _ h => h = .nothing) .nothing := by
  refine keeps_reqSemTake reqPolicy .writeOp fun taken => ?_
  have hh := (noCache_requested taken).noConnection
  refine keeps_outcome fun noSubscriptionId => ?_
  cases noSubscriptionId with
  | true => exact keeps_reqSemGive taken
  | false =>
    refine keeps_outcome fun safeGetSubId => ?_
    cases safeGetSubId with
    | false => exact keeps_reqSemGive taken
    | true =>
      refine restores_connectionOperation.bind_keeps hh fun found => ?_
      cases found with
      | false => exact keeps_reqSemGive taken
      | true =>
        refine keeps_outcome fun isEmpty => ?_
        cases isEmpty with
        | true => exact keeps_reqSemGive taken
        | false =>
          refine restores_connectionOperation.bind_keeps hh fun removed => ?_
          cases removed with
          | false => exact keeps_reqSemGive taken
          | true => exact keeps_cacheChange taken

/-- The exits of the queries of subscriptions. -/
theorem keeps_queryExit (taken : Bool) (c : Nat) :
    Keeps discipline (do
      releaseMongoConnection (some c)
      reqSemGive taken) (fun _ h => h = .nothing) ((Held.requested taken).connected c) :=
  keeps_releaseMongoConnection (noCache_requested taken).noConnection (keeps_reqSemGive taken)

theorem keeps_mongoListSubscriptions :
    Keeps discipline (mongoListSubscriptions reqPolicy) (fun _ h => h = .nothing) .nothing := by
  refine keeps_reqSemTake reqPolicy .readOp fun taken => ?_
  refine keeps_getMongoConnection (noCache_requested taken).noConnection fun c => ?_
  refine keeps_collectionQuery fun ok => ?_
  cases ok with
  | false => exact keeps_queryExit taken c
  | true => exact keeps_queryExit taken c

theorem keeps_mongoGetSubscription :
    Keeps discipline (mongoGetSubscription reqPolicy) (fun _ h => h = .nothing) .nothing := by
  refine keeps_outcome fun safeGetSubId => ?_
  cases safeGetSubId with
  | false => exact rfl
  | true =>
    refine keeps_reqSemTake reqPolicy .readOp fun taken => ?_
    refine keeps_getMongoConnection (noCache_requested taken).noConnection fun c => ?_
    refine keeps_collectionQuery fun ok => ?_
    cases ok with
    | false => exact keeps_queryExit taken c
    | true =>
      refine keeps_outcome fun more => ?_
      cases more with
      | false => exact keeps_queryExit taken c
      | true =>
        refine keeps_outcome fun nextSafe => ?_
        cases nextSafe with
        | false => exact keeps_queryExit taken c
        | true =>
          refine keeps_outcome fun oneMore => ?_
          cases oneMore with
          | false => exact keeps_queryExit taken c
          | true => exact keeps_queryExit taken c

end Subscriptions

/-! ### Updates of entities -/

theorem restores_addTriggeredSubscriptions_withCache :
    Restores discipline NoCache addTriggeredSubscriptions_withCache := by
  intro h hh
  refine keeps_cacheSemTake hh ?_
  refine keeps_amount fun subVec => keeps_bind.2 ?_
  -- with no result the cache semaphore is still in hand, with one it has been given back
  have hloop : Keeps discipline (Prog.timesUntil (do
      let stringFilterSet ← outcome
      if !stringFilterSet then
        cacheSemGive
        return some false
      return none) subVec) (fun left h' => h' = if left = none then h.cached else h) h.cached := by
    refine keeps_timesUntil ?_ ?_ subVec
    · refine keeps_outcome fun stringFilterSet => ?_
      cases stringFilterSet with
      | false => exact keeps_cacheSemGive hh (.inr ⟨nofun, rfl⟩)
      | true => exact .inl ⟨rfl, rfl⟩
    · rfl
  refine hloop.mono ?_
  rintro left h' rfl
  cases left with
  | none => exact keeps_cacheSemGive hh rfl
  | some result => exact rfl

theorem restores_addTriggeredSubscriptions_noCache :
    Restores discipline NoConnection addTriggeredSubscriptions_noCache := by
  intro h hh
  refine keeps_getMongoConnection hh fun c => ?_
  refine keeps_collectionQuery fun ok => ?_
  cases ok with
  | false => exact keeps_releaseMongoConnection hh rfl
  | true =>
    refine keeps_amount fun docs => keeps_bind.2 ?_
    -- with no result the connection is still in hand, with one it has been given back
    refine Keeps.mono (Q := fun left h' => h' = if left = none then h.connected c else h) ?_ ?_
    · refine keeps_timesUntil ?_ ?_ docs
      · refine keeps_outcome fun parse => ?_
        cases parse with
        | false => exact keeps_releaseMongoConnection hh (.inr ⟨nofun, rfl⟩)
        | true =>
          refine keeps_outcome fun stringFilterSet => ?_
          cases stringFilterSet with
          | false => exact keeps_releaseMongoConnection hh (.inr ⟨nofun, rfl⟩)
          | true => exact .inl ⟨rfl, rfl⟩
      · rfl
    · rintro left h' rfl
      cases left with
      | none => exact keeps_releaseMongoConnection hh rfl
      | some result => exact rfl

theorem restores_addTriggeredSubscriptions (noCache : Bool) :
    Restores discipline NoCache (addTriggeredSubscriptions noCache) :=
  (restores_addTriggeredSubscriptions_noCache.imp fun _ => NoCache.noConnection).ite
    restores_addTriggeredSubscriptions_withCache

theorem restores_collectionUpdate : Restores discipline NoCache (do let _ ← collectionUpdate) :=
  (restores_connectionOperation.imp fun _ => NoCache.noConnection).bind fun _ => restores_pure

theorem restores_processSubscriptions (subCacheActive : Bool) :
    Restores discipline NoCache (processSubscriptions subCacheActive) := by
  refine restores_amount.bind fun subs => Restores.times ?_ subs
  refine restores_outcome.bind fun notificationSent => Restores.onlyIf ?_ notificationSent
  refine (restores_collectionUpdate.onlyIf _).bind fun _ => ?_
  refine restores_outcome.bind fun cacheSubId => Restores.onlyIf ?_ cacheSubId
  intro h hh
  exact keeps_cacheSemTake hh (keeps_cacheSemGive (k := pure) hh rfl)

theorem restores_searchContextProviders : Restores discipline NoConnection searchContextProviders := by
  have hquery : Restores discipline NoConnection (do let _ ← registrationsQuery) :=
    restores_documentsQuery.bind fun _ => restores_pure
  refine restores_outcome.bind fun someNotFound => (hquery.onlyIf someNotFound).bind fun _ => ?_
  exact restores_outcome.bind fun someNotFound => hquery.onlyIf someNotFound

theorem restores_processContextAttributeVector (noCache : Bool) :
    Restores discipline NoCache (processContextAttributeVector noCache) := by
  refine restores_outcome.bind fun attributes => restores_pure.ite ?_
  exact (restores_addTriggeredSubscriptions noCache).bind fun added => restores_pure.ite restores_outcome

section Updates

variable (settings : Settings)

theorem restores_updateEntity : Restores discipline NoCache (updateEntity settings) := by
  have hproviders := restores_searchContextProviders.imp fun _ => NoCache.noConnection
  have hoperation := restores_connectionOperation.imp fun _ => NoCache.noConnection
  refine restores_outcome.bind fun delete => Restores.ite (hoperation.bind fun _ => restores_pure) ?_
  refine (restores_processContextAttributeVector settings.noCache).bind fun modified => hproviders.ite ?_
  refine hoperation.bind fun updated => restores_pure.ite ?_
  exact (restores_processSubscriptions settings.subCacheActive).bind fun _ => hproviders

theorem restores_ngsiv2Checks : Restores discipline NoConnection ngsiv2Checks := by
  refine restores_outcome.bind fun apiVersion2 => restores_pure.ite ?_
  exact restores_connectionOperation.bind fun counted => restores_pure.ite restores_outcome

theorem restores_createEntity : Restores discipline NoConnection createEntity :=
  restores_outcome.bind fun _ => restores_pure.ite restores_connectionOperation

theorem restores_processNewEntity : Restores discipline NoCache (processNewEntity settings) := by
  have hproviders := restores_searchContextProviders.imp fun _ => NoCache.noConnection
  refine restores_outcome.bind fun update => hproviders.ite ?_
  refine restores_outcome.bind fun delete => restores_pure.ite ?_
  refine (restores_createEntity.imp fun _ => NoCache.noConnection).bind fun created => restores_pure.ite ?_
  refine (restores_addTriggeredSubscriptions settings.noCache).bind fun added => restores_pure.ite ?_
  exact restores_processSubscriptions settings.subCacheActive

theorem restores_processContextElement : Restores discipline NoCache (processContextElement settings) := by
  refine restores_outcome.bind fun preconditions => restores_pure.ite ?_
  refine (restores_ngsiv2Checks.imp fun _ => NoCache.noConnection).bind fun checked => restores_pure.ite ?_
  intro h hh
  refine keeps_getMongoConnection hh.noConnection fun c => ?_
  refine keeps_collectionQuery fun ok => ?_
  cases ok with
  | false =>
    have hrelease : Keeps discipline (releaseMongoConnection (some c) >>= pure) (fun _ h' => h' = h) (h.connected c) :=
      keeps_releaseMongoConnection hh.noConnection rfl
    exact keeps_bind.1 hrelease
  | true =>
    refine keeps_releaseMongoConnection hh.noConnection ?_
    refine keeps_amount fun results => ?_
    exact (restores_processNewEntity settings).ite ((restores_updateEntity settings).times results) h hh

theorem keeps_mongoUpdateContext :
    Keeps discipline (mongoUpdateContext settings) (fun _ h => h = .nothing) .nothing := by
  refine keeps_reqSemTake settings.reqPolicy .writeOp fun taken => ?_
  have hh := noCache_requested taken
  have helements : Restores discipline NoCache (do
      let contextElementVector ← amount
      Prog.times (processContextElement settings) contextElementVector) :=
    restores_amount.bind fun n => (restores_processContextElement settings).times n
  refine keeps_outcome fun servicePathV => ?_
  refine (helements.onlyIf servicePathV).bind_keeps hh fun _ => ?_
  exact keeps_reqSemGive taken

end Updates

/-! ### Synchronization of the cache -/

theorem restores_mongoSubCacheUpdate : Restores discipline NoConnection mongoSubCacheUpdate := by
  have hupdate : Restores discipline NoConnection (do let _ ← collectionUpdate) :=
    restores_connectionOperation.bind fun _ => restores_pure
  refine restores_outcome.bind fun count => (hupdate.onlyIf count).bind fun _ => ?_
  exact restores_outcome.bind fun lastNotificationTime => hupdate.onlyIf lastNotificationTime

theorem restores_subCacheRefresh (multitenant : Bool) :
    Restores discipline NoConnection (subCacheRefresh multitenant) := by
  have hdatabases : Restores discipline NoConnection getOrionDatabases :=
    restores_connectionOperation.bind fun ok => restores_pure.ite restores_amount
  have hrefresh : Restores discipline NoConnection mongoSubCacheRefresh :=
    restores_documentsQuery.bind fun _ => restores_pure
  cases multitenant with
  | true => exact hdatabases.bind fun databases => hrefresh.times (databases + 1)
  | false => exact hrefresh.times 1

theorem keeps_subCacheSync (multitenant : Bool) :
    Keeps discipline (subCacheSync multitenant) (fun _ h => h = .nothing) .nothing := by
  have hh := noConnection_cached noCache_nothing
  refine keeps_cacheSemTake noCache_nothing ?_
  refine (restores_subCacheRefresh multitenant).bind_keeps hh fun _ => ?_
  refine keeps_amount fun items => ?_
  refine (restores_mongoSubCacheUpdate.times items).bind_keeps hh fun _ => ?_
  exact keeps_cacheSemGive (k := pure) noCache_nothing rfl

/-! ### All operations together -/

/-- Whatever the outcomes, an operation keeps the order of the semaphores and gives back all it has taken. -/
theorem keeps_program (settings : Settings) (op : Operation) :
    Keeps discipline (op.program settings) (fun _ h => h = .nothing) .nothing := by
  cases op with
  | mongoSubscribeContext => exact keeps_mongoSubscribeContext settings.reqPolicy
  | mongoUpdateContextSubscription => exact keeps_mongoUpdateContextSubscription settings.reqPolicy
  | mongoUnsubscribeContext => exact keeps_mongoUnsubscribeContext settings.reqPolicy
  | mongoListSubscriptions => exact keeps_mongoListSubscriptions settings.reqPolicy
  | mongoGetSubscription => exact keeps_mongoGetSubscription settings.reqPolicy
  | mongoUpdateContext => exact keeps_mongoUpdateContext settings
  | subCacheSync => exact keeps_subCacheSync settings.multitenant

/-- A broker that has just started, before the first request. -/
def started (connected : List Bool) : State Answer Broker := ⟨.init connected, []⟩

/-- A run of the broker from its start: any number of operations, by any number of threads, in any order. -/
def runs (settings : Settings) (connected : List Bool) (moves : List (Move Operation)) : Option (State Answer Broker) :=
  StepRun.run (step perform (Operation.program settings)) moves (started connected)

/-- Unfinished operations are not all blocked; if all operations are finished, everything is free. -/
def NotDeadlocked (st : State Answer Broker) : Prop :=
  ((∃ t ∈ st.threads, ¬t.Ended) → ∃ t ∈ st.threads, ¬t.Ended ∧ ∀ s, ¬Blocked st.shared s t) ∧
  ((∀ t ∈ st.threads, t.Ended) →
    st.shared.sem .reqSem = 1 ∧ st.shared.sem .cacheSem = 1 ∧ ∀ slot ∈ st.shared.connectionPool, slot.free = true)

/-- A thread that is neither finished nor blocked can take its turn. -/
theorem exists_turn {st : State Answer Broker} {i : Nat} {t : Thread Unit} (ht : st.threads[i]? = some t)
    (hunfinished : ¬t.Ended) (hfree : ∀ s, ¬Blocked st.shared s t) (settings : Settings) :
    ∃ st', step perform (Operation.program settings) (.turn i 0) st = some st' := by
  cases t with
  | ret value => exact absurd trivial hunfinished
  | act a next =>
    have hperform : ∃ answer, perform a 0 st.shared = some answer := by
      cases a with
      | semWait s =>
        have hvalue : st.shared.sem s ≠ 0 := fun hzero => hfree s ⟨rfl, hzero⟩
        exact ⟨_, if_neg hvalue⟩
      | semPost s => exact ⟨_, rfl⟩
      | takeSlot => exact ⟨_, rfl⟩
      | freeSlot connection => exact ⟨_, rfl⟩
      | outcome => exact ⟨_, rfl⟩
      | amount => exact ⟨_, rfl⟩
    obtain ⟨⟨r, b⟩, hr⟩ := hperform
    refine ⟨⟨b, st.threads.set i (next r)⟩, ?_⟩
    show st.threads[i]?.bind (takeTurn perform i 0 st) = _
    rw [ht, Option.bind_some]
    show (perform a 0 st.shared).map _ = _
    rw [hr]
    rfl

/-- The slots go on to hold what they hold. -/
theorem connection_of_perform {a : Action} {choice : Nat} {b b' : Broker} {r : Answer a}
    (h : perform a choice b = some (r, b')) :
    b'.connectionPool.map (·.connection) = b.connectionPool.map (·.connection) := by
  have htake : ∀ pool, (takeSlot pool).2.map (·.connection) = pool.map (·.connection) := by
    intro pool
    induction pool with
    | nil => rfl
    | cons slot pool ih =>
      unfold takeSlot
      split
      · rfl
      · simp [ih]
  have hfree : ∀ c pool, (freeSlot c pool).2.map (·.connection) = pool.map (·.connection) := by
    intro c pool
    induction pool with
    | nil => rfl
    | cons slot pool ih =>
      unfold freeSlot
      split
      · rfl
      · simp [ih]
  cases a with
  | semWait s =>
    simp only [perform] at h
    split at h
    · cases h
    · cases h
      rfl
  | semPost s =>
    cases h
    rfl
  | takeSlot =>
    cases h
    exact htake _
  | freeSlot connection =>
    cases h
    exact hfree connection _
  | outcome =>
    cases h
    rfl
  | amount =>
    cases h
    rfl

/-- If all slots hold a connection, every slot that is taken in a run does. -/
theorem along_of_connected (settings : Settings) (moves : List (Move Operation)) {st : State Answer Broker}
    (hconnected : ∀ c ∈ st.shared.connectionPool.map (·.connection), c.isSome) :
    StepRun.Along (step perform (Operation.program settings)) (Meets HandsOutConnection) moves st := by
  induction moves generalizing st with
  | nil => trivial
  | cons m moves ih =>
    refine ⟨?_, fun st' hstep => ih ?_⟩
    · cases m with
      | start op => trivial
      | turn i choice =>
        intro a next _ slot _ hslot
        exact hconnected _ (List.mem_map_of_mem (List.mem_of_find?_eq_some hslot))
    · cases m with
      | start op =>
        cases hstep
        exact hconnected
      | turn i choice =>
        obtain ⟨t, -, hturn⟩ := Option.bind_eq_some_iff.1 hstep
        cases t with
        | ret value => cases hturn
        | act a next =>
          obtain ⟨⟨r, b⟩, hr, rfl⟩ := Option.map_eq_some_iff.1 hturn
          show ∀ c ∈ b.connectionPool.map (·.connection), c.isSome
          rw [connection_of_perform hr]
          exact hconnected

end OrionBroker.Locks
