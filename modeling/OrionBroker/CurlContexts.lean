import Mathlib.Algebra.Order.BigOperators.Group.Multiset
import Mathlib.Algebra.Order.Group.Nat
import Mathlib.Data.Multiset.OrderedMonoid
import OrionBroker.Interleaving

/-!
# Persistent connections (`sem.cpp`)

In the notification mode `persistent` there is one curl handle for each ip, in the map `contexts`, and `httpRequestSend`
gets it with the mutex that belongs to it.  The map has a mutex of its own, `contexts_mutex`, which is given back before
the mutex of the handle is locked.  With `semWaitStatistics` it is taken again while the mutex of the handle is locked,
so that the two are nested in one order only.

Each operation on a mutex, the map, a handle or the statistics is a turn of its own.  The operations of curl and of the
mutexes succeed, and so does `malloc`.
-/

namespace OrionBroker.CurlContexts

open Interleaving

/-- A handle and its mutex; both are objects that are made once. -/
structure CurlContext where
  curl : Nat
  pmutex : Nat
  deriving DecidableEq

/-- What the threads share: the map and its mutex, the mutexes that are locked, the number of handles and mutexes made so
far, and the statistics. -/
structure Shared where
  semWaitStatistics : Bool
  contexts_mutex : Bool
  contexts : List (String × CurlContext)
  locked : List Nat
  handles : Nat
  mutexes : Nat
  accCCMutexTime : Nat
  deriving DecidableEq

/-- The next thing a thread does in `httpRequestSend`. -/
inductive Pc
  | idle
  -- `get_curl_context_reuse`
  | lockContexts (key : String)
  | find (key : String)
  | curlInit (key : String)
  | mutexInit (key : String) (curl : Nat)
  | store (key : String) (cc : CurlContext)
  | unlockContexts (key : String) (cc : CurlContext)
  | lockMutex (key : String) (cc : CurlContext)
  | lockStatistics (key : String) (cc : CurlContext)
  | addTime (key : String) (cc : CurlContext)
  | unlockStatistics (key : String) (cc : CurlContext)
  -- `httpRequestSendWithCurl`
  | send (key : String) (cc : CurlContext)
  -- `release_curl_context_reuse`
  | curlReset (key : String) (cc : CurlContext)
  | unlockMutex (key : String) (cc : CurlContext)
  deriving DecidableEq

/-- The ip of a call that begins, and the time that passed while a mutex was waited for. -/
structure Choice where
  ip : String
  diffTime : Nat

/-- One turn of a thread. -/
def turn (choice : Choice) (pc : Pc) (s : Shared) : Option (Pc × Shared) :=
  match pc with
  | .idle => some (.lockContexts choice.ip, s)
  | .lockContexts key => if s.contexts_mutex then none else some (.find key, { s with contexts_mutex := true })
  | .find key =>
    match s.contexts.lookup key with
    | some cc => some (.unlockContexts key cc, s)
    | none => some (.curlInit key, s)
  | .curlInit key => some (.mutexInit key s.handles, { s with handles := s.handles + 1 })
  | .mutexInit key curl => some (.store key { curl := curl, pmutex := s.mutexes }, { s with mutexes := s.mutexes + 1 })
  | .store key cc => some (.unlockContexts key cc, { s with contexts := (key, cc) :: s.contexts })
  | .unlockContexts key cc => some (.lockMutex key cc, { s with contexts_mutex := false })
  | .lockMutex key cc =>
    if cc.pmutex ∈ s.locked then none
    else
      some (if s.semWaitStatistics then .lockStatistics key cc else .send key cc,
        { s with locked := cc.pmutex :: s.locked })
  | .lockStatistics key cc =>
    if s.contexts_mutex then none else some (.addTime key cc, { s with contexts_mutex := true })
  | .addTime key cc =>
    some (.unlockStatistics key cc, { s with accCCMutexTime := s.accCCMutexTime + choice.diffTime })
  | .unlockStatistics key cc => some (.send key cc, { s with contexts_mutex := false })
  | .send key cc => some (.curlReset key cc, s)
  | .curlReset key cc => some (.unlockMutex key cc, s)
  | .unlockMutex _ cc => some (.idle, { s with locked := s.locked.erase cc.pmutex })

/-- No connection has been used yet. -/
def initial (semWaitStatistics : Bool) (threads : Nat) : State Shared Pc where
  shared :=
    { semWaitStatistics := semWaitStatistics
      contexts_mutex := false
      contexts := []
      locked := []
      handles := 0
      mutexes := 0
      accCCMutexTime := 0 }
  threads := List.replicate threads .idle

/-- The call has got the handle and the mutex of an ip. -/
def Has (pc : Pc) (key : String) (cc : CurlContext) : Prop :=
  pc = .unlockContexts key cc ∨ pc = .lockMutex key cc ∨ pc = .lockStatistics key cc ∨ pc = .addTime key cc ∨
    pc = .unlockStatistics key cc ∨ pc = .send key cc ∨ pc = .curlReset key cc ∨ pc = .unlockMutex key cc

/-- The call is using a handle. -/
def Uses (pc : Pc) (curl : Nat) : Prop := ∃ key cc, (pc = .send key cc ∨ pc = .curlReset key cc) ∧ cc.curl = curl

/-! ### What holds between any two turns -/

/-- The thread has `contexts_mutex`. -/
def hasContexts : Pc → Nat
  | .find _ | .curlInit _ | .mutexInit _ _ | .store _ _ | .unlockContexts _ _ => 1
  | .addTime _ _ | .unlockStatistics _ _ => 1
  | _ => 0

/-- The mutex of a handle that the thread has. -/
def hasMutex : Pc → Multiset Nat
  | .lockStatistics _ cc | .addTime _ cc | .unlockStatistics _ cc => {cc.pmutex}
  | .send _ cc | .curlReset _ cc | .unlockMutex _ cc => {cc.pmutex}
  | _ => 0

/-- What a thread has found out about the map, and what it has made for it. -/
def Located (s : Shared) : Pc → Prop
  | .curlInit key => key ∉ s.contexts.map Prod.fst
  | .mutexInit key curl =>
    key ∉ s.contexts.map Prod.fst ∧ curl < s.handles ∧ curl ∉ s.contexts.map fun e => e.2.curl
  | .store key cc =>
    key ∉ s.contexts.map Prod.fst ∧ cc.curl < s.handles ∧ cc.curl ∉ s.contexts.map fun e => e.2.curl
  | .unlockContexts key cc | .lockMutex key cc | .lockStatistics key cc | .addTime key cc => (key, cc) ∈ s.contexts
  | .unlockStatistics key cc | .send key cc | .curlReset key cc | .unlockMutex key cc => (key, cc) ∈ s.contexts
  | .idle | .lockContexts _ | .find _ => True

/-- Each ip and each handle is in the map once, and the handles were made before. -/
structure MapInv (s : Shared) : Prop where
  keys : (s.contexts.map Prod.fst).Nodup
  curls : (s.contexts.map fun e => e.2.curl).Nodup
  handles : ∀ e ∈ s.contexts, e.2.curl < s.handles

/-- The invariant of the connections. -/
structure Inv (s : Shared) (threads : Multiset Pc) : Prop where
  contextsMutex : (threads.map hasContexts).sum = s.contexts_mutex.toNat
  locked : (threads.map hasMutex).sum = s.locked
  nodup : s.locked.Nodup
  map : MapInv s
  located : ∀ pc ∈ threads, Located s pc

section Invariant

variable {s s' : Shared} {pc pc' : Pc} {rest : Multiset Pc}

/-- While a thread has `contexts_mutex`, no other has. -/
theorem Inv.rest_not_hasContexts (h : Inv s (pc ::ₘ rest)) (hpc : hasContexts pc = 1) :
    ∀ u ∈ rest, hasContexts u = 0 := by
  have hsum := h.contextsMutex
  have hmutex := Bool.toNat_le s.contexts_mutex
  exact rest_holds_nothing (l := pc) (by omega)

theorem Inv.mutex_of_hasContexts (h : Inv s (pc ::ₘ rest)) (hpc : hasContexts pc = 1) :
    s.contexts_mutex.toNat = 1 := by
  have hsum := h.contextsMutex
  rw [Multiset.map_cons, Multiset.sum_cons] at hsum
  have hmutex := Bool.toNat_le s.contexts_mutex
  omega

theorem located_congr (hsame : s'.contexts = s.contexts) (hhandles : s'.handles = s.handles) :
    Located s' pc ↔ Located s pc := by
  unfold Located
  rw [hsame, hhandles]

/-- What a thread has found out without `contexts_mutex` remains true when the map grows. -/
theorem located_mono (hpc : hasContexts pc = 0) (hmem : ∀ e ∈ s.contexts, e ∈ s'.contexts) (h : Located s pc) :
    Located s' pc := by
  cases pc with
  | idle | lockContexts key => trivial
  | lockMutex key cc | lockStatistics key cc | send key cc | curlReset key cc | unlockMutex key cc => exact hmem _ h
  | _ => cases hpc

/-- The turn of a thread keeps the invariant if it does so for what the thread itself contributes. -/
theorem Inv.turn (h : Inv s (pc ::ₘ rest))
    (hcontexts : hasContexts pc' + s.contexts_mutex.toNat = hasContexts pc + s'.contexts_mutex.toNat)
    (hlocked : hasMutex pc' + (s.locked : Multiset Nat) = hasMutex pc + (s'.locked : Multiset Nat))
    (hnodup : s'.locked.Nodup) (hmap : MapInv s') (hlocated : Located s' pc')
    (hothers : (s'.contexts = s.contexts ∧ s'.handles = s.handles) ∨
      hasContexts pc = 1 ∧ ∀ e ∈ s.contexts, e ∈ s'.contexts) : Inv s' (pc' ::ₘ rest) := by
  refine ⟨?_, ?_, hnodup, hmap, ?_⟩
  · have hsum := h.contextsMutex
    rw [Multiset.map_cons, Multiset.sum_cons] at hsum ⊢
    omega
  · have hsum := h.locked
    rw [Multiset.map_cons, Multiset.sum_cons] at hsum ⊢
    rw [← hsum] at hlocked
    have hcancel : hasMutex pc + (hasMutex pc' + (rest.map hasMutex).sum) = hasMutex pc + (s'.locked : Multiset Nat) := by
      rw [← hlocked]
      exact add_left_comm _ _ _
    exact add_left_cancel hcancel
  · intro u hu
    obtain rfl | hu := Multiset.mem_cons.1 hu
    · exact hlocated
    · have hu' := h.located u (Multiset.mem_cons_of_mem hu)
      obtain ⟨hsame, hhandles⟩ | ⟨hhas, hmem⟩ := hothers
      · exact (located_congr hsame hhandles).2 hu'
      · exact located_mono (h.rest_not_hasContexts hhas u hu) hmem hu'

/-- A turn that neither locks nor unlocks the mutex of a handle, and leaves the map as it is. -/
theorem Inv.turn_frame (h : Inv s (pc ::ₘ rest)) {contexts_mutex : Bool} {accCCMutexTime : Nat}
    (hcontexts : hasContexts pc' + s.contexts_mutex.toNat = hasContexts pc + contexts_mutex.toNat)
    (hhas : hasMutex pc' = hasMutex pc) (hlocated : Located s pc') :
    Inv { s with contexts_mutex := contexts_mutex, accCCMutexTime := accCCMutexTime } (pc' ::ₘ rest) := by
  refine h.turn hcontexts ?_ h.nodup ⟨h.map.keys, h.map.curls, h.map.handles⟩ ?_ (.inl ⟨rfl, rfl⟩)
  · rw [hhas]
  · cases pc' <;> exact hlocated

theorem lookup_eq_none {l : List (String × CurlContext)} {key : String} (h : l.lookup key = none) :
    key ∉ l.map Prod.fst := by
  intro hmem
  obtain ⟨e, he, rfl⟩ := List.mem_map.1 hmem
  rw [List.lookup_eq_none_iff] at h
  have hne := h e he
  simp at hne

theorem mem_of_lookup {l : List (String × CurlContext)} {key : String} {cc : CurlContext}
    (h : l.lookup key = some cc) : (key, cc) ∈ l := by
  obtain ⟨before, after, rfl, -⟩ := List.lookup_eq_some_iff.1 h
  exact List.mem_append_right _ (List.mem_cons_self)

theorem inv_of_turn {choice : Choice} (h : Inv s (pc ::ₘ rest)) (hturn : CurlContexts.turn choice pc s = some (pc', s')) :
    Inv s' (pc' ::ₘ rest) := by
  have hlocated := h.located pc (Multiset.mem_cons_self pc rest)
  cases pc with
  | idle =>
    cases hturn
    exact h.turn_frame rfl rfl trivial
  | lockContexts key =>
    simp only [CurlContexts.turn] at hturn
    split at hturn
    · cases hturn
    · rename_i hfree
      cases hturn
      exact h.turn_frame (by simp [hasContexts, hfree]) rfl trivial
  | find key =>
    simp only [CurlContexts.turn] at hturn
    split at hturn
    · rename_i cc hcc
      cases hturn
      exact h.turn_frame rfl rfl (mem_of_lookup hcc)
    · rename_i hnone
      cases hturn
      exact h.turn_frame rfl rfl (lookup_eq_none hnone)
  | curlInit key =>
    cases hturn
    have hfresh : s.handles ∉ s.contexts.map fun e => e.2.curl := by
      intro hmem
      obtain ⟨e, he, heq⟩ := List.mem_map.1 hmem
      have hlt := h.map.handles e he
      omega
    refine h.turn rfl rfl h.nodup ⟨h.map.keys, h.map.curls, fun e he => ?_⟩ ⟨hlocated, Nat.lt_succ_self _, hfresh⟩
      (.inr ⟨rfl, fun e he => he⟩)
    exact Nat.lt_succ_of_lt (h.map.handles e he)
  | mutexInit key curl =>
    cases hturn
    exact h.turn rfl rfl h.nodup ⟨h.map.keys, h.map.curls, h.map.handles⟩ hlocated (.inl ⟨rfl, rfl⟩)
  | store key cc =>
    cases hturn
    obtain ⟨hkey, hlt, hcurl⟩ := hlocated
    refine h.turn rfl rfl h.nodup ⟨?_, ?_, ?_⟩ (List.mem_cons_self) (.inr ⟨rfl, fun e he => List.mem_cons_of_mem _ he⟩)
    · exact List.nodup_cons.2 ⟨hkey, h.map.keys⟩
    · exact List.nodup_cons.2 ⟨hcurl, h.map.curls⟩
    · intro e he
      obtain rfl | he := List.mem_cons.1 he
      · exact hlt
      · exact h.map.handles e he
  | unlockContexts key cc =>
    cases hturn
    exact h.turn_frame (congrArg (0 + ·) (h.mutex_of_hasContexts rfl)) rfl hlocated
  | lockMutex key cc =>
    simp only [CurlContexts.turn] at hturn
    split at hturn
    · cases hturn
    · rename_i hfree
      split at hturn
      · cases hturn
        exact h.turn rfl (by simp [hasMutex]) (List.nodup_cons.2 ⟨hfree, h.nodup⟩)
          ⟨h.map.keys, h.map.curls, h.map.handles⟩ hlocated (.inl ⟨rfl, rfl⟩)
      · cases hturn
        exact h.turn rfl (by simp [hasMutex]) (List.nodup_cons.2 ⟨hfree, h.nodup⟩)
          ⟨h.map.keys, h.map.curls, h.map.handles⟩ hlocated (.inl ⟨rfl, rfl⟩)
  | lockStatistics key cc =>
    simp only [CurlContexts.turn] at hturn
    split at hturn
    · cases hturn
    · rename_i hfree
      cases hturn
      exact h.turn_frame (by simp [hasContexts, hfree]) rfl hlocated
  | addTime key cc =>
    cases hturn
    exact h.turn_frame rfl rfl hlocated
  | unlockStatistics key cc =>
    cases hturn
    exact h.turn_frame (congrArg (0 + ·) (h.mutex_of_hasContexts rfl)) rfl hlocated
  | send key cc | curlReset key cc =>
    cases hturn
    exact h.turn_frame rfl rfl hlocated
  | unlockMutex key cc =>
    cases hturn
    have hmem : cc.pmutex ∈ s.locked := by
      have hsum := h.locked
      rw [Multiset.map_cons, Multiset.sum_cons] at hsum
      rw [← Multiset.mem_coe, ← hsum]
      exact Multiset.mem_add.2 (.inl (Multiset.mem_singleton_self _))
    refine h.turn rfl ?_ (h.nodup.erase _) ⟨h.map.keys, h.map.curls, h.map.handles⟩ trivial (.inl ⟨rfl, rfl⟩)
    simp only [hasMutex, zero_add, Multiset.singleton_add, Multiset.cons_coe]
    exact Multiset.coe_eq_coe.2 (List.perm_cons_erase hmem)

theorem inv_initial (semWaitStatistics : Bool) (threads : Nat) :
    Inv (initial semWaitStatistics threads).shared (initial semWaitStatistics threads).threads := by
  have hthreads : ((initial semWaitStatistics threads).threads : Multiset Pc) = Multiset.replicate threads .idle :=
    Multiset.coe_replicate _ _
  rw [hthreads]
  refine ⟨?_, ?_, List.nodup_nil, ⟨List.nodup_nil, List.nodup_nil, nofun⟩, ?_⟩
  · simp [initial, hasContexts]
  · simp [initial, hasMutex]
  · intro pc hpc
    rw [Multiset.eq_of_mem_replicate hpc]
    trivial

/-! ### The connections in any run -/

theorem contexts_of_turn {choice : Choice} (h : CurlContexts.turn choice pc s = some (pc', s')) :
    ∀ e ∈ s.contexts, e ∈ s'.contexts := by
  intro e he
  cases pc <;> simp only [CurlContexts.turn] at h <;> grind

/-- A thread waits for `contexts_mutex`, which it does not have, or for a mutex of a handle. -/
theorem blocked_cases (h : Blocked CurlContexts.turn s pc) :
    (s.contexts_mutex = true ∧ hasContexts pc = 0) ∨ ∃ key cc, pc = .lockMutex key cc ∧ cc.pmutex ∈ s.locked := by
  have hnone := h { ip := "", diffTime := 0 }
  cases pc with
  | lockContexts key | lockStatistics key cc =>
    simp only [CurlContexts.turn] at hnone
    split at hnone
    · rename_i hlocked
      exact .inl ⟨hlocked, rfl⟩
    · cases hnone
  | lockMutex key cc =>
    simp only [CurlContexts.turn] at hnone
    split at hnone
    · rename_i hlocked
      exact .inr ⟨key, cc, rfl, hlocked⟩
    · cases hnone
  | find key =>
    simp only [CurlContexts.turn] at hnone
    split at hnone
    · cases hnone
    · cases hnone
  | _ => cases hnone

/-- If calls are unfinished, one of them is not blocked: whoever has `contexts_mutex`, or else whoever has the mutex that
another one waits for. -/
theorem Inv.exists_unblocked {threads : Multiset Pc} (h : Inv s threads) (hunfinished : ∃ pc ∈ threads, pc ≠ .idle) :
    ∃ pc ∈ threads, pc ≠ .idle ∧ ¬Blocked CurlContexts.turn s pc := by
  by_contra hall
  push Not at hall
  cases hmutex : s.contexts_mutex with
  | true =>
    have hsum := h.contextsMutex
    rw [hmutex] at hsum
    have hne : (threads.map hasContexts).sum ≠ 0 := by
      rw [hsum]
      decide
    obtain ⟨n, hn, hpos⟩ : ∃ n ∈ threads.map hasContexts, n ≠ 0 := by
      by_contra hzero
      push Not at hzero
      exact hne (Multiset.sum_eq_zero hzero)
    obtain ⟨u, hu, rfl⟩ := Multiset.mem_map.1 hn
    have hidle : u ≠ .idle := by
      rintro rfl
      exact hpos rfl
    obtain ⟨-, hzero⟩ | ⟨key, cc, rfl, -⟩ := blocked_cases (hall u hu hidle)
    · exact hpos hzero
    · exact hpos rfl
  | false =>
    obtain ⟨pc, hpc, hidle⟩ := hunfinished
    obtain ⟨htrue, -⟩ | ⟨key, cc, rfl, hlocked⟩ := blocked_cases (hall pc hpc hidle)
    · cases hmutex.symm.trans htrue
    · rw [← Multiset.mem_coe, ← h.locked] at hlocked
      obtain ⟨held, hheld, hmem⟩ := Multiset.mem_join.1 hlocked
      obtain ⟨u, hu, rfl⟩ := Multiset.mem_map.1 hheld
      have hidle : u ≠ .idle := by
        rintro rfl
        exact Multiset.notMem_zero _ hmem
      obtain ⟨htrue, -⟩ | ⟨key', cc', rfl, -⟩ := blocked_cases (hall u hu hidle)
      · cases hmutex.symm.trans htrue
      · exact Multiset.notMem_zero _ hmem

/-- Two calls do not use one handle: it would be in the map with one mutex, and both would have it. -/
theorem Inv.not_both_use {threads : Multiset Pc} (h : Inv s (pc ::ₘ pc' ::ₘ threads)) {curl : Nat} (huse : Uses pc curl) :
    ¬Uses pc' curl := by
  rintro ⟨key', cc', hpc', hcurl'⟩
  obtain ⟨key, cc, hpc, hcurl⟩ := huse
  have hmem : (key, cc) ∈ s.contexts := by
    have hlocated := h.located pc (Multiset.mem_cons_self pc _)
    obtain rfl | rfl := hpc <;> exact hlocated
  have hmem' : (key', cc') ∈ s.contexts := by
    have hlocated := h.located pc' (Multiset.mem_cons_of_mem (Multiset.mem_cons_self pc' _))
    obtain rfl | rfl := hpc' <;> exact hlocated
  have hsame : (key, cc) = (key', cc') :=
    List.inj_on_of_nodup_map h.map.curls hmem hmem' (hcurl.trans hcurl'.symm)
  obtain ⟨-, hcc⟩ := Prod.mk.inj hsame
  have hhas : hasMutex pc = {cc.pmutex} := by obtain rfl | rfl := hpc <;> rfl
  have hhas' : hasMutex pc' = {cc.pmutex} := by
    rw [hcc]
    obtain rfl | rfl := hpc' <;> rfl
  have hlocked := h.locked
  rw [Multiset.map_cons, Multiset.sum_cons, Multiset.map_cons, Multiset.sum_cons, hhas, hhas'] at hlocked
  have hnodup := Multiset.coe_nodup.2 h.nodup
  rw [← hlocked, Multiset.singleton_add, Multiset.singleton_add, Multiset.nodup_cons] at hnodup
  exact hnodup.1 (Multiset.mem_cons_self _ _)

theorem mem_of_has {threads : Multiset Pc} (h : Inv s threads) (hpc : pc ∈ threads) {key : String} {cc : CurlContext}
    (hhas : Has pc key cc) : (key, cc) ∈ s.contexts := by
  have hlocated := h.located pc hpc
  obtain rfl | rfl | rfl | rfl | rfl | rfl | rfl | rfl := hhas <;> exact hlocated

end Invariant

/-- Each ip has one handle and one mutex at most, and keeps them; a call has those of its ip; two calls do not use one
handle at the same time; and not all unfinished calls are blocked. -/
theorem connections_persistent {semWaitStatistics : Bool} {threads : Nat} {moves moves' : List (Move Choice)}
    {st st' : State Shared Pc}
    (h : StepRun.run (step turn alone) moves (initial semWaitStatistics threads) = some st)
    (h' : StepRun.run (step turn alone) moves' st = some st') :
    (st.shared.contexts.map Prod.fst).Nodup ∧ (∀ e ∈ st.shared.contexts, e ∈ st'.shared.contexts) ∧
      (∀ pc ∈ st.threads, ∀ key cc, Has pc key cc → (key, cc) ∈ st.shared.contexts) ∧
      (∀ (i j : Nat) pc pc' curl, i ≠ j → st.threads[i]? = some pc → st.threads[j]? = some pc' → Uses pc curl →
        ¬Uses pc' curl) ∧
      ((∃ pc ∈ st.threads, pc ≠ .idle) → ∃ pc ∈ st.threads, pc ≠ .idle ∧ ¬Blocked turn st.shared pc) := by
  have hinv : Inv st.shared st.threads :=
    invariant_of_run (fun _ hI hturn => inv_of_turn hI hturn) (fun _ hmeet => absurd hmeet not_meet_alone) meets_true
      (inv_initial semWaitStatistics threads) h
  refine ⟨hinv.map.keys, ?_, fun pc hpc key cc => mem_of_has hinv hpc, ?_, ?_⟩
  · exact invariant_of_run (I := fun s _ => ∀ e ∈ st.shared.contexts, e ∈ s.contexts)
      (fun _ hI hturn e he => contexts_of_turn hturn e (hI e he)) (fun _ hmeet => absurd hmeet not_meet_alone) meets_true
      (fun e he => he) h'
  · intro i j pc pc' curl hij hpc hpc' huse
    obtain ⟨rest, hthreads, -⟩ := coe_set_set hij hpc hpc'
    rw [hthreads] at hinv
    exact hinv.not_both_use huse
  · exact hinv.exists_unblocked

/-- Two calls for one ip: the first makes the handle and is using it, the second waits for its mutex. -/
def sameIp : List (Move Choice) :=
  let choice : Choice := { ip := "10.0.0.1", diffTime := 3 }
  List.replicate 11 (.turn 0 choice) ++ List.replicate 4 (.turn 1 choice)

def afterSameIp : State Shared Pc where
  shared :=
    { semWaitStatistics := true
      contexts_mutex := false
      contexts := [("10.0.0.1", { curl := 0, pmutex := 0 })]
      locked := [0]
      handles := 1
      mutexes := 1
      accCCMutexTime := 3 }
  threads := [.send "10.0.0.1" { curl := 0, pmutex := 0 }, .lockMutex "10.0.0.1" { curl := 0, pmutex := 0 }]

theorem connections_persistent_sameIp :
    StepRun.run (step turn alone) sameIp (initial true 2) = some afterSameIp ∧
      (afterSameIp.shared.contexts.map Prod.fst).Nodup ∧
      ∃ pc ∈ afterSameIp.threads, pc ≠ .idle ∧ ¬Blocked turn afterSameIp.shared pc := by
  have hrun : StepRun.run (step turn alone) sameIp (initial true 2) = some afterSameIp := by decide +kernel
  obtain ⟨hkeys, -, -, -, hunblocked⟩ := @connections_persistent true 2 sameIp [] afterSameIp afterSameIp hrun rfl
  exact ⟨hrun, hkeys, hunblocked (by decide)⟩

end OrionBroker.CurlContexts
