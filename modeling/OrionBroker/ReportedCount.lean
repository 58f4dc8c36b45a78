import Mathlib.Algebra.Order.BigOperators.Group.Multiset
import Mathlib.Algebra.Order.Group.Nat
import OrionBroker.Interleaving

/-!
# The reported number of notifications

`mongoGetSubscription` adds the count of the document, which it reads first, and the count of the cache, which it looks up
afterwards without the cache semaphore (`setNotification`).  Meanwhile updates are notified and counted in the cache
(`processSubscriptions`), and `subCacheSync` moves the count of the cache into the document: it saves the count, destroys
the cache, loads it anew and adds what was saved to the document.

This is about a single subscription of type `ONCHANGE` that is stored and cached, and the database does not fail.
-/

namespace OrionBroker.ReportedCount

open Interleaving

/-- What a call of `mongoGetSubscription` has reported, with the number of notifications sent before it began and after it
ended, and the number of calls that had ended before it began. -/
structure Report where
  sentBefore : Nat
  reported : Nat
  sentAfter : Nat
  earlier : Nat
  deriving DecidableEq

/-- What the threads share: the count of the document and of the cached subscription, if there are any, and the cache
semaphore.  The last fields record the notifications that were sent, those that were counted, and the reports. -/
structure Shared where
  csubCount : Option Nat
  cacheCount : Option Nat
  cacheSem : Nat
  sent : Nat
  counted : Nat
  log : List Report
  deriving DecidableEq

/-- The next thing a thread does. -/
inductive Pc
  | idle
  -- an update
  | updateTake (matched : Bool)
  | updateTrigger (matched : Bool)
  | updateGive (triggered : Bool)
  | send
  | countTake
  | count
  | countGive
  -- `subCacheSync`
  | syncTake
  | save
  | destroy (saved : Option Nat)
  | load (saved : Option Nat)
  | flush (saved : Option Nat)
  | syncGive
  -- `mongoGetSubscription`
  | read (sentBefore earlier : Nat)
  | lookup (sentBefore earlier : Nat) (csubCount : Option Nat)
  deriving DecidableEq

/-- What a thread calls when it has no call in progress; an update matches the subscription or not. -/
inductive Call
  | update (matched : Bool)
  | sync
  | get

/-- `timesSent` of `setNotification`, from the document and the cached subscription. -/
def timesSent (csubCount cacheCount : Option Nat) : Int :=
  let stored : Int := match csubCount with
    | some count => count
    | none => -1
  match cacheCount with
  | some count => if count ≠ 0 then (if stored = -1 then 0 else stored) + count else stored
  | none => stored

/-- What `mongoSubCacheUpdate` makes of the count of the document. -/
def flushCount (csubCount : Option Nat) (count : Nat) : Option Nat :=
  if count ≠ 0 then some (csubCount.getD 0 + count) else csubCount

/-- One turn of a thread. -/
def turn (call : Call) (pc : Pc) (s : Shared) : Option (Pc × Shared) :=
  match pc with
  | .idle =>
    match call with
    | .update matched => some (.updateTake matched, s)
    | .sync => some (.syncTake, s)
    | .get => some (.read s.sent s.log.length, s)
  | .updateTake matched =>
    if 0 < s.cacheSem then some (.updateTrigger matched, { s with cacheSem := s.cacheSem - 1 }) else none
  | .updateTrigger matched => some (.updateGive (matched && s.cacheCount.isSome), s)
  | .updateGive triggered => some (if triggered then .send else .idle, { s with cacheSem := s.cacheSem + 1 })
  | .send => some (.countTake, { s with sent := s.sent + 1 })
  | .countTake => if 0 < s.cacheSem then some (.count, { s with cacheSem := s.cacheSem - 1 }) else none
  | .count =>
    match s.cacheCount with
    | some count => some (.countGive, { s with cacheCount := some (count + 1), counted := s.counted + 1 })
    | none => some (.countGive, s)
  | .countGive => some (.idle, { s with cacheSem := s.cacheSem + 1 })
  | .syncTake => if 0 < s.cacheSem then some (.save, { s with cacheSem := s.cacheSem - 1 }) else none
  | .save => some (.destroy s.cacheCount, s)
  | .destroy saved => some (.load saved, { s with cacheCount := none })
  | .load saved => some (.flush saved, { s with cacheCount := some 0 })
  -- nothing is flushed for a subscription that was not cached before
  | .flush saved =>
    some (.syncGive, { s with csubCount := match saved with
                                | some count => flushCount s.csubCount count
                                | none => s.csubCount })
  | .syncGive => some (.idle, { s with cacheSem := s.cacheSem + 1 })
  | .read sentBefore earlier => some (.lookup sentBefore earlier s.csubCount, s)
  -- a response shows `timesSent` only if it is positive
  | .lookup sentBefore earlier csubCount =>
    some (.idle, { s with log := s.log ++
      [{ sentBefore := sentBefore
         reported := (timesSent csubCount s.cacheCount).toNat
         sentAfter := s.sent
         earlier := earlier }] })

/-- The counts of the document and of the cache are the number of notifications sent. -/
def initial (csubCount : Option Nat) (cacheCount threads : Nat) : State Shared Pc where
  shared :=
    { csubCount := csubCount
      cacheCount := some cacheCount
      cacheSem := 1
      sent := csubCount.getD 0 + cacheCount
      counted := csubCount.getD 0 + cacheCount
      log := [] }
  threads := List.replicate threads .idle

/-- The conditions on a lookup: the document has the count that was read; the document and the cache have all that was
counted, so that no synchronization is between the destruction of the cache and the flush; and all notifications sent
before the call began are counted. -/
def Settled (_ : Call) (pc : Pc) (s : Shared) : Prop :=
  match pc with
  | .lookup sentBefore _ csubCount =>
    s.csubCount = csubCount ∧ s.csubCount.getD 0 + s.cacheCount.getD 0 = s.counted ∧ sentBefore ≤ s.counted
  | _ => True

instance (call : Call) (pc : Pc) (s : Shared) : Decidable (Settled call pc s) := by
  unfold Settled
  split <;> infer_instance

theorem reported_eq (csubCount cacheCount : Option Nat) :
    (timesSent csubCount cacheCount).toNat = csubCount.getD 0 + cacheCount.getD 0 := by
  unfold timesSent
  cases csubCount <;> cases cacheCount <;> simp <;> omega

theorem flushCount_eq (csubCount : Option Nat) (count : Nat) :
    (flushCount csubCount count).getD 0 = csubCount.getD 0 + count := by
  unfold flushCount
  split
  · rfl
  · simp_all

/-! ### What holds between any two turns -/

/-- The thread has the cache semaphore. -/
def hasSem : Pc → Nat
  | .updateTrigger _ | .updateGive _ | .count | .countGive => 1
  | .save | .destroy _ | .load _ | .flush _ | .syncGive => 1
  | _ => 0

/-- The cache is destroyed and not yet loaded again. -/
def loading : Pc → Nat
  | .load _ => 1
  | _ => 0

/-- What is no longer in the cache and not yet in the document. -/
def unflushed : Pc → Nat
  | .load saved | .flush saved => saved.getD 0
  | _ => 0

/-- A notification that is sent and not yet counted. -/
def inFlight : Pc → Nat
  | .countTake | .count => 1
  | _ => 0

/-- What holds of a call since it has begun. -/
structure Begun (s : Shared) (sentBefore earlier : Nat) : Prop where
  sentBefore_le : sentBefore ≤ s.sent
  earlier_le : earlier ≤ s.log.length
  sentAfter_le : ∀ r ∈ s.log.take earlier, r.sentAfter ≤ sentBefore

/-- What a thread has found out. -/
def Located (s : Shared) : Pc → Prop
  | .destroy saved => saved = s.cacheCount
  | .read sentBefore earlier => Begun s sentBefore earlier
  | .lookup sentBefore earlier csubCount => Begun s sentBefore earlier ∧ csubCount.getD 0 ≤ s.csubCount.getD 0
  | _ => True

/-- A report is not too large, and comes after the earlier ones. -/
structure Reported (s : Shared) (r : Report) : Prop where
  reported_le : r.reported ≤ r.sentAfter
  sentAfter_le : r.sentAfter ≤ s.sent
  begun : Begun s r.sentBefore r.earlier

/-- The invariant of the counts. -/
structure Inv (s : Shared) (threads : Multiset Pc) : Prop where
  exclusion : s.cacheSem + (threads.map hasSem).sum = 1
  present : s.cacheCount.isSome.toNat + (threads.map loading).sum = 1
  counted : s.csubCount.getD 0 + s.cacheCount.getD 0 + (threads.map unflushed).sum = s.counted
  sent : s.counted + (threads.map inFlight).sum = s.sent
  located : ∀ pc ∈ threads, Located s pc
  log : ∀ r ∈ s.log, Reported s r

section Invariant

variable {s s' : Shared} {pc pc' : Pc} {rest : Multiset Pc}

theorem Begun.mono {sentBefore earlier : Nat} (h : Begun s sentBefore earlier) (hsent : s.sent ≤ s'.sent)
    {new : List Report} (hlog : s'.log = s.log ++ new) : Begun s' sentBefore earlier := by
  have hle := h.earlier_le
  refine ⟨h.sentBefore_le.trans hsent, ?_, ?_⟩
  · rw [hlog, List.length_append]
    omega
  · rw [hlog, List.take_append_of_le_length hle]
    exact h.sentAfter_le

theorem Reported.mono {r : Report} (h : Reported s r) (hsent : s.sent ≤ s'.sent) {new : List Report}
    (hlog : s'.log = s.log ++ new) : Reported s' r :=
  ⟨h.reported_le, h.sentAfter_le.trans hsent, h.begun.mono hsent hlog⟩

/-- While a thread has the semaphore, no other has. -/
theorem Inv.rest_not_hasSem (h : Inv s (pc ::ₘ rest)) (hpc : hasSem pc = 1) : ∀ u ∈ rest, hasSem u = 0 := by
  have hsum := h.exclusion
  exact rest_holds_nothing (l := pc) (by omega)

/-- The turn of a thread keeps the invariant if it does so for what the thread itself contributes. -/
theorem Inv.turn (h : Inv s (pc ::ₘ rest)) (hsem : s'.cacheSem + hasSem pc' = s.cacheSem + hasSem pc)
    (hpresent : s'.cacheCount.isSome.toNat + loading pc' = s.cacheCount.isSome.toNat + loading pc)
    (hcounted : s'.csubCount.getD 0 + s'.cacheCount.getD 0 + unflushed pc' + s.counted =
      s.csubCount.getD 0 + s.cacheCount.getD 0 + unflushed pc + s'.counted)
    (hsent : s'.counted + inFlight pc' + s.sent = s.counted + inFlight pc + s'.sent)
    (hcsub : s.csubCount.getD 0 ≤ s'.csubCount.getD 0) (hmono : s.sent ≤ s'.sent) (hlocated : Located s' pc')
    (hothers : s'.cacheCount = s.cacheCount ∨ hasSem pc = 1) {new : List Report} (hlog : s'.log = s.log ++ new)
    (hnew : ∀ r ∈ new, Reported s' r) : Inv s' (pc' ::ₘ rest) := by
  refine ⟨?_, ?_, ?_, ?_, ?_, ?_⟩
  · have hsum := h.exclusion
    rw [Multiset.map_cons, Multiset.sum_cons] at hsum ⊢
    omega
  · have hsum := h.present
    rw [Multiset.map_cons, Multiset.sum_cons] at hsum ⊢
    omega
  · have hsum := h.counted
    rw [Multiset.map_cons, Multiset.sum_cons] at hsum ⊢
    omega
  · have hsum := h.sent
    rw [Multiset.map_cons, Multiset.sum_cons] at hsum ⊢
    omega
  · intro u hu
    obtain rfl | hu := Multiset.mem_cons.1 hu
    · exact hlocated
    · have hu' := h.located u (Multiset.mem_cons_of_mem hu)
      cases u with
      | destroy saved =>
        obtain hcache | hhas := hothers
        · exact hu'.trans hcache.symm
        · cases h.rest_not_hasSem hhas _ hu
      | read sentBefore earlier => exact Begun.mono hu' hmono hlog
      | lookup sentBefore earlier csubCount => exact ⟨hu'.1.mono hmono hlog, hu'.2.trans hcsub⟩
      | _ => trivial
  · rw [hlog]
    intro r hr
    obtain hr | hr := List.mem_append.1 hr
    · exact (h.log r hr).mono hmono hlog
    · exact hnew r hr

/-- A turn that does not change the counts. -/
theorem Inv.turn_frame (h : Inv s (pc ::ₘ rest)) {cacheSem : Nat} (hsem : cacheSem + hasSem pc' = s.cacheSem + hasSem pc)
    (hloading : loading pc' = loading pc) (hunflushed : unflushed pc' = unflushed pc)
    (hinFlight : inFlight pc' = inFlight pc) (hlocated : Located s pc') :
    Inv { s with cacheSem := cacheSem } (pc' ::ₘ rest) := by
  have hlog : s.log = s.log ++ [] := (List.append_nil _).symm
  refine h.turn hsem ?_ ?_ ?_ le_rfl le_rfl ?_ (.inl rfl) hlog nofun
  · rw [hloading]
  · rw [hunflushed]
  · rw [hinFlight]
  · cases pc' with
    | read sentBefore earlier => exact Begun.mono hlocated le_rfl hlog
    | lookup sentBefore earlier csubCount => exact ⟨hlocated.1.mono le_rfl hlog, hlocated.2⟩
    | _ => exact hlocated

/-- A thread that counts a notification finds the cached subscription. -/
theorem Inv.isSome_of_hasSem (h : Inv s (pc ::ₘ rest)) (hpc : hasSem pc = 1) (hloading : loading pc = 0) :
    s.cacheCount.isSome = true := by
  have hpresent := h.present
  have hzero : (rest.map loading).sum = 0 := by
    refine Multiset.sum_eq_zero fun n hn => ?_
    obtain ⟨u, hu, rfl⟩ := Multiset.mem_map.1 hn
    have hno := h.rest_not_hasSem hpc u hu
    cases u with
    | load saved => cases hno
    | _ => rfl
  rw [Multiset.map_cons, Multiset.sum_cons, hzero, hloading] at hpresent
  cases hsome : s.cacheCount.isSome with
  | true => rfl
  | false =>
    rw [hsome] at hpresent
    cases hpresent

theorem Inv.getD_le_counted {threads : Multiset Pc} (h : Inv s threads) :
    s.csubCount.getD 0 + s.cacheCount.getD 0 ≤ s.sent := by
  have hcounted := h.counted
  have hsent := h.sent
  omega

theorem inv_of_turn {call : Call} (h : Inv s (pc ::ₘ rest)) (hturn : ReportedCount.turn call pc s = some (pc', s')) :
    Inv s' (pc' ::ₘ rest) := by
  have hlocated := h.located pc (Multiset.mem_cons_self pc rest)
  have hlog : s.log = s.log ++ [] := (List.append_nil _).symm
  cases pc with
  | idle =>
    cases call with
    | update matched | sync =>
      cases hturn
      exact h.turn_frame rfl rfl rfl rfl trivial
    | get =>
      cases hturn
      refine h.turn_frame rfl rfl rfl rfl ⟨le_rfl, le_rfl, fun r hr => ?_⟩
      exact (h.log r (List.mem_of_mem_take hr)).sentAfter_le
  | updateTake matched | countTake | syncTake =>
    simp only [ReportedCount.turn] at hturn
    split at hturn
    · cases hturn
      exact h.turn_frame (by simp only [hasSem]; omega) rfl rfl rfl trivial
    · cases hturn
  | updateTrigger matched =>
    cases hturn
    exact h.turn_frame rfl rfl rfl rfl trivial
  | updateGive triggered =>
    cases hturn
    cases triggered with
    | false | true => exact h.turn_frame rfl rfl rfl rfl trivial
  | send =>
    cases hturn
    exact h.turn rfl rfl rfl (by simp only [inFlight]; omega) le_rfl (Nat.le_succ _) trivial (.inl rfl) hlog nofun
  | count =>
    have hsome := h.isSome_of_hasSem rfl rfl
    obtain ⟨count, hcount⟩ := Option.isSome_iff_exists.1 hsome
    simp only [ReportedCount.turn, hcount] at hturn
    cases hturn
    refine h.turn rfl ?_ ?_ ?_ le_rfl le_rfl trivial (.inr rfl) hlog nofun
    · rw [hcount]
      rfl
    · rw [hcount]
      simp only [Option.getD_some, unflushed]
      omega
    · rfl
  | countGive | syncGive =>
    cases hturn
    exact h.turn_frame rfl rfl rfl rfl trivial
  | save =>
    cases hturn
    exact h.turn_frame rfl rfl rfl rfl rfl
  | destroy saved =>
    have hsome := h.isSome_of_hasSem rfl rfl
    cases hturn
    refine h.turn rfl ?_ ?_ rfl le_rfl le_rfl trivial (.inr rfl) hlog nofun
    · rw [hsome]
      rfl
    · have hsaved : saved = s.cacheCount := hlocated
      simp only [hsaved, unflushed, Option.getD_none]
      omega
  | load saved =>
    have hnone : s.cacheCount.isSome = false := by
      have hpresent := h.present
      rw [Multiset.map_cons, Multiset.sum_cons] at hpresent
      simp only [loading] at hpresent
      cases hsome : s.cacheCount.isSome with
      | false => rfl
      | true =>
        rw [hsome] at hpresent
        simp only [Bool.toNat_true] at hpresent
        omega
    have hcache : s.cacheCount = none := Option.isNone_iff_eq_none.1 (by simpa using hnone)
    cases hturn
    refine h.turn rfl ?_ ?_ rfl le_rfl le_rfl trivial (.inr rfl) hlog nofun
    · rw [hcache]
      rfl
    · rw [hcache]
      rfl
  | flush saved =>
    cases hturn
    cases saved with
    | none => exact h.turn rfl rfl rfl rfl le_rfl le_rfl trivial (.inl rfl) hlog nofun
    | some count =>
      refine h.turn rfl rfl ?_ rfl ?_ le_rfl trivial (.inl rfl) hlog nofun
      · simp only [flushCount_eq, unflushed, Option.getD_some]
        omega
      · simp only [flushCount_eq]
        omega
  | read sentBefore earlier =>
    cases hturn
    exact h.turn_frame rfl rfl rfl rfl ⟨hlocated, le_rfl⟩
  | lookup sentBefore earlier csubCount =>
    cases hturn
    obtain ⟨hbegun, hle⟩ := hlocated
    refine h.turn rfl rfl rfl rfl le_rfl le_rfl trivial (.inl rfl) rfl fun r hr => ?_
    obtain rfl := List.mem_singleton.1 hr
    have hcounted := h.getD_le_counted
    refine ⟨?_, le_rfl, hbegun.mono le_rfl rfl⟩
    simp only [reported_eq]
    omega

/-- A settled lookup reports all notifications sent before the call began. -/
theorem reports_of_turn {call : Call} (hsettled : Settled call pc s) (h : ∀ r ∈ s.log, r.sentBefore ≤ r.reported)
    (hturn : ReportedCount.turn call pc s = some (pc', s')) : ∀ r ∈ s'.log, r.sentBefore ≤ r.reported := by
  cases pc with
  | lookup sentBefore earlier csubCount =>
    cases hturn
    obtain ⟨hread, hcounted, hle⟩ := hsettled
    intro r hr
    obtain hr | hr := List.mem_append.1 hr
    · exact h r hr
    · obtain rfl := List.mem_singleton.1 hr
      simp only [reported_eq, ← hread]
      omega
  | _ =>
    have hlog : s'.log = s.log := by
      simp only [ReportedCount.turn] at hturn
      grind
    rw [hlog]
    exact h

theorem inv_initial (csubCount : Option Nat) (cacheCount threads : Nat) :
    Inv (initial csubCount cacheCount threads).shared (initial csubCount cacheCount threads).threads := by
  have hthreads : ((initial csubCount cacheCount threads).threads : Multiset Pc) = Multiset.replicate threads .idle :=
    Multiset.coe_replicate _ _
  rw [hthreads]
  refine ⟨?_, ?_, ?_, ?_, ?_, nofun⟩
  · simp [initial, hasSem]
  · simp [initial, loading]
  · simp [initial, unflushed]
  · simp [initial, inFlight]
  · intro pc hpc
    rw [Multiset.eq_of_mem_replicate hpc]
    trivial

end Invariant

/-! ### The reports of any run -/

/-- A report is never above the number of notifications sent.  If all lookups of the run are settled, then each report is
between the numbers of notifications sent before and after the call, and it is not below the report of a call that ended
before. -/
theorem reports_between {csubCount : Option Nat} {cacheCount threads : Nat} {moves : List (Move Call)}
    {st : State Shared Pc}
    (h : StepRun.run (step turn alone) moves (initial csubCount cacheCount threads) = some st) :
    (∀ r ∈ st.shared.log, r.reported ≤ r.sentAfter) ∧
      (StepRun.Along (step turn alone) (Meets Settled) moves (initial csubCount cacheCount threads) →
        ∀ r ∈ st.shared.log, r.sentBefore ≤ r.reported ∧ r.reported ≤ r.sentAfter ∧
          ∀ r' ∈ st.shared.log.take r.earlier, r'.reported ≤ r.reported) := by
  have hinv : Inv st.shared st.threads :=
    invariant_of_run (fun _ hI hturn => inv_of_turn hI hturn) (fun _ hmeet => absurd hmeet not_meet_alone) meets_true
      (inv_initial csubCount cacheCount threads) h
  refine ⟨fun r hr => (hinv.log r hr).reported_le, fun hsettled r hr => ?_⟩
  have hreports : ∀ r ∈ st.shared.log, r.sentBefore ≤ r.reported :=
    invariant_of_run (I := fun s _ => ∀ r ∈ s.log, r.sentBefore ≤ r.reported)
      (fun hcond hI hturn => reports_of_turn hcond hI hturn) (fun _ hmeet => absurd hmeet not_meet_alone) hsettled nofun h
  refine ⟨hreports r hr, (hinv.log r hr).reported_le, fun r' hr' => ?_⟩
  have hle := (hinv.log r' (List.mem_of_mem_take hr')).reported_le
  have hbefore := (hinv.log r hr).begun.sentAfter_le r' hr'
  exact (hle.trans hbefore).trans (hreports r hr)

/-- A notification, a synchronization, and then a call. -/
def settledCall : List (Move Call) :=
  List.replicate 8 (.turn 1 (.update true)) ++ List.replicate 7 (.turn 1 .sync) ++ List.replicate 3 (.turn 0 .get)

def afterSettledCall : State Shared Pc where
  shared :=
    { csubCount := some 6
      cacheCount := some 0
      cacheSem := 1
      sent := 6
      counted := 6
      log := [{ sentBefore := 6, reported := 6, sentAfter := 6, earlier := 0 }] }
  threads := [.idle, .idle]

theorem reports_between_settledCall :
    StepRun.run (step turn alone) settledCall (initial (some 2) 3 2) = some afterSettledCall ∧
      ∀ r ∈ afterSettledCall.shared.log, r.sentBefore ≤ r.reported ∧ r.reported ≤ r.sentAfter := by
  have hrun : StepRun.run (step turn alone) settledCall (initial (some 2) 3 2) = some afterSettledCall := by
    decide +kernel
  have hsettled : StepRun.Along (step turn alone) (Meets Settled) settledCall (initial (some 2) 3 2) := by
    decide +kernel
  obtain ⟨-, hreports⟩ := reports_between hrun
  exact ⟨hrun, fun r hr => ⟨(hreports hsettled r hr).1, (hreports hsettled r hr).2.1⟩⟩

/-- A synchronization between the read of the document and the lookup in the cache: the notifications it has moved are in
neither, and the report is below that of the call before. -/
theorem synchronized_count_unreported :
    ∃ moves st, StepRun.run (step turn alone) moves (initial (some 2) 3 2) = some st ∧
      (∃ r ∈ st.shared.log, r.reported < r.sentBefore) ∧
      ∃ r ∈ st.shared.log, ∃ r' ∈ st.shared.log.take r.earlier, r.reported < r'.reported :=
  ⟨List.replicate 5 (.turn 0 .get) ++ List.replicate 7 (.turn 1 .sync) ++ [.turn 0 .get],
    { shared :=
        { csubCount := some 5
          cacheCount := some 0
          cacheSem := 1
          sent := 5
          counted := 5
          log :=
            [{ sentBefore := 5, reported := 5, sentAfter := 5, earlier := 0 },
              { sentBefore := 5, reported := 2, sentAfter := 5, earlier := 1 }] }
      threads := [.idle, .idle] },
    by decide +kernel, by decide, by decide⟩

end OrionBroker.ReportedCount
