import Mathlib.Algebra.Order.BigOperators.Group.Multiset
import Mathlib.Algebra.Order.Group.Nat
import OrionBroker.Interleaving

/-!
# The queue of the notifications

`SyncQOverflow.h`, with the threads that push (`QueueNotifier::sendNotifyContextRequest`), the threads that pop
(`workerFunc` of `QueueWorkers.cpp`) and the counters of `QueueStatistics.cpp`.  Each operation on the mutex, the
condition variable, the queue and the counters is a turn of its own; the counters are updated outside the mutex.

A thread that has pushed an element signals after it has left the mutex, and wakes one worker.  That no wake-up is lost
is part of the invariant (`Inv.pending`): as long as the queue has an element, a worker is awake or a signal is still to
come.
-/

namespace OrionBroker.Queue

open Interleaving

variable {α : Type}

/-- What the threads share: the queue with its mutex, the number of threads that wait for `addedElement`, and the
counters.  The last three fields record what has happened: the elements accepted and popped so far, in their order, and
how often it was tried to push one. -/
structure Shared (α : Type) where
  queue : List α
  max_size : Nat
  mtx : Bool
  waiting : Nat
  noOfNotificationsQueueIn : BitVec 32
  noOfNotificationsQueueOut : BitVec 32
  noOfNotificationsQueueReject : BitVec 32
  accepted : List α
  popped : List α
  attempts : Nat
  deriving DecidableEq

/-- The next thing a thread does: up to `incReject` one that sends notifications, from `popLock` on a worker. -/
inductive Thread (α : Type)
  | idle
  -- `try_push`
  | pushLock (element : α)
  | pushTest (element : α)
  | push (element : α)
  | pushUnlock
  | notify
  | pushFull
  -- the statistics of `sendNotifyContextRequest`
  | incIn
  | incReject
  -- `pop`
  | popLock
  | popTest
  | wait
  | waiting
  | woken
  | front
  | pop (element : α)
  | popUnlock (element : α)
  -- the rest of the loop of `workerFunc`
  | incOut (element : α)
  | sizeLock (element : α)
  | sizeUnlock (element : α)
  | send (element : α)
  deriving DecidableEq

/-- One turn of a thread; an idle thread calls `sendNotifyContextRequest` with some element.  The mutex can be locked
only if no thread has it.  `notify_one` is a turn of the thread alone only if no worker waits. -/
def turn (element : α) (t : Thread α) (s : Shared α) : Option (Thread α × Shared α) :=
  match t with
  | .idle => some (.pushLock element, s)
  | .pushLock e => if s.mtx then none else some (.pushTest e, { s with mtx := true })
  | .pushTest e =>
    some (if s.queue.length < s.max_size then .push e else .pushFull, { s with attempts := s.attempts + 1 })
  | .push e => some (.pushUnlock, { s with queue := s.queue ++ [e], accepted := s.accepted ++ [e] })
  | .pushUnlock => some (.notify, { s with mtx := false })
  | .notify => if s.waiting = 0 then some (.incIn, s) else none
  | .pushFull => some (.incReject, { s with mtx := false })
  | .incIn => some (.idle, { s with noOfNotificationsQueueIn := s.noOfNotificationsQueueIn + 1 })
  | .incReject => some (.idle, { s with noOfNotificationsQueueReject := s.noOfNotificationsQueueReject + 1 })
  | .popLock => if s.mtx then none else some (.popTest, { s with mtx := true })
  | .popTest => some (if s.queue.isEmpty then .wait else .front, s)
  -- the mutex is unlocked and the thread blocked at once
  | .wait => some (.waiting, { s with mtx := false, waiting := s.waiting + 1 })
  -- a spurious wake-up
  | .waiting => some (.woken, { s with waiting := s.waiting - 1 })
  | .woken => if s.mtx then none else some (.popTest, { s with mtx := true })
  | .front => s.queue.head?.map fun e => (.pop e, s)
  | .pop e => some (.popUnlock e, { s with queue := s.queue.tail, popped := s.popped ++ [e] })
  | .popUnlock e => some (.incOut e, { s with mtx := false })
  | .incOut e => some (.sizeLock e, { s with noOfNotificationsQueueOut := s.noOfNotificationsQueueOut + 1 })
  | .sizeLock e => if s.mtx then none else some (.sizeUnlock e, { s with mtx := true })
  | .sizeUnlock e => some (.send e, { s with mtx := false })
  | .send _ => some (.popLock, s)

/-- `notify_one` wakes one of the workers that wait. -/
def wake (t u : Thread α) (s : Shared α) : Option ((Thread α × Thread α) × Shared α) :=
  match t, u with
  | .notify, .waiting => some ((.incIn, .woken), { s with waiting := s.waiting - 1 })
  | _, _ => none

/-- An empty queue, and threads at their start. -/
def initial (max_size senders workers : Nat) : State (Shared α) (Thread α) where
  shared :=
    { queue := []
      max_size := max_size
      mtx := false
      waiting := 0
      noOfNotificationsQueueIn := 0
      noOfNotificationsQueueOut := 0
      noOfNotificationsQueueReject := 0
      accepted := []
      popped := []
      attempts := 0 }
  threads := List.replicate senders .idle ++ List.replicate workers .popLock

/-! ### What a thread contributes -/

namespace Thread

def isWorker : Thread α → Bool
  | .popLock | .popTest | .wait | .waiting | .woken | .front => true
  | .pop _ | .popUnlock _ | .incOut _ | .sizeLock _ | .sizeUnlock _ | .send _ => true
  | _ => false

/-- The thread has the mutex. -/
def hasMtx : Thread α → Nat
  | .pushTest _ | .push _ | .pushUnlock | .pushFull => 1
  | .popTest | .wait | .front | .pop _ | .popUnlock _ | .sizeUnlock _ => 1
  | _ => 0

def isWaiting : Thread α → Nat
  | .waiting => 1
  | _ => 0

/-- The thread has pushed an element, and has still to count it. -/
def toCountIn : Thread α → Nat
  | .pushUnlock | .notify | .incIn => 1
  | _ => 0

/-- The thread has popped an element, and has still to count it. -/
def toCountOut : Thread α → Nat
  | .popUnlock _ | .incOut _ => 1
  | _ => 0

/-- The thread is about to push an element. -/
def toPush : Thread α → Nat
  | .push _ => 1
  | _ => 0

/-- The thread has tried to push an element, and has still to count it. -/
def toCount : Thread α → Nat
  | .push _ | .pushUnlock | .notify | .incIn | .pushFull | .incReject => 1
  | _ => 0

/-- A signal is still to come from the thread, or it is a worker that does not wait. -/
def Pending : Thread α → Prop
  | .pushUnlock | .notify => True
  | .popLock | .popTest | .wait | .woken | .front => True
  | .pop _ | .popUnlock _ | .incOut _ | .sizeLock _ | .sizeUnlock _ | .send _ => True
  | _ => False

/-- What a thread has found out about the queue. -/
def Located (s : Shared α) : Thread α → Prop
  | .push _ => s.queue.length < s.max_size
  | .wait => s.queue = []
  | .pop e => s.queue.head? = some e
  | _ => True

/-- The thread is between an operation on the queue and the increment of the statistics. -/
def Uncounted : Thread α → Prop
  | .push _ | .pushUnlock | .notify | .incIn | .pushFull | .incReject => True
  | .popUnlock _ | .incOut _ => True
  | _ => False

end Thread

/-- The invariant of the queue. -/
structure Inv (s : Shared α) (threads : Multiset (Thread α)) : Prop where
  mutex : (threads.map Thread.hasMtx).sum = s.mtx.toNat
  waits : (threads.map Thread.isWaiting).sum = s.waiting
  log : s.accepted = s.popped ++ s.queue
  size : s.queue.length ≤ s.max_size
  ins : (s.noOfNotificationsQueueIn.toNat + (threads.map Thread.toCountIn).sum) % 2 ^ 32 = s.accepted.length % 2 ^ 32
  outs : (s.noOfNotificationsQueueOut.toNat + (threads.map Thread.toCountOut).sum) % 2 ^ 32 = s.popped.length % 2 ^ 32
  tried : (s.noOfNotificationsQueueIn.toNat + s.noOfNotificationsQueueReject.toNat +
    (threads.map Thread.toCount).sum) % 2 ^ 32 = s.attempts % 2 ^ 32
  accepted_le : s.accepted.length + (threads.map Thread.toPush).sum ≤ s.attempts
  located : ∀ t ∈ threads, t.Located s
  pending : s.queue ≠ [] → (∃ t ∈ threads, t.Pending) ∨ ∀ t ∈ threads, t.isWorker = false

section Invariant

variable {s s' : Shared α} {t t' : Thread α} {rest : Multiset (Thread α)}

theorem located_of_not_hasMtx (h : t.hasMtx = 0) : t.Located s := by
  cases t with
  | push e | wait | pop e => cases h
  | _ => trivial

/-- While a thread has the mutex, no other has. -/
theorem Inv.rest_not_hasMtx (h : Inv s (t ::ₘ rest)) (ht : t.hasMtx = 1) : ∀ u ∈ rest, u.hasMtx = 0 := by
  have hsum := h.mutex
  have hmtx := Bool.toNat_le s.mtx
  exact rest_holds_nothing (l := t) (by omega)

theorem Inv.mtx_of_hasMtx (h : Inv s (t ::ₘ rest)) (ht : t.hasMtx = 1) : s.mtx.toNat = 1 := by
  have hsum := h.mutex
  rw [Multiset.map_cons, Multiset.sum_cons] at hsum
  have hmtx := Bool.toNat_le s.mtx
  omega

theorem toNat_inc (n : BitVec 32) : (n + 1).toNat = (n.toNat + 1) % 2 ^ 32 := rfl

/-- The turn of a thread keeps the invariant if it does so for what the thread itself contributes. -/
theorem Inv.turn (h : Inv s (t ::ₘ rest)) (hmutex : t'.hasMtx + s.mtx.toNat = t.hasMtx + s'.mtx.toNat)
    (hwaits : t'.isWaiting + s.waiting = t.isWaiting + s'.waiting) (hlog : s'.accepted = s'.popped ++ s'.queue)
    (hsize : s'.queue.length ≤ s'.max_size)
    (hins : (s'.noOfNotificationsQueueIn.toNat + t'.toCountIn + s.accepted.length) % 2 ^ 32 =
      (s.noOfNotificationsQueueIn.toNat + t.toCountIn + s'.accepted.length) % 2 ^ 32)
    (houts : (s'.noOfNotificationsQueueOut.toNat + t'.toCountOut + s.popped.length) % 2 ^ 32 =
      (s.noOfNotificationsQueueOut.toNat + t.toCountOut + s'.popped.length) % 2 ^ 32)
    (htried : (s'.noOfNotificationsQueueIn.toNat + s'.noOfNotificationsQueueReject.toNat + t'.toCount + s.attempts) %
        2 ^ 32 =
      (s.noOfNotificationsQueueIn.toNat + s.noOfNotificationsQueueReject.toNat + t.toCount + s'.attempts) % 2 ^ 32)
    (haccepted : s'.accepted.length + t'.toPush + s.attempts ≤ s.accepted.length + t.toPush + s'.attempts)
    (hlocated : t'.Located s') (hothers : ∀ u ∈ rest, u.Located s')
    (hpending : s'.queue ≠ [] → (∃ u ∈ t' ::ₘ rest, u.Pending) ∨ ∀ u ∈ t' ::ₘ rest, u.isWorker = false) :
    Inv s' (t' ::ₘ rest) := by
  refine ⟨?_, ?_, hlog, hsize, ?_, ?_, ?_, ?_, ?_, hpending⟩
  · have hsum := h.mutex
    rw [Multiset.map_cons, Multiset.sum_cons] at hsum ⊢
    omega
  · have hsum := h.waits
    rw [Multiset.map_cons, Multiset.sum_cons] at hsum ⊢
    omega
  · have hsum := h.ins
    rw [Multiset.map_cons, Multiset.sum_cons] at hsum ⊢
    omega
  · have hsum := h.outs
    rw [Multiset.map_cons, Multiset.sum_cons] at hsum ⊢
    omega
  · have hsum := h.tried
    rw [Multiset.map_cons, Multiset.sum_cons] at hsum ⊢
    omega
  · have hsum := h.accepted_le
    rw [Multiset.map_cons, Multiset.sum_cons] at hsum ⊢
    omega
  · intro u hu
    obtain rfl | hu := Multiset.mem_cons.1 hu
    · exact hlocated
    · exact hothers u hu

/-- Some thread is pending as before, or the thread whose turn it is. -/
theorem Inv.pending_turn (h : Inv s (t ::ₘ rest)) (hqueue : s.queue ≠ []) (hpending : t.Pending → t'.Pending)
    (hworker : t'.isWorker = t.isWorker) :
    (∃ u ∈ t' ::ₘ rest, u.Pending) ∨ ∀ u ∈ t' ::ₘ rest, u.isWorker = false := by
  obtain ⟨u, hu, hp⟩ | hall := h.pending hqueue
  · left
    obtain rfl | hu := Multiset.mem_cons.1 hu
    · exact ⟨t', Multiset.mem_cons_self t' rest, hpending hp⟩
    · exact ⟨u, Multiset.mem_cons_of_mem hu, hp⟩
  · right
    intro u hu
    obtain rfl | hu := Multiset.mem_cons.1 hu
    · rw [hworker]
      exact hall t (Multiset.mem_cons_self t rest)
    · exact hall u (Multiset.mem_cons_of_mem hu)

/-- A turn that is about the mutex and the condition variable alone. -/
theorem Inv.turn_lock (h : Inv s (t ::ₘ rest)) {mtx : Bool} {waiting : Nat}
    (hmutex : t'.hasMtx + s.mtx.toNat = t.hasMtx + mtx.toNat)
    (hwaits : t'.isWaiting + s.waiting = t.isWaiting + waiting) (hin : t'.toCountIn = t.toCountIn)
    (hout : t'.toCountOut = t.toCountOut) (hcount : t'.toCount = t.toCount) (hpush : t'.toPush = t.toPush)
    (hlocated : t'.Located s) (hpending : s.queue = [] ∨ (t.Pending → t'.Pending))
    (hworker : t'.isWorker = t.isWorker) : Inv { s with mtx := mtx, waiting := waiting } (t' ::ₘ rest) := by
  refine h.turn hmutex hwaits h.log h.size ?_ ?_ ?_ ?_ hlocated ?_ ?_
  · rw [hin]
  · rw [hout]
  · rw [hcount]
  · rw [hpush]
  · exact fun u hu => h.located u (Multiset.mem_cons_of_mem hu)
  · intro hqueue
    obtain hempty | hpending := hpending
    · exact absurd hempty hqueue
    · exact h.pending_turn hqueue hpending hworker

/-- After a signal the queue is empty, or a worker is awake, or there is none. -/
theorem Inv.turn_notify (h : Inv s (.notify ::ₘ rest))
    (hrest : (∃ u ∈ rest, u.Pending) ∨ ∀ u ∈ rest, u.isWorker = false) : Inv s (.incIn ::ₘ rest) := by
  refine h.turn rfl rfl h.log h.size rfl rfl rfl le_rfl trivial
    (fun u hu => h.located u (Multiset.mem_cons_of_mem hu)) fun _ => ?_
  obtain ⟨u, hu, hp⟩ | hall := hrest
  · exact .inl ⟨u, Multiset.mem_cons_of_mem hu, hp⟩
  · right
    intro u hu
    obtain rfl | hu := Multiset.mem_cons.1 hu
    · rfl
    · exact hall u hu

/-- A worker wakes up. -/
theorem Inv.turn_waking (h : Inv s (.waiting ::ₘ rest)) : Inv { s with waiting := s.waiting - 1 } (.woken ::ₘ rest) := by
  refine h.turn_lock rfl ?_ rfl rfl rfl rfl trivial (.inr fun _ => trivial) rfl
  have hsum := h.waits
  rw [Multiset.map_cons, Multiset.sum_cons] at hsum
  simp only [Thread.isWaiting] at hsum ⊢
  omega

theorem pending_of_worker (hworker : t.isWorker = true) (hwaiting : t.isWaiting = 0) : t.Pending := by
  cases t with
  | waiting => cases hwaiting
  | popLock | popTest | wait | woken | front | pop e | popUnlock e | incOut e | sizeLock e | sizeUnlock e | send e =>
    trivial
  | _ => cases hworker

/-- If no worker waits, each worker is awake. -/
theorem pending_of_none_waiting (h : (rest.map Thread.isWaiting).sum = 0) :
    (∃ u ∈ rest, u.Pending) ∨ ∀ u ∈ rest, u.isWorker = false := by
  by_cases hall : ∀ u ∈ rest, u.isWorker = false
  · exact .inr hall
  · left
    push Not at hall
    obtain ⟨u, hu, hworker⟩ := hall
    have hle : u.isWaiting ≤ (rest.map Thread.isWaiting).sum :=
      Multiset.le_sum_of_mem (Multiset.mem_map_of_mem Thread.isWaiting hu)
    exact ⟨u, hu, pending_of_worker (by simpa using hworker) (by omega)⟩

theorem inv_of_turn {element : α} (h : Inv s (t ::ₘ rest)) (hturn : Queue.turn element t s = some (t', s')) :
    Inv s' (t' ::ₘ rest) := by
  have hlocated := h.located t (Multiset.mem_cons_self t rest)
  have hothers : ∀ u ∈ rest, u.Located s := fun u hu => h.located u (Multiset.mem_cons_of_mem hu)
  cases t with
  | idle =>
    cases hturn
    exact h.turn_lock rfl rfl rfl rfl rfl rfl trivial (.inr id) rfl
  | pushLock e =>
    simp only [Queue.turn] at hturn
    split at hturn
    · cases hturn
    · rename_i hmtx
      cases hturn
      refine h.turn_lock ?_ rfl rfl rfl rfl rfl trivial (.inr id) rfl
      simp [Thread.hasMtx, hmtx]
  | pushTest e =>
    simp only [Queue.turn] at hturn
    split at hturn
    · rename_i hroom
      cases hturn
      exact h.turn rfl rfl h.log h.size rfl rfl (by simp only [Thread.toCount]; omega)
        (by simp only [Thread.toPush]; omega) hroom hothers (h.pending_turn · id rfl)
    · cases hturn
      exact h.turn rfl rfl h.log h.size rfl rfl (by simp only [Thread.toCount]; omega)
        (by simp only [Thread.toPush]; omega) trivial hothers (h.pending_turn · id rfl)
  | push e =>
    cases hturn
    have halone := h.rest_not_hasMtx rfl
    have hroom : s.queue.length < s.max_size := hlocated
    refine h.turn rfl rfl ?_ ?_ ?_ rfl rfl ?_ trivial (fun u hu => located_of_not_hasMtx (halone u hu)) ?_
    · simp only [h.log, List.append_assoc]
    · simp only [List.length_append, List.length_singleton]
      omega
    · simp only [Thread.toCountIn, List.length_append, List.length_singleton]
      omega
    · simp only [Thread.toPush, List.length_append, List.length_singleton]
      omega
    · exact fun _ => .inl ⟨_, Multiset.mem_cons_self _ rest, trivial⟩
  | pushUnlock =>
    cases hturn
    exact h.turn_lock (congrArg (0 + ·) (h.mtx_of_hasMtx rfl)) rfl rfl rfl rfl rfl trivial (.inr id) rfl
  | notify =>
    simp only [Queue.turn] at hturn
    split at hturn
    · rename_i hwaiting
      cases hturn
      refine h.turn_notify (pending_of_none_waiting ?_)
      have hsum := h.waits
      rw [Multiset.map_cons, Multiset.sum_cons] at hsum
      omega
    · cases hturn
  | pushFull =>
    cases hturn
    exact h.turn_lock (congrArg (0 + ·) (h.mtx_of_hasMtx rfl)) rfl rfl rfl rfl rfl trivial (.inr id) rfl
  | incIn =>
    cases hturn
    refine h.turn rfl rfl h.log h.size ?_ rfl ?_ le_rfl trivial hothers (h.pending_turn · id rfl)
    · simp only [Thread.toCountIn, toNat_inc]
      omega
    · simp only [Thread.toCount, toNat_inc]
      omega
  | incReject =>
    cases hturn
    refine h.turn rfl rfl h.log h.size rfl rfl ?_ le_rfl trivial hothers (h.pending_turn · id rfl)
    simp only [Thread.toCount, toNat_inc]
    omega
  | popLock =>
    simp only [Queue.turn] at hturn
    split at hturn
    · cases hturn
    · rename_i hmtx
      cases hturn
      refine h.turn_lock ?_ rfl rfl rfl rfl rfl trivial (.inr id) rfl
      simp [Thread.hasMtx, hmtx]
  | popTest =>
    simp only [Queue.turn] at hturn
    split at hturn
    · rename_i hempty
      cases hturn
      exact h.turn_lock rfl rfl rfl rfl rfl rfl (List.isEmpty_iff.1 hempty) (.inr id) rfl
    · cases hturn
      exact h.turn_lock rfl rfl rfl rfl rfl rfl trivial (.inr id) rfl
  | wait =>
    cases hturn
    refine h.turn_lock ?_ ?_ rfl rfl rfl rfl trivial (.inl hlocated) rfl
    · exact congrArg (0 + ·) (h.mtx_of_hasMtx rfl)
    · simp only [Thread.isWaiting]
      omega
  | waiting =>
    cases hturn
    exact h.turn_waking
  | woken =>
    simp only [Queue.turn] at hturn
    split at hturn
    · cases hturn
    · rename_i hmtx
      cases hturn
      refine h.turn_lock ?_ rfl rfl rfl rfl rfl trivial (.inr id) rfl
      simp [Thread.hasMtx, hmtx]
  | front =>
    obtain ⟨e, he, hr⟩ := Option.map_eq_some_iff.1 hturn
    cases hr
    exact h.turn_lock rfl rfl rfl rfl rfl rfl he (.inr id) rfl
  | pop e =>
    cases hturn
    have halone := h.rest_not_hasMtx rfl
    have hhead : s.queue.head? = some e := hlocated
    obtain ⟨queue, hqueue⟩ : ∃ queue, s.queue = e :: queue := List.head?_eq_some_iff.1 hhead
    have hlog := h.log
    have hsize := h.size
    simp only [hqueue, List.length_cons] at hlog hsize
    refine h.turn rfl rfl ?_ ?_ rfl ?_ rfl le_rfl trivial (fun u hu => located_of_not_hasMtx (halone u hu)) ?_
    · simp only [hlog, hqueue, List.tail_cons, List.append_assoc, List.singleton_append]
    · simp only [hqueue, List.tail_cons]
      omega
    · simp only [Thread.toCountOut, List.length_append, List.length_singleton]
      omega
    · exact fun _ => .inl ⟨_, Multiset.mem_cons_self _ rest, trivial⟩
  | popUnlock e =>
    cases hturn
    exact h.turn_lock (congrArg (0 + ·) (h.mtx_of_hasMtx rfl)) rfl rfl rfl rfl rfl trivial (.inr id) rfl
  | incOut e =>
    cases hturn
    refine h.turn rfl rfl h.log h.size rfl ?_ rfl le_rfl trivial hothers (h.pending_turn · id rfl)
    simp only [Thread.toCountOut, toNat_inc]
    omega
  | sizeLock e =>
    simp only [Queue.turn] at hturn
    split at hturn
    · cases hturn
    · rename_i hmtx
      cases hturn
      refine h.turn_lock ?_ rfl rfl rfl rfl rfl trivial (.inr id) rfl
      simp [Thread.hasMtx, hmtx]
  | sizeUnlock e =>
    cases hturn
    exact h.turn_lock (congrArg (0 + ·) (h.mtx_of_hasMtx rfl)) rfl rfl rfl rfl rfl trivial (.inr id) rfl
  | send e =>
    cases hturn
    exact h.turn_lock rfl rfl rfl rfl rfl rfl trivial (.inr id) rfl

theorem inv_of_wake {u u' : Thread α} (h : Inv s (t ::ₘ u ::ₘ rest)) (hwake : wake t u s = some ((t', u'), s')) :
    Inv s' (t' ::ₘ u' ::ₘ rest) := by
  unfold wake at hwake
  split at hwake
  · cases hwake
    -- the worker is awake before the signal is done
    rw [Multiset.cons_swap] at h
    have hwoken := h.turn_waking
    rw [Multiset.cons_swap] at hwoken
    exact hwoken.turn_notify (.inl ⟨.woken, Multiset.mem_cons_self _ rest, trivial⟩)
  · cases hwake

end Invariant

theorem inv_initial (max_size senders workers : Nat) :
    Inv (initial max_size senders workers : State (Shared α) (Thread α)).shared
      (initial max_size senders workers : State (Shared α) (Thread α)).threads := by
  have hthreads : ((initial max_size senders workers : State (Shared α) (Thread α)).threads : Multiset (Thread α)) =
      Multiset.replicate senders .idle + Multiset.replicate workers .popLock := rfl
  rw [hthreads]
  refine ⟨?_, ?_, rfl, Nat.zero_le _, ?_, ?_, ?_, ?_, ?_, fun h => absurd rfl h⟩
  · simp [initial, Thread.hasMtx]
  · simp [initial, Thread.isWaiting]
  · simp [initial, Thread.toCountIn]
  · simp [initial, Thread.toCountOut]
  · simp [initial, Thread.toCount]
  · simp [initial, Thread.toPush]
  · intro t ht
    obtain ht | ht := Multiset.mem_add.1 ht
    · rw [Multiset.eq_of_mem_replicate ht]
      trivial
    · rw [Multiset.eq_of_mem_replicate ht]
      trivial

/-! ### The queue in any run -/

theorem max_size_of_turn {element : α} {t t' : Thread α} {s s' : Shared α}
    (h : turn element t s = some (t', s')) : s'.max_size = s.max_size := by
  cases t <;> simp only [turn, Option.map_eq_some_iff] at h <;> grind

theorem max_size_of_run {max_size senders workers : Nat} {moves : List (Move α)} {st : State (Shared α) (Thread α)}
    (h : StepRun.run (step turn wake) moves (initial max_size senders workers) = some st) :
    st.shared.max_size = max_size := by
  refine invariant_of_run (I := fun s _ => s.max_size = max_size) ?_ ?_ meets_true rfl h
  · exact fun _ hs hturn => (max_size_of_turn hturn).trans hs
  · intro t t' u u' s s' rest hs hwake
    unfold wake at hwake
    split at hwake
    · cases hwake
      exact hs
    · cases hwake

/-- A quantity that no thread contributes to. -/
theorem sum_eq_zero {threads : List (Thread α)} {f : Thread α → Nat} (h : ∀ t ∈ threads, f t = 0) :
    ((threads : Multiset (Thread α)).map f).sum = 0 := by
  refine Multiset.sum_eq_zero fun n hn => ?_
  obtain ⟨t, ht, rfl⟩ := Multiset.mem_map.1 hn
  exact h t ht

/-- Once all is counted, the counters are those of what has happened. -/
theorem Inv.counters {s : Shared α} {threads : List (Thread α)} (h : Inv s threads)
    (hcounted : ∀ t ∈ threads, ¬t.Uncounted) :
    s.noOfNotificationsQueueIn = BitVec.ofNat 32 s.accepted.length ∧
      s.noOfNotificationsQueueOut = BitVec.ofNat 32 s.popped.length ∧
      s.noOfNotificationsQueueIn + s.noOfNotificationsQueueReject = BitVec.ofNat 32 s.attempts := by
  have hins := h.ins
  have houts := h.outs
  have htried := h.tried
  rw [sum_eq_zero fun t ht => ?_] at hins houts htried
  · refine ⟨BitVec.eq_of_toNat_eq ?_, BitVec.eq_of_toNat_eq ?_, BitVec.eq_of_toNat_eq ?_⟩
    · rw [BitVec.toNat_ofNat, ← hins]
      exact (Nat.mod_eq_of_lt s.noOfNotificationsQueueIn.isLt).symm
    · rw [BitVec.toNat_ofNat, ← houts]
      exact (Nat.mod_eq_of_lt s.noOfNotificationsQueueOut.isLt).symm
    · rw [BitVec.toNat_ofNat, BitVec.toNat_add, ← htried, Nat.add_zero]
  all_goals
    have hno := hcounted t ht
    cases t <;> first | rfl | exact absurd trivial hno

theorem toInt_ofNat {n : Nat} (h : n < 2 ^ 31) : (BitVec.ofNat 32 n).toInt = n := by
  have hn : (BitVec.ofNat 32 n).toNat = n := by
    rw [BitVec.toNat_ofNat]
    omega
  rw [BitVec.toInt_eq_toNat_of_lt (by omega), hn]

/-- The queue keeps to its size, elements are popped in the order in which they were accepted, no wake-up is lost, and
once all is counted the counters add up; they are `int`s, and exact as long as they do not overflow. -/
theorem queue_of_run {max_size senders workers : Nat} {moves : List (Move α)} {st : State (Shared α) (Thread α)}
    (h : StepRun.run (step turn wake) moves (initial max_size senders workers) = some st) :
    st.shared.queue.length ≤ max_size ∧ st.shared.accepted = st.shared.popped ++ st.shared.queue ∧
      ((∃ t ∈ st.threads, t.isWorker) → (∀ t ∈ st.threads, t.isWorker → t = .waiting) →
        (∀ t ∈ st.threads, t ≠ .pushUnlock ∧ t ≠ .notify) → st.shared.queue = []) ∧
      ((∀ t ∈ st.threads, ¬t.Uncounted) →
        st.shared.noOfNotificationsQueueIn - st.shared.noOfNotificationsQueueOut =
            BitVec.ofNat 32 st.shared.queue.length ∧
          st.shared.noOfNotificationsQueueIn + st.shared.noOfNotificationsQueueReject =
            BitVec.ofNat 32 st.shared.attempts ∧
          (st.shared.attempts < 2 ^ 31 →
            st.shared.noOfNotificationsQueueIn.toInt - st.shared.noOfNotificationsQueueOut.toInt =
                st.shared.queue.length ∧
              st.shared.noOfNotificationsQueueIn.toInt + st.shared.noOfNotificationsQueueReject.toInt =
                st.shared.attempts)) := by
  have hinv : Inv st.shared st.threads :=
    invariant_of_run (fun _ hI hturn => inv_of_turn hI hturn) (fun hI hwake => inv_of_wake hI hwake) meets_true
      (inv_initial max_size senders workers) h
  refine ⟨?_, hinv.log, ?_, ?_⟩
  · rw [← max_size_of_run h]
    exact hinv.size
  · intro hworkers hwaiting hsignals
    by_contra hqueue
    obtain ⟨t, ht, hpending⟩ | hnone := hinv.pending hqueue
    · have hnotWaiting := hwaiting t ht
      have hnoSignal := hsignals t ht
      cases t <;> simp_all [Thread.Pending, Thread.isWorker]
    · obtain ⟨t, ht, hworker⟩ := hworkers
      simp [hnone t ht] at hworker
  · intro hcounted
    obtain ⟨hin, hout, htried⟩ := hinv.counters hcounted
    have hlength : st.shared.accepted.length = st.shared.popped.length + st.shared.queue.length := by
      rw [hinv.log, List.length_append]
    have hle := hinv.accepted_le
    refine ⟨?_, htried, fun hsmall => ⟨?_, ?_⟩⟩
    · rw [hin, hout, hlength, BitVec.ofNat_add, BitVec.sub_eq_iff_eq_add]
      exact BitVec.add_comm _ _
    · rw [hin, hout, toInt_ofNat (by omega), toInt_ofNat (by omega)]
      omega
    · have hreject : st.shared.noOfNotificationsQueueReject =
          BitVec.ofNat 32 (st.shared.attempts - st.shared.accepted.length) := by
        have hsum : st.shared.noOfNotificationsQueueReject + st.shared.noOfNotificationsQueueIn =
            BitVec.ofNat 32 (st.shared.attempts - st.shared.accepted.length) +
              st.shared.noOfNotificationsQueueIn := by
          rw [BitVec.add_comm, htried, hin, ← BitVec.ofNat_add, Nat.sub_add_cancel (by omega)]
        exact (BitVec.add_left_inj _).1 hsum
      rw [hin, hreject, toInt_ofNat (by omega), toInt_ofNat (by omega)]
      omega

/-- The first worker finds the queue empty and waits, a sender pushes an element and wakes it, and it pops the element;
the queue has room for one, so that the next element is rejected. -/
def pushAndPop : List (Move Nat) :=
  let sender (element : Nat) : List (Move Nat) := List.replicate 5 (.turn 0 element)
  List.replicate 3 (.turn 1 0) ++ sender 7 ++ [.meet 0 1, .turn 0 0] ++ sender 8 ++ List.replicate 6 (.turn 1 0)

def afterPushAndPop : State (Shared Nat) (Thread Nat) where
  shared :=
    { queue := []
      max_size := 1
      mtx := false
      waiting := 0
      noOfNotificationsQueueIn := 1
      noOfNotificationsQueueOut := 1
      noOfNotificationsQueueReject := 1
      accepted := [7]
      popped := [7]
      attempts := 2 }
  threads := [.idle, .sizeLock 7, .popLock]

theorem queue_of_run_pushAndPop :
    StepRun.run (step turn wake) pushAndPop (initial 1 1 2) = some afterPushAndPop ∧
      afterPushAndPop.shared.queue.length ≤ 1 ∧
      afterPushAndPop.shared.accepted = afterPushAndPop.shared.popped ++ afterPushAndPop.shared.queue := by
  have hrun : StepRun.run (step turn wake) pushAndPop (initial 1 1 2) = some afterPushAndPop := by decide +kernel
  obtain ⟨hsize, hlog, -⟩ := queue_of_run hrun
  exact ⟨hrun, hsize, hlog⟩

end OrionBroker.Queue
