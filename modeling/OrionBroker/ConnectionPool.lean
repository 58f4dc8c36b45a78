import Mathlib.Algebra.Order.BigOperators.Group.Multiset
import Mathlib.Data.Multiset.OrderedMonoid
import Mathlib.Algebra.Order.Group.Nat
import OrionBroker.Interleaving
import OrionBroker.Semaphores

/-!
# The pool of the database connections

`mongoPoolConnectionGet` and `mongoPoolConnectionRelease` (`mongoConnectionPool.cpp`), step by step: each semaphore
operation and each read or write of a slot is a turn of its own, and any number of threads take turns in any order.

A thread owns a connection from marking its slot until it frees it again, and the connections of all threads together
are those of the slots that are not free, each once (`Inv`).
-/

namespace OrionBroker.Pool

open Locks (MongoConnection)
open Interleaving

/-- What the threads share. -/
structure Shared where
  connectionPool : List MongoConnection
  connectionSem : Nat
  connectionPoolSem : Nat

/-- The next thing a thread does. -/
inductive Pc
  | idle
  | waitConnectionSem
  | waitPoolSem
  | test (ix : Nat)
  | mark (ix : Nat)
  | read (ix : Nat)
  | postPoolSem (connection : Option Nat)
  | returning (connection : Option Nat)
  | releaseWaitPoolSem (connection : Option Nat)
  | releaseTest (ix : Nat) (connection : Option Nat)
  | releaseMark (ix : Nat) (connection : Option Nat)
  | releasePostConnectionSem
  | releasePostPoolSem
  deriving DecidableEq

/-- A thread, with the connections that it has got and not yet given to `mongoPoolConnectionRelease`. -/
structure Thread where
  held : List (Option Nat)
  pc : Pc
  deriving DecidableEq

/-- What a thread calls when it has no call in progress. -/
inductive Call
  | get
  | release (connection : Option Nat)

/-- `connectionPool[ix].free = free`. -/
def setFree (pool : List MongoConnection) (ix : Nat) (free : Bool) : List MongoConnection :=
  match pool[ix]? with
  | some slot => pool.set ix { slot with free := free }
  | none => pool

/-- One turn of a thread.  Waiting for a semaphore is possible only if its value is not zero, and a thread releases only
a connection that it holds. -/
def turn (call : Call) (t : Thread) (s : Shared) : Option (Thread × Shared) :=
  match t.pc with
  | .idle =>
    match call with
    | .get => some ({ t with pc := .waitConnectionSem }, s)
    | .release connection =>
      if connection ∈ t.held then
        some ({ held := t.held.erase connection, pc := .releaseWaitPoolSem connection }, s)
      else
        none
  -- `mongoPoolConnectionGet`
  | .waitConnectionSem =>
    if 0 < s.connectionSem then
      some ({ t with pc := .waitPoolSem }, { s with connectionSem := s.connectionSem - 1 })
    else
      none
  | .waitPoolSem =>
    if 0 < s.connectionPoolSem then
      some ({ t with pc := .test 0 }, { s with connectionPoolSem := s.connectionPoolSem - 1 })
    else
      none
  | .test ix =>
    match s.connectionPool[ix]? with
    | some slot => some ({ t with pc := if slot.free then .mark ix else .test (ix + 1) }, s)
    | none => some ({ t with pc := .postPoolSem none }, s)
  | .mark ix => some ({ t with pc := .read ix }, { s with connectionPool := setFree s.connectionPool ix false })
  | .read ix => s.connectionPool[ix]?.map fun slot => ({ t with pc := .postPoolSem slot.connection }, s)
  | .postPoolSem connection =>
    some ({ t with pc := .returning connection }, { s with connectionPoolSem := s.connectionPoolSem + 1 })
  | .returning connection => some ({ held := connection :: t.held, pc := .idle }, s)
  -- `mongoPoolConnectionRelease`
  | .releaseWaitPoolSem connection =>
    if 0 < s.connectionPoolSem then
      some ({ t with pc := .releaseTest 0 connection }, { s with connectionPoolSem := s.connectionPoolSem - 1 })
    else
      none
  | .releaseTest ix connection =>
    match s.connectionPool[ix]? with
    | some slot =>
      some ({ t with pc := if slot.connection = connection then .releaseMark ix connection
                           else .releaseTest (ix + 1) connection }, s)
    | none => some ({ t with pc := .releasePostPoolSem }, s)
  | .releaseMark ix _ =>
    some ({ t with pc := .releasePostConnectionSem }, { s with connectionPool := setFree s.connectionPool ix true })
  | .releasePostConnectionSem =>
    some ({ t with pc := .releasePostPoolSem }, { s with connectionSem := s.connectionSem + 1 })
  | .releasePostPoolSem => some ({ t with pc := .idle }, { s with connectionPoolSem := s.connectionPoolSem + 1 })

/-- The number of free slots. -/
def freeSlots (pool : List MongoConnection) : Nat := pool.countP (·.free)

/-- The connections of the slots that are not free. -/
def busy (pool : List MongoConnection) : Multiset (Option Nat) := (pool.filter (!·.free)).map (·.connection)

/-- The pool after its initialisation, and threads that have called nothing yet. -/
def initial (connections : List (Option Nat)) (threads : Nat) : State Shared Thread where
  shared :=
    { connectionPool := connections.map fun connection => { connection := connection, free := true }
      connectionSem := connections.length
      connectionPoolSem := 1 }
  threads := List.replicate threads { held := [], pc := .idle }

/-! ### The slots -/

section Slots

variable {pool : List MongoConnection} {ix : Nat} {slot : MongoConnection}

theorem map_connection_setFree (pool : List MongoConnection) (ix : Nat) (free : Bool) :
    (setFree pool ix free).map (·.connection) = pool.map (·.connection) := by
  unfold setFree
  split
  · rename_i slot hslot
    obtain ⟨hix, rfl⟩ := List.getElem?_eq_some_iff.1 hslot
    rw [List.map_set]
    apply List.ext_getElem
    · simp
    · intro j h₁ h₂
      by_cases hj : ix = j
      · subst hj
        simp
      · simp [hj]
  · rfl

theorem setFree_eq {free : Bool} (h : pool[ix]? = some slot) :
    setFree pool ix free = pool.set ix { slot with free := free } := by
  simp only [setFree, h]

/-- The free slots and the connections of the others, with one slot singled out. -/
theorem slots_at (h : pool[ix]? = some slot) (free : Bool) :
    ∃ rest : Multiset MongoConnection, (pool : Multiset MongoConnection) = slot ::ₘ rest ∧
      (setFree pool ix free : Multiset MongoConnection) = { slot with free := free } ::ₘ rest := by
  obtain ⟨rest, hpool, hset⟩ := coe_set h
  exact ⟨rest, hpool, by rw [setFree_eq h, hset]⟩

theorem freeSlots_eq (pool : List MongoConnection) :
    freeSlots pool = (pool : Multiset MongoConnection).countP fun slot => slot.free = true := by
  rw [Multiset.coe_countP, freeSlots]
  simp

theorem busy_eq (pool : List MongoConnection) :
    busy pool = ((pool : Multiset MongoConnection).filter fun slot => slot.free = false).map (·.connection) := by
  rw [Multiset.filter_coe, Multiset.map_coe, busy]
  simp

theorem freeSlots_mark (h : pool[ix]? = some slot) (hfree : slot.free = true) :
    freeSlots pool = freeSlots (setFree pool ix false) + 1 := by
  obtain ⟨rest, hpool, hset⟩ := slots_at h false
  rw [freeSlots_eq, freeSlots_eq, hpool, hset]
  simp [hfree]

theorem busy_mark (h : pool[ix]? = some slot) (hfree : slot.free = true) :
    busy (setFree pool ix false) = slot.connection ::ₘ busy pool := by
  obtain ⟨rest, hpool, hset⟩ := slots_at h false
  rw [busy_eq, busy_eq, hpool, hset]
  simp [hfree]

theorem freeSlots_release (h : pool[ix]? = some slot) (hbusy : slot.free = false) :
    freeSlots (setFree pool ix true) = freeSlots pool + 1 := by
  obtain ⟨rest, hpool, hset⟩ := slots_at h true
  rw [freeSlots_eq, freeSlots_eq, hpool, hset]
  simp [hbusy]

theorem busy_release (h : pool[ix]? = some slot) (hbusy : slot.free = false) :
    busy pool = slot.connection ::ₘ busy (setFree pool ix true) := by
  obtain ⟨rest, hpool, hset⟩ := slots_at h true
  rw [busy_eq, busy_eq, hpool, hset]
  simp [hbusy]

/-- Of distinct connections, those of the busy slots are distinct. -/
theorem busy_le (pool : List MongoConnection) : busy pool ≤ (pool.map (·.connection) : Multiset (Option Nat)) :=
  Multiset.coe_le.2 (List.filter_sublist.map _).subperm

theorem exists_of_mem_busy {connection : Option Nat} (h : connection ∈ busy pool) :
    ∃ (ix : Nat) (slot : MongoConnection), pool[ix]? = some slot ∧ slot.free = false ∧ slot.connection = connection := by
  obtain ⟨slot, hslot, rfl⟩ := List.mem_map.1 (Multiset.mem_coe.1 h)
  obtain ⟨hmem, hfree⟩ := List.mem_filter.1 hslot
  obtain ⟨ix, hix⟩ := List.mem_iff_getElem?.1 hmem
  exact ⟨ix, slot, hix, by simpa using hfree, rfl⟩

theorem freeSlots_eq_zero (h : ∀ (j : Nat) (slot : MongoConnection), pool[j]? = some slot → slot.free = false) :
    freeSlots pool = 0 := by
  rw [freeSlots, List.countP_eq_zero]
  intro slot hslot
  obtain ⟨j, hj⟩ := List.mem_iff_getElem?.1 hslot
  simp [h j slot hj]

end Slots

/-! ### What holds between any two turns -/

/-- The thread has `connectionPoolSem`. -/
def critical : Pc → Nat
  | .test _ | .mark _ | .read _ | .postPoolSem _ => 1
  | .releaseTest _ _ | .releaseMark _ _ | .releasePostConnectionSem | .releasePostPoolSem => 1
  | .idle | .waitConnectionSem | .waitPoolSem | .returning _ | .releaseWaitPoolSem _ => 0

/-- The thread has counted `connectionSem` down and not yet marked a slot, or has freed a slot and not yet counted
`connectionSem` up. -/
def uncounted : Pc → Nat
  | .waitPoolSem | .test _ | .mark _ => 1
  | .releasePostConnectionSem => 1
  | .idle | .waitConnectionSem | .read _ | .postPoolSem _ | .returning _ => 0
  | .releaseWaitPoolSem _ | .releaseTest _ _ | .releaseMark _ _ | .releasePostPoolSem => 0

/-- The connection that a thread owns inside a call. -/
def inHand (connections : List (Option Nat)) : Pc → Multiset (Option Nat)
  | .read ix => connections[ix]?.toList
  | .postPoolSem connection | .returning connection => {connection}
  | .releaseWaitPoolSem connection | .releaseTest _ connection | .releaseMark _ connection => {connection}
  | .idle | .waitConnectionSem | .waitPoolSem | .test _ | .mark _ => 0
  | .releasePostConnectionSem | .releasePostPoolSem => 0

def owns (connections : List (Option Nat)) (t : Thread) : Multiset (Option Nat) := t.held + inHand connections t.pc

/-- What a thread has found out about the slots. -/
def Located (pool : List MongoConnection) : Pc → Prop
  | .test ix => ∀ j slot, j < ix → pool[j]? = some slot → slot.free = false
  | .mark ix => ∃ slot, pool[ix]? = some slot ∧ slot.free = true
  | .releaseTest ix connection => ∀ j slot, j < ix → pool[j]? = some slot → slot.connection ≠ connection
  | .releaseMark ix connection => ∃ slot, pool[ix]? = some slot ∧ slot.connection = connection
  | _ => True

/-- The invariant of the pool: one thread at most is at the slots, the free slots are those that `connectionSem` counts
and those that a thread has still to mark or to count, and the other slots are those of the connections that the threads
own. -/
structure Inv (connections : List (Option Nat)) (s : Shared) (threads : Multiset Thread) : Prop where
  connections_eq : s.connectionPool.map (·.connection) = connections
  exclusion : s.connectionPoolSem + (threads.map fun t => critical t.pc).sum = 1
  counted : freeSlots s.connectionPool = s.connectionSem + (threads.map fun t => uncounted t.pc).sum
  owned : (threads.map (owns connections)).sum = busy s.connectionPool
  located : ∀ t ∈ threads, Located s.connectionPool t.pc

section Invariant

variable {connections : List (Option Nat)} {s s' : Shared} {t t' : Thread} {rest : Multiset Thread}

theorem located_of_not_critical {pool : List MongoConnection} {pc : Pc} (h : critical pc = 0) : Located pool pc := by
  cases pc with
  | test ix | mark ix | releaseTest ix connection | releaseMark ix connection => cases h
  | _ => trivial

/-- While a thread is at the slots, no other is. -/
theorem Inv.rest_not_critical (h : Inv connections s (t ::ₘ rest)) (ht : critical t.pc = 1) :
    ∀ u ∈ rest, critical u.pc = 0 := by
  have hsum := h.exclusion
  exact @rest_holds_nothing _ (fun t => critical t.pc) t rest (by omega)

/-- The turn of a thread keeps the invariant if it does so for what the thread itself contributes. -/
theorem Inv.turn (h : Inv connections s (t ::ₘ rest))
    (hconnections : s'.connectionPool.map (·.connection) = s.connectionPool.map (·.connection))
    (hexclusion : s'.connectionPoolSem + critical t'.pc = s.connectionPoolSem + critical t.pc)
    (hcounted : freeSlots s'.connectionPool + (s.connectionSem + uncounted t.pc) =
      freeSlots s.connectionPool + (s'.connectionSem + uncounted t'.pc))
    (howned : owns connections t' + busy s.connectionPool = owns connections t + busy s'.connectionPool)
    (hlocated : Located s'.connectionPool t'.pc)
    (hothers : s'.connectionPool = s.connectionPool ∨ critical t.pc = 1) : Inv connections s' (t' ::ₘ rest) := by
  refine ⟨hconnections.trans h.connections_eq, ?_, ?_, ?_, ?_⟩
  · have hsum := h.exclusion
    rw [Multiset.map_cons, Multiset.sum_cons] at hsum ⊢
    omega
  · have hsum := h.counted
    rw [Multiset.map_cons, Multiset.sum_cons] at hsum ⊢
    omega
  · have hsum := h.owned
    rw [Multiset.map_cons, Multiset.sum_cons] at hsum ⊢
    rw [← hsum] at howned
    have hcancel : owns connections t + (owns connections t' + (rest.map (owns connections)).sum) =
        owns connections t + busy s'.connectionPool := by
      rw [← howned]
      exact add_left_comm _ _ _
    exact add_left_cancel hcancel
  · intro u hu
    obtain rfl | hu := Multiset.mem_cons.1 hu
    · exact hlocated
    · obtain hpool | hcritical := hothers
      · rw [hpool]
        exact h.located u (Multiset.mem_cons_of_mem hu)
      · exact located_of_not_critical (h.rest_not_critical hcritical u hu)

/-- Whoever looks for a free slot finds one: it is among the free slots that `connectionSem` does not count. -/
theorem Inv.free_slot_ahead (h : Inv connections s (t ::ₘ rest)) {ix : Nat} (ht : t.pc = .test ix) :
    s.connectionPool[ix]? ≠ none := by
  intro hnone
  have hlocated := h.located t (Multiset.mem_cons_self t rest)
  rw [ht] at hlocated
  have hall : ∀ (j : Nat) (slot : MongoConnection), s.connectionPool[j]? = some slot → slot.free = false := by
    intro j slot hslot
    have hj : j < s.connectionPool.length := (List.getElem?_eq_some_iff.1 hslot).1
    have hix : s.connectionPool.length ≤ ix := List.getElem?_eq_none_iff.1 hnone
    exact hlocated j slot (by omega) hslot
  have hzero := freeSlots_eq_zero hall
  have hcounted := h.counted
  rw [Multiset.map_cons, Multiset.sum_cons, ht] at hcounted
  simp only [uncounted] at hcounted
  omega

/-- What a thread owns is the connection of a slot that is not free. -/
theorem Inv.slot_of_owned (h : Inv connections s (t ::ₘ rest)) {connection : Option Nat}
    (ht : connection ∈ owns connections t) :
    ∃ (ix : Nat) (slot : MongoConnection), s.connectionPool[ix]? = some slot ∧ slot.free = false ∧
      slot.connection = connection := by
  refine exists_of_mem_busy ?_
  rw [← h.owned, Multiset.map_cons, Multiset.sum_cons]
  exact Multiset.mem_add.2 (.inl ht)

/-- Whoever releases a connection finds its slot. -/
theorem Inv.slot_ahead (h : Inv connections s (t ::ₘ rest)) {ix : Nat} {connection : Option Nat}
    (ht : t.pc = .releaseTest ix connection) : s.connectionPool[ix]? ≠ none := by
  intro hnone
  have hlocated := h.located t (Multiset.mem_cons_self t rest)
  rw [ht] at hlocated
  have hmem : connection ∈ owns connections t := by simp [owns, ht, inHand]
  obtain ⟨j, slot, hslot, -, hconnection⟩ := h.slot_of_owned hmem
  have hj : j < s.connectionPool.length := (List.getElem?_eq_some_iff.1 hslot).1
  have hix : s.connectionPool.length ≤ ix := List.getElem?_eq_none_iff.1 hnone
  exact hlocated j slot (by omega) hslot hconnection

/-- The slot of a connection that is being released is not free. -/
theorem Inv.releaseMark_busy (h : Inv connections s (t ::ₘ rest)) (hnodup : connections.Nodup) {ix : Nat}
    {connection : Option Nat} {slot : MongoConnection} (ht : t.pc = .releaseMark ix connection)
    (hslot : s.connectionPool[ix]? = some slot) (hconnection : slot.connection = connection) : slot.free = false := by
  have hmem : connection ∈ owns connections t := by simp [owns, ht, inHand]
  obtain ⟨j, slot', hslot', hbusy, hconnection'⟩ := h.slot_of_owned hmem
  have hj : connections[j]? = some connection := by
    rw [← h.connections_eq, List.getElem?_map, hslot', Option.map_some, hconnection']
  have hix : connections[ix]? = some connection := by
    rw [← h.connections_eq, List.getElem?_map, hslot, Option.map_some, hconnection]
  obtain ⟨hlt, -⟩ := List.getElem?_eq_some_iff.1 hj
  have hsame : j = ix := (List.getElem?_inj hlt hnodup).1 (hj.trans hix.symm)
  subst hsame
  rw [hslot] at hslot'
  cases hslot'
  exact hbusy

theorem inv_of_turn (hnodup : connections.Nodup) {call : Call} (h : Inv connections s (t ::ₘ rest))
    (hturn : turn call t s = some (t', s')) : Inv connections s' (t' ::ₘ rest) := by
  have hlocated := h.located t (Multiset.mem_cons_self t rest)
  obtain ⟨held, pc⟩ := t
  cases pc with
  | idle =>
    cases call with
    | get =>
      cases hturn
      exact h.turn rfl rfl rfl rfl trivial (.inl rfl)
    | release connection =>
      simp only [turn] at hturn
      split at hturn
      · rename_i hheld
        cases hturn
        refine h.turn rfl rfl rfl ?_ trivial (.inl rfl)
        -- the connection goes from the list of the thread to the call
        have hmove : ((held.erase connection : List (Option Nat)) : Multiset (Option Nat)) + {connection} = held := by
          rw [add_comm, Multiset.singleton_add, Multiset.cons_coe]
          exact Multiset.coe_eq_coe.2 (List.perm_cons_erase hheld).symm
        simp only [owns, inHand, hmove, add_zero]
      · cases hturn
  | waitConnectionSem =>
    simp only [turn] at hturn
    split at hturn
    · cases hturn
      refine h.turn rfl rfl ?_ rfl trivial (.inl rfl)
      simp only [uncounted]
      omega
    · cases hturn
  | waitPoolSem =>
    simp only [turn] at hturn
    split at hturn
    · cases hturn
      refine h.turn rfl ?_ rfl rfl ?_ (.inl rfl)
      · simp only [critical]
        omega
      · intro j slot hj
        omega
    · cases hturn
  | test ix =>
    simp only [turn] at hturn
    split at hturn
    · rename_i slot hslot
      cases hturn
      by_cases hfree : slot.free = true
      · simp only [hfree, if_true]
        exact h.turn rfl rfl rfl rfl ⟨slot, hslot, hfree⟩ (.inl rfl)
      · simp only [hfree, Bool.false_eq_true, if_false]
        refine h.turn rfl rfl rfl rfl ?_ (.inl rfl)
        intro j slot' hj hslot'
        obtain hlt | rfl : j < ix ∨ j = ix := by omega
        · exact hlocated j slot' hlt hslot'
        · rw [hslot] at hslot'
          cases hslot'
          simpa using hfree
    · rename_i hnone
      exact absurd hnone (h.free_slot_ahead rfl)
  | mark ix =>
    cases hturn
    obtain ⟨slot, hslot, hfree⟩ := hlocated
    refine h.turn (map_connection_setFree _ _ _) rfl ?_ ?_ trivial (.inr rfl)
    · have hslots := freeSlots_mark hslot hfree
      simp only [uncounted]
      omega
    · have hread : connections[ix]? = some slot.connection := by
        rw [← h.connections_eq, List.getElem?_map, hslot, Option.map_some]
      simp only [owns, inHand, hread, busy_mark hslot hfree, Option.toList_some, Multiset.coe_singleton,
        ← Multiset.singleton_add, add_zero, add_assoc]
  | read ix =>
    obtain ⟨slot, hslot, hr⟩ := Option.map_eq_some_iff.1 hturn
    cases hr
    refine h.turn rfl rfl rfl ?_ trivial (.inl rfl)
    have hread : connections[ix]? = some slot.connection := by
      rw [← h.connections_eq, List.getElem?_map, hslot, Option.map_some]
    simp only [owns, inHand, hread, Option.toList_some, Multiset.coe_singleton]
  | postPoolSem connection =>
    cases hturn
    exact h.turn rfl rfl rfl rfl trivial (.inl rfl)
  | returning connection =>
    cases hturn
    refine h.turn rfl rfl rfl ?_ trivial (.inl rfl)
    simp only [owns, inHand, ← Multiset.cons_coe, ← Multiset.singleton_add, add_zero]
    exact congrArg (· + _) (add_comm _ _)
  | releaseWaitPoolSem connection =>
    simp only [turn] at hturn
    split at hturn
    · cases hturn
      refine h.turn rfl ?_ rfl rfl ?_ (.inl rfl)
      · simp only [critical]
        omega
      · intro j slot hj
        omega
    · cases hturn
  | releaseTest ix connection =>
    simp only [turn] at hturn
    split at hturn
    · rename_i slot hslot
      cases hturn
      by_cases hconnection : slot.connection = connection
      · simp only [hconnection, if_true]
        exact h.turn rfl rfl rfl rfl ⟨slot, hslot, hconnection⟩ (.inl rfl)
      · simp only [hconnection, if_false]
        refine h.turn rfl rfl rfl rfl ?_ (.inl rfl)
        intro j slot' hj hslot'
        obtain hlt | rfl : j < ix ∨ j = ix := by omega
        · exact hlocated j slot' hlt hslot'
        · rw [hslot] at hslot'
          cases hslot'
          exact hconnection
    · rename_i hnone
      exact absurd hnone (h.slot_ahead rfl)
  | releaseMark ix connection =>
    cases hturn
    obtain ⟨slot, hslot, hconnection⟩ := hlocated
    have hbusy := h.releaseMark_busy hnodup rfl hslot hconnection
    refine h.turn (map_connection_setFree _ _ _) rfl ?_ ?_ trivial (.inr rfl)
    · have hslots := freeSlots_release hslot hbusy
      simp only [uncounted]
      omega
    · simp only [owns, inHand, busy_release hslot hbusy, hconnection, ← Multiset.singleton_add, add_zero, add_assoc]
  | releasePostConnectionSem =>
    cases hturn
    exact h.turn rfl rfl rfl rfl trivial (.inl rfl)
  | releasePostPoolSem =>
    cases hturn
    exact h.turn rfl rfl rfl rfl trivial (.inl rfl)

theorem inv_initial (connections : List (Option Nat)) (threads : Nat) :
    Inv connections (initial connections threads).shared (initial connections threads).threads := by
  have hthreads : ((initial connections threads).threads : Multiset Thread) =
      Multiset.replicate threads { held := [], pc := .idle } := Multiset.coe_replicate _ _
  rw [hthreads]
  refine ⟨?_, ?_, ?_, ?_, ?_⟩
  · simp [initial, Function.comp_def]
  · simp [initial, critical]
  · simp [initial, uncounted, freeSlots, List.countP_map, Function.comp_def]
  · simp [initial, owns, inHand, busy, List.filter_map, Function.comp_def]
  · intro t ht
    rw [Multiset.eq_of_mem_replicate ht]
    trivial

end Invariant

/-! ### The pool in any run -/

theorem held_le_owned (connections : List (Option Nat)) (threads : List Thread) :
    (threads.flatMap (·.held) : Multiset (Option Nat)) ≤ ((threads : Multiset Thread).map (owns connections)).sum := by
  induction threads with
  | nil => exact le_refl _
  | cons t threads ih =>
    rw [List.flatMap_cons, ← Multiset.coe_add, ← Multiset.cons_coe, Multiset.map_cons, Multiset.sum_cons]
    have hheld : (t.held : Multiset (Option Nat)) ≤ owns connections t := le_add_of_nonneg_right (Multiset.zero_le _)
    exact add_le_add hheld ih

/-- `mongoPoolConnectionGet` never returns NULL, no connection is held twice, and between the calls `connectionSem` is
the number of free slots. -/
theorem connections_exclusive {connections : List (Option Nat)} (hnodup : connections.Nodup) (hnull : none ∉ connections)
    {threads : Nat} {moves : List (Move Call)} {st : State Shared Thread}
    (h : StepRun.run (step turn alone) moves (initial connections threads) = some st) :
    (st.threads.flatMap (·.held)).Nodup ∧
      ((∀ t ∈ st.threads, t.pc = .idle) → st.shared.connectionSem = freeSlots st.shared.connectionPool) ∧
      ∀ t ∈ st.threads, t.pc ≠ .returning none := by
  have hinv : Inv connections st.shared st.threads :=
    invariant_of_run (fun _ hI hturn => inv_of_turn hnodup hI hturn) (fun _ hmeet => absurd hmeet not_meet_alone)
      meets_true (inv_initial connections threads) h
  have hle : ((st.threads : Multiset Thread).map (owns connections)).sum ≤ (connections : Multiset (Option Nat)) := by
    rw [hinv.owned, ← hinv.connections_eq]
    exact busy_le _
  refine ⟨?_, ?_, ?_⟩
  · exact Multiset.coe_nodup.1 (Multiset.nodup_of_le ((held_le_owned _ _).trans hle) (Multiset.coe_nodup.2 hnodup))
  · intro hidle
    have hzero : ((st.threads : Multiset Thread).map fun t => uncounted t.pc).sum = 0 := by
      refine Multiset.sum_eq_zero fun n hn => ?_
      obtain ⟨t, ht, rfl⟩ := Multiset.mem_map.1 hn
      rw [hidle t ht]
      rfl
    have hcounted := hinv.counted
    omega
  · intro t ht hpc
    have hmem : none ∈ owns connections t := by simp [owns, hpc, inHand]
    have hsum : none ∈ ((st.threads : Multiset Thread).map (owns connections)).sum :=
      Multiset.mem_of_le (Multiset.le_sum_of_mem (Multiset.mem_map_of_mem _ (Multiset.mem_coe.2 ht))) hmem
    exact hnull (Multiset.mem_coe.1 (Multiset.mem_of_le hle hsum))

/-- Two threads take turns: both wait until the other is away from the slots, and get different connections. -/
def alternate : List (Move Call) :=
  [.turn 0 .get, .turn 1 .get, .turn 0 .get, .turn 1 .get, .turn 0 .get, .turn 0 .get, .turn 0 .get, .turn 0 .get,
    .turn 0 .get, .turn 1 .get, .turn 0 .get, .turn 1 .get, .turn 1 .get, .turn 1 .get, .turn 1 .get, .turn 1 .get,
    .turn 1 .get, .turn 0 (.release (some 5))]

theorem connections_exclusive_alternate :
    let st : State Shared Thread :=
      { shared :=
          { connectionPool := [{ connection := some 5, free := false }, { connection := some 8, free := false }]
            connectionSem := 0
            connectionPoolSem := 1 }
        threads :=
          [{ held := [], pc := .releaseWaitPoolSem (some 5) }, { held := [some 8], pc := .idle }] }
    StepRun.run (step turn alone) alternate (initial [some 5, some 8] 2) = some st ∧
      (st.threads.flatMap (·.held)).Nodup ∧
      ((∀ t ∈ st.threads, t.pc = .idle) → st.shared.connectionSem = freeSlots st.shared.connectionPool) ∧
      ∀ t ∈ st.threads, t.pc ≠ .returning none :=
  ⟨rfl, @connections_exclusive [some 5, some 8] (by decide) (by decide) 2 alternate _ rfl⟩

end OrionBroker.Pool
