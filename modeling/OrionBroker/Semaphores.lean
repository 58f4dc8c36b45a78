import Mathlib.Data.List.Count
import OrionBroker.Threads

/-!
# The semaphores of the broker

The request semaphore and the cache semaphore (`sem.cpp`), and the pool of the database connections with its two
semaphores (`mongoConnectionPool.cpp`): `connectionSem` counts the free connections, `connectionPoolSem` protects the
vector of the pool.  A thread takes the semaphores in this order, and gives back all it takes (`discipline`); the values
of the semaphores and the slots of the pool then account for what the threads have in hand (`sound_accounts`).
-/

namespace OrionBroker.Locks

open Threads

/-- `SemOpType`: the operations that the request semaphore protects. -/
inductive SemOpType
  | readOp
  | writeOp
  | readWriteOp
  | noneOp
  deriving DecidableEq

inductive Semaphore
  | reqSem
  | cacheSem
  | connectionSem
  | connectionPoolSem
  deriving DecidableEq

/-- The place of a semaphore in the order in which the broker takes them. -/
def Semaphore.rank : Semaphore → Nat
  | .reqSem => 0
  | .cacheSem => 1
  | .connectionSem => 2
  | .connectionPoolSem => 3

/-- A slot of the pool; without a connection it holds NULL. -/
structure MongoConnection where
  connection : Option Nat
  free : Bool

/-- What the threads share. -/
structure Broker where
  sem : Semaphore → Nat
  connectionPool : List MongoConnection

def Broker.setSem (b : Broker) (s : Semaphore) (value : Nat) : Broker :=
  { b with sem := fun l => if l = s then value else b.sem l }

/-- The slots of the pool from the place `ix` on. -/
def slotsFrom (ix : Nat) : List Bool → List MongoConnection
  | [] => []
  | ok :: connected => { connection := if ok then some ix else none, free := true } :: slotsFrom (ix + 1) connected

/-- `mongoConnectionPoolInit`: a slot holds what `mongoConnect` returns, which is NULL if there is no connection to the
database after the last retry.  Each connection is an object of its own. -/
def mongoConnectionPoolInit (connected : List Bool) : List MongoConnection := slotsFrom 0 connected

/-- The value of each semaphore when nobody has taken it. -/
def capacity (poolSize : Nat) : Semaphore → Nat
  | .connectionSem => poolSize
  | _ => 1

/-- `semInit` and `mongoConnectionPoolInit`. -/
def Broker.init (connected : List Bool) : Broker where
  sem := capacity connected.length
  connectionPool := mongoConnectionPoolInit connected

/-! ### Steps of the threads -/

/-- The loop of `mongoPoolConnectionGet`: the first free slot is taken. -/
def takeSlot : List MongoConnection → Option Nat × List MongoConnection
  | [] => (none, [])
  | slot :: pool =>
    if slot.free then (slot.connection, { slot with free := false } :: pool)
    else ((takeSlot pool).1, slot :: (takeSlot pool).2)

/-- The loop of `mongoPoolConnectionRelease`: the first slot with this connection is free again.  `connectionSem` is
given back only if there is one. -/
def freeSlot (connection : Option Nat) : List MongoConnection → Bool × List MongoConnection
  | [] => (false, [])
  | slot :: pool =>
    if slot.connection = connection then (true, { slot with free := true } :: pool)
    else ((freeSlot connection pool).1, slot :: (freeSlot connection pool).2)

/-- What a thread does with the shared state.  What an operation of the database gives, and what the code decides on
the data of a request or of a document, is any `outcome`; how much there is of it is any `amount`. -/
inductive Action
  | semWait (s : Semaphore)
  | semPost (s : Semaphore)
  | takeSlot
  | freeSlot (connection : Option Nat)
  | outcome
  | amount

def Answer : Action → Type
  | .semWait _ => Unit
  | .semPost _ => Unit
  | .takeSlot => Option Nat
  | .freeSlot _ => Bool
  | .outcome => Bool
  | .amount => Nat

/-- A program of a thread of the broker. -/
abbrev Thread (α : Type) := Prog Answer α

/-- `sem_wait` is not possible on a semaphore of value zero; all else is. -/
def perform : (a : Action) → Nat → Broker → Option (Answer a × Broker)
  | .semWait s, _, b => if b.sem s = 0 then none else some ((), b.setSem s (b.sem s - 1))
  | .semPost s, _, b => some ((), b.setSem s (b.sem s + 1))
  | .takeSlot, _, b => some ((takeSlot b.connectionPool).1, { b with connectionPool := (takeSlot b.connectionPool).2 })
  | .freeSlot connection, _, b =>
    some ((freeSlot connection b.connectionPool).1,
      { b with connectionPool := (freeSlot connection b.connectionPool).2 })
  | .outcome, choice, b => some (choice != 0, b)
  | .amount, choice, b => some (choice, b)

/-- The next action of the thread is to take a semaphore that nobody has left. -/
def Blocked (b : Broker) (s : Semaphore) : Thread Unit → Prop
  | .act (.semWait l) _ => l = s ∧ b.sem s = 0
  | _ => False

/-- The slot that is taken holds a connection. -/
def HandsOutConnection (a : Action) (b : Broker) : Prop :=
  ∀ slot, a = .takeSlot → b.connectionPool.find? (·.free) = some slot → slot.connection.isSome

/-! ### What a thread has in hand -/

/-- The semaphores that a thread has taken and not given back, and its connection. -/
structure Held where
  reqSem : Bool
  cacheSem : Bool
  connectionSem : Bool
  connectionPoolSem : Bool
  slot : Option Nat

namespace Held

def nothing : Held := ⟨false, false, false, false, none⟩

def has (h : Held) : Semaphore → Bool
  | .reqSem => h.reqSem
  | .cacheSem => h.cacheSem
  | .connectionSem => h.connectionSem
  | .connectionPoolSem => h.connectionPoolSem

def set (h : Held) (s : Semaphore) (taken : Bool) : Held :=
  match s with
  | .reqSem => { h with reqSem := taken }
  | .cacheSem => { h with cacheSem := taken }
  | .connectionSem => { h with connectionSem := taken }
  | .connectionPoolSem => { h with connectionPoolSem := taken }

theorem has_set (h : Held) (s l : Semaphore) (taken : Bool) :
    (h.set s taken).has l = if l = s then taken else h.has l := by
  cases s <;> cases l <;> rfl

@[simp] theorem set_slot (h : Held) (s : Semaphore) (taken : Bool) : (h.set s taken).slot = h.slot := by
  cases s <;> rfl

theorem has_nothing (s : Semaphore) : nothing.has s = false := by
  cases s <;> rfl

end Held

/-- A semaphore is taken only by a thread that has none of the same or of a higher rank, and is given back by a thread
that has it; a thread takes one slot, for which it has taken `connectionSem`, and frees its own slot. -/
def discipline : Discipline Answer Held where
  idle := .nothing
  may
    | h, .semWait s => ∀ l, h.has l = true → l.rank < s.rank
    | h, .semPost s => h.has s = true ∧ (s = .connectionSem → h.slot = none)
    | h, .takeSlot => h.connectionSem = true ∧ h.slot = none
    | h, .freeSlot connection => connection.isSome ∧ h.slot = connection
    | _, .outcome => True
    | _, .amount => True
  expects
    | _, .takeSlot, connection => connection.isSome
    | _, .freeSlot _, found => found = true
    | _, _, _ => True
  after
    | h, .semWait s, _ => h.set s true
    | h, .semPost s, _ => h.set s false
    | h, .takeSlot, connection => { h with slot := connection }
    | h, .freeSlot _, _ => { h with slot := none }
    | h, _, _ => h

/-- The semaphores and the slots of the pool account for what the threads have in hand. -/
structure Accounts (poolSize : Nat) (b : Broker) (held : List Held) : Prop where
  sems : ∀ s, b.sem s + held.countP (·.has s) = capacity poolSize s
  slots : ∀ c, b.connectionPool.countP (fun slot => !slot.free && slot.connection == some c) =
    held.countP (·.slot == some c)
  taken : b.connectionPool.countP (!·.free) = held.countP (·.slot.isSome)
  distinct : ∀ c, b.connectionPool.countP (·.connection == some c) ≤ 1
  size : b.connectionPool.length = poolSize
  slotted : ∀ h ∈ held, h.slot.isSome → h.connectionSem = true

/-! ### The loops over the pool -/

section Pool

variable {pool : List MongoConnection} {slot : MongoConnection}

theorem takeSlot_connection (h : pool.find? (·.free) = some slot) : (takeSlot pool).1 = slot.connection := by
  induction pool with
  | nil => cases h
  | cons first pool ih =>
    by_cases hfree : first.free
    · simp only [List.find?_cons_of_pos hfree, Option.some.injEq] at h
      subst h
      simp [takeSlot, hfree]
    · simp only [List.find?_cons_of_neg hfree] at h
      simpa [takeSlot, hfree] using ih h

/-- A slot counts afterwards as it did before, but for the one that is taken. -/
theorem countP_takeSlot (h : pool.find? (·.free) = some slot) (q : MongoConnection → Bool) :
    (takeSlot pool).2.countP q + (q slot).toNat = pool.countP q + (q { slot with free := false }).toNat := by
  induction pool with
  | nil => cases h
  | cons first pool ih =>
    by_cases hfree : first.free
    · simp only [List.find?_cons_of_pos hfree, Option.some.injEq] at h
      subst h
      simp only [takeSlot, hfree, if_true, List.countP_cons]
      cases q first <;> cases q { first with free := false } <;> simp
    · simp only [List.find?_cons_of_neg hfree] at h
      have ih := ih h
      simp only [takeSlot, if_neg hfree, List.countP_cons]
      omega

theorem length_takeSlot (pool : List MongoConnection) : (takeSlot pool).2.length = pool.length := by
  induction pool with
  | nil => rfl
  | cons first pool ih =>
    unfold takeSlot
    split
    · rfl
    · simpa using ih

theorem length_freeSlot (c : Option Nat) (pool : List MongoConnection) : (freeSlot c pool).2.length = pool.length := by
  induction pool with
  | nil => rfl
  | cons first pool ih =>
    unfold freeSlot
    split
    · rfl
    · simpa using ih

/-- If only one slot has the connection and this slot is taken, it is the one that is freed. -/
theorem freeSlot_taken {c : Nat} (hone : pool.countP (·.connection == some c) ≤ 1)
    (htaken : 0 < pool.countP (fun slot => !slot.free && slot.connection == some c)) :
    (freeSlot (some c) pool).1 = true ∧ ∀ q : MongoConnection → Bool,
      (freeSlot (some c) pool).2.countP q + (q ⟨some c, false⟩).toNat = pool.countP q + (q ⟨some c, true⟩).toNat := by
  induction pool with
  | nil => simp at htaken
  | cons first pool ih =>
    by_cases hc : first.connection = some c
    · have hrest : pool.countP (·.connection == some c) = 0 := by
        simp only [List.countP_cons, hc, BEq.rfl, if_true] at hone
        omega
      have hrest' : pool.countP (fun slot => !slot.free && slot.connection == some c) = 0 := by
        rw [List.countP_eq_zero] at hrest ⊢
        intro slot hslot hboth
        exact hrest slot hslot ((Bool.and_eq_true _ _ ▸ hboth).2)
      have hfirst : first = ⟨some c, false⟩ := by
        obtain ⟨connection, free⟩ := first
        simp only at hc
        subst hc
        cases free with
        | false => rfl
        | true => simp [hrest'] at htaken
      subst hfirst
      refine ⟨by simp [freeSlot], fun q => ?_⟩
      simp only [freeSlot, if_true, List.countP_cons]
      cases q ⟨some c, false⟩ <;> cases q ⟨some c, true⟩ <;> simp
    · have hone' : pool.countP (·.connection == some c) ≤ 1 := by
        simp only [List.countP_cons] at hone
        omega
      have htaken' : 0 < pool.countP (fun slot => !slot.free && slot.connection == some c) := by
        simpa [List.countP_cons, hc] using htaken
      obtain ⟨hfound, hcount⟩ := ih hone' htaken'
      refine ⟨by simpa [freeSlot, hc] using hfound, fun q => ?_⟩
      have hcount := hcount q
      simp only [freeSlot, hc, if_false, List.countP_cons]
      omega

end Pool

/-! ### The accounts -/

section Accounts

variable {poolSize : Nat} {b : Broker} {before after : List Held} {h h' : Held}

theorem sem_setSem (b : Broker) (s l : Semaphore) (value : Nat) :
    (b.setSem s value).sem l = if l = s then value else b.sem l := rfl

/-- The hands in the middle of which one hand has changed: the others count as they did. -/
theorem countP_middle (q : Held → Bool) (before after : List Held) (h : Held) :
    (before ++ h :: after).countP q = before.countP q + after.countP q + (q h).toNat := by
  rw [List.countP_append, List.countP_cons]
  have hone : (if q h = true then 1 else 0) = (q h).toNat := by cases q h <;> rfl
  omega

/-- A thread that waits for a semaphore, or gives it back: the value and its hand change together. -/
theorem Accounts.setSem (hacc : Accounts poolSize b (before ++ h :: after)) {s : Semaphore} {value : Nat} {taken : Bool}
    (hvalue : value + taken.toNat = b.sem s + (h.has s).toNat)
    (hslot : h.slot.isSome → s = .connectionSem → taken = true) :
    Accounts poolSize (b.setSem s value) (before ++ h.set s taken :: after) where
  sems := by
    intro l
    have hl := hacc.sems l
    rw [countP_middle] at hl ⊢
    rw [sem_setSem, Held.has_set]
    by_cases hls : l = s
    · subst hls
      simp only [if_true]
      omega
    · simp only [hls, if_false]
      exact hl
  slots := by
    intro c
    have hc := hacc.slots c
    rw [countP_middle] at hc ⊢
    rw [Held.set_slot]
    exact hc
  taken := by
    have ht := hacc.taken
    rw [countP_middle] at ht ⊢
    rw [Held.set_slot]
    exact ht
  distinct := hacc.distinct
  size := hacc.size
  slotted := by
    intro g hg hsome
    rcases List.mem_append.1 hg with hg | hg
    · exact hacc.slotted g (by simp [hg]) hsome
    · rcases List.mem_cons.1 hg with rfl | hg
      · rw [Held.set_slot] at hsome
        have hhas := hacc.slotted h (by simp) hsome
        show (h.set s taken).has .connectionSem = true
        rw [Held.has_set]
        split
        · exact hslot hsome (by simp_all)
        · exact hhas
      · exact hacc.slotted g (by simp [hg]) hsome

/-- A thread that has taken `connectionSem` and no slot yet finds a free one. -/
theorem Accounts.exists_free (hacc : Accounts poolSize b (before ++ h :: after)) (hsem : h.connectionSem = true)
    (hslot : h.slot = none) : ∃ slot, b.connectionPool.find? (·.free) = some slot := by
  have hsems := hacc.sems .connectionSem
  have htaken := hacc.taken
  rw [countP_middle] at hsems htaken
  simp only [Held.has, hsem, hslot, capacity, Option.isSome_none, Bool.toNat_true, Bool.toNat_false] at hsems htaken
  have hle : ∀ l : List Held, (∀ g ∈ l, g ∈ before ++ h :: after) →
      l.countP (·.slot.isSome) ≤ l.countP (·.connectionSem) :=
    fun l hl => List.countP_mono_left fun g hg hsome => hacc.slotted g (hl g hg) hsome
  have hbefore := hle before fun g hg => by simp [hg]
  have hafter := hle after fun g hg => by simp [hg]
  by_contra hnone
  have hnone : b.connectionPool.find? (·.free) = none := by
    cases hf : b.connectionPool.find? (·.free) with
    | none => rfl
    | some slot => exact absurd ⟨slot, hf⟩ hnone
  have hall : b.connectionPool.countP (!·.free) = b.connectionPool.length := by
    rw [List.countP_eq_length]
    intro slot hslot
    simpa using List.find?_eq_none.1 hnone slot hslot
  have hsize := hacc.size
  omega

/-- A thread takes the slot of a connection. -/
theorem Accounts.slotTaken (hacc : Accounts poolSize b (before ++ h :: after)) (hsem : h.connectionSem = true)
    (hslot : h.slot = none) {slot : MongoConnection} (hfree : b.connectionPool.find? (·.free) = some slot) {c : Nat}
    (hc : slot.connection = some c) :
    Accounts poolSize { b with connectionPool := (takeSlot b.connectionPool).2 }
      (before ++ { h with slot := some c } :: after) where
  sems := by
    intro s
    have hs := hacc.sems s
    rw [countP_middle] at hs ⊢
    exact hs
  slots := by
    intro c'
    have hc' := hacc.slots c'
    have hcount := countP_takeSlot hfree fun slot => !slot.free && slot.connection == some c'
    have hwas : slot.free = true := by simpa using List.find?_some hfree
    rw [countP_middle] at hc' ⊢
    simp only [hslot, hwas, hc] at hc' hcount ⊢
    simp at hc' hcount ⊢
    omega
  taken := by
    have ht := hacc.taken
    have hcount := countP_takeSlot hfree fun slot => !slot.free
    have hwas : slot.free = true := by simpa using List.find?_some hfree
    rw [countP_middle] at ht ⊢
    simp only [hslot, hwas] at ht hcount ⊢
    simp at ht hcount ⊢
    omega
  distinct := by
    intro c'
    have hcount := countP_takeSlot hfree fun slot => slot.connection == some c'
    have hdistinct := hacc.distinct c'
    simp only at hcount ⊢
    omega
  size := (length_takeSlot _).trans hacc.size
  slotted := by
    intro g hg hsome
    rcases List.mem_append.1 hg with hg | hg
    · exact hacc.slotted g (by simp [hg]) hsome
    · rcases List.mem_cons.1 hg with rfl | hg
      · exact hsem
      · exact hacc.slotted g (by simp [hg]) hsome

/-- A thread gives its slot back. -/
theorem Accounts.slotFreed (hacc : Accounts poolSize b (before ++ h :: after)) {c : Nat} (hslot : h.slot = some c) :
    (freeSlot (some c) b.connectionPool).1 = true ∧
    Accounts poolSize { b with connectionPool := (freeSlot (some c) b.connectionPool).2 }
      (before ++ { h with slot := none } :: after) := by
  have htaken : 0 < b.connectionPool.countP (fun slot => !slot.free && slot.connection == some c) := by
    rw [hacc.slots c, countP_middle, hslot]
    simp
  obtain ⟨hfound, hcount⟩ := freeSlot_taken (hacc.distinct c) htaken
  refine ⟨hfound, ?_, ?_, ?_, ?_, ?_, ?_⟩
  · intro s
    have hs := hacc.sems s
    rw [countP_middle] at hs ⊢
    exact hs
  · intro c'
    have hc' := hacc.slots c'
    have hcount := hcount fun slot => !slot.free && slot.connection == some c'
    rw [countP_middle] at hc' ⊢
    simp only [hslot] at hc' ⊢
    simp at hc' hcount ⊢
    omega
  · have ht := hacc.taken
    have hcount := hcount fun slot => !slot.free
    rw [countP_middle] at ht ⊢
    simp only [hslot] at ht ⊢
    simp at ht hcount ⊢
    omega
  · intro c'
    have hcount := hcount fun slot => slot.connection == some c'
    have hdistinct := hacc.distinct c'
    simp only at hcount ⊢
    omega
  · exact (length_freeSlot _ _).trans hacc.size
  · intro g hg hsome
    rcases List.mem_append.1 hg with hg | hg
    · exact hacc.slotted g (by simp [hg]) hsome
    · rcases List.mem_cons.1 hg with rfl | hg
      · simp at hsome
      · exact hacc.slotted g (by simp [hg]) hsome

theorem Accounts.start {held : List Held} (hacc : Accounts poolSize b held) :
    Accounts poolSize b (held ++ [.nothing]) where
  sems := by
    intro s
    have hs := hacc.sems s
    simpa [List.countP_append, Held.has_nothing] using hs
  slots := by
    intro c
    simpa [List.countP_append, Held.nothing] using hacc.slots c
  taken := by simpa [List.countP_append, Held.nothing] using hacc.taken
  distinct := hacc.distinct
  size := hacc.size
  slotted := by
    intro g hg hsome
    rcases List.mem_append.1 hg with hg | hg
    · exact hacc.slotted g hg hsome
    · rw [List.mem_singleton.1 hg] at hsome
      cases hsome

/-- Whatever the discipline allows a thread to do, the accounts are kept. -/
theorem Accounts.turn (hacc : Accounts poolSize b (before ++ h :: after)) {a : Action} (hmay : discipline.may h a)
    (hhands : HandsOutConnection a b) {choice : Nat} {r : Answer a} {b' : Broker}
    (hperform : perform a choice b = some (r, b')) :
    discipline.expects h a r ∧ Accounts poolSize b' (before ++ discipline.after h a r :: after) := by
  cases a with
  | semWait s =>
    have hno : h.has s = false := by
      by_contra hhas
      exact Nat.lt_irrefl _ (hmay s (by simpa using hhas))
    simp only [perform] at hperform
    split at hperform
    · cases hperform
    · cases hperform
      refine ⟨trivial, hacc.setSem ?_ fun _ _ => rfl⟩
      rw [hno]
      simp only [Bool.toNat_true, Bool.toNat_false]
      omega
  | semPost s =>
    cases hperform
    refine ⟨trivial, hacc.setSem ?_ fun hsome hs => ?_⟩
    · rw [hmay.1]
      rfl
    · rw [hmay.2 hs] at hsome
      cases hsome
  | takeSlot =>
    cases hperform
    obtain ⟨slot, hslot⟩ := hacc.exists_free hmay.1 hmay.2
    obtain ⟨c, hc⟩ := Option.isSome_iff_exists.1 (hhands slot rfl hslot)
    have htake := takeSlot_connection hslot
    refine ⟨by rw [htake, hc]; rfl, ?_⟩
    show Accounts poolSize _ (before ++ { h with slot := (takeSlot b.connectionPool).1 } :: after)
    rw [htake, hc]
    exact hacc.slotTaken hmay.1 hmay.2 hslot hc
  | freeSlot connection =>
    cases hperform
    obtain ⟨c, rfl⟩ := Option.isSome_iff_exists.1 hmay.1
    exact hacc.slotFreed hmay.2
  | outcome =>
    cases hperform
    exact ⟨trivial, hacc⟩
  | amount =>
    cases hperform
    exact ⟨trivial, hacc⟩

theorem sound_accounts (poolSize : Nat) : Sound perform discipline HandsOutConnection (Accounts poolSize) where
  start := Accounts.start
  turn := fun hacc hmay hhands hperform => hacc.turn hmay hhands hperform

/-- The connections of the pool are objects of their own. -/
theorem countP_slotsFrom (c ix : Nat) (connected : List Bool) :
    (slotsFrom ix connected).countP (·.connection == some c) ≤ if ix ≤ c then 1 else 0 := by
  induction connected generalizing ix with
  | nil => simp [slotsFrom]
  | cons ok connected ih =>
    have ih := ih (ix + 1)
    simp only [slotsFrom, List.countP_cons]
    cases ok with
    | false =>
      have hfirst : ((none : Option Nat) == some c) = false := rfl
      simp only [Bool.false_eq_true, if_false, hfirst]
      by_cases hle : ix ≤ c
      · rw [if_pos hle]
        split at ih <;> omega
      · rw [if_neg hle]
        rw [if_neg (by omega)] at ih
        omega
    | true =>
      simp only [if_true, Option.some_beq_some, beq_iff_eq]
      by_cases hix : ix = c
      · rw [if_pos hix, if_pos (by omega)]
        rw [if_neg (by omega)] at ih
        omega
      · rw [if_neg hix]
        by_cases hle : ix ≤ c
        · rw [if_pos hle]
          split at ih <;> omega
        · rw [if_neg hle]
          rw [if_neg (by omega)] at ih
          omega

theorem mem_slotsFrom {ix : Nat} {connected : List Bool} {slot : MongoConnection}
    (h : slot ∈ slotsFrom ix connected) : slot.free = true := by
  induction connected generalizing ix with
  | nil => cases h
  | cons ok connected ih =>
    rcases List.mem_cons.1 h with rfl | h
    · rfl
    · exact ih h

theorem length_slotsFrom (ix : Nat) (connected : List Bool) : (slotsFrom ix connected).length = connected.length := by
  induction connected generalizing ix with
  | nil => rfl
  | cons ok connected ih => simpa [slotsFrom] using ih (ix + 1)

/-- The broker accounts for no thread at the start. -/
theorem accounts_init (connected : List Bool) : Accounts connected.length (.init connected) [] where
  sems := fun _ => rfl
  slots := by
    intro c
    rw [List.countP_nil, List.countP_eq_zero]
    intro slot hslot
    simp [mem_slotsFrom hslot]
  taken := by
    rw [List.countP_nil, List.countP_eq_zero]
    intro slot hslot
    simp [mem_slotsFrom hslot]
  distinct := fun c => (countP_slotsFrom c 0 connected).trans (by simp)
  size := length_slotsFrom 0 connected
  slotted := by simp

end Accounts

/-! ### The threads together -/

section NoDeadlock

variable {poolSize : Nat} {st : State Answer Broker}

/-- A semaphore that has no value left is in the hand of a thread. -/
theorem Accounts.exists_has {b : Broker} {held : List Held} (hacc : Accounts poolSize b held) (hsize : 1 ≤ poolSize)
    {s : Semaphore} (hs : b.sem s = 0) : ∃ h ∈ held, h.has s = true := by
  have hsems := hacc.sems s
  have hcapacity : 1 ≤ capacity poolSize s := by
    cases s
    · exact Nat.le_refl 1
    · exact Nat.le_refl 1
    · exact hsize
    · exact Nat.le_refl 1
  exact List.countP_pos_iff.1 (by omega)

/-- Who is blocked has only semaphores of a lower rank in hand. -/
theorem rank_lt_of_blocked {b : Broker} {t : Thread Unit} {h : Held} {Q : Unit → Held → Prop}
    (hkeeps : Keeps discipline t Q h) {s l : Semaphore} (hblocked : Blocked b s t) (hl : h.has l = true) :
    l.rank < s.rank := by
  cases t with
  | ret value => exact hblocked.elim
  | act a next =>
    cases a <;> first | exact hblocked.elim | skip
    obtain ⟨rfl, -⟩ := hblocked
    exact hkeeps.1 l hl

/-- Not all threads that have something to do are blocked. -/
theorem exists_not_blocked (hkept : Kept discipline (Accounts poolSize) st) (hsize : 1 ≤ poolSize)
    (hunfinished : ∃ t ∈ st.threads, ¬t.Ended) :
    ∃ t ∈ st.threads, ¬t.Ended ∧ ∀ s, ¬Blocked st.shared s t := by
  obtain ⟨held, hthreads, hacc⟩ := hkept
  have hlength := hthreads.length_eq
  have hkeeps : ∀ i : Fin st.threads.length,
      Keeps discipline (st.threads.get i) (fun _ h => h = .nothing) (held.get (i.cast hlength)) :=
    fun i => hthreads.get i.2 (i.cast hlength).2
  obtain ⟨t₀, ht₀, hnot₀⟩ := hunfinished
  obtain ⟨i₀, rfl⟩ := List.mem_iff_get.1 ht₀
  have hheld : ∀ (i : Fin st.threads.length) (s : Semaphore), Blocked st.shared s (st.threads.get i) →
      ∃ j : Fin st.threads.length, ¬(st.threads.get j).Ended ∧ (held.get (j.cast hlength)).has s = true := by
    intro i s hblocked
    have hzero : st.shared.sem s = 0 := by
      cases ht : st.threads.get i with
      | ret value => exact (ht ▸ hblocked : Blocked st.shared s (.ret value)).elim
      | act a next =>
        have hblocked : Blocked st.shared s (.act a next) := ht ▸ hblocked
        cases a <;> first | exact hblocked.elim | exact hblocked.2
    obtain ⟨h, hh, hhas⟩ := hacc.exists_has hsize hzero
    obtain ⟨j, rfl⟩ := List.mem_iff_get.1 hh
    refine ⟨j.cast hlength.symm, fun hended => ?_, hhas⟩
    have hj := hkeeps (j.cast hlength.symm)
    cases ht : st.threads.get (j.cast hlength.symm) with
    | ret value =>
      rw [ht] at hj
      have hnothing : held.get j = .nothing := hj
      rw [hnothing, Held.has_nothing] at hhas
      cases hhas
    | act a next => exact (ht ▸ hended : (Prog.act a next : Thread Unit).Ended)
  obtain ⟨i, hi, hfree⟩ := exists_unblocked Semaphore.rank hheld
    (fun i s l hblocked hl => rank_lt_of_blocked (hkeeps i) hblocked hl) hnot₀
  exact ⟨_, List.get_mem _ i, hi, hfree⟩

/-- Threads that have ended have nothing in hand. -/
theorem eq_nothing_of_ended {threads : List (Thread Unit)} {held : List Held}
    (h : List.Forall₂ (Keeps discipline · fun _ h => h = .nothing) threads held) (hended : ∀ t ∈ threads, t.Ended) :
    ∀ g ∈ held, g = .nothing := by
  induction h with
  | nil => simp
  | @cons t g threads held hkeeps _ ih =>
    have hrest := ih fun t' ht' => hended t' (List.mem_cons_of_mem t ht')
    have hfirst : g = .nothing := by
      cases t with
      | ret value => exact hkeeps
      | act a next => exact (hended _ (List.mem_cons_self ..)).elim
    simpa [hfirst] using hrest

/-- When all threads have ended, everything is given back. -/
theorem all_free_of_ended (hkept : Kept discipline (Accounts poolSize) st) (hended : ∀ t ∈ st.threads, t.Ended) :
    (∀ s, st.shared.sem s = capacity poolSize s) ∧ ∀ slot ∈ st.shared.connectionPool, slot.free = true := by
  obtain ⟨held, hthreads, hacc⟩ := hkept
  have hnothing := eq_nothing_of_ended hthreads hended
  constructor
  · intro s
    have hs := hacc.sems s
    have hnone : held.countP (·.has s) = 0 := by
      rw [List.countP_eq_zero]
      intro h hh
      simp [hnothing h hh, Held.has_nothing]
    omega
  · intro slot hslot
    have htaken := hacc.taken
    have hnone : held.countP (·.slot.isSome) = 0 := by
      rw [List.countP_eq_zero]
      intro h hh
      simp [hnothing h hh, Held.nothing]
    rw [hnone, List.countP_eq_zero] at htaken
    simpa using htaken slot hslot

end NoDeadlock

end OrionBroker.Locks
