import Mathlib.Algebra.Order.BigOperators.Group.Multiset
import Mathlib.Algebra.Order.Group.Nat
import Mathlib.Algebra.Order.Group.Int
import OrionBroker.Interleaving
import OrionBroker.KeyedList

/-!
# The alarms (`AlarmManager.cpp`)

An alarm is raised or released by any thread; each read of the state, each change of it and each semaphore operation is
a turn of its own.  The alarms of the notifications and of the bad inputs are looked up with the semaphore in hand.  The
state `dbOk` of the database alarm is read without it, so that two threads can raise the one alarm.
-/

namespace OrionBroker.Alarms

open Interleaving

/-- The alarms with a map: one for each url, or for each ip. -/
inductive Kind
  | notification
  | badInput
  deriving DecidableEq

/-- `notificationV` or `badInputV`, how often an alarm was raised and released, and how many calls returned true. -/
structure AlarmMap where
  alarms : List (String × Int)
  raised : Int
  released : Int
  returnedTrue : Int
  deriving DecidableEq

/-- What the threads share; `dbTrue` is the number of calls of `dbError` and `dbErrorReset` that returned true. -/
structure AlarmManager where
  sem : Nat
  dbOk : Bool
  dbErrors : Int
  dbErrorResets : Int
  dbTrue : Int
  notification : AlarmMap
  badInput : AlarmMap
  deriving DecidableEq

namespace AlarmManager

def map (s : AlarmManager) : Kind → AlarmMap
  | .notification => s.notification
  | .badInput => s.badInput

def update (s : AlarmManager) (kind : Kind) (f : AlarmMap → AlarmMap) : AlarmManager :=
  match kind with
  | .notification => { s with notification := f s.notification }
  | .badInput => { s with badInput := f s.badInput }

@[simp] theorem map_update (s : AlarmManager) (kind kind' : Kind) (f : AlarmMap → AlarmMap) :
    (s.update kind f).map kind' = if kind' = kind then f (s.map kind) else s.map kind' := by
  cases kind <;> cases kind' <;> rfl

@[simp] theorem sem_update (s : AlarmManager) (kind : Kind) (f : AlarmMap → AlarmMap) : (s.update kind f).sem = s.sem := by
  cases kind <;> rfl

@[simp] theorem db_update (s : AlarmManager) (kind : Kind) (f : AlarmMap → AlarmMap) :
    (s.update kind f).dbOk = s.dbOk ∧ (s.update kind f).dbErrors = s.dbErrors ∧
      (s.update kind f).dbErrorResets = s.dbErrorResets ∧ (s.update kind f).dbTrue = s.dbTrue := by
  cases kind <;> exact ⟨rfl, rfl, rfl, rfl⟩

end AlarmManager

/-- The next thing a thread does.  The stages of `dbError` and `dbErrorReset` have the value that `dbOk` is set to; the
stages of the others have the alarm. -/
inductive Pc
  | idle
  | dbTest (value : Bool)
  | dbTake (value : Bool)
  | dbCount (value : Bool)
  | dbSet (value : Bool)
  | dbGive
  | take (kind : Kind) (reset : Bool) (key : String)
  | find (kind : Kind) (reset : Bool) (key : String)
  | again (kind : Kind) (key : String)
  | countRaised (kind : Kind) (key : String)
  | insert (kind : Kind) (key : String)
  | erase (kind : Kind) (key : String)
  | countReleased (kind : Kind)
  | give (kind : Kind) (result : Bool)
  deriving DecidableEq

/-- A thread; `badInputSeen` is a variable of its own. -/
structure Thread where
  badInputSeen : Bool
  pc : Pc
  deriving DecidableEq

/-- What a thread calls when it has no call in progress. -/
inductive Call
  | dbError
  | dbErrorReset
  | notificationError (url : String)
  | notificationErrorReset (url : String)
  | badInput (ip : String)
  | badInputReset (ip : String)

/-- The beginning of a call.  `badInput` returns at once in a thread that has called it before. -/
def Call.begin (t : Thread) : Call → Thread
  | .dbError => { t with pc := .dbTest false }
  | .dbErrorReset => { t with pc := .dbTest true }
  | .notificationError url => { t with pc := .take .notification false url }
  | .notificationErrorReset url => { t with pc := .take .notification true url }
  | .badInput ip => if t.badInputSeen then t else { badInputSeen := true, pc := .take .badInput false ip }
  | .badInputReset ip => { t with pc := .take .badInput true ip }

/-- The next stage of a thread that takes its turn, and what it does to what is shared. -/
def next (pc : Pc) (s : AlarmManager) : Option (Pc × AlarmManager) :=
  match pc with
  | .idle => none
  -- `dbError` and `dbErrorReset`; the first test is made without the semaphore
  | .dbTest value => some (if s.dbOk = value then .idle else .dbTake value, s)
  | .dbTake value => if 0 < s.sem then some (.dbCount value, { s with sem := s.sem - 1 }) else none
  | .dbCount false => some (.dbSet false, { s with dbErrors := s.dbErrors + 1 })
  | .dbCount true => some (.dbSet true, { s with dbErrorResets := s.dbErrorResets + 1 })
  | .dbSet value => some (.dbGive, { s with dbOk := value })
  | .dbGive => some (.idle, { s with sem := s.sem + 1, dbTrue := s.dbTrue + 1 })
  -- the alarms with a map
  | .take kind reset key => if 0 < s.sem then some (.find kind reset key, { s with sem := s.sem - 1 }) else none
  | .find kind reset key =>
    let exists' := key ∈ (s.map kind).alarms.map Prod.fst
    some
      (if reset then if exists' then .erase kind key else .give kind false
        else if exists' then .again kind key else .countRaised kind key, s)
  | .again kind key =>
    some (.give kind false,
      s.update kind fun m => { m with alarms := KeyedList.modify Prod.fst key (fun x => (x.1, x.2 + 1)) m.alarms })
  | .countRaised kind key => some (.insert kind key, s.update kind fun m => { m with raised := m.raised + 1 })
  | .insert kind key =>
    some (.give kind true,
      s.update kind fun m => { m with alarms := KeyedList.upsert Prod.fst key (fun x => (x.1, 1)) (key, 1) m.alarms })
  | .erase kind key =>
    some (.countReleased kind, s.update kind fun m => { m with alarms := m.alarms.eraseP fun x => x.1 = key })
  | .countReleased kind => some (.give kind true, s.update kind fun m => { m with released := m.released + 1 })
  | .give kind result =>
    some (.idle,
      { s with sem := s.sem + 1 }.update kind fun m =>
        { m with returnedTrue := m.returnedTrue + if result then 1 else 0 })

/-- One turn of a thread. -/
def turn (call : Call) (t : Thread) (s : AlarmManager) : Option (Thread × AlarmManager) :=
  if t.pc = .idle then some (call.begin t, s)
  else (next t.pc s).map fun (pc, s') => ({ t with pc := pc }, s')

/-- No alarm is active, and no thread has called anything. -/
def initial (threads : Nat) : State AlarmManager Thread where
  shared :=
    { sem := 1
      dbOk := true
      dbErrors := 0
      dbErrorResets := 0
      dbTrue := 0
      notification := { alarms := [], raised := 0, released := 0, returnedTrue := 0 }
      badInput := { alarms := [], raised := 0, released := 0, returnedTrue := 0 } }
  threads := List.replicate threads { badInputSeen := false, pc := .idle }

/-! ### What holds between any two turns -/

/-- The thread has the semaphore. -/
def hasSem : Pc → Nat
  | .dbCount _ | .dbSet _ | .dbGive => 1
  | .find _ _ _ | .again _ _ | .countRaised _ _ | .insert _ _ | .erase _ _ | .countReleased _ | .give _ _ => 1
  | .idle | .dbTest _ | .dbTake _ | .take _ _ _ => 0

/-- A raised alarm that is not yet in the map, or one that is no longer in the map and not yet counted as released. -/
def pending (kind : Kind) : Pc → Int
  | .insert kind' _ | .countReleased kind' => if kind' = kind then 1 else 0
  | _ => 0

/-- A change that was counted by a call that has still to return true. -/
def toReturn (kind : Kind) : Pc → Int
  | .insert kind' _ | .give kind' true => if kind' = kind then 1 else 0
  | _ => 0

def dbToReturn : Pc → Int
  | .dbSet _ | .dbGive => 1
  | _ => 0

/-- The database alarm has been counted as raised and is not yet active, or counted as released and still active. -/
def dbPending : Pc → Int
  | .dbSet false => 1
  | .dbSet true => -1
  | _ => 0

/-- What a thread has found out about the map. -/
def Located (s : AlarmManager) : Pc → Prop
  | .countRaised kind key | .insert kind key => key ∉ (s.map kind).alarms.map Prod.fst
  | .erase kind key => key ∈ (s.map kind).alarms.map Prod.fst
  | _ => True

/-- The invariant of the alarms, for all but the state of the database alarm. -/
structure Inv (s : AlarmManager) (threads : Multiset Thread) : Prop where
  exclusion : s.sem + (threads.map fun t => hasSem t.pc).sum = 1
  keys : ∀ kind, ((s.map kind).alarms.map Prod.fst).Nodup
  active : ∀ kind, (s.map kind).raised - (s.map kind).released =
    (s.map kind).alarms.length + (threads.map fun t => pending kind t.pc).sum
  returned : ∀ kind, (s.map kind).raised + (s.map kind).released =
    (s.map kind).returnedTrue + (threads.map fun t => toReturn kind t.pc).sum
  dbReturned : s.dbErrors + s.dbErrorResets = s.dbTrue + (threads.map fun t => dbToReturn t.pc).sum
  located : ∀ t ∈ threads, Located s t.pc

section Invariant

variable {s s' : AlarmManager} {t t' : Thread} {rest : Multiset Thread}

theorem located_of_not_hasSem {pc : Pc} (h : hasSem pc = 0) : Located s pc := by
  cases pc with
  | countRaised kind key | insert kind key | erase kind key => cases h
  | _ => trivial

/-- While a thread has the semaphore, no other has. -/
theorem rest_not_hasSem (h : s.sem + ((t ::ₘ rest).map fun t => hasSem t.pc).sum = 1) (ht : hasSem t.pc = 1) :
    ∀ u ∈ rest, hasSem u.pc = 0 :=
  @rest_holds_nothing _ (fun t => hasSem t.pc) t rest (by omega)

/-- The turn of a thread keeps the invariant if it does so for what the thread itself contributes. -/
theorem Inv.turn (h : Inv s (t ::ₘ rest)) (hsem : s'.sem + hasSem t'.pc = s.sem + hasSem t.pc)
    (hkeys : ∀ kind, ((s'.map kind).alarms.map Prod.fst).Nodup)
    (hactive : ∀ kind, (s'.map kind).raised - (s'.map kind).released +
        ((s.map kind).alarms.length + pending kind t.pc) =
      (s.map kind).raised - (s.map kind).released + ((s'.map kind).alarms.length + pending kind t'.pc))
    (hreturned : ∀ kind, (s'.map kind).raised + (s'.map kind).released +
        ((s.map kind).returnedTrue + toReturn kind t.pc) =
      (s.map kind).raised + (s.map kind).released + ((s'.map kind).returnedTrue + toReturn kind t'.pc))
    (hdb : s'.dbErrors + s'.dbErrorResets + (s.dbTrue + dbToReturn t.pc) =
      s.dbErrors + s.dbErrorResets + (s'.dbTrue + dbToReturn t'.pc))
    (hlocated : Located s' t'.pc) (hothers : (∀ kind, s'.map kind = s.map kind) ∨ hasSem t.pc = 1) :
    Inv s' (t' ::ₘ rest) := by
  refine ⟨?_, hkeys, fun kind => ?_, fun kind => ?_, ?_, ?_⟩
  · have hsum := h.exclusion
    rw [Multiset.map_cons, Multiset.sum_cons] at hsum ⊢
    omega
  · have hsum := h.active kind
    have hchange := hactive kind
    rw [Multiset.map_cons, Multiset.sum_cons] at hsum ⊢
    omega
  · have hsum := h.returned kind
    have hchange := hreturned kind
    rw [Multiset.map_cons, Multiset.sum_cons] at hsum ⊢
    omega
  · have hsum := h.dbReturned
    rw [Multiset.map_cons, Multiset.sum_cons] at hsum ⊢
    omega
  · intro u hu
    obtain rfl | hu := Multiset.mem_cons.1 hu
    · exact hlocated
    · obtain hmap | hhas := hothers
      · have hu' := h.located u (Multiset.mem_cons_of_mem hu)
        cases hpc : u.pc <;> simp_all [Located]
      · exact located_of_not_hasSem (rest_not_hasSem h.exclusion hhas u hu)

/-- A turn that is not about the maps. -/
theorem Inv.turn_frame (h : Inv s (t ::ₘ rest)) (hmap : ∀ kind, s'.map kind = s.map kind)
    (hsem : s'.sem + hasSem t'.pc = s.sem + hasSem t.pc) (hpending : ∀ kind, pending kind t'.pc = pending kind t.pc)
    (htoReturn : ∀ kind, toReturn kind t'.pc = toReturn kind t.pc)
    (hdb : s'.dbErrors + s'.dbErrorResets + (s.dbTrue + dbToReturn t.pc) =
      s.dbErrors + s.dbErrorResets + (s'.dbTrue + dbToReturn t'.pc))
    (hlocated : Located s' t'.pc) : Inv s' (t' ::ₘ rest) := by
  refine h.turn hsem (fun kind => ?_) (fun kind => ?_) (fun kind => ?_) hdb hlocated (.inl hmap)
  · rw [hmap]
    exact h.keys kind
  · rw [hmap, hpending]
  · rw [hmap, htoReturn]

/-- A turn at the map of one kind, by a thread that has the semaphore. -/
theorem Inv.turn_update (h : Inv s (t ::ₘ rest)) {kind : Kind} {f : AlarmMap → AlarmMap} (sem : Nat)
    (hhas : hasSem t.pc = 1) (hsem : sem + hasSem t'.pc = s.sem + 1)
    (hkeys : ((f (s.map kind)).alarms.map Prod.fst).Nodup)
    (hactive : (f (s.map kind)).raised - (f (s.map kind)).released +
        ((s.map kind).alarms.length + pending kind t.pc) =
      (s.map kind).raised - (s.map kind).released + ((f (s.map kind)).alarms.length + pending kind t'.pc))
    (hreturned : (f (s.map kind)).raised + (f (s.map kind)).released +
        ((s.map kind).returnedTrue + toReturn kind t.pc) =
      (s.map kind).raised + (s.map kind).released + ((f (s.map kind)).returnedTrue + toReturn kind t'.pc))
    (hpending : ∀ kind', kind' ≠ kind → pending kind' t'.pc = pending kind' t.pc)
    (htoReturn : ∀ kind', kind' ≠ kind → toReturn kind' t'.pc = toReturn kind' t.pc)
    (hdb : dbToReturn t'.pc = dbToReturn t.pc)
    (hlocated : Located ({ s with sem := sem }.update kind f) t'.pc) :
    Inv ({ s with sem := sem }.update kind f) (t' ::ₘ rest) := by
  have hmap : ∀ kind', ({ s with sem := sem } : AlarmManager).map kind' = s.map kind' := by
    intro kind'
    cases kind' <;> rfl
  obtain ⟨-, herrors, hresets, htrue⟩ := AlarmManager.db_update { s with sem := sem } kind f
  refine h.turn ?_ (fun kind' => ?_) (fun kind' => ?_) (fun kind' => ?_) ?_ hlocated (.inr hhas)
  · rw [AlarmManager.sem_update, hhas]
    exact hsem
  · rw [AlarmManager.map_update, hmap, hmap]
    split
    · exact hkeys
    · exact h.keys kind'
  · rw [AlarmManager.map_update, hmap, hmap]
    split
    · rename_i hkind
      rw [hkind]
      exact hactive
    · rename_i hkind
      rw [hpending kind' hkind]
  · rw [AlarmManager.map_update, hmap, hmap]
    split
    · rename_i hkind
      rw [hkind]
      exact hreturned
    · rename_i hkind
      rw [htoReturn kind' hkind]
  · rw [herrors, hresets, htrue, hdb]

theorem Call.begin_frame (call : Call) (t : Thread) (h : t.pc = .idle) :
    hasSem (call.begin t).pc = 0 ∧ (∀ kind, pending kind (call.begin t).pc = 0) ∧
      (∀ kind, toReturn kind (call.begin t).pc = 0) ∧ dbToReturn (call.begin t).pc = 0 ∧
      dbPending (call.begin t).pc = 0 ∧ ∀ value, (call.begin t).pc ≠ .dbSet value := by
  cases call with
  | badInput ip =>
    by_cases hseen : t.badInputSeen = true
    · simp only [Call.begin, hseen, if_true, h]
      exact ⟨rfl, fun _ => rfl, fun _ => rfl, rfl, rfl, nofun⟩
    · simp only [Call.begin, hseen, Bool.false_eq_true, if_false]
      exact ⟨rfl, fun _ => rfl, fun _ => rfl, rfl, rfl, nofun⟩
  | dbError | dbErrorReset | notificationError url | notificationErrorReset url | badInputReset ip =>
    exact ⟨rfl, fun _ => rfl, fun _ => rfl, rfl, rfl, nofun⟩

theorem length_eraseP_of_mem {l : List (String × Int)} {key : String} (h : key ∈ l.map Prod.fst) :
    (l.eraseP fun x => x.1 = key).length + 1 = l.length := by
  obtain ⟨x, hx, rfl⟩ := List.mem_map.1 h
  have hlength := List.length_eraseP_of_mem hx (p := fun y => y.1 = x.1) (by simp)
  have hpos := List.length_pos_of_mem hx
  omega

theorem inv_of_next {pc pc' : Pc} {seen : Bool} (h : Inv s ({ badInputSeen := seen, pc := pc } ::ₘ rest))
    (hnext : next pc s = some (pc', s')) : Inv s' ({ badInputSeen := seen, pc := pc' } ::ₘ rest) := by
  have hlocated := h.located _ (Multiset.mem_cons_self _ rest)
  cases pc with
  | idle => cases hnext
  | dbTest value =>
    cases hnext
    split
    · exact h.turn_frame (fun _ => rfl) rfl (fun _ => rfl) (fun _ => rfl) rfl trivial
    · exact h.turn_frame (fun _ => rfl) rfl (fun _ => rfl) (fun _ => rfl) rfl trivial
  | dbTake value =>
    simp only [next] at hnext
    split at hnext
    · cases hnext
      exact h.turn_frame (fun _ => rfl) (by simp only [hasSem]; omega) (fun _ => rfl) (fun _ => rfl) rfl trivial
    · cases hnext
  | dbCount value =>
    cases value with
    | false | true =>
      cases hnext
      exact h.turn_frame (fun kind => by cases kind <;> rfl) rfl (fun _ => rfl) (fun _ => rfl)
        (by simp only [dbToReturn]; omega) trivial
  | dbSet value =>
    cases hnext
    exact h.turn_frame (fun kind => by cases kind <;> rfl) rfl (fun _ => rfl) (fun _ => rfl) rfl trivial
  | dbGive =>
    cases hnext
    exact h.turn_frame (fun kind => by cases kind <;> rfl) rfl (fun _ => rfl) (fun _ => rfl)
      (by simp only [dbToReturn]; omega) trivial
  | take kind reset key =>
    simp only [next] at hnext
    split at hnext
    · cases hnext
      exact h.turn_frame (fun _ => rfl) (by simp only [hasSem]; omega) (fun _ => rfl) (fun _ => rfl) rfl trivial
    · cases hnext
  | find kind reset key =>
    cases hnext
    split
    · split
      · rename_i hmem
        exact h.turn_frame (fun _ => rfl) rfl (fun _ => rfl) (fun _ => rfl) rfl hmem
      · exact h.turn_frame (fun _ => rfl) rfl (fun _ => rfl) (fun _ => rfl) rfl trivial
    · split
      · exact h.turn_frame (fun _ => rfl) rfl (fun _ => rfl) (fun _ => rfl) rfl trivial
      · rename_i hmem
        exact h.turn_frame (fun _ => rfl) rfl (fun _ => rfl) (fun _ => rfl) rfl hmem
  | again kind key =>
    cases hnext
    have hkeys : (KeyedList.modify Prod.fst key (fun x => (x.1, x.2 + 1)) (s.map kind).alarms).map Prod.fst =
        (s.map kind).alarms.map Prod.fst :=
      @KeyedList.keys_modify _ _ _ Prod.fst (fun x => (x.1, x.2 + 1)) key (fun _ hx => hx) _
    have hlength := congrArg List.length hkeys
    rw [List.length_map, List.length_map] at hlength
    refine h.turn_update s.sem rfl rfl ?_ ?_ rfl (fun _ _ => rfl) (fun _ _ => rfl) rfl trivial
    · simp only [hkeys]
      exact h.keys kind
    · simp only [hlength, pending]
  | countRaised kind key =>
    cases hnext
    refine h.turn_update s.sem rfl rfl (h.keys kind) ?_ ?_ ?_ ?_ rfl ?_
    · simp only [pending, if_true]
      omega
    · simp only [toReturn, if_true]
      omega
    · intro kind' hkind
      simp only [pending, if_neg (Ne.symm hkind)]
    · intro kind' hkind
      simp only [toReturn, if_neg (Ne.symm hkind)]
    · have hmap := AlarmManager.map_update s kind kind fun m => { m with raised := m.raised + 1 }
      rw [if_pos rfl] at hmap
      simp only [Located, hmap]
      exact hlocated
  | insert kind key =>
    cases hnext
    have hkeys : (KeyedList.upsert Prod.fst key (fun x => (x.1, 1)) (key, 1) (s.map kind).alarms).map Prod.fst =
        (s.map kind).alarms.map Prod.fst ++ [key] := by
      rw [@KeyedList.keys_upsert _ _ _ Prod.fst (fun x => (x.1, 1)) (key, 1) key (fun _ => rfl) rfl, if_neg hlocated]
    have hlength := congrArg List.length hkeys
    rw [List.length_append, List.length_map, List.length_map, List.length_singleton] at hlength
    refine h.turn_update s.sem rfl rfl ?_ ?_ ?_ ?_ ?_ rfl trivial
    · exact @KeyedList.nodup_upsert _ _ _ Prod.fst (fun x => (x.1, 1)) (key, 1) key (fun _ => rfl) rfl _ (h.keys kind)
    · simp only [pending, if_true, hlength]
      omega
    · simp only [toReturn]
    · intro kind' hkind
      simp only [pending, if_neg (Ne.symm hkind)]
    · intro kind' hkind
      simp only [toReturn, if_neg (Ne.symm hkind)]
  | erase kind key =>
    cases hnext
    have hlength := length_eraseP_of_mem hlocated
    refine h.turn_update s.sem rfl rfl ?_ ?_ rfl ?_ (fun _ _ => rfl) rfl trivial
    · exact (List.eraseP_sublist.map _).nodup (h.keys kind)
    · simp only [pending, if_true]
      omega
    · intro kind' hkind
      simp only [pending, if_neg (Ne.symm hkind)]
  | countReleased kind =>
    cases hnext
    refine h.turn_update s.sem rfl rfl (h.keys kind) ?_ ?_ ?_ ?_ rfl trivial
    · simp only [pending, if_true]
      omega
    · simp only [toReturn, if_true]
      omega
    · intro kind' hkind
      simp only [pending, if_neg (Ne.symm hkind)]
    · intro kind' hkind
      simp only [toReturn, if_neg (Ne.symm hkind)]
  | give kind result =>
    cases hnext
    refine h.turn_update (s.sem + 1) rfl rfl (h.keys kind) rfl ?_ (fun _ _ => rfl) ?_ rfl trivial
    · cases result with
      | false => simp only [toReturn, Bool.false_eq_true, if_false]; omega
      | true => simp only [toReturn, if_true]; omega
    · intro kind' hkind
      cases result with
      | false => rfl
      | true => simp only [toReturn, if_neg (Ne.symm hkind)]

theorem inv_of_turn {call : Call} (h : Inv s (t ::ₘ rest)) (hturn : turn call t s = some (t', s')) :
    Inv s' (t' ::ₘ rest) := by
  unfold turn at hturn
  split at hturn
  · rename_i hidle
    cases hturn
    obtain ⟨hsem, hpending, htoReturn, hdb, -, -⟩ := call.begin_frame t hidle
    refine h.turn_frame (fun _ => rfl) ?_ ?_ ?_ ?_ (located_of_not_hasSem hsem)
    · rw [hsem, hidle, hasSem]
    · intro kind
      rw [hpending, hidle]
      rfl
    · intro kind
      rw [htoReturn, hidle]
      rfl
    · rw [hdb, hidle]
      rfl
  · obtain ⟨⟨pc, s''⟩, hnext, hr⟩ := Option.map_eq_some_iff.1 hturn
    cases hr
    exact inv_of_next h hnext

theorem inv_initial (threads : Nat) : Inv (initial threads).shared (initial threads).threads := by
  have hthreads : ((initial threads).threads : Multiset Thread) =
      Multiset.replicate threads { badInputSeen := false, pc := .idle } := Multiset.coe_replicate _ _
  rw [hthreads]
  refine ⟨?_, fun kind => ?_, fun kind => ?_, fun kind => ?_, ?_, ?_⟩
  · simp [initial, hasSem]
  · cases kind <;> exact List.nodup_nil
  · cases kind <;> simp [initial, AlarmManager.map, pending]
  · cases kind <;> simp [initial, AlarmManager.map, toReturn]
  · simp [initial, dbToReturn]
  · intro t ht
    rw [Multiset.eq_of_mem_replicate ht]
    trivial

/-! ### The state of the database alarm -/

/-- `dbOk` has still the value that the call has read, when the call counts. -/
def Fresh (_ : Call) (t : Thread) (s : AlarmManager) : Prop := ∀ value, t.pc = .dbCount value → s.dbOk = !value

instance (call : Call) (t : Thread) (s : AlarmManager) : Decidable (Fresh call t s) :=
  inferInstanceAs (Decidable (∀ value, t.pc = .dbCount value → s.dbOk = !value))

/-- The invariant of the database alarm. -/
structure DbInv (s : AlarmManager) (threads : Multiset Thread) : Prop where
  exclusion : s.sem + (threads.map fun t => hasSem t.pc).sum = 1
  active : s.dbErrors - s.dbErrorResets = (if s.dbOk then 0 else 1) + (threads.map fun t => dbPending t.pc).sum
  fresh : ∀ t ∈ threads, ∀ value, t.pc = .dbSet value → s.dbOk = !value

theorem DbInv.turn (h : DbInv s (t ::ₘ rest)) (hsem : s'.sem + hasSem t'.pc = s.sem + hasSem t.pc)
    (hactive : s'.dbErrors - s'.dbErrorResets + ((if s.dbOk then 0 else 1) + dbPending t.pc) =
      s.dbErrors - s.dbErrorResets + ((if s'.dbOk then 0 else 1) + dbPending t'.pc))
    (hfresh : ∀ value, t'.pc = .dbSet value → s'.dbOk = !value)
    (hothers : s'.dbOk = s.dbOk ∨ hasSem t.pc = 1) : DbInv s' (t' ::ₘ rest) := by
  refine ⟨?_, ?_, ?_⟩
  · have hsum := h.exclusion
    rw [Multiset.map_cons, Multiset.sum_cons] at hsum ⊢
    omega
  · have hsum := h.active
    rw [Multiset.map_cons, Multiset.sum_cons] at hsum ⊢
    omega
  · intro u hu value hpc
    obtain rfl | hu := Multiset.mem_cons.1 hu
    · exact hfresh value hpc
    · obtain hok | hhas := hothers
      · rw [hok]
        exact h.fresh u (Multiset.mem_cons_of_mem hu) value hpc
      · have hno := rest_not_hasSem h.exclusion hhas u hu
        rw [hpc] at hno
        cases hno

/-- A turn that is not about the database alarm. -/
theorem DbInv.turn_frame (h : DbInv s (t ::ₘ rest)) (hok : s'.dbOk = s.dbOk) (herrors : s'.dbErrors = s.dbErrors)
    (hresets : s'.dbErrorResets = s.dbErrorResets) (hsem : s'.sem + hasSem t'.pc = s.sem + hasSem t.pc)
    (hpending : dbPending t'.pc = dbPending t.pc) (hfresh : ∀ value, t'.pc ≠ .dbSet value) :
    DbInv s' (t' ::ₘ rest) := by
  refine h.turn hsem ?_ (fun value hpc => absurd hpc (hfresh value)) (.inl hok)
  rw [hok, herrors, hresets, hpending]

theorem DbInv.turn_update (h : DbInv s (t ::ₘ rest)) (kind : Kind) (f : AlarmMap → AlarmMap)
    (hsem : s.sem + hasSem t'.pc = s.sem + hasSem t.pc) (hpending : dbPending t'.pc = dbPending t.pc)
    (hfresh : ∀ value, t'.pc ≠ .dbSet value) : DbInv (s.update kind f) (t' ::ₘ rest) := by
  obtain ⟨hok, herrors, hresets, -⟩ := AlarmManager.db_update s kind f
  refine h.turn_frame hok herrors hresets ?_ hpending hfresh
  rw [AlarmManager.sem_update]
  exact hsem

theorem dbInv_of_next {pc pc' : Pc} {seen : Bool} {call : Call}
    (hcond : Fresh call { badInputSeen := seen, pc := pc } s)
    (h : DbInv s ({ badInputSeen := seen, pc := pc } ::ₘ rest)) (hnext : next pc s = some (pc', s')) :
    DbInv s' ({ badInputSeen := seen, pc := pc' } ::ₘ rest) := by
  cases pc with
  | idle => cases hnext
  | dbTest value =>
    cases hnext
    split
    · exact h.turn_frame rfl rfl rfl rfl rfl nofun
    · exact h.turn_frame rfl rfl rfl rfl rfl nofun
  | dbTake value =>
    simp only [next] at hnext
    split at hnext
    · cases hnext
      exact h.turn_frame rfl rfl rfl (by simp only [hasSem]; omega) rfl nofun
    · cases hnext
  | dbCount value =>
    have hok := hcond value rfl
    cases value with
    | false | true =>
      cases hnext
      refine h.turn rfl ?_ ?_ (.inl rfl)
      · simp only [hok, dbPending]
        omega
      · rintro value hvalue
        cases hvalue
        exact hok
  | dbSet value =>
    have hok := h.fresh _ (Multiset.mem_cons_self _ rest) value rfl
    cases hnext
    refine h.turn rfl ?_ nofun (.inr rfl)
    cases value <;> simp [hok, dbPending]
  | dbGive =>
    cases hnext
    exact h.turn_frame rfl rfl rfl rfl rfl nofun
  | take kind reset key =>
    simp only [next] at hnext
    split at hnext
    · cases hnext
      exact h.turn_frame rfl rfl rfl (by simp only [hasSem]; omega) rfl nofun
    · cases hnext
  | find kind reset key =>
    cases hnext
    split
    · split
      · exact h.turn_frame rfl rfl rfl rfl rfl nofun
      · exact h.turn_frame rfl rfl rfl rfl rfl nofun
    · split
      · exact h.turn_frame rfl rfl rfl rfl rfl nofun
      · exact h.turn_frame rfl rfl rfl rfl rfl nofun
  | again kind key | countRaised kind key | insert kind key | erase kind key | countReleased kind =>
    cases hnext
    exact h.turn_update kind _ rfl rfl nofun
  | give kind result =>
    cases hnext
    obtain ⟨hok, herrors, hresets, -⟩ := AlarmManager.db_update { s with sem := s.sem + 1 } kind fun m =>
      { m with returnedTrue := m.returnedTrue + if result then 1 else 0 }
    refine h.turn_frame hok herrors hresets ?_ rfl nofun
    rw [AlarmManager.sem_update]
    rfl

theorem dbInv_of_turn {call : Call} (hcond : Fresh call t s) (h : DbInv s (t ::ₘ rest))
    (hturn : turn call t s = some (t', s')) : DbInv s' (t' ::ₘ rest) := by
  unfold turn at hturn
  split at hturn
  · rename_i hidle
    cases hturn
    obtain ⟨hsem, -, -, -, hpending, hset⟩ := call.begin_frame t hidle
    refine h.turn_frame rfl rfl rfl ?_ ?_ hset
    · rw [hsem, hidle, hasSem]
    · rw [hpending, hidle]
      rfl
  · obtain ⟨⟨pc, s''⟩, hnext, hr⟩ := Option.map_eq_some_iff.1 hturn
    cases hr
    exact dbInv_of_next hcond h hnext

theorem dbInv_initial (threads : Nat) : DbInv (initial threads).shared (initial threads).threads := by
  have hthreads : ((initial threads).threads : Multiset Thread) =
      Multiset.replicate threads { badInputSeen := false, pc := .idle } := Multiset.coe_replicate _ _
  rw [hthreads]
  refine ⟨?_, ?_, ?_⟩
  · simp [initial, hasSem]
  · simp [initial, dbPending]
  · intro t ht value hpc
    rw [Multiset.eq_of_mem_replicate ht] at hpc
    cases hpc

end Invariant

/-! ### The alarms in any run -/

/-- No thread adds to a quantity if all are idle. -/
theorem sum_idle {threads : List Thread} (hidle : ∀ t ∈ threads, t.pc = .idle) {f : Pc → Int} (hf : f .idle = 0) :
    ((threads : Multiset Thread).map fun t => f t.pc).sum = 0 := by
  refine Multiset.sum_eq_zero fun n hn => ?_
  obtain ⟨t, ht, rfl⟩ := Multiset.mem_map.1 hn
  rw [hidle t ht]
  exact hf

/-- Between the calls, the alarms of the notifications and of the bad inputs that were raised and not released are those
in the maps, and as many calls have returned true as alarms were raised and released.  So is the database alarm, in a
run in which each call that counts finds `dbOk` as it has read it. -/
theorem alarms_accounted {threads : Nat} {moves : List (Move Call)} {st : State AlarmManager Thread}
    (h : StepRun.run (step turn alone) moves (initial threads) = some st) (hidle : ∀ t ∈ st.threads, t.pc = .idle) :
    (∀ kind, ((st.shared.map kind).alarms.map Prod.fst).Nodup ∧
        (st.shared.map kind).raised - (st.shared.map kind).released = (st.shared.map kind).alarms.length ∧
        (st.shared.map kind).returnedTrue = (st.shared.map kind).raised + (st.shared.map kind).released) ∧
      st.shared.dbTrue = st.shared.dbErrors + st.shared.dbErrorResets ∧
      (StepRun.Along (step turn alone) (Meets Fresh) moves (initial threads) →
        st.shared.dbErrors - st.shared.dbErrorResets = if st.shared.dbOk then 0 else 1) := by
  have hinv : Inv st.shared st.threads :=
    invariant_of_run (fun _ hI hturn => inv_of_turn hI hturn) (fun _ hmeet => absurd hmeet not_meet_alone) meets_true
      (inv_initial threads) h
  refine ⟨fun kind => ⟨hinv.keys kind, ?_, ?_⟩, ?_, fun hfresh => ?_⟩
  · have hactive := hinv.active kind
    rw [sum_idle hidle rfl, add_zero] at hactive
    exact hactive
  · have hreturned := hinv.returned kind
    rw [sum_idle hidle rfl, add_zero] at hreturned
    exact hreturned.symm
  · have hreturned := hinv.dbReturned
    rw [sum_idle hidle rfl, add_zero] at hreturned
    exact hreturned.symm
  · have hdb : DbInv st.shared st.threads :=
      invariant_of_run dbInv_of_turn (fun _ hmeet => absurd hmeet not_meet_alone) hfresh (dbInv_initial threads) h
    have hactive := hdb.active
    rw [sum_idle hidle rfl, add_zero] at hactive
    exact hactive

/-- The first thread raises the database alarm and an alarm of a notification, and the second releases the former. -/
def raiseAndRelease : List (Move Call) :=
  List.replicate 6 (.turn 0 .dbError) ++ List.replicate 6 (.turn 1 .dbErrorReset) ++
    List.replicate 6 (.turn 0 (.notificationError "10.0.0.1:1028/accumulate"))

def afterRaiseAndRelease : State AlarmManager Thread where
  shared :=
    { sem := 1
      dbOk := true
      dbErrors := 1
      dbErrorResets := 1
      dbTrue := 2
      notification :=
        { alarms := [("10.0.0.1:1028/accumulate", 1)], raised := 1, released := 0, returnedTrue := 1 }
      badInput := { alarms := [], raised := 0, released := 0, returnedTrue := 0 } }
  threads := List.replicate 2 { badInputSeen := false, pc := .idle }

theorem alarms_accounted_raiseAndRelease :
    StepRun.run (step turn alone) raiseAndRelease (initial 2) = some afterRaiseAndRelease ∧
      (afterRaiseAndRelease.shared.map .notification).raised -
          (afterRaiseAndRelease.shared.map .notification).released =
        (afterRaiseAndRelease.shared.map .notification).alarms.length ∧
      afterRaiseAndRelease.shared.dbTrue =
        afterRaiseAndRelease.shared.dbErrors + afterRaiseAndRelease.shared.dbErrorResets ∧
      afterRaiseAndRelease.shared.dbErrors - afterRaiseAndRelease.shared.dbErrorResets =
        if afterRaiseAndRelease.shared.dbOk then 0 else 1 := by
  have hrun : StepRun.run (step turn alone) raiseAndRelease (initial 2) = some afterRaiseAndRelease := by
    decide +kernel
  have hfresh : StepRun.Along (step turn alone) (Meets Fresh) raiseAndRelease (initial 2) := by decide +kernel
  obtain ⟨hmaps, hdb, hactive⟩ := alarms_accounted hrun (by decide)
  exact ⟨hrun, (hmaps .notification).2.1, hdb, hactive hfresh⟩

/-- Two threads read `dbOk` before either takes the semaphore, and both raise the database alarm: it is raised twice and
active once. -/
theorem database_alarm_raised_twice :
    ∃ moves st, StepRun.run (step turn alone) moves (initial 2) = some st ∧ (∀ t ∈ st.threads, t.pc = .idle) ∧
      st.shared.dbErrors - st.shared.dbErrorResets ≠ if st.shared.dbOk then 0 else 1 :=
  ⟨[.turn 0 .dbError, .turn 1 .dbError] ++ [.turn 0 .dbError, .turn 1 .dbError] ++
      List.replicate 4 (.turn 0 .dbError) ++ List.replicate 4 (.turn 1 .dbError),
    { shared := { (initial 2).shared with dbOk := false, dbErrors := 2, dbTrue := 2 }
      threads := (initial 2).threads },
    by decide +kernel, by decide, by decide⟩

end OrionBroker.Alarms
