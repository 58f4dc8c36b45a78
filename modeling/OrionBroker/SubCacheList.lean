import Mathlib.Data.BitVec
import Mathlib.Tactic.Ring
import OrionBroker.LinkedList
import OrionBroker.StepRun
import OrionBroker.WhileLoop

/-!
# The list of cached subscriptions in memory (`subCache.cpp`)

The cache is a singly linked list of allocated cells with a separate pointer to its last cell.  A function that follows
a pointer to nowhere gives no result, and neither does a loop that is not left within the given number of turns.

The list of the cells that were inserted and not removed, in this order, is what the memory stands for (`Represents`).
Every function keeps that relation, so a run on the memory simulates the run on lists (`cache_list_of_run`).
-/

namespace OrionBroker

open LinkedList WhileLoop

/-! ### Memory -/

/-- A `CachedSubscription`, as far as the list is concerned; the tenant may be `NULL`. -/
structure CacheCell (Addr : Type) where
  tenant : Option String
  subscriptionId : String
  next : Option Addr
deriving DecidableEq

structure SubCache (Addr : Type) where
  head : Option Addr
  tail : Option Addr
  noOfRefreshes : BitVec 32
  noOfInserts : BitVec 32
  noOfRemoves : BitVec 32
  noOfUpdates : BitVec 32
deriving DecidableEq

/-- The allocated cells and the variable `subCache`. -/
structure CacheMemory (Addr : Type) where
  cells : Addr → Option (CacheCell Addr)
  subCache : SubCache Addr

namespace CacheMemory

variable {Addr : Type} [DecidableEq Addr] (turns : Nat)

def subCacheStatisticsReset (subCache : SubCache Addr) : SubCache Addr :=
  { subCache with noOfRefreshes := 0, noOfInserts := 0, noOfRemoves := 0, noOfUpdates := 0 }

def subCacheInit (m : CacheMemory Addr) : CacheMemory Addr :=
  { m with subCache := subCacheStatisticsReset { m.subCache with head := none, tail := none } }

/-- A turn of the loop of `subCacheItems`; the state is `cSubP` and `items`. -/
def itemsTurn (cells : Addr → Option (CacheCell Addr)) :
    Option Addr × BitVec 32 → (Option Addr × BitVec 32) ⊕ Option (BitVec 32)
  | (none, items) => .inr (some items)
  | (some cSubP, items) =>
    match cells cSubP with
    | none => .inr none
    | some cell => .inl (cell.next, items + 1)

def subCacheItems (m : CacheMemory Addr) : Option (BitVec 32) :=
  (run (itemsTurn m.cells) turns (m.subCache.head, 0)).join

def tenantMatch (tenant1 tenant2 : Option String) : Bool := tenant1.getD "" = tenant2.getD ""

/-- A turn of the loop of `subCacheItemLookup`; the state is `cSubP`. -/
def lookupTurn (cells : Addr → Option (CacheCell Addr)) (tenant : Option String) (subscriptionId : String) :
    Option Addr → Option Addr ⊕ Option (Option Addr)
  | none => .inr (some none)
  | some cSubP =>
    match cells cSubP with
    | none => .inr none
    | some cell =>
      if tenantMatch tenant cell.tenant && subscriptionId = cell.subscriptionId then .inr (some (some cSubP))
      else .inl cell.next

/-- The item with this tenant and id, or `NULL`. -/
def subCacheItemLookup (tenant : Option String) (subscriptionId : String) (m : CacheMemory Addr) :
    Option (Option Addr) :=
  (run (lookupTurn m.cells tenant subscriptionId) turns m.subCache.head).join

/-- Writing the field `next` of a cell. -/
def setNext (cells : Addr → Option (CacheCell Addr)) (p : Addr) (next : Option Addr) :
    Option (Addr → Option (CacheCell Addr)) :=
  (cells p).map fun cell => Function.update cells p (some { cell with next := next })

/-- The `subCacheItemInsert` that really inserts: the item is put at the end. -/
def subCacheItemInsert (cSubP : Addr) (m : CacheMemory Addr) : Option (CacheMemory Addr) := do
  let cells ← setNext m.cells cSubP none
  let subCache := { m.subCache with noOfInserts := m.subCache.noOfInserts + 1 }
  -- first insertion?
  if m.subCache.head = none ∧ m.subCache.tail = none then
    return { cells := cells, subCache := { subCache with head := some cSubP, tail := some cSubP } }
  else
    let tail ← m.subCache.tail
    let cells' ← setNext cells tail (some cSubP)
    return { cells := cells', subCache := { subCache with tail := some cSubP } }

/-- A turn of the loop of `subCacheItemRemove`; the state is `current` and `prev`.  The result is `prev` if the item was
found, and nothing if it was not. -/
def removeTurn (cells : Addr → Option (CacheCell Addr)) (cSubP : Addr) :
    Option Addr × Option Addr → (Option Addr × Option Addr) ⊕ Option (Option (Option Addr))
  | (none, _) => .inr (some none)
  | (some current, prev) =>
    if current = cSubP then .inr (some (some prev))
    else
      match cells current with
      | none => .inr none
      | some cell => .inl (cell.next, some current)

/-- What is done to an item that was found behind `prev`. -/
def unlinkItem (cSubP : Addr) (prev : Option Addr) (m : CacheMemory Addr) : Option (CacheMemory Addr) := do
  let cell ← m.cells cSubP
  let cells ← prev.elim (some m.cells) fun prev => setNext m.cells prev cell.next
  return {
    cells := Function.update cells cSubP none
    subCache :=
      { m.subCache with
        head := if m.subCache.head = some cSubP then cell.next else m.subCache.head
        tail := if m.subCache.tail = some cSubP then prev else m.subCache.tail
        noOfRemoves := m.subCache.noOfRemoves + 1 } }

/-- The returned number is 0 if the item was found, and -1 otherwise. -/
def subCacheItemRemove (cSubP : Addr) (m : CacheMemory Addr) : Option (CacheMemory Addr × Int) := do
  match ← (run (removeTurn m.cells cSubP) turns (m.subCache.head, none)).join with
  | none => return (m, -1)
  | some prev => return (← unlinkItem cSubP prev m, 0)

/-- A turn of the loop of `subCacheDestroy`; the state is the memory and `cSubP`. -/
def destroyTurn : (Addr → Option (CacheCell Addr)) × Addr →
    ((Addr → Option (CacheCell Addr)) × Addr) ⊕ Option (Addr → Option (CacheCell Addr))
  | (cells, cSubP) =>
    match cells cSubP with
    | none => .inr none
    | some cell =>
      match cell.next with
      | some next => .inl (Function.update cells cSubP none, next)
      | none => .inr (some (Function.update cells cSubP none))

def subCacheDestroy (m : CacheMemory Addr) : Option (CacheMemory Addr) :=
  match m.subCache.head with
  | none => some m
  | some cSubP =>
    (run destroyTurn turns (m.cells, cSubP)).join.map fun cells =>
      { cells := cells, subCache := { m.subCache with head := none, tail := none } }

end CacheMemory

/-! ### What the memory stands for -/

structure ListedItem (Addr : Type) where
  address : Addr
  tenant : Option String
  subscriptionId : String
deriving DecidableEq

section Listing

variable {Addr : Type} {cells cells' : Addr → Option (CacheCell Addr)} {a : Option Addr} {x : ListedItem Addr}
  {items : List (ListedItem Addr)}

def link (cells : Addr → Option (CacheCell Addr)) (p : Addr) : Option Addr := (cells p).bind CacheCell.next

/-- The cells from `a` on are those of the items, and the last one leads to `NULL`. -/
structure Listing (cells : Addr → Option (CacheCell Addr)) (a : Option Addr) (items : List (ListedItem Addr)) :
    Prop where
  chain : Segment (link cells) a (items.map ListedItem.address) none
  filled : ∀ x ∈ items, ∃ next, cells x.address = some ⟨x.tenant, x.subscriptionId, next⟩

theorem listing_nil : Listing cells a [] ↔ a = none := ⟨fun h => h.chain, fun h => ⟨h, nofun⟩⟩

theorem listing_cons :
    Listing cells a (x :: items) ↔ a = some x.address ∧
      ∃ next, cells x.address = some ⟨x.tenant, x.subscriptionId, next⟩ ∧ Listing cells next items := by
  constructor
  · rintro ⟨hchain, hfilled⟩
    rw [List.forall_mem_cons] at hfilled
    obtain ⟨⟨next, hcell⟩, hfilled⟩ := hfilled
    rw [List.map_cons, segment_cons, link, hcell] at hchain
    exact ⟨hchain.1, next, hcell, hchain.2, hfilled⟩
  · rintro ⟨ha, next, hcell, hchain, hfilled⟩
    refine ⟨?_, List.forall_mem_cons.2 ⟨⟨next, hcell⟩, hfilled⟩⟩
    rw [List.map_cons, segment_cons, link, hcell]
    exact ⟨ha, hchain⟩

end Listing

/-! ### The loops -/

section Loops

variable {Addr : Type} {cells : Addr → Option (CacheCell Addr)} {a : Option Addr} {items : List (ListedItem Addr)}
  {turns : Nat}

theorem run_itemsTurn (h : Listing cells a items) (hturns : items.length < turns) (n : BitVec 32) :
    run (CacheMemory.itemsTurn cells) turns (a, n) = some (some (n + BitVec.ofNat 32 items.length)) := by
  obtain ⟨turns, rfl⟩ : ∃ k, turns = k + 1 := ⟨turns - 1, by omega⟩
  induction items generalizing a turns n with
  | nil =>
    rw [listing_nil.1 h]
    simp [run, CacheMemory.itemsTurn]
  | cons x items ih =>
    obtain ⟨rfl, next, hcell, hrest⟩ := listing_cons.1 h
    rw [List.length_cons] at hturns
    obtain ⟨turns, rfl⟩ : ∃ k, turns = k + 1 := ⟨turns - 1, by omega⟩
    have hturn : CacheMemory.itemsTurn cells (some x.address, n) = .inl (next, n + 1) := by
      unfold CacheMemory.itemsTurn
      simp only [hcell]
    rw [run_of_goesOn hturn, ih hrest _ _ (by omega), List.length_cons]
    congr 2
    rw [Nat.add_comm, BitVec.ofNat_add, BitVec.add_assoc]
    rfl

/-- The item is one that `subCacheItemLookup` looks for. -/
def ListedItem.isFor (tenant : Option String) (subscriptionId : String) (x : ListedItem Addr) : Bool :=
  CacheMemory.tenantMatch tenant x.tenant && subscriptionId = x.subscriptionId

theorem run_lookupTurn (h : Listing cells a items) (hturns : items.length < turns) (tenant : Option String)
    (subscriptionId : String) :
    run (CacheMemory.lookupTurn cells tenant subscriptionId) turns a =
      some (some ((items.find? (ListedItem.isFor tenant subscriptionId)).map ListedItem.address)) := by
  obtain ⟨turns, rfl⟩ : ∃ k, turns = k + 1 := ⟨turns - 1, by omega⟩
  induction items generalizing a turns with
  | nil =>
    rw [listing_nil.1 h]
    rfl
  | cons x items ih =>
    obtain ⟨rfl, next, hcell, hrest⟩ := listing_cons.1 h
    rw [List.length_cons] at hturns
    obtain ⟨turns, rfl⟩ : ∃ k, turns = k + 1 := ⟨turns - 1, by omega⟩
    have hturn : CacheMemory.lookupTurn cells tenant subscriptionId (some x.address) =
        if x.isFor tenant subscriptionId then .inr (some (some x.address)) else .inl next := by
      unfold CacheMemory.lookupTurn ListedItem.isFor
      simp only [hcell]
    by_cases hx : x.isFor tenant subscriptionId = true
    · rw [if_pos hx] at hturn
      rw [run_of_leaves hturn, List.find?_cons_of_pos hx]
      rfl
    · rw [if_neg hx] at hturn
      rw [run_of_goesOn hturn, ih hrest _ (by omega), List.find?_cons_of_neg hx]

variable [DecidableEq Addr]

theorem run_removeTurn_unlisted {p : Addr} (h : Listing cells a items) (hturns : items.length < turns)
    (hp : p ∉ items.map ListedItem.address) (prev : Option Addr) :
    run (CacheMemory.removeTurn cells p) turns (a, prev) = some (some none) := by
  obtain ⟨turns, rfl⟩ : ∃ k, turns = k + 1 := ⟨turns - 1, by omega⟩
  induction items generalizing a turns prev with
  | nil =>
    rw [listing_nil.1 h]
    rfl
  | cons x items ih =>
    obtain ⟨rfl, next, hcell, hrest⟩ := listing_cons.1 h
    rw [List.length_cons] at hturns
    rw [List.map_cons, List.mem_cons, not_or] at hp
    obtain ⟨turns, rfl⟩ : ∃ k, turns = k + 1 := ⟨turns - 1, by omega⟩
    have hturn : CacheMemory.removeTurn cells p (some x.address, prev) = .inl (next, some x.address) := by
      unfold CacheMemory.removeTurn
      simp only [if_neg (Ne.symm hp.1), hcell]
    rw [run_of_goesOn hturn, ih hrest hp.2 _ _ (by omega)]

/-- The loop stops at the item, with the one before it. -/
theorem run_removeTurn_listed {before after : List (ListedItem Addr)} {x : ListedItem Addr}
    (h : Listing cells a (before ++ x :: after)) (hturns : before.length < turns)
    (hx : x.address ∉ before.map ListedItem.address) (prev : Option Addr) :
    run (CacheMemory.removeTurn cells x.address) turns (a, prev) =
      some (some (some (((before.map ListedItem.address).getLast?).or prev))) := by
  obtain ⟨turns, rfl⟩ : ∃ k, turns = k + 1 := ⟨turns - 1, by omega⟩
  induction before generalizing a turns prev with
  | nil =>
    obtain ⟨rfl, -⟩ := listing_cons.1 h
    have hturn : CacheMemory.removeTurn cells x.address (some x.address, prev) = .inr (some (some prev)) := by
      unfold CacheMemory.removeTurn
      simp only [if_pos]
    rw [run_of_leaves hturn]
    rfl
  | cons y before ih =>
    obtain ⟨rfl, next, hcell, hrest⟩ := listing_cons.1 h
    rw [List.length_cons] at hturns
    rw [List.map_cons, List.mem_cons, not_or] at hx
    obtain ⟨turns, rfl⟩ : ∃ k, turns = k + 1 := ⟨turns - 1, by omega⟩
    have hturn : CacheMemory.removeTurn cells x.address (some y.address, prev) = .inl (next, some y.address) := by
      unfold CacheMemory.removeTurn
      simp only [if_neg (Ne.symm hx.1), hcell]
    rw [run_of_goesOn hturn, ih hrest hx.2 _ _ (by omega), List.map_cons, List.getLast?_cons]
    cases (before.map ListedItem.address).getLast? <;> rfl

end Loops

/-! ### The functions keep what the memory stands for -/

/-- The memory stands for a list of items. -/
structure Represents {Addr : Type} (m : CacheMemory Addr) (items : List (ListedItem Addr)) : Prop where
  nodup : (items.map ListedItem.address).Nodup
  listing : Listing m.cells m.subCache.head items
  tail : m.subCache.tail = (items.map ListedItem.address).getLast?

section Operations

variable {Addr : Type} {m : CacheMemory Addr} {items : List (ListedItem Addr)}

theorem represents_subCacheInit (m : CacheMemory Addr) : Represents m.subCacheInit [] :=
  ⟨List.nodup_nil, listing_nil.2 rfl, rfl⟩

variable [DecidableEq Addr]

private theorem link_update_self (cells : Addr → Option (CacheCell Addr)) (p : Addr) (cell : CacheCell Addr) :
    link (Function.update cells p (some cell)) p = cell.next := by
  simp [link]

private theorem link_update_of_ne (cells : Addr → Option (CacheCell Addr)) {p q : Addr} (h : q ≠ p)
    (cell : Option (CacheCell Addr)) : link (Function.update cells p cell) q = link cells q := by
  simp [link, Function.update_of_ne h]

private theorem subCacheItemInsert_first {p : Addr} {cells : Addr → Option (CacheCell Addr)}
    (hset : CacheMemory.setNext m.cells p none = some cells) (hempty : m.subCache.head = none ∧ m.subCache.tail = none) :
    m.subCacheItemInsert p = some {
      cells := cells
      subCache :=
        { m.subCache with noOfInserts := m.subCache.noOfInserts + 1, head := some p, tail := some p } } := by
  unfold CacheMemory.subCacheItemInsert
  rw [hset, Option.bind_eq_bind, Option.bind_some, if_pos hempty]
  rfl

private theorem subCacheItemInsert_behind {p t : Addr} {cells cells' : Addr → Option (CacheCell Addr)}
    (hset : CacheMemory.setNext m.cells p none = some cells) (ht : m.subCache.tail = some t)
    (hset' : CacheMemory.setNext cells t (some p) = some cells') :
    m.subCacheItemInsert p = some {
      cells := cells'
      subCache := { m.subCache with noOfInserts := m.subCache.noOfInserts + 1, tail := some p } } := by
  unfold CacheMemory.subCacheItemInsert
  rw [hset, Option.bind_eq_bind, Option.bind_some, if_neg (fun hno => by rw [ht] at hno; cases hno.2), ht]
  dsimp only [Option.bind_eq_bind, Option.bind_some]
  rw [hset']
  rfl

/-- A new item. -/
def CacheMemory.allocate (x : ListedItem Addr) (m : CacheMemory Addr) : CacheMemory Addr :=
  { m with cells := Function.update m.cells x.address (some ⟨x.tenant, x.subscriptionId, none⟩) }

theorem subCacheItemInsert_spec {x : ListedItem Addr} (h : Represents m items)
    (hx : x.address ∉ items.map ListedItem.address) :
    ∃ m', (m.allocate x).subCacheItemInsert x.address = some m' ∧ Represents m' (items ++ [x]) ∧
      m'.subCache.noOfInserts = m.subCache.noOfInserts + 1 ∧ m'.subCache.noOfRemoves = m.subCache.noOfRemoves := by
  have hset : CacheMemory.setNext (m.allocate x).cells x.address none = some (m.allocate x).cells := by
    simp [CacheMemory.setNext, CacheMemory.allocate]
  have hnew : (m.allocate x).cells x.address = some ⟨x.tenant, x.subscriptionId, none⟩ := by
    simp [CacheMemory.allocate]
  have hold : ∀ q, q ≠ x.address → (m.allocate x).cells q = m.cells q := fun q hq => Function.update_of_ne hq _ _
  have hne : ∀ y ∈ items, y.address ≠ x.address := fun y hy he => hx (he ▸ List.mem_map_of_mem hy)
  have hnodup : ((items ++ [x]).map ListedItem.address).Nodup := by
    rw [List.map_append, List.nodup_append]
    refine ⟨h.nodup, List.nodup_singleton _, ?_⟩
    rintro q hq q' hq' rfl
    exact hx (List.mem_singleton.1 hq' ▸ hq)
  obtain rfl | ⟨before, t, rfl⟩ := items.eq_nil_or_concat
  · -- the first insertion
    have hempty : (m.allocate x).subCache.head = none ∧ (m.allocate x).subCache.tail = none :=
      ⟨listing_nil.1 h.listing, h.tail⟩
    refine ⟨_, subCacheItemInsert_first hset hempty, ⟨hnodup, ?_, rfl⟩, rfl, rfl⟩
    exact listing_cons.2 ⟨rfl, none, hnew, listing_nil.2 rfl⟩
  · rw [List.concat_eq_append] at *
    have htail : (m.allocate x).subCache.tail = some t.address := by
      show m.subCache.tail = some t.address
      rw [h.tail]
      simp
    have ht : t.address ≠ x.address := hne t (by simp)
    obtain ⟨next, hcell⟩ := h.listing.filled t (by simp)
    have hcell' : (m.allocate x).cells t.address = some ⟨t.tenant, t.subscriptionId, next⟩ := by rw [hold _ ht, hcell]
    have hset' : CacheMemory.setNext (m.allocate x).cells t.address (some x.address) =
        some (Function.update (m.allocate x).cells t.address
          (some ⟨t.tenant, t.subscriptionId, some x.address⟩)) := by
      simp [CacheMemory.setNext, hcell']
    refine ⟨_, subCacheItemInsert_behind hset htail hset', ⟨hnodup, ⟨?_, ?_⟩, by simp⟩, rfl, rfl⟩
    · have hchain := h.listing.chain
      rw [List.map_append] at hchain ⊢
      rw [List.map_append]
      have hbefore : t.address ∉ before.map ListedItem.address := by
        have hn := h.nodup
        rw [List.map_append, List.nodup_append] at hn
        exact fun hm => hn.2.2 _ hm _ (by simp) rfl
      refine segment_push hchain ?_ (link_update_self _ _ _) ?_
      · intro q hq
        obtain ⟨y, hy, rfl⟩ := List.mem_map.1 hq
        rw [link_update_of_ne _ (fun he : y.address = t.address => hbefore (he ▸ hq))]
        show link (Function.update m.cells x.address _) y.address = _
        rw [link_update_of_ne _ (hne y (by simp [hy]))]
      · rw [link_update_of_ne _ (Ne.symm ht), link, hnew]
        rfl
    · intro y hy
      rcases List.mem_append.1 hy with hy | hy
      · by_cases hyt : y.address = t.address
        · -- the last item before: its link is the one that was written
          have hyt' : y = t := List.inj_on_of_nodup_map h.nodup hy (by simp) hyt
          subst hyt'
          exact ⟨some x.address, by simp⟩
        · obtain ⟨next', hy'⟩ := h.listing.filled y hy
          refine ⟨next', ?_⟩
          show Function.update _ _ _ _ = _
          rw [Function.update_of_ne hyt, hold _ (hne y hy), hy']
      · rw [List.mem_singleton.1 hy]
        refine ⟨none, ?_⟩
        show Function.update _ _ _ _ = _
        rw [Function.update_of_ne (Ne.symm ht), hnew]

variable {turns : Nat}

theorem subCacheItemRemove_unlisted {p : Addr} (h : Represents m items) (hturns : items.length < turns)
    (hp : p ∉ items.map ListedItem.address) : m.subCacheItemRemove turns p = some (m, -1) := by
  unfold CacheMemory.subCacheItemRemove
  rw [run_removeTurn_unlisted h.listing hturns hp]
  rfl

private theorem unlinkItem_first {p : Addr} {cell : CacheCell Addr} (hcell : m.cells p = some cell)
    (hhead : m.subCache.head = some p) :
    m.unlinkItem p none = some {
      cells := Function.update m.cells p none
      subCache :=
        { m.subCache with
          head := cell.next
          tail := if m.subCache.tail = some p then none else m.subCache.tail
          noOfRemoves := m.subCache.noOfRemoves + 1 } } := by
  unfold CacheMemory.unlinkItem
  rw [hcell, Option.bind_eq_bind, Option.bind_some, if_pos hhead]
  rfl

private theorem unlinkItem_behind {p t : Addr} {cell tcell : CacheCell Addr} (hcell : m.cells p = some cell)
    (htcell : m.cells t = some tcell) (hhead : m.subCache.head ≠ some p) :
    m.unlinkItem p (some t) = some {
      cells := Function.update (Function.update m.cells t (some { tcell with next := cell.next })) p none
      subCache :=
        { m.subCache with
          tail := if m.subCache.tail = some p then some t else m.subCache.tail
          noOfRemoves := m.subCache.noOfRemoves + 1 } } := by
  unfold CacheMemory.unlinkItem CacheMemory.setNext
  rw [hcell, Option.bind_eq_bind, Option.bind_some, if_neg hhead]
  simp only [Option.elim_some, htcell, Option.map_some]
  rfl

private theorem getLast?_without {before after : List Addr} {p : Addr} (hp : p ∉ after) :
    (before ++ after).getLast? =
      if (before ++ p :: after).getLast? = some p then before.getLast? else (before ++ p :: after).getLast? := by
  cases after with
  | nil => simp
  | cons q after =>
    have hlast : (before ++ p :: q :: after).getLast? = (before ++ q :: after).getLast? := by
      simp [List.getLast?_append, List.getLast?_cons]
    have hne : (before ++ q :: after).getLast? ≠ some p := by
      intro he
      rw [List.getLast?_append_of_ne_nil _ (List.cons_ne_nil _ _)] at he
      exact hp (List.mem_of_getLast? he)
    rw [hlast, if_neg hne]

/-- An item that was found is taken out of the list. -/
private theorem unlinkItem_spec {before after : List (ListedItem Addr)} {x : ListedItem Addr}
    (h : Represents m (before ++ x :: after)) :
    ∃ m', m.unlinkItem x.address (before.map ListedItem.address).getLast? = some m' ∧
      Represents m' (before ++ after) ∧ m'.subCache.noOfInserts = m.subCache.noOfInserts ∧
      m'.subCache.noOfRemoves = m.subCache.noOfRemoves + 1 := by
  have hnodup := h.nodup
  rw [List.map_append, List.map_cons, List.nodup_append, List.nodup_cons] at hnodup
  obtain ⟨hbefore, ⟨hxafter, -⟩, hdisjoint⟩ := hnodup
  have hnodup' : ((before ++ after).map ListedItem.address).Nodup :=
    h.nodup.sublist ((List.Sublist.append_left (List.sublist_cons_self _ _) _).map _)
  obtain ⟨next, hcell⟩ := h.listing.filled x (by simp)
  have hnext : link m.cells x.address = next := by rw [link, hcell]; rfl
  have htail : ((before ++ after).map ListedItem.address).getLast? =
      if m.subCache.tail = some x.address then (before.map ListedItem.address).getLast? else m.subCache.tail := by
    rw [h.tail, List.map_append, List.map_append, List.map_cons, getLast?_without hxafter]
  have hafterne : ∀ y ∈ after, y.address ≠ x.address := fun y hy he => hxafter (he ▸ List.mem_map_of_mem hy)
  obtain rfl | ⟨before, t, rfl⟩ := before.eq_nil_or_concat
  · -- the first item
    refine ⟨_, unlinkItem_first hcell (listing_cons.1 h.listing).1, ⟨hnodup', ⟨?_, ?_⟩, htail.symm⟩, rfl, rfl⟩
    · have hlinks : ∀ q ∈ after.map ListedItem.address,
          link (Function.update m.cells x.address none) q = link m.cells q := by
        intro q hq
        obtain ⟨y, hy, rfl⟩ := List.mem_map.1 hq
        exact link_update_of_ne _ (hafterne y hy) _
      have hrest := segment_unlink_head h.listing.chain hlinks
      rwa [hnext] at hrest
    · intro y hy
      obtain ⟨next', hy'⟩ := h.listing.filled y (by simpa using Or.inr hy)
      refine ⟨next', ?_⟩
      show Function.update _ _ _ _ = _
      rw [Function.update_of_ne (hafterne y hy), hy']
  · rw [List.concat_eq_append] at *
    have hbeforene : ∀ y ∈ before ++ [t], y.address ≠ x.address :=
      fun y hy he => hdisjoint _ (List.mem_map_of_mem hy) _ List.mem_cons_self he
    have htne : t.address ≠ x.address := hbeforene t (by simp)
    -- the only other cell that is written is that of `t`
    have htold : ∀ y ∈ before ++ [t] ++ after, y.address = t.address → y = t := fun y hy he =>
      List.inj_on_of_nodup_map hnodup' hy (by simp) he
    obtain ⟨tnext, htcell⟩ := h.listing.filled t (by simp)
    have hhead : m.subCache.head ≠ some x.address := by
      rw [head_of_segment h.listing.chain]
      cases before with
      | nil => simpa using htne
      | cons y before => simpa using hbeforene y (by simp)
    have hlast : ((before ++ [t]).map ListedItem.address).getLast? = some t.address := by simp
    have hne : ∀ y ∈ before ++ [t] ++ after, y.address ≠ x.address := by
      intro y hy
      rcases List.mem_append.1 hy with hy | hy
      · exact hbeforene y hy
      · exact hafterne y hy
    rw [hlast] at htail ⊢
    refine ⟨_, unlinkItem_behind hcell htcell hhead, ⟨hnodup', ⟨?_, ?_⟩, htail.symm⟩, rfl, rfl⟩
    · have hchain : Segment (link m.cells) m.subCache.head
          (before.map ListedItem.address ++ t.address :: x.address :: after.map ListedItem.address) none := by
        simpa using h.listing.chain
      have hnodupt := hnodup'.of_map
      rw [List.append_assoc, List.singleton_append, List.nodup_middle, List.nodup_cons] at hnodupt
      have hlinks : ∀ l : List (ListedItem Addr), l ⊆ before ++ after → ∀ q ∈ l.map ListedItem.address,
          link (Function.update (Function.update m.cells t.address
            (some ⟨t.tenant, t.subscriptionId, next⟩)) x.address none) q = link m.cells q := by
        intro l hl q hq
        obtain ⟨y, hy, rfl⟩ := List.mem_map.1 hq
        have hy' : y ∈ before ++ [t] ++ after := by
          have := List.mem_append.1 (hl hy)
          simp only [List.mem_append]
          tauto
        rw [link_update_of_ne _ (hne y hy'),
          link_update_of_ne _ (fun he => hnodupt.1 (htold y hy' he ▸ hl hy))]
      have hrest := segment_unlink hchain (hlinks before (List.subset_append_left ..))
        (hlinks after (List.subset_append_right ..)) (by rw [link_update_of_ne _ htne, link_update_self, hnext])
      simpa using hrest
    · intro y hy
      by_cases hyt : y = t
      · subst hyt
        refine ⟨next, ?_⟩
        show Function.update _ _ _ _ = _
        rw [Function.update_of_ne htne, Function.update_self]
      · obtain ⟨next', hy'⟩ := h.listing.filled y (by
          rw [List.append_assoc] at hy ⊢
          simp only [List.mem_append, List.mem_cons] at hy ⊢
          tauto)
        refine ⟨next', ?_⟩
        show Function.update _ _ _ _ = _
        rw [Function.update_of_ne (hne y hy), Function.update_of_ne (fun he => hyt (htold y hy he)), hy']

/-- Taking out an item takes out nothing else. -/
private theorem without_listed {before after : List (ListedItem Addr)} {x : ListedItem Addr}
    (hnodup : ((before ++ x :: after).map ListedItem.address).Nodup) :
    x.address ∉ before.map ListedItem.address ∧
      ((before ++ x :: after).filter fun y => y.address ≠ x.address) = before ++ after := by
  rw [List.map_append, List.map_cons, List.nodup_append, List.nodup_cons] at hnodup
  have hbefore : x.address ∉ before.map ListedItem.address := fun hm => hnodup.2.2 _ hm _ List.mem_cons_self rfl
  have hkeep : ∀ l : List (ListedItem Addr), x.address ∉ l.map ListedItem.address →
      (l.filter fun y => y.address ≠ x.address) = l := by
    intro l hl
    refine List.filter_eq_self.2 fun y hy => ?_
    simpa using fun he : y.address = x.address => hl (he ▸ List.mem_map_of_mem hy)
  refine ⟨hbefore, ?_⟩
  rw [List.filter_append, List.filter_cons_of_neg (by simp), hkeep _ hbefore, hkeep _ hnodup.2.1.1]

theorem subCacheItemRemove_listed {x : ListedItem Addr} (h : Represents m items) (hturns : items.length < turns)
    (hx : x ∈ items) :
    ∃ m', m.subCacheItemRemove turns x.address = some (m', 0) ∧
      Represents m' (items.filter fun y => y.address ≠ x.address) ∧
      (items.filter fun y => y.address ≠ x.address).length + 1 = items.length ∧
      m'.subCache.noOfInserts = m.subCache.noOfInserts ∧
      m'.subCache.noOfRemoves = m.subCache.noOfRemoves + 1 := by
  obtain ⟨before, after, rfl⟩ := List.append_of_mem hx
  obtain ⟨hbefore, hrest⟩ := without_listed h.nodup
  have hlt : before.length < turns := by
    rw [List.length_append] at hturns
    omega
  have hfound := run_removeTurn_listed h.listing hlt hbefore none
  rw [Option.or_none] at hfound
  obtain ⟨m', hm', hrep, hcounts⟩ := unlinkItem_spec h
  refine ⟨m', ?_, hrest ▸ hrep, ?_, hcounts⟩
  · unfold CacheMemory.subCacheItemRemove
    rw [hfound]
    simp only [Option.join_some, Option.bind_eq_bind, Option.bind_some, hm']
    rfl
  · rw [hrest]
    simp only [List.length_append, List.length_cons]
    omega

private theorem listing_update {cells : Addr → Option (CacheCell Addr)} {a : Option Addr} {p : Addr}
    (h : Listing cells a items) (hp : p ∉ items.map ListedItem.address) (cell : Option (CacheCell Addr)) :
    Listing (Function.update cells p cell) a items := by
  have hne : ∀ y ∈ items, y.address ≠ p := fun y hy he => hp (he ▸ List.mem_map_of_mem hy)
  constructor
  · refine (segment_congr fun q hq => ?_).2 h.chain
    obtain ⟨y, hy, rfl⟩ := List.mem_map.1 hq
    exact link_update_of_ne _ (hne y hy) _
  · intro y hy
    rw [Function.update_of_ne (hne y hy)]
    exact h.filled y hy

private theorem run_destroyTurn {cells : Addr → Option (CacheCell Addr)} {a : Option Addr} {x : ListedItem Addr}
    (h : Listing cells a (x :: items)) (hnodup : ((x :: items).map ListedItem.address).Nodup)
    (hturns : items.length < turns) :
    ∃ cells', run CacheMemory.destroyTurn turns (cells, x.address) = some (some cells') := by
  obtain ⟨turns, rfl⟩ : ∃ k, turns = k + 1 := ⟨turns - 1, by omega⟩
  induction items generalizing cells a x turns with
  | nil =>
    obtain ⟨-, next, hcell, hrest⟩ := listing_cons.1 h
    have hturn : CacheMemory.destroyTurn (cells, x.address) = .inr (some (Function.update cells x.address none)) := by
      unfold CacheMemory.destroyTurn
      simp only [hcell, listing_nil.1 hrest]
    exact ⟨_, run_of_leaves hturn _⟩
  | cons y items ih =>
    obtain ⟨-, next, hcell, hrest⟩ := listing_cons.1 h
    rw [List.map_cons, List.nodup_cons] at hnodup
    rw [List.length_cons] at hturns
    obtain ⟨turns, rfl⟩ : ∃ k, turns = k + 1 := ⟨turns - 1, by omega⟩
    have hturn : CacheMemory.destroyTurn (cells, x.address) =
        .inl (Function.update cells x.address none, y.address) := by
      unfold CacheMemory.destroyTurn
      simp only [hcell, (listing_cons.1 hrest).1]
    rw [run_of_goesOn hturn]
    exact ih (listing_update hrest hnodup.1 none) hnodup.2 turns (by omega)

theorem subCacheDestroy_spec (h : Represents m items) (hturns : items.length ≤ turns) :
    ∃ m', m.subCacheDestroy turns = some m' ∧ Represents m' [] := by
  unfold CacheMemory.subCacheDestroy
  cases items with
  | nil =>
    rw [listing_nil.1 h.listing]
    exact ⟨m, rfl, h⟩
  | cons x items =>
    obtain ⟨cells', hrun⟩ := run_destroyTurn h.listing h.nodup hturns
    rw [(listing_cons.1 h.listing).1]
    dsimp only
    rw [hrun]
    exact ⟨_, rfl, List.nodup_nil, listing_nil.2 rfl, rfl⟩

end Operations

/-! ### Runs -/

inductive ListAction (Addr : Type) where
  | init
  | insert (x : ListedItem Addr)
  | remove (cSubP : Addr)
  | destroy

/-- One call, on the memory. -/
def CacheMemory.step {Addr : Type} [DecidableEq Addr] (turns : Nat) :
    ListAction Addr → CacheMemory Addr → Option (CacheMemory Addr)
  | .init, m => some m.subCacheInit
  | .insert x, m => (m.allocate x).subCacheItemInsert x.address
  | .remove cSubP, m => (m.subCacheItemRemove turns cSubP).map Prod.fst
  | .destroy, m => m.subCacheDestroy turns

/-- The items that were inserted and not removed since the last initialization or destruction, and whether there was a
destruction since the last initialization. -/
structure CacheList (Addr : Type) where
  items : List (ListedItem Addr) := []
  destroyed : Bool := false

/-- One call, on the list. -/
def CacheList.step {Addr : Type} [DecidableEq Addr] : ListAction Addr → CacheList Addr → CacheList Addr
  | .init, _ => {}
  | .insert x, l => { l with items := l.items ++ [x] }
  | .remove cSubP, l => { l with items := l.items.filter fun y => y.address ≠ cSubP }
  | .destroy, _ => { items := [], destroyed := true }

/-- An item that is inserted is a new one: it is not in the list. -/
def ListAction.Fresh {Addr : Type} : ListAction Addr → CacheList Addr → Prop
  | .insert x, l => x.address ∉ l.items.map ListedItem.address
  | _, _ => True

/-- The list and its tail pointer are as they should be: empty, or a chain of different cells from the head to the tail,
which is the last one. -/
def CacheMemory.WellLinked {Addr : Type} (m : CacheMemory Addr) : Prop :=
  (m.subCache.head = none ∧ m.subCache.tail = none) ∨
    ∃ before t, (before ++ [t]).Nodup ∧ m.subCache.tail = some t ∧ Segment (link m.cells) m.subCache.head before (some t) ∧
      link m.cells t = none

theorem wellLinked_of_represents {Addr : Type} {m : CacheMemory Addr} {items : List (ListedItem Addr)}
    (h : Represents m items) : m.WellLinked := by
  obtain rfl | ⟨before, t, rfl⟩ := items.eq_nil_or_concat
  · exact Or.inl ⟨listing_nil.1 h.listing, h.tail⟩
  · have hnodup := h.nodup
    have hchain := h.listing.chain
    rw [List.concat_eq_append, List.map_append] at hnodup hchain
    obtain ⟨hbefore, hlast⟩ := segment_snoc.1 hchain
    exact Or.inr ⟨before.map ListedItem.address, t.address, hnodup, by rw [h.tail]; simp, hbefore, hlast⟩

section Runs

variable {Addr : Type} [DecidableEq Addr] {turns : Nat}

/-- The memory stands for the list, and the counters are right if nothing was destroyed. -/
structure Simulates (m : CacheMemory Addr) (l : CacheList Addr) : Prop where
  represents : Represents m l.items
  counted : l.destroyed = false →
    m.subCache.noOfInserts - m.subCache.noOfRemoves = BitVec.ofNat 32 l.items.length

private theorem simulates_step {a : ListAction Addr} {m : CacheMemory Addr} {l : CacheList Addr} (hfresh : a.Fresh l)
    (hturns : l.items.length < turns) (h : Simulates m l) :
    ∃ m', m.step turns a = some m' ∧ Simulates m' (l.step a) := by
  cases a with
  | init =>
    refine ⟨_, rfl, represents_subCacheInit m, fun _ => ?_⟩
    show (0 : BitVec 32) - 0 = BitVec.ofNat 32 0
    decide
  | insert x =>
    obtain ⟨m', hm', hrep, hins, hrem⟩ := subCacheItemInsert_spec h.represents hfresh
    refine ⟨m', hm', hrep, fun hd => ?_⟩
    have hold := h.counted hd
    rw [hins, hrem, CacheList.step, List.length_append, BitVec.ofNat_add, ← hold]
    show _ + 1 - _ = _ - _ + 1
    ring
  | remove p =>
    by_cases hp : p ∈ l.items.map ListedItem.address
    · obtain ⟨x, hx, rfl⟩ := List.mem_map.1 hp
      obtain ⟨m', hm', hrep, hlen, hins, hrem⟩ := subCacheItemRemove_listed h.represents hturns hx
      refine ⟨m', by rw [CacheMemory.step, hm']; rfl, hrep, fun hd => ?_⟩
      have hold := h.counted hd
      rw [← hlen, BitVec.ofNat_add] at hold
      rw [hins, hrem, CacheList.step, ← sub_sub, hold]
      exact add_sub_cancel_right _ _
    · refine ⟨m, by rw [CacheMemory.step, subCacheItemRemove_unlisted h.represents hturns hp]; rfl, ?_⟩
      have hsame : (l.step (.remove p)).items = l.items := by
        refine List.filter_eq_self.2 fun y hy => ?_
        simpa using fun he : y.address = p => hp (he ▸ List.mem_map_of_mem hy)
      exact ⟨hsame ▸ h.represents, fun hd => hsame ▸ h.counted hd⟩
  | destroy =>
    obtain ⟨m', hm', hrep⟩ := subCacheDestroy_spec h.represents (Nat.le_of_lt hturns)
    exact ⟨m', hm', hrep, nofun⟩

private theorem length_step (a : ListAction Addr) (l : CacheList Addr) :
    (l.step a).items.length ≤ l.items.length + 1 := by
  cases a with
  | init => simp [CacheList.step]
  | insert x => simp [CacheList.step]
  | remove p => exact Nat.le_succ_of_le (List.length_filter_le _ _)
  | destroy => simp [CacheList.step]

/-- The list after a sequence of calls. -/
def CacheList.after (actions : List (ListAction Addr)) : CacheList Addr :=
  actions.foldl (fun l a => CacheList.step a l) {}

private theorem length_after (actions : List (ListAction Addr)) :
    (CacheList.after actions).items.length ≤ actions.length := by
  have hgen : ∀ l : CacheList Addr,
      (actions.foldl (fun l a => CacheList.step a l) l).items.length ≤ l.items.length + actions.length := by
    induction actions with
    | nil => exact fun l => Nat.le_refl _
    | cons a actions ih =>
      intro l
      have hstep := length_step a l
      have hrest := ih (l.step a)
      rw [List.length_cons]
      exact Nat.le_trans hrest (by omega)
  simpa [CacheList.after] using hgen {}

/-- The state of the program before the first call. -/
def CacheMemory.start (cells : Addr → Option (CacheCell Addr)) : CacheMemory Addr := ⟨cells, ⟨none, none, 0, 0, 0, 0⟩⟩

omit [DecidableEq Addr] in
private theorem simulates_start (cells : Addr → Option (CacheCell Addr)) :
    Simulates (CacheMemory.start cells) ({} : CacheList Addr) :=
  ⟨⟨List.nodup_nil, listing_nil.2 rfl, rfl⟩, fun _ => by simp [CacheMemory.start]⟩

/-- After any sequence of calls in which only new items are inserted, the memory stands for the list of the items that
were inserted and not removed: the pointers are right, the items are counted and found in this order, and the counters
give their number if nothing was destroyed.  Every loop is left after as many turns as there were calls, and one more. -/
theorem cache_list_of_run {actions : List (ListAction Addr)} (cells : Addr → Option (CacheCell Addr))
    (hfresh : StepRun.Along (fun a l => some (CacheList.step a l)) ListAction.Fresh actions {})
    (hturns : actions.length < turns) :
    ∃ m, StepRun.run (CacheMemory.step turns) actions (CacheMemory.start cells) = some m ∧
      m.WellLinked ∧ Represents m (CacheList.after actions).items ∧
      m.subCacheItems turns = some (BitVec.ofNat 32 (CacheList.after actions).items.length) ∧
      (∀ tenant subscriptionId, m.subCacheItemLookup turns tenant subscriptionId =
        some (((CacheList.after actions).items.find? (ListedItem.isFor tenant subscriptionId)).map
          ListedItem.address)) ∧
      ((CacheList.after actions).destroyed = false →
        m.subCache.noOfInserts - m.subCache.noOfRemoves =
          BitVec.ofNat 32 (CacheList.after actions).items.length) := by
  -- the list is never longer than the number of calls before
  have hroom : StepRun.Along (fun a l => some (CacheList.step a l))
      (fun a l => ListAction.Fresh a l ∧ l.items.length < turns) actions {} := by
    refine StepRun.along_mono (I := fun rest l => l.items.length + rest.length < turns) ?_ ?_ (by simpa using hturns)
      hfresh
    · intro a rest l hl ha
      exact ⟨ha, by omega⟩
    · intro a rest l l' hl _ hl'
      have hlen := length_step a l
      rw [Option.some.inj hl'] at hlen
      rw [List.length_cons] at hl
      omega
  have hstep : ∀ a (m : CacheMemory Addr) (l l' : CacheList Addr), (a.Fresh l ∧ l.items.length < turns) →
      Simulates m l → some (CacheList.step a l) = some l' → ∃ m', m.step turns a = some m' ∧ Simulates m' l' := by
    intro a m l l' hl hm hl'
    rw [← Option.some.inj hl']
    exact simulates_step hl.1 hl.2 hm
  obtain ⟨m, hrun, hm⟩ := StepRun.simulates_of_run hstep hroom (simulates_start cells)
    (StepRun.run_total CacheList.step actions {})
  have hlen : (CacheList.after actions).items.length < turns := Nat.lt_of_le_of_lt (length_after actions) hturns
  refine ⟨m, hrun, wellLinked_of_represents hm.represents, hm.represents, ?_, ?_, hm.counted⟩
  · unfold CacheMemory.subCacheItems
    rw [run_itemsTurn hm.represents.listing hlen]
    simp
    rfl
  · intro tenant subscriptionId
    unfold CacheMemory.subCacheItemLookup
    rw [run_lookupTurn hm.represents.listing hlen]
    rfl

end Runs

/-- Three items are inserted, and the first one is removed twice. -/
def threeInsertions : List (ListAction Nat) :=
  [.init, .insert ⟨1, none, "s1"⟩, .insert ⟨2, some "t", "s1"⟩, .remove 1, .remove 1, .insert ⟨3, none, "s1"⟩]

theorem cache_list_of_threeInsertions :
    ∃ m, StepRun.run (CacheMemory.step 7) threeInsertions (CacheMemory.start fun _ => none) = some m ∧
      m.WellLinked ∧ m.subCacheItems 7 = some 2 ∧ m.subCacheItemLookup 7 (some "") "s1" = some (some 3) := by
  have hfresh : StepRun.Along (fun a l => some (CacheList.step a l)) ListAction.Fresh threeInsertions {} := by
    simp [threeInsertions, StepRun.Along, ListAction.Fresh, CacheList.step]
  have hturns : threeInsertions.length < 7 := by decide
  obtain ⟨m, hrun, hlinked, -, hitems, hlookup, -⟩ := cache_list_of_run (fun _ => none) hfresh hturns
  exact ⟨m, hrun, hlinked, hitems, hlookup (some "") "s1"⟩

end OrionBroker
