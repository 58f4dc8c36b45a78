import OrionBroker.Bson

/-!
# Dotted paths and update operators

The part of the update language of a document database that works inside one document.  A dotted path is a list of
field names; `setIn` (`$set`) and `unsetIn` (`$unset`) follow it into nested documents: objects missing on the way
are created by `$set` and make `$unset` a no-op, an array takes a numeric component as an index, and a scalar on
the way makes `$set` fail.  Two paths of one update, one of them a beginning of the other, are a conflict and the
server refuses the update; the paths of an accepted update can be written in any order (`getIn_setAll_mem`).

`addToSet` and `pullAll` are `$addToSet` with `$each` and `$pullAll` on an array of strings.
-/

namespace Bson

def splitPath (path : String) : List String := (path.toList.splitOn '.').map String.ofList

/-- The array index that a path component denotes. -/
def arrayIndex (k : String) : Option Nat :=
  let n := k.toList.foldl (fun n c => 10 * n + (c.toNat - 48)) 0
  if Nat.repr n = k then some n else none

/-- Write an array item; the gap before an index past the end is filled with nulls. -/
def setAt (i : Nat) (v : BSONValue) (items : List BSONValue) : List BSONValue :=
  if i < items.length then items.set i v else items ++ List.replicate (i - items.length) .null ++ [v]

def getIn : List String → BSONValue → Option BSONValue
  | [], v => some v
  | k :: ks, .object o => (o.lookup k).bind (getIn ks)
  | k :: ks, .array items => (arrayIndex k).bind fun i => items[i]?.bind (getIn ks)
  | _ :: _, _ => none

/-- `$set` at a path, below a value that may be missing. -/
def setIn : List String → BSONValue → Option BSONValue → Option BSONValue
  | [], v, _ => some v
  | k :: ks, v, none => (setIn ks v none).map fun x => .object [(k, x)]
  | k :: ks, v, some (.object o) => (setIn ks v (o.lookup k)).map fun x => .object (setField k x o)
  | k :: ks, v, some (.array items) =>
    (arrayIndex k).bind fun i => (setIn ks v items[i]?).map fun x => .array (setAt i x items)
  | _ :: _, _, some _ => none

/-- `$unset` at a path; an array item is set to null. -/
def unsetIn : List String → BSONValue → BSONValue
  | [], v => v
  | k :: ks, .object o =>
    match o.lookup k with
    | none => .object o
    | some w => if ks = [] then .object (unsetField k o) else .object (setField k (unsetIn ks w) o)
  | k :: ks, .array items =>
    match (arrayIndex k).bind fun i => items[i]?.map fun w => (i, w) with
    | none => .array items
    | some (i, w) => .array (items.set i (if ks = [] then .null else unsetIn ks w))
  | _ :: _, v => v

/-- All the `$set` entries of an update, in order. -/
def setAll : List (List String × BSONValue) → BSONValue → Option BSONValue
  | [], w => some w
  | (p, v) :: es, w => (setIn p v (some w)).bind (setAll es)

def unsetAll (ps : List (List String)) (w : BSONValue) : BSONValue := ps.foldl (fun x p => unsetIn p x) w

/-- One of the paths is a beginning of the other. -/
def conflicts (p q : List String) : Bool := p.isPrefixOf q || q.isPrefixOf p

/-- No two paths of an update conflict. -/
def ConflictFree (ps : List (List String)) : Prop := ps.Pairwise fun p q => conflicts p q = false

instance (ps : List (List String)) : Decidable (ConflictFree ps) := by unfold ConflictFree; infer_instance

/-- `$addToSet` with `$each`. -/
def addToSet (names : List String) (l : List String) : List String :=
  names.foldl (fun l n => if n ∈ l then l else l ++ [n]) l

def pullAll (names : List String) (l : List String) : List String := l.filter fun n => n ∉ names

/-! ### Paths -/

theorem splitPath_append {p : String} (q : String) (h : '.' ∉ p.toList) :
    splitPath (p ++ "." ++ q) = p :: splitPath q := by
  have hl : (p ++ "." ++ q).toList = p.toList ++ '.' :: q.toList := by simp
  unfold splitPath
  have hp : ∀ c ∈ p.toList, (c == '.') = false := fun c hc => beq_false_of_ne fun e => h (e ▸ hc)
  rw [hl, List.splitOn, List.splitOnP_append_cons_of_forall_mem hp _ (by simp)]
  simp [List.splitOn]

theorem splitPath_of_no_dot {p : String} (h : '.' ∉ p.toList) : splitPath p = [p] := by
  have hp : ∀ c ∈ p.toList, (c == '.') = false := fun c hc => beq_false_of_ne fun e => h (e ▸ hc)
  unfold splitPath
  rw [List.splitOn, List.splitOnP_eq_singleton hp]
  simp

/-- The first component of a path is the part before the first dot. -/
theorem head?_splitPath (p : String) : (splitPath p).head? = some (String.ofList (p.toList.takeWhile (· ≠ '.'))) := by
  have hlist : ∀ l : List Char, (l.splitOn '.').head? = some (l.takeWhile (· ≠ '.')) := by
    intro l
    induction l with
    | nil => rfl
    | cons c l ih =>
      rw [List.splitOn_cons_eq_if_modifyHead]
      by_cases hc : c = '.'
      · simp [hc]
      · rw [if_neg (by simpa using hc), List.head?_modifyHead, ih]
        simp [hc]
  unfold splitPath
  rw [List.head?_map, hlist]
  rfl

theorem arrayIndex_repr {k : String} {n : Nat} (h : arrayIndex k = some n) : Nat.repr n = k := by
  unfold arrayIndex at h
  simp only at h
  split at h
  · cases h; assumption
  · cases h

private theorem getElem?_setAt (i j : Nat) (v w : BSONValue) (items : List BSONValue) :
    (setAt i v items)[i]? = some v ∧ (i ≠ j → items[j]? = some w → (setAt i v items)[j]? = some w) := by
  unfold setAt
  split
  · rename_i h
    refine ⟨by simp [h], fun hne hj => ?_⟩
    rw [List.getElem?_set_ne hne]; exact hj
  · rename_i h
    refine ⟨?_, fun _ hj => ?_⟩
    · have hlen : (items ++ List.replicate (i - items.length) BSONValue.null).length = i := by simp; omega
      rw [List.getElem?_append_right (by omega), hlen]
      simp
    · have := (List.getElem?_eq_some_iff.1 hj).1
      rw [List.append_assoc, List.getElem?_append_left this]; exact hj

private theorem setAt_of_getElem? {i : Nat} {v : BSONValue} {items : List BSONValue} (h : items[i]? = some v) :
    setAt i v items = items := by
  obtain ⟨hi, rfl⟩ := List.getElem?_eq_some_iff.1 h
  simp [setAt, hi]

/-- What `$set` wrote can be read back. -/
theorem getIn_setIn {p : List String} {v x : BSONValue} {w : Option BSONValue} (h : setIn p v w = some x) :
    getIn p x = some v := by
  induction p generalizing w x with
  | nil => simp [setIn] at h; simp [getIn, h]
  | cons k ks ih =>
    rcases w with _ | w
    · obtain ⟨y, hy, rfl⟩ := Option.map_eq_some_iff.1 h
      simp [getIn, ih hy]
    · cases w with
      | object o =>
        obtain ⟨y, hy, rfl⟩ := Option.map_eq_some_iff.1 h
        simp [getIn, lookup_setField, ih hy]
      | array items =>
        obtain ⟨i, hi, h⟩ := Option.bind_eq_some_iff.1 h
        obtain ⟨y, hy, rfl⟩ := Option.map_eq_some_iff.1 h
        simp [getIn, hi, (getElem?_setAt i i y y items).1, ih hy]
      | _ => simp [setIn] at h

/-- Writing what is already there changes nothing. -/
theorem setIn_of_getIn {p : List String} {v w : BSONValue} (h : getIn p w = some v) :
    setIn p v (some w) = some w := by
  induction p generalizing w with
  | nil => simpa [setIn, getIn, eq_comm] using h
  | cons k ks ih =>
    cases w with
    | object o =>
      obtain ⟨y, hy, h⟩ := Option.bind_eq_some_iff.1 h
      simp [setIn, hy, ih h, setField_of_lookup hy]
    | array items =>
      obtain ⟨i, hi, h⟩ := Option.bind_eq_some_iff.1 h
      obtain ⟨y, hy, h⟩ := Option.bind_eq_some_iff.1 h
      simp [setIn, hi, hy, ih h, setAt_of_getElem? hy]
    | _ => simp [getIn] at h

/-- A write leaves the values at the paths that do not conflict with its own. -/
theorem getIn_setIn_of_not_conflicts {p q : List String} {v w x u : BSONValue} (hpq : conflicts p q = false)
    (h : setIn p v (some w) = some x) (hq : getIn q w = some u) : getIn q x = some u := by
  induction p generalizing q w x with
  | nil => simp [conflicts] at hpq
  | cons k ks ih =>
    rcases q with _ | ⟨l, ls⟩
    · simp [conflicts] at hpq
    · have hrec : k = l → conflicts ks ls = false := by
        rintro rfl
        simpa [conflicts] using hpq
      cases w with
      | object o =>
        obtain ⟨y, hy, rfl⟩ := Option.map_eq_some_iff.1 h
        obtain ⟨z, hz, hz'⟩ := Option.bind_eq_some_iff.1 hq
        by_cases hkl : k = l
        · subst hkl
          rw [hz] at hy
          simp [getIn, lookup_setField, ih (hrec rfl) hy hz']
        · simp [getIn, lookup_setField, Ne.symm hkl, hz, hz']
      | array items =>
        obtain ⟨i, hi, h⟩ := Option.bind_eq_some_iff.1 h
        obtain ⟨y, hy, rfl⟩ := Option.map_eq_some_iff.1 h
        obtain ⟨j, hj, hj'⟩ := Option.bind_eq_some_iff.1 hq
        obtain ⟨z, hz, hz'⟩ := Option.bind_eq_some_iff.1 hj'
        by_cases hkl : k = l
        · subst hkl
          obtain rfl : i = j := by rw [hi] at hj; exact Option.some.inj hj
          rw [hz] at hy
          simp [getIn, hi, (getElem?_setAt i i y y items).1, ih (hrec rfl) hy hz']
        · have hij : i ≠ j := by
            rintro rfl
            exact hkl ((arrayIndex_repr hi).symm.trans (arrayIndex_repr hj))
          simp [getIn, hj, (getElem?_setAt i j y z items).2 hij hz, hz']
      | _ => simp [setIn] at h

theorem getIn_setAll {es : List (List String × BSONValue)} {q : List String} {w x u : BSONValue}
    (hq : ∀ e ∈ es, conflicts e.1 q = false) (h : setAll es w = some x) (hu : getIn q w = some u) :
    getIn q x = some u := by
  induction es generalizing w with
  | nil => cases h; exact hu
  | cons e es ih =>
    obtain ⟨y, hy, h⟩ := Option.bind_eq_some_iff.1 h
    exact ih (fun e he => hq e (List.mem_cons_of_mem _ he)) h
      (getIn_setIn_of_not_conflicts (hq e (List.mem_cons_self ..)) hy hu)

/-- Every entry of an accepted update is in the result, whatever the order. -/
theorem getIn_setAll_mem {es : List (List String × BSONValue)} {w x : BSONValue}
    (hc : ConflictFree (es.map Prod.fst)) (h : setAll es w = some x) {e : List String × BSONValue} (he : e ∈ es) :
    getIn e.1 x = some e.2 := by
  induction es generalizing w with
  | nil => cases he
  | cons f es ih =>
    obtain ⟨y, hy, hrest⟩ := Option.bind_eq_some_iff.1 h
    unfold ConflictFree at hc
    rw [List.map_cons, List.pairwise_cons] at hc
    rcases List.mem_cons.1 he with rfl | he
    · refine getIn_setAll (fun e' he' => ?_) hrest (getIn_setIn hy)
      have := hc.1 e'.1 (List.mem_map_of_mem he')
      simpa [conflicts, Bool.or_comm] using this
    · exact ih hc.2 hrest he

/-! ### The first component: a frame for the fields of an object -/

theorem setIn_object {k : String} {ks : List String} {v x : BSONValue} {o : BSONObj}
    (h : setIn (k :: ks) v (some (.object o)) = some x) :
    ∃ y, setIn ks v (o.lookup k) = some y ∧ x = .object (setField k y o) := by
  obtain ⟨y, hy, rfl⟩ := Option.map_eq_some_iff.1 h
  exact ⟨y, hy, rfl⟩

theorem unsetIn_object (k : String) (ks : List String) (o : BSONObj) :
    ∃ o', unsetIn (k :: ks) (.object o) = .object o' ∧ (∀ l, l ≠ k → o'.lookup l = o.lookup l) ∧
      (ks = [] → o'.lookup k = none) ∧ (ks ≠ [] → (hasField o' k = hasField o k)) := by
  unfold unsetIn
  rcases h : o.lookup k with _ | w
  · exact ⟨o, rfl, fun _ _ => rfl, fun _ => h, fun _ => rfl⟩
  · by_cases hks : ks = []
    · refine ⟨unsetField k o, by simp [hks], fun l hl => by rw [lookup_unsetField, if_neg hl], fun _ => ?_,
        fun hne => absurd hks hne⟩
      rw [lookup_unsetField, if_pos rfl]
    · refine ⟨setField k (unsetIn ks w) o, by simp [hks], fun l hl => by rw [lookup_setField, if_neg hl],
        fun he => absurd he hks, fun _ => ?_⟩
      simp [hasField, lookup_setField, h]

theorem setAll_object {es : List (List String × BSONValue)} {o : BSONObj} {x : BSONValue}
    (hne : ∀ e ∈ es, e.1 ≠ []) (h : setAll es (.object o) = some x) :
    ∃ o', x = .object o' ∧ (∀ l, (∀ e ∈ es, e.1.head? ≠ some l) → o'.lookup l = o.lookup l) ∧
      ∀ l, l ∈ o'.map Prod.fst ↔ l ∈ o.map Prod.fst ∨ ∃ e ∈ es, e.1.head? = some l := by
  induction es generalizing o with
  | nil => cases h; exact ⟨o, rfl, fun _ _ => rfl, by simp⟩
  | cons e es ih =>
    obtain ⟨p, v⟩ := e
    obtain ⟨k, ks, rfl⟩ := List.exists_cons_of_ne_nil (hne _ (List.mem_cons_self ..))
    obtain ⟨y, hy, h⟩ := Option.bind_eq_some_iff.1 h
    obtain ⟨z, -, rfl⟩ := setIn_object hy
    obtain ⟨o', rfl, hlook, hkeys⟩ := ih (fun e he => hne e (List.mem_cons_of_mem _ he)) h
    refine ⟨o', rfl, fun l hl => ?_, fun l => ?_⟩
    · have hkl : l ≠ k := by
        rintro rfl
        exact hl _ (List.mem_cons_self ..) rfl
      rw [hlook l fun e he => hl e (List.mem_cons_of_mem _ he), lookup_setField, if_neg hkl]
    · rw [hkeys, mem_keys_setField]
      simp only [List.mem_cons, exists_eq_or_imp, List.head?_cons, Option.some.injEq, eq_comm (a := k)]
      tauto

/-- A field is kept when the entries that go into it write what is already there. -/
private theorem lookup_setAll_of_getIn {es : List (List String × BSONValue)} {o o' : BSONObj} {k : String}
    (hne : ∀ e ∈ es, e.1 ≠ []) (h : setAll es (.object o) = some (.object o'))
    (hall : ∀ e ∈ es, e.1.head? = some k → getIn e.1 (.object o) = some e.2) : o'.lookup k = o.lookup k := by
  induction es generalizing o with
  | nil =>
    cases h
    rfl
  | cons e es ih =>
    obtain ⟨p, v⟩ := e
    obtain ⟨l, ls, rfl⟩ := List.exists_cons_of_ne_nil (hne _ (List.mem_cons_self ..))
    obtain ⟨y, hy, hrest⟩ := Option.bind_eq_some_iff.1 h
    obtain ⟨z, hz, rfl⟩ := setIn_object hy
    have hsame : (setField l z o).lookup k = o.lookup k := by
      rw [lookup_setField]
      split
      · rename_i hkl
        subst hkl
        rw [setIn_of_getIn (hall _ (List.mem_cons_self ..) rfl)] at hy
        have hfields : o = setField k z o := by simpa using hy
        have hlook := lookup_setField k k z o
        rw [← hfields, if_pos rfl] at hlook
        exact hlook.symm
      · rfl
    rw [ih (fun e he => hne e (List.mem_cons_of_mem _ he)) hrest ?_, hsame]
    intro e he hk
    have hget := hall e (List.mem_cons_of_mem _ he) hk
    obtain ⟨n, ns, hn⟩ := List.exists_cons_of_ne_nil (hne e (List.mem_cons_of_mem _ he))
    rw [hn] at hget hk ⊢
    cases hk
    simpa [getIn, hsame] using hget

/-- An update leaves the fields of an object as they are exactly if every entry that goes into one of them writes what
is already there. -/
theorem setAll_keeps_iff {es : List (List String × BSONValue)} {o o' : BSONObj} (hne : ∀ e ∈ es, e.1 ≠ [])
    (hc : ConflictFree (es.map Prod.fst)) (h : setAll es (.object o) = some (.object o')) :
    (∀ k, hasField o k = true → o'.lookup k = o.lookup k) ↔
      ∀ e ∈ es, ∀ k, e.1.head? = some k → hasField o k = true → getIn e.1 (.object o) = some e.2 := by
  constructor
  · intro hkeep e he k hk hf
    have hget := getIn_setAll_mem hc h he
    obtain ⟨l, ls, hl⟩ := List.exists_cons_of_ne_nil (hne e he)
    rw [hl] at hget hk ⊢
    cases hk
    simpa [getIn, hkeep k hf] using hget
  · intro hall k hk
    exact lookup_setAll_of_getIn hne h fun e he hhead => hall e he k hhead hk

theorem unsetAll_object {ps : List (List String)} {o : BSONObj} (hne : ∀ p ∈ ps, p ≠ []) :
    ∃ o', unsetAll ps (.object o) = .object o' ∧ (∀ l, (∀ p ∈ ps, p.head? ≠ some l) → o'.lookup l = o.lookup l) ∧
      ∀ l, (l ∈ o'.map Prod.fst ↔ l ∈ o.map Prod.fst ∧ [l] ∉ ps) := by
  induction ps generalizing o with
  | nil => exact ⟨o, rfl, fun _ _ => rfl, by simp⟩
  | cons p ps ih =>
    obtain ⟨k, ks, rfl⟩ := List.exists_cons_of_ne_nil (hne p (List.mem_cons_self ..))
    obtain ⟨o₁, h₁, hlook₁, hnil, hcons⟩ := unsetIn_object k ks o
    obtain ⟨o', h', hlook, hkeys⟩ := ih (o := o₁) fun p hp => hne p (List.mem_cons_of_mem _ hp)
    have h'' : unsetAll ((k :: ks) :: ps) (.object o) = .object o' := by
      show unsetAll ps (unsetIn (k :: ks) (.object o)) = _
      rw [h₁, h']
    refine ⟨o', h'', fun l hl => ?_, fun l => ?_⟩
    · have hkl : l ≠ k := by
        rintro rfl
        exact hl _ (List.mem_cons_self ..) rfl
      rw [hlook l fun p hp => hl p (List.mem_cons_of_mem _ hp), hlook₁ l hkl]
    · have hk₁ : l ∈ o₁.map Prod.fst ↔ l ∈ o.map Prod.fst ∧ [l] ≠ k :: ks := by
        rw [← hasField_iff_mem, ← hasField_iff_mem]
        by_cases hkl : l = k
        · subst hkl
          by_cases hks : ks = []
          · simp [hasField, hnil hks, hks]
          · rw [hcons hks]; simp [Ne.symm hks]
        · simp [hasField, hlook₁ l hkl, hkl]
      rw [hkeys, hk₁, List.mem_cons]
      tauto

/-! ### Arrays of strings -/

@[simp]
theorem mem_addToSet {names l : List String} {n : String} : n ∈ addToSet names l ↔ n ∈ l ∨ n ∈ names := by
  unfold addToSet
  induction names generalizing l with
  | nil => simp
  | cons m names ih =>
    rw [List.foldl_cons, ih, List.mem_cons]
    split
    · rename_i h
      constructor
      · tauto
      · rintro (h1 | rfl | h1)
        · exact Or.inl h1
        · exact Or.inl h
        · exact Or.inr h1
    · simp only [List.mem_append, List.mem_singleton, or_assoc]

@[simp]
theorem mem_pullAll {names l : List String} {n : String} : n ∈ pullAll names l ↔ n ∈ l ∧ n ∉ names := by
  simp [pullAll]

end Bson
