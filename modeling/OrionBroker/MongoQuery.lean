import OrionBroker.BsonPath

/-!
# Query filters of a document database

The meaning of a filter on a document, for the operators that compare values.

* A path reaches several values, or a missing one: in the middle of a path an array stands for each of its objects, at
  the end for its items and for itself (`reached`).  A criterion holds when one of them satisfies it; the negative
  criteria hold when none does.
* A comparison relates only values of one canonical type (type bracketing), a missing value counts as null, and a
  `nan` is only comparable with a `nan`.
* A regular expression is a text, compiled by the database: a filter with one that does not compile is refused (`find`).
-/

namespace Bson

/-! ### The values that a path reaches -/

/-- One component of a path in an object; `next` goes on with the rest of it. -/
def reachedField (next : BSONValue → List (Option BSONValue)) (k : String) (o : BSONObj) : List (Option BSONValue) :=
  match o.lookup k with
  | some v => next v
  | none => [none]

def reached : List String → BSONValue → List (Option BSONValue)
  | [], .array items => items.map some ++ [some (.array items)]
  | [], v => [some v]
  | k :: ks, .object o => reachedField (reached ks) k o
  | k :: ks, .array items =>
    (items.flatMap fun item => match item with
      | .object o => reachedField (reached ks) k o
      | _ => []) ++
    -- a component that is an index also selects an item
    match (arrayIndex k).bind fun i => items[i]? with
    | none => []
    | some item => if ks = [] then [some item] else
      match item with
      | .object _ => reached ks item
      | .array _ => reached ks item
      | _ => []
  | _ :: _, _ => [none]

/-! ### The order of values -/

/-- The place of a type in the order of values; all numbers have one type. -/
def BSONValue.canonicalType : BSONValue → Nat
  | .null => 5
  | .int _ => 10
  | .double _ => 10
  | .string _ => 15
  | .object _ => 20
  | .array _ => 25
  | .bool _ => 40

/-- The order of numbers, `nan` below all of them. -/
def Double.order (d e : Double) : Ordering :=
  if d = e then .eq
  else if d = .nan then .lt
  else if e = .nan then .gt
  else if d.lt e then .lt else .gt

def BSONValue.number : BSONValue → Option Double
  | .int n => some (.fin n)
  | .double d => some d
  | _ => none

mutual

def compareValue : BSONValue → BSONValue → Ordering
  | .string s, .string t => compare s t
  | .bool b, .bool c => compare b c
  | .object o, .object p => compareFields o p
  | .array a, .array b => compareItems a b
  | v, w =>
    match v.number, w.number with
    | some d, some e => d.order e
    | _, _ => compare v.canonicalType w.canonicalType

/-- Fields are compared in their order: the types first, then the names, then the values. -/
def compareFields : List (String × BSONValue) → List (String × BSONValue) → Ordering
  | [], [] => .eq
  | [], _ :: _ => .lt
  | _ :: _, [] => .gt
  | (k, v) :: o, (l, w) :: p =>
    (compare v.canonicalType w.canonicalType).then ((compare k l).then ((compareValue v w).then (compareFields o p)))

def compareItems : List BSONValue → List BSONValue → Ordering
  | [], [] => .eq
  | [], _ :: _ => .lt
  | _ :: _, [] => .gt
  | v :: a, w :: b =>
    (compare v.canonicalType w.canonicalType).then ((compareValue v w).then (compareItems a b))

end

/-! ### Criteria on one field -/

inductive Comparison where
  | eq
  | gt
  | gte
  | lt
  | lte
deriving DecidableEq

def Comparison.test : Comparison → Ordering → Bool
  | .eq, o => o.isEq
  | .gt, o => o.isGT
  | .gte, o => o.isGE
  | .lt, o => o.isLT
  | .lte, o => o.isLE

def BSONValue.isNaN (v : BSONValue) : Bool := v.number = some .nan

/-- The comparison of a reached value with the operand `v`. -/
def Comparison.holds (c : Comparison) (v : BSONValue) (reachedValue : Option BSONValue) : Bool :=
  let w := reachedValue.getD .null
  w.canonicalType = v.canonicalType &&
    if w.isNaN || v.isNaN then w.isNaN && v.isNaN && c.test .eq else c.test (compareValue w v)

/-- An item of `$in` and of `$nin`. -/
inductive InItem where
  | value (v : BSONValue)
  | regex (pattern : String)

inductive Criterion where
  | compare (c : Comparison) (v : BSONValue)
  | present (b : Bool)
  | isIn (items : List InItem)
  | notIn (items : List InItem)
  | regex (pattern : String)
  | not (c : Criterion)
  | both (c d : Criterion)

section Accepts

-- How the database compiles a regular expression.
variable (pcre : String → Option (String → Bool))

def compiles (pattern : String) : Bool := (pcre pattern).isSome

/-- The match of a regular expression, for strings only. -/
def regexHolds (pattern : String) : Option BSONValue → Bool
  | some (.string s) => (pcre pattern).any fun matching => matching s
  | _ => false

def InItem.holds (reachedValue : Option BSONValue) : InItem → Bool
  | .value v => Comparison.eq.holds v reachedValue
  | .regex pattern => regexHolds pcre pattern reachedValue

def Criterion.accepts (values : List (Option BSONValue)) : Criterion → Bool
  | .compare c v => values.any (c.holds v)
  | .present b => values.any Option.isSome == b
  | .isIn items => values.any fun w => items.any (InItem.holds pcre w)
  | .notIn items => !(values.any fun w => items.any (InItem.holds pcre w))
  | .regex pattern => values.any (regexHolds pcre pattern)
  | .not c => !(c.accepts values)
  | .both c d => c.accepts values && d.accepts values

def InItem.wellFormed : InItem → Bool
  | .value _ => true
  | .regex pattern => compiles pcre pattern

def Criterion.wellFormed : Criterion → Bool
  | .isIn items => items.all (InItem.wellFormed pcre)
  | .notIn items => items.all (InItem.wellFormed pcre)
  | .regex pattern => compiles pcre pattern
  | .not c => c.wellFormed
  | .both c d => c.wellFormed && d.wellFormed
  | _ => true

/-! ### Filters -/

inductive Filter where
  | field (path : String) (c : Criterion)
  | all (fs : List Filter)
  | any (fs : List Filter)

mutual

def Filter.accepts (doc : BSONObj) : Filter → Bool
  | .field path c => c.accepts pcre (reached (splitPath path) (.object doc))
  | .all fs => acceptsAll doc fs
  | .any fs => acceptsAny doc fs

def acceptsAll (doc : BSONObj) : List Filter → Bool
  | [] => true
  | f :: fs => f.accepts doc && acceptsAll doc fs

def acceptsAny (doc : BSONObj) : List Filter → Bool
  | [] => false
  | f :: fs => f.accepts doc || acceptsAny doc fs

end

mutual

def Filter.wellFormed : Filter → Bool
  | .field _ c => c.wellFormed pcre
  | .all fs => wellFormedList fs
  | .any fs => wellFormedList fs

def wellFormedList : List Filter → Bool
  | [] => true
  | f :: fs => f.wellFormed && wellFormedList fs

end

/-- The documents that a filter selects, in their order; `none` when the filter is refused. -/
def find (f : Filter) (docs : List BSONObj) : Option (List BSONObj) :=
  if f.wellFormed pcre then some (docs.filter (f.accepts pcre)) else none

/-! ### Lemmas for filters -/

@[simp]
theorem acceptsAll_eq (doc : BSONObj) (fs : List Filter) : acceptsAll pcre doc fs = fs.all (Filter.accepts pcre doc) := by
  induction fs with
  | nil => rfl
  | cons f fs ih => rw [acceptsAll, ih, List.all_cons]

@[simp]
theorem acceptsAny_eq (doc : BSONObj) (fs : List Filter) : acceptsAny pcre doc fs = fs.any (Filter.accepts pcre doc) := by
  induction fs with
  | nil => rfl
  | cons f fs ih => rw [acceptsAny, ih, List.any_cons]

@[simp]
theorem wellFormedList_eq (fs : List Filter) : wellFormedList pcre fs = fs.all (Filter.wellFormed pcre) := by
  induction fs with
  | nil => rfl
  | cons f fs ih => rw [wellFormedList, ih, List.all_cons]

end Accepts

/-! ### Lemmas for values -/

theorem compare_string_eq_iff {s t : String} : compareValue (.string s) (.string t) = .eq ↔ s = t := by
  rw [compareValue]
  exact compare_eq_iff_eq

/-- Equality with a string. -/
theorem eq_holds_string_iff {s : String} {w : Option BSONValue} :
    Comparison.eq.holds (.string s) w = true ↔ w = some (.string s) := by
  match w with
  | none => simp [Comparison.holds, BSONValue.canonicalType]
  | some (.string t) =>
    have h : ((compareValue (.string t) (.string s)).isEq = true) ↔ t = s := by
      rw [Ordering.isEq_iff_eq_eq, compare_string_eq_iff]
    simpa [Comparison.holds, BSONValue.canonicalType, BSONValue.isNaN, BSONValue.number, Comparison.test] using h
  | some .null | some (.int _) | some (.double _) | some (.bool _) | some (.object _) | some (.array _) =>
    simp [Comparison.holds, BSONValue.canonicalType]

/-- Equality with null: a missing value is null too. -/
theorem eq_holds_null_iff {w : Option BSONValue} : Comparison.eq.holds .null w = true ↔ w = none ∨ w = some .null := by
  match w with
  | none | some .null => decide
  | some (.string _) | some (.int _) | some (.double _) | some (.bool _) | some (.object _) | some (.array _) =>
    simp [Comparison.holds, BSONValue.canonicalType]

/-- A comparison of integers. -/
theorem holds_int (c : Comparison) (m n : Int) :
    c.holds (.int n) (some (.int m)) = c.test (Double.order (.fin m) (.fin n)) := by
  simp [Comparison.holds, BSONValue.canonicalType, BSONValue.isNaN, BSONValue.number, compareValue]

theorem gt_holds_int_iff {m n : Int} : Comparison.gt.holds (.int n) (some (.int m)) = true ↔ n < m := by
  rw [holds_int, Double.order, Comparison.test]
  by_cases h : m = n
  · simp [h]
  · have hne : ¬ ((m : ℚ) = (n : ℚ)) := fun e => h (by exact_mod_cast e)
    by_cases hlt : m < n
    · have hq : (m : ℚ) < (n : ℚ) := by exact_mod_cast hlt
      simp [hne, Double.lt, hq, hlt.le]
    · have hq : ¬ ((m : ℚ) < (n : ℚ)) := fun e => hlt (by exact_mod_cast e)
      simp only [hne, Double.lt, hq, Double.fin.injEq, reduceCtorEq, if_false, decide_false, Bool.false_eq_true]
      simp only [Ordering.isGT_gt, true_iff]
      omega

/-- An object whose fields are strings. -/
def stringFields (fields : List (String × String)) : BSONObj := fields.map fun f => (f.1, .string f.2)

theorem lookup_stringFields (fields : List (String × String)) (k : String) :
    (stringFields fields).lookup k = (fields.lookup k).map BSONValue.string := by
  induction fields with
  | nil => rfl
  | cons f fields ih =>
    obtain ⟨l, s⟩ := f
    have h := lookup_cons_eq k l (BSONValue.string s) (stringFields fields)
    rw [stringFields, List.map_cons, ← stringFields, h, lookup_cons_eq]
    by_cases hk : k = l
    · simp [hk]
    · simp [hk, ih]

theorem compareFields_stringFields_eq_iff {o p : List (String × String)} :
    compareFields (stringFields o) (stringFields p) = .eq ↔ o = p := by
  induction o generalizing p with
  | nil =>
    cases p with
    | nil => simp [stringFields, compareFields]
    | cons g p => simp [stringFields, compareFields]
  | cons f o ih =>
    obtain ⟨k, s⟩ := f
    cases p with
    | nil => simp [stringFields, compareFields]
    | cons g p =>
      obtain ⟨l, t⟩ := g
      have hrest : compareFields (o.map fun f => (f.1, BSONValue.string f.2)) (p.map fun f => (f.1, .string f.2)) = .eq ↔
          o = p := ih
      simp only [stringFields, List.map_cons, compareFields, Ordering.then_eq_eq, compare_eq_iff_eq,
        compare_string_eq_iff, hrest]
      simp [BSONValue.canonicalType, and_assoc]

/-- Equality with an object of strings: the same fields in the same order. -/
theorem eq_holds_stringFields_iff {o p : List (String × String)} :
    Comparison.eq.holds (.object (stringFields o)) (some (.object (stringFields p))) = true ↔ p = o := by
  have h : compareValue (.object (stringFields p)) (.object (stringFields o)) = .eq ↔ p = o := by
    rw [compareValue]
    exact compareFields_stringFields_eq_iff
  simp [Comparison.holds, BSONValue.canonicalType, BSONValue.isNaN, BSONValue.number, Comparison.test,
    Ordering.isEq_iff_eq_eq, h]

/-! ### Lemmas for paths -/

theorem reached_object (k : String) (ks : List String) (o : BSONObj) :
    reached (k :: ks) (.object o) = reachedField (reached ks) k o := rfl

theorem reachedField_of_lookup {next : BSONValue → List (Option BSONValue)} {k : String} {o : BSONObj} {v : BSONValue}
    (h : o.lookup k = some v) : reachedField next k o = next v := by
  rw [reachedField, h]

theorem reachedField_stringFields (fields : List (String × String)) (k : String) :
    reachedField (reached []) k (stringFields fields) = [(fields.lookup k).map BSONValue.string] := by
  rw [reachedField, lookup_stringFields]
  cases fields.lookup k with
  | none => rfl
  | some s => rfl

/-- In the middle of a path, an array of objects stands for each of them. -/
theorem reached_objects {α : Type} {k : String} {ks : List String} (toBson : α → BSONObj) (l : List α)
    (hk : arrayIndex k = none) :
    reached (k :: ks) (.array (l.map fun a => .object (toBson a))) =
      l.flatMap fun a => reachedField (reached ks) k (toBson a) := by
  simp [reached, hk, List.flatMap_map]

end Bson
