import OrionBroker.MongoQuery

/-!
# Query filters as documents

A filter is sent to the database as a document.  Each of its fields is a path with the object of the operators that the
value there has to meet, and all of the operators and all of the fields have to be met.

The second half says what the comparisons come to for numbers and for strings.  A `nan` is equal to itself here, and
not comparable with a number, so `$gte` and `$lte` are not the negations of `<` on floating-point numbers
(`number_gte`, `number_lte`); `$gt` and `$lt` are the hardware's comparisons (`number_gt`, `number_lt`).
-/

namespace Bson

/-! ### Reading a filter -/

def Comparison.ofOperator : String → Option Comparison
  | "$gt" => some .gt
  | "$gte" => some .gte
  | "$lt" => some .lt
  | "$lte" => some .lte
  | _ => none

mutual

/-- An operator with its operand. -/
def Criterion.ofOperator (operator : String) : BSONValue → Option Criterion
  | .bool b =>
    if operator = "$exists" then some (.present b)
    else (Comparison.ofOperator operator).map fun c => .compare c (.bool b)
  | .array items =>
    if operator = "$in" then some (.isIn (items.map .value))
    else if operator = "$nin" then some (.notIn (items.map .value))
    else (Comparison.ofOperator operator).map fun c => .compare c (.array items)
  | .string s =>
    if operator = "$regex" then some (.regex s)
    else (Comparison.ofOperator operator).map fun c => .compare c (.string s)
  | .object o =>
    if operator = "$not" then (Criterion.ofOperators o).map .not
    else (Comparison.ofOperator operator).map fun c => .compare c (.object o)
  | v => (Comparison.ofOperator operator).map fun c => .compare c v

/-- The operators of one path. -/
def Criterion.ofOperators : List (String × BSONValue) → Option Criterion
  | [] => none
  | (operator, v) :: [] => Criterion.ofOperator operator v
  | (operator, v) :: rest => do
    return .both (← Criterion.ofOperator operator v) (← Criterion.ofOperators rest)

end

/-- A value that is not an object of operators stands for itself. -/
def Criterion.ofBson (v : BSONValue) : Criterion :=
  match v with
  | .object o => (Criterion.ofOperators o).getD (.compare .eq v)
  | _ => .compare .eq v

def Filter.ofBson (f : BSONObj) : Filter := .all (f.map fun e => .field e.1 (Criterion.ofBson e.2))

theorem accepts_ofBson_singleton (pcre : String → Option (String → Bool)) (doc : BSONObj) (path : String)
    (v : BSONValue) :
    (Filter.ofBson [(path, v)]).accepts pcre doc =
      (Criterion.ofBson v).accepts pcre (reached (splitPath path) (.object doc)) := by
  simp [Filter.ofBson, Filter.accepts]

/-! ### Numbers -/

@[simp]
theorem nan_lt (e : Double) : Double.nan.lt e = false := by
  cases e <;> rfl

@[simp]
theorem lt_nan (d : Double) : d.lt .nan = false := by
  rcases d with _ | negative | q
  · rfl
  · cases negative <;> rfl
  · rfl

/-- The comparison of two numbers. -/
def Comparison.number (c : Comparison) (d e : Double) : Bool :=
  if d = .nan ∨ e = .nan then d = e && c.test .eq else c.test (d.order e)

theorem number_gt (d e : Double) : Comparison.gt.number d e = e.lt d := by
  unfold Comparison.number Double.order
  rcases d with _ | s | a <;> rcases e with _ | t | b
  all_goals simp [Comparison.test, Double.lt]
  · cases s <;> cases t <;> simp
  · cases s <;> simp
  · cases t <;> simp
  · rcases lt_trichotomy a b with h | h | h
    · simp [h, h.ne, h.le]
    · simp [h]
    · simp [h.not_gt, h.ne', h]

theorem number_lt (d e : Double) : Comparison.lt.number d e = d.lt e := by
  unfold Comparison.number Double.order
  rcases d with _ | s | a <;> rcases e with _ | t | b
  all_goals simp [Comparison.test, Double.lt]
  · cases s <;> cases t <;> simp
  · cases s <;> simp
  · cases t <;> simp
  · rcases lt_trichotomy a b with h | h | h
    · simp [h, h.ne]
    · simp [h]
    · simp [h.not_gt, h.ne']

private theorem number_cases {d e : Double} (c : Comparison) (hd : d ≠ .nan) (he : e ≠ .nan) :
    c.number d e = c.test (d.order e) := by
  rw [Comparison.number, if_neg (by simp [hd, he])]

theorem number_gte {d e : Double} (hd : d ≠ .nan) (he : e ≠ .nan) : Comparison.gte.number d e = !d.lt e := by
  rw [← number_lt, number_cases _ hd he, number_cases _ hd he]
  cases d.order e <;> rfl

theorem number_lte {d e : Double} (hd : d ≠ .nan) (he : e ≠ .nan) : Comparison.lte.number d e = !e.lt d := by
  rw [← number_gt, number_cases _ hd he, number_cases _ hd he]
  cases d.order e <;> rfl

/-- With a `nan`, only two of them are in order. -/
theorem number_of_nan {c : Comparison} {d e : Double} (h : d = .nan ∨ e = .nan) :
    c.number d e = (decide (d = .nan ∧ e = .nan) && c.test .eq) := by
  rw [Comparison.number, if_pos h]
  rcases h with rfl | rfl
  · simp [eq_comm]
  · simp

theorem order_eq_iff {d e : Double} : (d.order e).isEq = true ↔ d = e := by
  unfold Double.order
  split_ifs with heq <;> simp [heq]

theorem number_eq (d e : Double) : Comparison.eq.number d e = decide (d = e) := by
  rw [Bool.eq_iff_iff, decide_eq_true_iff, Comparison.number]
  split
  · simp [Comparison.test]
  · exact order_eq_iff

/-- The equality of the hardware, but for the `nan`. -/
theorem eq_iff {d e : Double} : d.eq e = true ↔ d = e ∧ d ≠ .nan := by
  constructor
  · intro h
    refine ⟨Double.eq_of_eq h, ?_⟩
    rintro rfl
    cases h
  · rintro ⟨rfl, hnan⟩
    cases d with
    | nan => exact absurd rfl hnan
    | inf negative => simp [Double.eq]
    | fin q => simp [Double.eq]

/-! ### Numbers on both sides

The comparisons of the hardware and those of the database, side by side. -/

theorem eq_eq_number_iff {d e : Double} : d.eq e = Comparison.eq.number d e ↔ (d = .nan → e ≠ .nan) := by
  rw [number_eq, Bool.eq_iff_iff, eq_iff, decide_eq_true_iff]
  constructor
  · rintro h hd rfl
    exact (h.2 hd).2 hd
  · exact fun h => ⟨And.left, fun he => ⟨he, fun hd => h hd (he ▸ hd)⟩⟩

theorem any_eq_number_iff {d : Double} {l : List Double} :
    (l.any fun e => d.eq e) = (l.any fun e => Comparison.eq.number d e) ↔ (d = .nan → .nan ∉ l) := by
  have hdatabase : (l.any fun e => Comparison.eq.number d e) = true ↔ d ∈ l := by
    simp [number_eq]
  have hmemory : (l.any fun e => d.eq e) = true ↔ d ∈ l ∧ d ≠ .nan := by
    rw [List.any_eq_true]
    constructor
    · rintro ⟨e, he, heq⟩
      obtain ⟨rfl, hnan⟩ := eq_iff.1 heq
      exact ⟨he, hnan⟩
    · rintro ⟨hd, hnan⟩
      exact ⟨d, hd, eq_iff.2 ⟨rfl, hnan⟩⟩
  rw [Bool.eq_iff_iff, hmemory, hdatabase]
  constructor
  · rintro h rfl hmem
    exact (h.2 hmem).2 rfl
  · exact fun h => ⟨And.left, fun hd => ⟨hd, fun hnan => h hnan (hnan ▸ hd)⟩⟩

theorem not_lt_eq_gte_iff {d e : Double} : (!d.lt e) = Comparison.gte.number d e ↔ (d = .nan ↔ e = .nan) := by
  by_cases hd : d = .nan
  · rw [number_of_nan (.inl hd), hd]
    simp [Comparison.test]
  · by_cases he : e = .nan
    · rw [number_of_nan (.inr he), he]
      simp [hd]
    · rw [number_gte hd he]
      simp [hd, he]

theorem not_lt_eq_lte_iff {d e : Double} : (!e.lt d) = Comparison.lte.number d e ↔ (d = .nan ↔ e = .nan) := by
  by_cases hd : d = .nan
  · rw [number_of_nan (.inl hd), hd]
    simp [Comparison.test]
  · by_cases he : e = .nan
    · rw [number_of_nan (.inr he), he]
      simp [hd]
    · rw [number_lte hd he]
      simp [hd, he]

/-- A range whose ends are compared by the hardware lets a `nan` pass. -/
def RangeInOrder (d a b : Double) : Prop :=
  if d = .nan then a = .nan ∧ b = .nan else (a = .nan → b.lt d = true) ∧ (b = .nan → d.lt a = true)

instance (d a b : Double) : Decidable (RangeInOrder d a b) := by unfold RangeInOrder; infer_instance

theorem range_eq_iff {d a b : Double} :
    (!(d.lt a || b.lt d)) = (Comparison.gte.number d a && Comparison.lte.number d b) ↔ RangeInOrder d a b := by
  unfold RangeInOrder
  by_cases hd : d = .nan
  · rw [if_pos hd, number_of_nan (.inl hd), number_of_nan (.inl hd), hd]
    by_cases ha : a = .nan <;> by_cases hb : b = .nan <;> simp [ha, hb, Comparison.test]
  · rw [if_neg hd]
    by_cases ha : a = .nan
    · rw [number_of_nan (.inr ha), ha]
      by_cases hb : b = .nan <;> simp [hd, hb]
    · rw [number_gte hd ha]
      by_cases hb : b = .nan
      · rw [number_of_nan (.inr hb), hb]
        simp [hd, ha]
      · rw [number_lte hd hb]
        simp [ha, hb]

/-! ### Strings -/

theorem isGT_compare (s t : String) : (compare s t).isGT = decide (t < s) := by
  rw [Bool.eq_iff_iff, Ordering.isGT_iff_eq_gt, compare_gt_iff_gt, decide_eq_true_iff]

theorem isLT_compare (s t : String) : (compare s t).isLT = decide (s < t) := by
  rw [Bool.eq_iff_iff, Ordering.isLT_iff_eq_lt, compare_lt_iff_lt, decide_eq_true_iff]

theorem isGE_compare (s t : String) : (compare s t).isGE = !decide (s < t) := by
  rw [← isLT_compare]
  cases compare s t <;> rfl

theorem isLE_compare (s t : String) : (compare s t).isLE = !decide (t < s) := by
  rw [← isGT_compare]
  cases compare s t <;> rfl

theorem isEq_compare (s t : String) : (compare s t).isEq = decide (s = t) := by
  rw [Bool.eq_iff_iff, Ordering.isEq_iff_eq_eq, compare_eq_iff_eq, decide_eq_true_iff]

/-! ### Comparisons with a value of the document -/

/-- Values of different types are not related. -/
theorem holds_of_canonicalType {c : Comparison} {v : BSONValue} {w : Option BSONValue}
    (h : (w.getD .null).canonicalType ≠ v.canonicalType) : c.holds v w = false := by
  rw [Comparison.holds]
  simp [h]

theorem canonicalType_of_number {v : BSONValue} {d : Double} (h : v.number = some d) : v.canonicalType = 10 := by
  cases v <;> cases h <;> rfl

theorem holds_number {c : Comparison} {v : BSONValue} {d e : Double} (h : v.number = some d) :
    c.holds (.double e) (some v) = c.number d e := by
  have hcompare : compareValue v (.double e) = d.order e := by
    cases v <;> cases h <;> rfl
  have htype : v.canonicalType = (BSONValue.double e).canonicalType := canonicalType_of_number h
  have hnan : v.isNaN = decide (d = .nan) := by
    rw [BSONValue.isNaN, h]
    simp
  have hnan' : (BSONValue.double e).isNaN = decide (e = .nan) := by
    simp [BSONValue.isNaN, BSONValue.number]
  rw [Comparison.holds, Option.getD_some, htype, hnan, hnan', hcompare, Comparison.number]
  by_cases hd : d = .nan
  · by_cases he : e = .nan
    · simp [hd, he]
    · simp [hd, he, Ne.symm he]
  · by_cases he : e = .nan
    · simp [hd, he]
    · simp [hd, he]

theorem holds_string (c : Comparison) (s t : String) : c.holds (.string t) (some (.string s)) = c.test (compare s t) := by
  simp [Comparison.holds, BSONValue.canonicalType, BSONValue.isNaN, BSONValue.number, compareValue]

theorem eq_holds_bool (b c : Bool) : Comparison.eq.holds (.bool c) (some (.bool b)) = (b == c) := by
  cases b <;> cases c <;> decide

end Bson
