import Mathlib

/-!
# BSON documents

Values of a document database: scalars, objects (lists of named fields, in order) and arrays.  A field is read by
its first occurrence (`List.lookup`), written in place or at the end (`setField`) and removed with all its
occurrences (`unsetField`).

Numbers are rationals together with the three special values of the floating-point format; the comparisons of
`Double` are those of the hardware, so that a `nan` is not equal to itself.
-/

namespace Bson

/-- A floating-point number: every finite one is a rational. -/
inductive Double where
  | nan
  | inf (negative : Bool)
  | fin (q : ℚ)
deriving DecidableEq

/-- `==` on floating-point numbers. -/
def Double.eq : Double → Double → Bool
  | .fin a, .fin b => a == b
  | .inf s, .inf t => s == t
  | _, _ => false

theorem Double.eq_of_eq {d e : Double} (h : d.eq e = true) : d = e := by
  cases d <;> cases e <;> simp_all [Double.eq]

/-- `<` on floating-point numbers. -/
def Double.lt : Double → Double → Bool
  | .fin a, .fin b => decide (a < b)
  | .inf true, .inf false => true
  | .inf true, .fin _ => true
  | .fin _, .inf false => true
  | _, _ => false

inductive BSONValue where
  | string (s : String)
  | double (d : Double)
  | bool (b : Bool)
  | null
  | int (n : Int)
  | object (fields : List (String × BSONValue))
  | array (items : List BSONValue)

abbrev BSONObj := List (String × BSONValue)

/-! ### Decidable equality -/

mutual

def BSONValue.beq : BSONValue → BSONValue → Bool
  | .string s, .string t => s == t
  | .double d, .double e => d == e
  | .bool b, .bool c => b == c
  | .null, .null => true
  | .int m, .int n => m == n
  | .object o, .object p => beqFields o p
  | .array a, .array b => beqItems a b
  | _, _ => false

def beqFields : List (String × BSONValue) → List (String × BSONValue) → Bool
  | [], [] => true
  | (k, v) :: o, (l, w) :: p => k == l && v.beq w && beqFields o p
  | _, _ => false

def beqItems : List BSONValue → List BSONValue → Bool
  | [], [] => true
  | v :: a, w :: b => v.beq w && beqItems a b
  | _, _ => false

end

mutual

private theorem BSONValue.beq_iff (v w : BSONValue) : v.beq w = true ↔ v = w := by
  cases v <;> cases w <;> simp [BSONValue.beq, beqFields_iff, beqItems_iff]

private theorem beqFields_iff (o p : List (String × BSONValue)) : beqFields o p = true ↔ o = p := by
  match o, p with
  | [], [] => simp [beqFields]
  | [], _ :: _ => simp [beqFields]
  | _ :: _, [] => simp [beqFields]
  | (k, v) :: o, (l, w) :: p => simp [beqFields, BSONValue.beq_iff v w, beqFields_iff o p]

private theorem beqItems_iff (a b : List BSONValue) : beqItems a b = true ↔ a = b := by
  match a, b with
  | [], [] => simp [beqItems]
  | [], _ :: _ => simp [beqItems]
  | _ :: _, [] => simp [beqItems]
  | v :: a, w :: b => simp [beqItems, BSONValue.beq_iff v w, beqItems_iff a b]

end

instance : DecidableEq BSONValue := fun v w => decidable_of_iff _ (BSONValue.beq_iff v w)

/-! ### Fields of an object -/

section Fields

variable {α : Type}

/-- Write a field: in place when it exists, at the end otherwise. -/
def setField (k : String) (v : α) : List (String × α) → List (String × α)
  | [] => [(k, v)]
  | (l, w) :: o => if l = k then (k, v) :: o else (l, w) :: setField k v o

/-- Remove a field. -/
def unsetField (k : String) (o : List (String × α)) : List (String × α) := o.filter fun f => f.1 ≠ k

def hasField (o : List (String × α)) (k : String) : Bool := (o.lookup k).isSome

theorem lookup_cons_eq (k l : String) (v : α) (o : List (String × α)) :
    ((l, v) :: o).lookup k = if k = l then some v else o.lookup k := by
  by_cases h : k = l
  · subst h; simp
  · rw [List.lookup_cons, beq_false_of_ne h, if_neg h]

theorem lookup_setField (k l : String) (v : α) (o : List (String × α)) :
    (setField k v o).lookup l = if l = k then some v else o.lookup l := by
  induction o with
  | nil => simp [setField, lookup_cons_eq]
  | cons f o ih =>
    obtain ⟨m, w⟩ := f
    unfold setField
    split
    · subst_vars
      simp only [lookup_cons_eq]
      split <;> rfl
    · rename_i hm
      simp only [lookup_cons_eq, ih]
      by_cases h1 : l = m <;> by_cases h2 : l = k <;> simp_all

theorem lookup_unsetField (k l : String) (o : List (String × α)) :
    (unsetField k o).lookup l = if l = k then none else o.lookup l := by
  induction o with
  | nil => simp [unsetField]
  | cons f o ih =>
    obtain ⟨m, w⟩ := f
    unfold unsetField at ih ⊢
    by_cases hm : m = k
    · subst hm
      simp only [ne_eq, not_true, decide_false, Bool.false_eq_true, not_false_eq_true, List.filter_cons_of_neg, ih,
        lookup_cons_eq]
      split <;> simp_all
    · rw [List.filter_cons_of_pos (by simpa using hm)]
      simp only [lookup_cons_eq, ih]
      by_cases h1 : l = m <;> by_cases h2 : l = k <;> simp_all

/-- Writing what is already there changes nothing. -/
theorem setField_of_lookup {k : String} {v : α} {o : List (String × α)} (h : o.lookup k = some v) :
    setField k v o = o := by
  induction o with
  | nil => simp at h
  | cons f o ih =>
    obtain ⟨m, w⟩ := f
    rw [lookup_cons_eq] at h
    unfold setField
    split at h
    · subst_vars
      cases h
      simp
    · rename_i hm
      rw [if_neg (Ne.symm hm), ih h]

/-- Fields made from a list with different keys, in front of other fields. -/
theorem lookup_map_append {β : Type*} {key : β → String} (f : β → α) {bs : List β} (rest : List (String × α))
    (hnodup : (bs.map key).Nodup) :
    (∀ b ∈ bs, (bs.map (fun b => (key b, f b)) ++ rest).lookup (key b) = some (f b)) ∧
      ∀ k, k ∉ bs.map key → (bs.map (fun b => (key b, f b)) ++ rest).lookup k = rest.lookup k := by
  induction bs with
  | nil => exact ⟨fun b hb => absurd hb (List.not_mem_nil), fun k _ => rfl⟩
  | cons c bs ih =>
    rw [List.map_cons, List.nodup_cons] at hnodup
    obtain ⟨ih₁, ih₂⟩ := ih hnodup.2
    simp only [List.map_cons, List.cons_append, lookup_cons_eq]
    refine ⟨fun b hb => ?_, fun k hk => ?_⟩
    · rcases List.mem_cons.1 hb with rfl | hb
      · rw [if_pos rfl]
      · have hne : key b ≠ key c := fun he => hnodup.1 (he ▸ List.mem_map_of_mem hb)
        rw [if_neg hne]
        exact ih₁ b hb
    · rw [List.mem_cons, not_or] at hk
      rw [if_neg hk.1]
      exact ih₂ k hk.2

theorem lookup_of_not_hasField {o : List (String × α)} {k : String} (h : ¬ hasField o k = true) : o.lookup k = none := by
  unfold hasField at h
  rwa [Option.not_isSome_iff_eq_none] at h

theorem hasField_iff_mem {o : List (String × α)} {k : String} : hasField o k = true ↔ k ∈ o.map Prod.fst := by
  induction o with
  | nil => simp [hasField]
  | cons f o ih =>
    obtain ⟨l, w⟩ := f
    unfold hasField at ih ⊢
    rw [lookup_cons_eq]
    split
    · subst_vars; simp
    · rename_i h
      simp [ih, h]

theorem mem_keys_setField {k l : String} {v : α} {o : List (String × α)} :
    l ∈ (setField k v o).map Prod.fst ↔ l = k ∨ l ∈ o.map Prod.fst := by
  rw [← hasField_iff_mem, ← hasField_iff_mem, hasField, hasField, lookup_setField]
  split <;> simp_all

/-- The field names of an object, as the sorted set that `BSONObj::getFieldNames` fills. -/
def getFieldNames (o : List (String × α)) : List String := (o.map Prod.fst).dedup.insertionSort (· ≤ ·)

@[simp]
theorem mem_getFieldNames {o : List (String × α)} {k : String} : k ∈ getFieldNames o ↔ k ∈ o.map Prod.fst := by
  unfold getFieldNames
  rw [(List.perm_insertionSort (· ≤ ·) _).mem_iff, List.mem_dedup]

theorem nodup_getFieldNames (o : List (String × α)) : (getFieldNames o).Nodup :=
  (List.perm_insertionSort (· ≤ ·) _).nodup_iff.2 (List.nodup_dedup _)

end Fields

end Bson
