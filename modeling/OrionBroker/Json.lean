import OrionBroker.Bson

/-!
# JSON values

A value as a parser returns it.  The members of an object are in the order of the text, and a name may be repeated; a
member is found by its first occurrence.  A number is an integer or a floating-point number, as it is written.

A text that is read as a C string ends at its first zero character (`cString`).
-/

inductive Json where
  | null
  | bool (b : Bool)
  | int (n : Int)
  | double (d : Bson.Double)
  | string (s : String)
  | array (items : List Json)
  | object (members : List (String × Json))

/-- The part of a text before its first zero character. -/
def cString (s : String) : String := String.ofList (s.toList.takeWhile fun c => c ≠ '\x00')

theorem cString_eq_self_iff {s : String} : cString s = s ↔ '\x00' ∉ s.toList := by
  unfold cString
  constructor
  · intro h hmem
    have hlist : s.toList.takeWhile (fun c => c ≠ '\x00') = s.toList := by
      rw [← String.toList_ofList (l := s.toList.takeWhile _), h]
    have hall := List.takeWhile_eq_self_iff.1 hlist '\x00' hmem
    simp at hall
  · intro h
    have hlist : s.toList.takeWhile (fun c => c ≠ '\x00') = s.toList := by
      rw [List.takeWhile_eq_self_iff]
      intro c hc
      rw [decide_eq_true_iff]
      exact fun he => h (he ▸ hc)
    rw [hlist, String.ofList_toList]

theorem cString_empty : cString "" = "" := rfl

/-- What is read of a text that ends at once. -/
theorem cString_eq_empty {s : String} (h : cString s = "") : s = "" ∨ '\x00' ∈ s.toList := by
  by_cases hmem : '\x00' ∈ s.toList
  · exact Or.inr hmem
  · rw [cString_eq_self_iff.2 hmem] at h
    exact Or.inl h

/-! ### Computations that may fail -/

/-- Where a computation in two steps succeeds, both steps do. -/
theorem Except.of_bind_ok {ε α β : Type} {first : Except ε α} {next : α → Except ε β} {b : β}
    (h : first >>= next = .ok b) : ∃ a, first = .ok a ∧ next a = .ok b := by
  rcases first with e | a
  · exact absurd h (by rintro ⟨⟩)
  · exact ⟨a, rfl, h⟩

/-- A computation for each item of a list, if what it returns is given by a function. -/
theorem Except.eq_map_of_mapM {ε α β : Type} {f : α → Except ε β} {g : α → β} (hf : ∀ a b, f a = .ok b → b = g a)
    {items : List α} {l : List β} (h : items.mapM f = .ok l) : l = items.map g := by
  induction items generalizing l with
  | nil =>
    cases h
    rfl
  | cons a items ih =>
    rw [List.mapM_cons] at h
    obtain ⟨b, hb, h⟩ := Except.of_bind_ok h
    obtain ⟨bs, hbs, h⟩ := Except.of_bind_ok h
    cases h
    rw [hf a b hb, ih hbs, List.map_cons]

/-! ### Reading a value -/

namespace Json

/-- The first member of this name. -/
def member (name : String) : Json → Option Json
  | .object members => members.lookup name
  | _ => none

/-- The value that is reached through members of these names. -/
def follow : List String → Json → Option Json
  | [], v => some v
  | name :: names, v => (v.member name).bind (follow names)

def text : Json → String
  | .string s => s
  | _ => ""

def integer : Json → Int
  | .int n => n
  | _ => 0

def items : Json → List Json
  | .array items => items
  | _ => []

/-- The texts of the items of an array. -/
def texts (v : Json) : List String := v.items.map text

/-- The text of a member, empty if there is none. -/
def textOf (name : String) (v : Json) : String := ((v.member name).map text).getD ""

def isInt64 : Json → Bool
  | .int n => decide (-2 ^ 63 ≤ n ∧ n < 2 ^ 63)
  | _ => false

@[simp] theorem follow_cons_cons (name name' : String) (names : List String) (v : Json) :
    v.follow (name :: name' :: names) = (v.member name).bind (follow (name' :: names)) := rfl

@[simp] theorem follow_singleton (name : String) (v : Json) : v.follow [name] = v.member name :=
  Option.bind_fun_some _

end Json
