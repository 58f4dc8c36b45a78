import OrionBroker.Bson
import OrionBroker.FieldEncoding
import OrionBroker.ForbiddenChars

/-!
# Compound values (`CompoundValueNode.cpp`, `compoundResponses.cpp`)

A compound attribute value is a tree of objects and vectors with strings, numbers, booleans and nulls as leaves.
Every node carries a name: the member name below an object, a placeholder below a vector.  The tree is written to
the database by the two functions `compoundValueBson`, one for the children of a vector and one for those of an
object, and read back by `compoundVectorResponse` and `compoundObjectResponse`; only the names of object members go
through the substitution of dots.

`denote` is the JSON value that a tree stands for; it forgets the names of vector items.  Writing and reading back a
tree keeps its JSON value exactly if no member name in it contains `=` (`denote_roundtrip_iff`).
-/

namespace OrionBroker

open Bson

inductive CompoundValueNode where
  | string (name stringValue : String)
  | number (name : String) (numberValue : Double)
  | boolean (name : String) (boolValue : Bool)
  | none (name : String)
  | vector (name : String) (childV : List CompoundValueNode)
  | object (name path : String) (childV : List CompoundValueNode)

namespace CompoundValueNode

def name : CompoundValueNode → String
  | .string n _ | .number n _ | .boolean n _ | .none n | .vector n _ | .object n _ _ => n

def isVector : CompoundValueNode → Bool
  | .vector .. => true
  | _ => false

def isObject : CompoundValueNode → Bool
  | .object .. => true
  | _ => false

/-- The first name that occurs again further on. -/
def firstDuplicate : List String → Option String
  | [] => Option.none
  | n :: ns => if n ∈ ns then some n else firstDuplicate ns

mutual

/-- A vector must have all its children with the same name, an object cannot have two children with the same name
and a string has no forbidden characters (the other leaves have an empty `stringValue`). -/
def check : CompoundValueNode → String
  | .vector _ childV =>
    match childV with
    | [] => "OK"
    | c :: cs =>
      match cs.find? fun d => d.name ≠ c.name with
      | some d => "bad tag-name of vector item: /" ++ d.name ++ "/, should be /" ++ c.name ++ "/"
      | Option.none => checkAll (c :: cs)
  | .object _ path childV =>
    match firstDuplicate (childV.map name) with
    | some n => "duplicated tag-name: /" ++ n ++ "/ in path: " ++ path
    | Option.none => checkAll childV
  | .string _ s => if forbiddenChars s [] then "Invalid characters in attribute value" else "OK"
  | _ => "OK"

def checkAll : List CompoundValueNode → String
  | [] => "OK"
  | c :: cs => if check c ≠ "OK" then check c else checkAll cs

end

end CompoundValueNode

/-! ### Writing and reading -/

mutual

/-- The value that either `compoundValueBson` appends for a child. -/
def childBson : CompoundValueNode → BSONValue
  | .string _ s => .string s
  | .number _ d => .double d
  | .boolean _ b => .bool b
  | .none _ => .null
  | .vector _ childV => .array (compoundValueBsonArray childV)
  | .object _ _ childV => .object (compoundValueBson childV)

/-- `compoundValueBson` (for arrays). -/
def compoundValueBsonArray : List CompoundValueNode → List BSONValue
  | [] => []
  | child :: children => childBson child :: compoundValueBsonArray children

def compoundValueBson : List CompoundValueNode → BSONObj
  | [] => []
  | child :: children => (dbDotEncode child.name, childBson child) :: compoundValueBson children

end

mutual

/-- A BSON element of a type other than the six of JSON is not added. -/
def addCompoundNode (fieldName : String) : BSONValue → Option CompoundValueNode
  | .string s => some (.string (dbDotDecode fieldName) s)
  | .bool b => some (.boolean (dbDotDecode fieldName) b)
  | .double d => some (.number (dbDotDecode fieldName) d)
  | .null => some (.none (dbDotDecode fieldName))
  | .object o => some (.object (dbDotDecode fieldName) "/" (compoundObjectResponse o))
  | .array items => some (.vector (dbDotDecode fieldName) (compoundVectorResponse 0 items))
  | .int _ => Option.none

def compoundObjectResponse : BSONObj → List CompoundValueNode
  | [] => []
  | (k, v) :: o =>
    match addCompoundNode k v with
    | some child => child :: compoundObjectResponse o
    | Option.none => compoundObjectResponse o

/-- The items from index `ix` on; their field names in the array are their indices. -/
def compoundVectorResponse (ix : Nat) : List BSONValue → List CompoundValueNode
  | [] => []
  | v :: items =>
    match addCompoundNode (Nat.repr ix) v with
    | some child => child :: compoundVectorResponse (ix + 1) items
    | Option.none => compoundVectorResponse (ix + 1) items

end

/-! ### The JSON value of a tree -/

namespace CompoundValueNode

mutual

/-- The JSON value that a tree stands for, with the member names as they are. -/
def denote : CompoundValueNode → BSONValue
  | .string _ s => .string s
  | .number _ d => .double d
  | .boolean _ b => .bool b
  | .none _ => .null
  | .vector _ childV => .array (denoteItems childV)
  | .object _ _ childV => .object (denoteMembers childV)

def denoteItems : List CompoundValueNode → List BSONValue
  | [] => []
  | c :: cs => denote c :: denoteItems cs

def denoteMembers : List CompoundValueNode → BSONObj
  | [] => []
  | c :: cs => (c.name, denote c) :: denoteMembers cs

end

mutual

/-- The names of the members of all objects in a tree. -/
def memberNames : CompoundValueNode → List String
  | .vector _ childV => memberNamesItems childV
  | .object _ _ childV => memberNamesMembers childV
  | _ => []

def memberNamesItems : List CompoundValueNode → List String
  | [] => []
  | c :: cs => memberNames c ++ memberNamesItems cs

def memberNamesMembers : List CompoundValueNode → List String
  | [] => []
  | c :: cs => c.name :: memberNames c ++ memberNamesMembers cs

end

end CompoundValueNode

open CompoundValueNode

/-! ### Round trip -/

/-- No name of the list loses an `=`. -/
private def KeepsNames (names : List String) : Prop := ∀ n ∈ names, '=' ∉ n.toList

private theorem keepsNames_append {ns ms : List String} : KeepsNames (ns ++ ms) ↔ KeepsNames ns ∧ KeepsNames ms := by
  unfold KeepsNames
  simp only [List.mem_append, or_imp, forall_and]

mutual

/-- Reading back the BSON of a child gives a node with the decoded field name, and with the same JSON value exactly
if the names in it are kept. -/
private theorem addCompoundNode_childBson (k : String) (t : CompoundValueNode) :
    ∃ t', addCompoundNode k (childBson t) = some t' ∧ t'.name = dbDotDecode k ∧
      (t'.denote = t.denote ↔ KeepsNames t.memberNames) := by
  match t with
  | .string _ _ => exact ⟨_, rfl, rfl, by simp [denote, memberNames, KeepsNames]⟩
  | .number _ _ => exact ⟨_, rfl, rfl, by simp [denote, memberNames, KeepsNames]⟩
  | .boolean _ _ => exact ⟨_, rfl, rfl, by simp [denote, memberNames, KeepsNames]⟩
  | .none _ => exact ⟨_, rfl, rfl, by simp [denote, memberNames, KeepsNames]⟩
  | .vector _ childV =>
    refine ⟨_, rfl, rfl, ?_⟩
    have h := denoteItems_compoundVectorResponse 0 childV
    simpa [denote, memberNames] using h
  | .object _ _ childV =>
    refine ⟨_, rfl, rfl, ?_⟩
    have h := denoteMembers_compoundObjectResponse childV
    simpa [denote, memberNames] using h

private theorem denoteItems_compoundVectorResponse (ix : Nat) (cs : List CompoundValueNode) :
    denoteItems (compoundVectorResponse ix (compoundValueBsonArray cs)) = denoteItems cs ↔
      KeepsNames (memberNamesItems cs) := by
  match cs with
  | [] => simp [compoundValueBsonArray, compoundVectorResponse, memberNamesItems, KeepsNames]
  | c :: cs =>
    obtain ⟨c', hc, -, hd⟩ := addCompoundNode_childBson (Nat.repr ix) c
    have ih := denoteItems_compoundVectorResponse (ix + 1) cs
    simp only [compoundValueBsonArray, compoundVectorResponse, hc, denoteItems, memberNamesItems, List.cons.injEq,
      keepsNames_append, hd, ih]

private theorem denoteMembers_compoundObjectResponse (cs : List CompoundValueNode) :
    denoteMembers (compoundObjectResponse (compoundValueBson cs)) = denoteMembers cs ↔
      KeepsNames (memberNamesMembers cs) := by
  match cs with
  | [] => simp [compoundValueBson, compoundObjectResponse, memberNamesMembers, KeepsNames]
  | c :: cs =>
    obtain ⟨c', hc, hn, hd⟩ := addCompoundNode_childBson (dbDotEncode c.name) c
    have ih := denoteMembers_compoundObjectResponse cs
    have hname : KeepsNames [c.name] ↔ c'.name = c.name := by
      rw [hn, dbDotDecode_dbDotEncode_iff]
      simp [KeepsNames]
    have hsplit : memberNamesMembers (c :: cs) = [c.name] ++ (memberNames c ++ memberNamesMembers cs) := by
      simp [memberNamesMembers]
    rw [hsplit, keepsNames_append, keepsNames_append, hname, ← hd, ← ih]
    simp only [compoundValueBson, compoundObjectResponse, hc, denoteMembers, List.cons.injEq, Prod.mk.injEq]
    exact and_assoc

end

mutual

private theorem childBson_readBack (k : String) (t : CompoundValueNode) :
    ∃ t', addCompoundNode k (childBson t) = some t' ∧ t'.name = dbDotDecode k ∧ childBson t' = childBson t := by
  match t with
  | .string _ _ => exact ⟨_, rfl, rfl, rfl⟩
  | .number _ _ => exact ⟨_, rfl, rfl, rfl⟩
  | .boolean _ _ => exact ⟨_, rfl, rfl, rfl⟩
  | .none _ => exact ⟨_, rfl, rfl, rfl⟩
  | .vector _ childV =>
    refine ⟨_, rfl, rfl, ?_⟩
    have h := compoundValueBsonArray_readBack 0 childV
    simpa [childBson] using h
  | .object _ _ childV =>
    refine ⟨_, rfl, rfl, ?_⟩
    have h := compoundValueBson_readBack childV
    simpa [childBson] using h

private theorem compoundValueBsonArray_readBack (ix : Nat) (cs : List CompoundValueNode) :
    compoundValueBsonArray (compoundVectorResponse ix (compoundValueBsonArray cs)) = compoundValueBsonArray cs := by
  match cs with
  | [] => simp [compoundValueBsonArray, compoundVectorResponse]
  | c :: cs =>
    obtain ⟨c', hc, -, hb⟩ := childBson_readBack (Nat.repr ix) c
    have ih := compoundValueBsonArray_readBack (ix + 1) cs
    simp only [compoundValueBsonArray, compoundVectorResponse, hc, hb, ih]

/-- The BSON of an object that was read from the database is the one it was read from. -/
theorem compoundValueBson_readBack (cs : List CompoundValueNode) :
    compoundValueBson (compoundObjectResponse (compoundValueBson cs)) = compoundValueBson cs := by
  match cs with
  | [] => simp [compoundValueBson, compoundObjectResponse]
  | c :: cs =>
    obtain ⟨c', hc, hn, hb⟩ := childBson_readBack (dbDotEncode c.name) c
    have ih := compoundValueBson_readBack cs
    simp only [compoundValueBson, compoundObjectResponse, hc, hb, ih, hn,
      dbDotEncode_dbDotDecode (no_dot_dbDotEncode c.name)]

end

/-- A vector or object written to the database and read back has the same JSON value exactly if no member name in it
contains `=`. -/
theorem denote_roundtrip_iff (k : String) (t : CompoundValueNode) :
    (∃ t', addCompoundNode k (childBson t) = some t' ∧ t'.denote = t.denote) ↔
      ∀ n ∈ t.memberNames, '=' ∉ n.toList := by
  obtain ⟨t', h, -, hd⟩ := addCompoundNode_childBson k t
  constructor
  · rintro ⟨u, hu, he⟩
    rw [h] at hu
    cases hu
    exact hd.1 he
  · intro hk
    exact ⟨t', h, hd.2 hk⟩

end OrionBroker
