import OrionBroker.CompoundValue
import OrionBroker.Json

/-!
# Compound values of version 1 (`jsonParse.cpp`)

A payload of version 1 is read into a tree of names and texts in which an array is a node whose children have no name
and a leaf is a node without children.  `eatCompound` builds a compound value of such a tree.  Every container is created
as an object; it becomes a vector when a child without a name turns up, unless the child is an empty string.

The tree that is built for a value is `built`.  It stands for the value exactly if no member is a text with a forbidden
character, which is refused, and if no array holds empty strings only, which is left as an object
(`denote_eatCompound_iff`).
-/

namespace OrionBroker.EatCompound

open Bson

/-! ### The function -/

/-- A tree as the parser delivers it: a node has a text and named children. -/
inductive PropertyTree where
  | node (data : String) (children : List (String × PropertyTree))

/-- What is kept of a request. -/
structure ConnectionInfo where
  httpStatusCode : Nat
  answer : String

def ConnectionInfo.refused (_ : ConnectionInfo) : ConnectionInfo := ⟨400, "Illegal value for JSON field"⟩

inductive ContainerType where
  | object
  | vector
deriving DecidableEq

/-- A container of a compound value that is being built. -/
structure Container where
  valueType : ContainerType
  name : String
  path : String
  childV : List CompoundValueNode

namespace Container

def toplevel : Container := ⟨.object, "toplevel", "/", []⟩

def childPath (path name : String) : String := if path = "/" then path ++ name else path ++ "/" ++ name

/-- The container that is added for a child. -/
def child (containerP : Container) (name : String) : Container := ⟨.object, name, childPath containerP.path name, []⟩

def add (containerP : Container) (node : CompoundValueNode) : Container :=
  { containerP with childV := containerP.childV ++ [node] }

def toNode (containerP : Container) : CompoundValueNode :=
  match containerP.valueType with
  | .object => .object containerP.name containerP.path containerP.childV
  | .vector => .vector containerP.name containerP.childV

end Container

mutual

/-- The name of a node is read as a C string.  The node of a container is in its parent from the beginning; here it is
added when its children are known. -/
def eatCompound (ciP : ConnectionInfo) (containerP : Option Container) (name : String) :
    PropertyTree → ConnectionInfo × Container
  | .node data children =>
    let nodeName := cString name
    let nodeValue := data
    match containerP with
    | none => eatChildren ciP Container.toplevel children
    | some containerP =>
      if nodeName ≠ "" ∧ nodeValue ≠ "" then
        if forbiddenChars (cString nodeValue) [] then (ciP.refused, containerP)
        else eatChildren ciP (containerP.add (.string nodeName nodeValue)) children
      else if nodeName = "" ∧ nodeValue = "" ∧ children.length = 0 then
        eatChildren ciP (containerP.add (.string "item" "")) children
      else if nodeName ≠ "" ∧ nodeValue = "" ∧ children.length = 0 then
        (ciP, containerP.add (.string nodeName ""))
      else if nodeName ≠ "" ∧ nodeValue = "" then
        let (ciP, child) := eatChildren ciP (containerP.child nodeName) children
        (ciP, containerP.add child.toNode)
      else if nodeName = "" ∧ nodeValue = "" then
        let containerP := { containerP with valueType := .vector }
        let (ciP, child) := eatChildren ciP (containerP.child "item") children
        (ciP, containerP.add child.toNode)
      else
        let containerP := { containerP with valueType := .vector }
        eatChildren ciP (containerP.add (.string "item" nodeValue)) children

def eatChildren (ciP : ConnectionInfo) (containerP : Container) :
    List (String × PropertyTree) → ConnectionInfo × Container
  | [] => (ciP, containerP)
  | (name, tree) :: children =>
    let (ciP, containerP) := eatCompound ciP (some containerP) name tree
    eatChildren ciP containerP children

end

/-! ### Values -/

/-- A JSON value with its leaves as texts. -/
inductive Value where
  | string (s : String)
  | array (items : List Value)
  | object (members : List (String × Value))

mutual

/-- The tree that the parser delivers for a value. -/
def tree : Value → PropertyTree
  | .string s => .node s []
  | .array items => .node "" (treeOfItems items)
  | .object members => .node "" (treeOfMembers members)

def treeOfItems : List Value → List (String × PropertyTree)
  | [] => []
  | v :: items => ("", tree v) :: treeOfItems items

def treeOfMembers : List (String × Value) → List (String × PropertyTree)
  | [] => []
  | (name, v) :: members => (name, tree v) :: treeOfMembers members

end

mutual

def json : Value → BSONValue
  | .string s => .string s
  | .array items => .array (jsonItems items)
  | .object members => .object (jsonMembers members)

def jsonItems : List Value → List BSONValue
  | [] => []
  | v :: items => json v :: jsonItems items

def jsonMembers : List (String × Value) → BSONObj
  | [] => []
  | (name, v) :: members => (name, json v) :: jsonMembers members

end

/-- What holds of the items of each array and of the members of each object in a value. -/
inductive Everywhere (P : List Value → Prop) (Q : List (String × Value) → Prop) : Value → Prop where
  | string (s : String) : Everywhere P Q (.string s)
  | array {items : List Value} (h : P items) (hitems : ∀ v ∈ items, Everywhere P Q v) : Everywhere P Q (.array items)
  | object {members : List (String × Value)} (h : Q members) (hmembers : ∀ m ∈ members, Everywhere P Q m.2) :
      Everywhere P Q (.object members)

theorem everywhere_array {P : List Value → Prop} {Q : List (String × Value) → Prop} {items : List Value} :
    Everywhere P Q (.array items) ↔ P items ∧ ∀ v ∈ items, Everywhere P Q v := by
  constructor
  · rintro (_ | ⟨h, hitems⟩)
    exact ⟨h, hitems⟩
  · rintro ⟨h, hitems⟩
    exact .array h hitems

theorem everywhere_object {P : List Value → Prop} {Q : List (String × Value) → Prop} {members : List (String × Value)} :
    Everywhere P Q (.object members) ↔ Q members ∧ ∀ m ∈ members, Everywhere P Q m.2 := by
  constructor
  · rintro (_ | _ | ⟨h, hmembers⟩)
    exact ⟨h, hmembers⟩
  · rintro ⟨h, hmembers⟩
    exact .object h hmembers

/-- No container is empty, and no member has an empty name or one with a zero character. -/
def Proper : Value → Prop :=
  Everywhere (fun items => items ≠ []) fun members =>
    members ≠ [] ∧ ∀ m ∈ members, m.1 ≠ "" ∧ '\x00' ∉ m.1.toList

def Value.isEmptyString : Value → Bool
  | .string s => s = ""
  | _ => false

/-- The text of a member that is refused. -/
def Value.forbidden : Value → Bool
  | .string s => forbiddenChars (cString s) []
  | _ => false

/-- No member is a text with a forbidden character. -/
def Allowed : Value → Prop := Everywhere (fun _ => True) fun members => ∀ m ∈ members, m.2.forbidden = false

/-- Each array has an item that is not the empty string. -/
def HasItems : Value → Prop := Everywhere (fun items => ∃ v ∈ items, v.isEmptyString = false) fun _ => True

/-! ### The tree that is built -/

mutual

/-- The node that is built for a value. -/
def built (name path : String) : Value → CompoundValueNode
  | .string s => .string name s
  | .array items =>
    if items.all Value.isEmptyString then .object name path (builtItems path items)
    else .vector name (builtItems path items)
  | .object members => .object name path (builtMembers path members)

def builtItems (path : String) : List Value → List CompoundValueNode
  | [] => []
  | v :: items => built "item" (Container.childPath path "item") v :: builtItems path items

def builtMembers (path : String) : List (String × Value) → List CompoundValueNode
  | [] => []
  | (name, v) :: members =>
    if v.forbidden then builtMembers path members
    else built name (Container.childPath path name) v :: builtMembers path members

end

mutual

/-- Whether a text is refused somewhere in a value. -/
def refuses : Value → Bool
  | .string _ => false
  | .array items => refusesItems items
  | .object members => refusesMembers members

def refusesItems : List Value → Bool
  | [] => false
  | v :: items => refuses v || refusesItems items

def refusesMembers : List (String × Value) → Bool
  | [] => false
  | (_, v) :: members => v.forbidden || refuses v || refusesMembers members

end

def ConnectionInfo.after (ciP : ConnectionInfo) (refused : Bool) : ConnectionInfo :=
  if refused then ciP.refused else ciP

@[simp] theorem ConnectionInfo.after_false (ciP : ConnectionInfo) : ciP.after false = ciP := rfl

@[simp] theorem ConnectionInfo.after_after (ciP : ConnectionInfo) (first next : Bool) :
    (ciP.after first).after next = ciP.after (first || next) := by
  cases first <;> cases next <;> rfl

theorem cString_name {name : String} (h : '\x00' ∉ name.toList) : cString name = name := cString_eq_self_iff.2 h

/-- A container after its children. -/
def Container.withItems (containerP : Container) (items : List Value) : Container :=
  { containerP with
    valueType := if items.all Value.isEmptyString then containerP.valueType else .vector
    childV := containerP.childV ++ builtItems containerP.path items }

def Container.withMembers (containerP : Container) (members : List (String × Value)) : Container :=
  { containerP with childV := containerP.childV ++ builtMembers containerP.path members }

theorem Container.withItems_cons (containerP : Container) (v : Value) (items : List Value) :
    (containerP.withItems [v]).withItems items = containerP.withItems (v :: items) := by
  unfold Container.withItems
  cases hv : v.isEmptyString <;> simp [builtItems, hv]

theorem Container.withMembers_cons (containerP : Container) (m : String × Value) (members : List (String × Value)) :
    (containerP.withMembers [m]).withMembers members = containerP.withMembers (m :: members) := by
  unfold Container.withMembers
  cases hm : m.2.forbidden <;> simp [builtMembers, hm]

theorem Container.toNode_withItems (containerP : Container) (name : String) (items : List Value) :
    ((containerP.child name).withItems items).toNode =
      built name (childPath containerP.path name) (.array items) := by
  rw [built]
  cases h : items.all Value.isEmptyString <;> simp only [withItems, child, toNode, h] <;> rfl

theorem Container.toNode_withMembers (containerP : Container) (name : String) (members : List (String × Value)) :
    ((containerP.child name).withMembers members).toNode =
      built name (childPath containerP.path name) (.object members) := by
  rw [built]
  rfl

theorem length_treeOfItems (items : List Value) : (treeOfItems items).length = items.length := by
  induction items with
  | nil => rfl
  | cons v items ih => rw [treeOfItems, List.length_cons, ih, List.length_cons]

theorem length_treeOfMembers (members : List (String × Value)) : (treeOfMembers members).length = members.length := by
  induction members with
  | nil => rfl
  | cons m members ih => rw [treeOfMembers, List.length_cons, ih, List.length_cons]

/-- A child with children and without a name: the container becomes a vector. -/
theorem eat_container_item (ciP : ConnectionInfo) (containerP : Container) {children : List (String × PropertyTree)}
    (hne : children.length ≠ 0) :
    eatCompound ciP (some containerP) "" (.node "" children) =
      let (ciP, child) := eatChildren ciP (containerP.child "item") children
      (ciP, { containerP with valueType := .vector }.add child.toNode) := by
  rw [eatCompound, cString_empty]
  simp only [ne_eq, not_true, false_and, if_false, true_and, hne, if_true]
  rfl

theorem eat_container_member (ciP : ConnectionInfo) (containerP : Container) {name : String} (hname : name ≠ "")
    (hterminator : '\x00' ∉ name.toList) {children : List (String × PropertyTree)} (hne : children.length ≠ 0) :
    eatCompound ciP (some containerP) name (.node "" children) =
      let (ciP, child) := eatChildren ciP (containerP.child name) children
      (ciP, containerP.add child.toNode) := by
  rw [eatCompound, cString_name hterminator]
  simp only [ne_eq, not_true, hname, not_false_eq_true, and_false, if_false, false_and, true_and, hne, if_true]

/-- A text under a name. -/
theorem eat_string_member (ciP : ConnectionInfo) (containerP : Container) {name : String} (hname : name ≠ "")
    (hterminator : '\x00' ∉ name.toList) (s : String) :
    eatCompound ciP (some containerP) name (.node s []) =
      if forbiddenChars (cString s) [] then (ciP.refused, containerP) else (ciP, containerP.add (.string name s)) := by
  rw [eatCompound, cString_name hterminator]
  by_cases hs : s = ""
  · subst hs
    simp [hname, cString_empty, forbiddenChars]
  · simp [hname, hs, eatChildren]

mutual

theorem eat_item (ciP : ConnectionInfo) (containerP : Container) (v : Value) (hv : Proper v) :
    eatCompound ciP (some containerP) "" (tree v) = (ciP.after (refuses v), containerP.withItems [v]) := by
  match v with
  | .string s =>
    by_cases hs : s = ""
    · subst hs
      simp [eatCompound, tree, eatChildren, refuses, Container.withItems, Container.add, builtItems, built,
        cString_empty, Value.isEmptyString]
    · simp [eatCompound, tree, eatChildren, refuses, Container.withItems, Container.add, builtItems, built,
        cString_empty, Value.isEmptyString, hs]
  | .array items =>
    obtain ⟨hne, hitems⟩ := everywhere_array.1 hv
    have hlength : (treeOfItems items).length ≠ 0 := by
      rw [length_treeOfItems]
      exact fun h => hne (List.length_eq_zero_iff.1 h)
    rw [tree, eat_container_item ciP containerP hlength, eat_items ciP (containerP.child "item") items hitems]
    simp only [Container.toNode_withItems, refuses]
    rfl
  | .object members =>
    obtain ⟨⟨hne, hnames⟩, hmembers⟩ := everywhere_object.1 hv
    have hlength : (treeOfMembers members).length ≠ 0 := by
      rw [length_treeOfMembers]
      exact fun h => hne (List.length_eq_zero_iff.1 h)
    rw [tree, eat_container_item ciP containerP hlength,
      eat_members ciP (containerP.child "item") members hnames hmembers]
    simp only [Container.toNode_withMembers, refuses]
    rfl

theorem eat_member (ciP : ConnectionInfo) (containerP : Container) (name : String) (hname : name ≠ "")
    (hterminator : '\x00' ∉ name.toList) (v : Value) (hv : Proper v) :
    eatCompound ciP (some containerP) name (tree v) =
      (ciP.after (v.forbidden || refuses v), containerP.withMembers [(name, v)]) := by
  match v with
  | .string s =>
    rw [tree, eat_string_member ciP containerP hname hterminator]
    cases hs : forbiddenChars (cString s) [] <;>
      simp [refuses, Container.withMembers, Container.add, builtMembers, built, Value.forbidden, hs,
        ConnectionInfo.after]
  | .array items =>
    obtain ⟨hne, hitems⟩ := everywhere_array.1 hv
    have hlength : (treeOfItems items).length ≠ 0 := by
      rw [length_treeOfItems]
      exact fun h => hne (List.length_eq_zero_iff.1 h)
    rw [tree, eat_container_member ciP containerP hname hterminator hlength,
      eat_items ciP (containerP.child name) items hitems]
    simp only [Container.toNode_withItems, refuses]
    rfl
  | .object members =>
    obtain ⟨⟨hne, hnames⟩, hmembers⟩ := everywhere_object.1 hv
    have hlength : (treeOfMembers members).length ≠ 0 := by
      rw [length_treeOfMembers]
      exact fun h => hne (List.length_eq_zero_iff.1 h)
    rw [tree, eat_container_member ciP containerP hname hterminator hlength,
      eat_members ciP (containerP.child name) members hnames hmembers]
    simp only [Container.toNode_withMembers, refuses]
    rfl

theorem eat_items (ciP : ConnectionInfo) (containerP : Container) (items : List Value) (h : ∀ v ∈ items, Proper v) :
    eatChildren ciP containerP (treeOfItems items) = (ciP.after (refusesItems items), containerP.withItems items) := by
  match items with
  | [] =>
    simp [eatChildren, treeOfItems, refusesItems, Container.withItems, builtItems]
  | v :: items =>
    have hfirst := eat_item ciP containerP v (h v (List.mem_cons_self ..))
    have hrest := eat_items (ciP.after (refuses v)) (containerP.withItems [v]) items
      fun v hv => h v (List.mem_cons_of_mem _ hv)
    rw [treeOfItems, eatChildren, hfirst]
    show eatChildren (ciP.after (refuses v)) (containerP.withItems [v]) (treeOfItems items) = _
    rw [hrest, ConnectionInfo.after_after, refusesItems, Container.withItems_cons]

theorem eat_members (ciP : ConnectionInfo) (containerP : Container) (members : List (String × Value))
    (hnames : ∀ m ∈ members, m.1 ≠ "" ∧ '\x00' ∉ m.1.toList) (h : ∀ m ∈ members, Proper m.2) :
    eatChildren ciP containerP (treeOfMembers members) =
      (ciP.after (refusesMembers members), containerP.withMembers members) := by
  match members with
  | [] => simp [eatChildren, treeOfMembers, refusesMembers, Container.withMembers, builtMembers]
  | (name, v) :: members =>
    obtain ⟨hname, hterminator⟩ := hnames (name, v) (List.mem_cons_self ..)
    have hfirst := eat_member ciP containerP name hname hterminator v (h (name, v) (List.mem_cons_self ..))
    have hrest := eat_members (ciP.after (v.forbidden || refuses v)) (containerP.withMembers [(name, v)]) members
      (fun m hm => hnames m (List.mem_cons_of_mem _ hm)) fun m hm => h m (List.mem_cons_of_mem _ hm)
    rw [treeOfMembers, eatChildren, hfirst]
    show eatChildren (ciP.after (v.forbidden || refuses v)) (containerP.withMembers [(name, v)]) _ = _
    rw [hrest, ConnectionInfo.after_after, refusesMembers, Container.withMembers_cons]

end

/-! ### What the tree stands for -/

theorem name_built (name path : String) (v : Value) : (built name path v).name = name := by
  cases v with
  | string s => rfl
  | array items =>
    rw [built]
    split <;> rfl
  | object members => rfl

theorem length_builtMembers_le (path : String) (members : List (String × Value)) :
    (builtMembers path members).length ≤ members.length := by
  induction members with
  | nil => exact le_rfl
  | cons m members ih =>
    rw [builtMembers, List.length_cons]
    split
    · omega
    · rw [List.length_cons]
      omega

theorem length_denoteMembers (children : List CompoundValueNode) :
    (CompoundValueNode.denoteMembers children).length = children.length := by
  induction children with
  | nil => rfl
  | cons c children ih => rw [CompoundValueNode.denoteMembers, List.length_cons, ih, List.length_cons]

theorem length_jsonMembers (members : List (String × Value)) : (jsonMembers members).length = members.length := by
  induction members with
  | nil => rfl
  | cons m members ih => rw [jsonMembers, List.length_cons, ih, List.length_cons]

mutual

/-- The node stands for the value exactly if no text was left out and no array was taken for an object. -/
theorem denote_built_iff (name path : String) (v : Value) :
    (built name path v).denote = json v ↔ Allowed v ∧ HasItems v := by
  match v with
  | .string s => exact ⟨fun _ => ⟨.string s, .string s⟩, fun _ => rfl⟩
  | .array items =>
    have hchildren := denoteItems_builtItems_iff path items
    rw [Allowed, HasItems, everywhere_array, everywhere_array, built]
    split
    · next hall =>
      constructor
      · rintro ⟨⟩
      · rintro ⟨-, ⟨v, hv, hne⟩, -⟩
        rw [List.all_eq_true.1 hall v hv] at hne
        cases hne
    · next hall =>
      have hne : ∃ v ∈ items, v.isEmptyString = false := by
        by_contra hnone
        push Not at hnone
        exact hall (List.all_eq_true.2 fun v hv => Bool.not_eq_false _ ▸ hnone v hv)
      rw [CompoundValueNode.denote, json, BSONValue.array.injEq, hchildren]
      constructor
      · intro h
        exact ⟨⟨trivial, fun v hv => (h v hv).1⟩, hne, fun v hv => (h v hv).2⟩
      · intro h v hv
        exact ⟨h.1.2 v hv, h.2.2 v hv⟩
  | .object members =>
    have hchildren := denoteMembers_builtMembers_iff path members
    rw [Allowed, HasItems, everywhere_object, everywhere_object, built, CompoundValueNode.denote, json,
      BSONValue.object.injEq, hchildren]
    constructor
    · intro h
      exact ⟨⟨fun m hm => (h m hm).1, fun m hm => (h m hm).2.1⟩, trivial, fun m hm => (h m hm).2.2⟩
    · intro h m hm
      exact ⟨h.1.1 m hm, h.1.2 m hm, h.2.2 m hm⟩

theorem denoteItems_builtItems_iff (path : String) (items : List Value) :
    CompoundValueNode.denoteItems (builtItems path items) = jsonItems items ↔ ∀ v ∈ items, Allowed v ∧ HasItems v := by
  match items with
  | [] => simp [builtItems, CompoundValueNode.denoteItems, jsonItems]
  | v :: items =>
    have hfirst := denote_built_iff "item" (Container.childPath path "item") v
    have hrest := denoteItems_builtItems_iff path items
    rw [builtItems, CompoundValueNode.denoteItems, jsonItems, List.cons.injEq, hfirst, hrest, List.forall_mem_cons]

theorem denoteMembers_builtMembers_iff (path : String) (members : List (String × Value)) :
    CompoundValueNode.denoteMembers (builtMembers path members) = jsonMembers members ↔
      ∀ m ∈ members, m.2.forbidden = false ∧ Allowed m.2 ∧ HasItems m.2 := by
  match members with
  | [] => simp [builtMembers, CompoundValueNode.denoteMembers, jsonMembers]
  | (name, v) :: members =>
    have hfirst := denote_built_iff name (Container.childPath path name) v
    have hrest := denoteMembers_builtMembers_iff path members
    rw [builtMembers, jsonMembers, List.forall_mem_cons]
    cases hv : v.forbidden with
    | true =>
      rw [if_pos rfl]
      constructor
      · intro heq
        -- one member is missing
        have hlength := congrArg List.length heq
        rw [length_denoteMembers, List.length_cons, length_jsonMembers] at hlength
        have hle := length_builtMembers_le path members
        omega
      · rintro ⟨⟨h, -⟩, -⟩
        cases h
    | false =>
      rw [if_neg (by decide), CompoundValueNode.denoteMembers, List.cons.injEq, Prod.mk.injEq, name_built, hfirst, hrest]
      simp only [true_and]

end

mutual

theorem refuses_iff (v : Value) : refuses v = false ↔ Allowed v := by
  match v with
  | .string s => exact ⟨fun _ => .string s, fun _ => rfl⟩
  | .array items =>
    rw [Allowed, everywhere_array, refuses, refusesItems_iff items]
    exact ⟨fun h => ⟨trivial, h⟩, fun h => h.2⟩
  | .object members =>
    rw [Allowed, everywhere_object, refuses, refusesMembers_iff members]
    exact ⟨fun h => ⟨fun m hm => (h m hm).1, fun m hm => (h m hm).2⟩, fun h m hm => ⟨h.1 m hm, h.2 m hm⟩⟩

theorem refusesItems_iff (items : List Value) : refusesItems items = false ↔ ∀ v ∈ items, Allowed v := by
  match items with
  | [] => simp [refusesItems]
  | v :: items => rw [refusesItems, Bool.or_eq_false_iff, refuses_iff v, refusesItems_iff items, List.forall_mem_cons]

theorem refusesMembers_iff (members : List (String × Value)) :
    refusesMembers members = false ↔ ∀ m ∈ members, m.2.forbidden = false ∧ Allowed m.2 := by
  match members with
  | [] => simp [refusesMembers]
  | (name, v) :: members =>
    rw [refusesMembers, Bool.or_eq_false_iff, Bool.or_eq_false_iff, refuses_iff v, refusesMembers_iff members,
      List.forall_mem_cons]

end

def Value.isContainer : Value → Bool
  | .string _ => false
  | _ => true

/-- What is built for an array or an object. -/
theorem eatCompound_root (ciP : ConnectionInfo) (name : String) {v : Value} (hv : v.isContainer) (hproper : Proper v) :
    (eatCompound ciP none name (tree v)).1 = ciP.after (refuses v) ∧
      (eatCompound ciP none name (tree v)).2.toNode = built "toplevel" "/" v := by
  cases v with
  | string s => cases hv
  | array items =>
    obtain ⟨-, hitems⟩ := everywhere_array.1 hproper
    rw [tree, eatCompound, eat_items ciP Container.toplevel items hitems]
    refine ⟨by rw [refuses], ?_⟩
    rw [built]
    cases h : items.all Value.isEmptyString <;>
      simp only [Container.withItems, Container.toplevel, Container.toNode, h] <;> rfl
  | object members =>
    obtain ⟨⟨-, hnames⟩, hmembers⟩ := everywhere_object.1 hproper
    rw [tree, eatCompound, eat_members ciP Container.toplevel members hnames hmembers]
    exact ⟨by rw [refuses], by rw [built]; rfl⟩

/-- The compound value stands for the array or object that was sent exactly if no member is a text with a forbidden
character and each array has an item that is not the empty string. -/
theorem denote_eatCompound_iff (ciP : ConnectionInfo) (name : String) {v : Value} (hv : v.isContainer)
    (hproper : Proper v) :
    (eatCompound ciP none name (tree v)).2.toNode.denote = json v ↔ Allowed v ∧ HasItems v := by
  rw [(eatCompound_root ciP name hv hproper).2, denote_built_iff]

-- an array of one empty string stays an object
example : (eatCompound ⟨200, ""⟩ none "value" (tree (.array [.string ""]))).2.valueType = .object := by decide

/-- Where each array has an item that is not the empty string, the compound value stands for what was sent, unless a
member is a text with a forbidden character: then the request is refused. -/
theorem eatCompound_faithful (ciP : ConnectionInfo) (name : String) {v : Value} (hv : v.isContainer)
    (hproper : Proper v) (hitems : HasItems v) :
    (Allowed v → (eatCompound ciP none name (tree v)).1 = ciP ∧
      (eatCompound ciP none name (tree v)).2.toNode.denote = json v) ∧
    (¬Allowed v → (eatCompound ciP none name (tree v)).1 = ciP.refused) := by
  have hstatus := (eatCompound_root ciP name hv hproper).1
  rw [hstatus]
  constructor
  · intro hallowed
    rw [(refuses_iff v).2 hallowed]
    exact ⟨rfl, (denote_eatCompound_iff ciP name hv hproper).2 ⟨hallowed, hitems⟩⟩
  · intro hnot
    rw [← refuses_iff, Bool.not_eq_false] at hnot
    rw [hnot]
    rfl

/-- An object of an array with empty strings and of an empty string. -/
def sample : Value := .object [("items", .array [.string "", .string "first", .string ""]), ("note", .string "")]

theorem eatCompound_faithful_sample :
    (eatCompound ⟨200, ""⟩ none "value" (tree sample)).2.toNode.denote = json sample := by
  have hproper : Proper sample := by
    refine .object ⟨by decide, by decide⟩ ?_
    simp only [List.forall_mem_cons]
    refine ⟨.array (by simp) ?_, .string "", nofun⟩
    simp only [List.forall_mem_cons]
    exact ⟨.string "", .string "first", .string "", nofun⟩
  have hitems : HasItems sample := by
    refine .object trivial ?_
    simp only [List.forall_mem_cons]
    refine ⟨.array ⟨.string "first", by simp, by decide⟩ ?_, .string "", nofun⟩
    simp only [List.forall_mem_cons]
    exact ⟨.string "", .string "first", .string "", nofun⟩
  have hallowed : Allowed sample := (refuses_iff sample).1 (by decide)
  exact ((eatCompound_faithful ⟨200, ""⟩ "value" rfl hproper hitems).1 hallowed).2

/-- An object with one member, a text that is refused. -/
def refusedSample : Value := .object [("a", .string "<")]

theorem refused_member :
    ¬∀ (ciP : ConnectionInfo) (name : String) (v : Value), v.isContainer = true → Proper v →
      (eatCompound ciP none name (tree v)).2.toNode.denote = json v := by
  intro h
  have hproper : Proper refusedSample := by
    refine .object ⟨by decide, by decide⟩ ?_
    simp only [List.forall_mem_cons]
    exact ⟨.string "<", nofun⟩
  have hdenote := h ⟨200, ""⟩ "value" refusedSample rfl hproper
  rw [denote_eatCompound_iff ⟨200, ""⟩ "value" rfl hproper, ← refuses_iff] at hdenote
  exact absurd hdenote.1 (by decide)

end OrionBroker.EatCompound
