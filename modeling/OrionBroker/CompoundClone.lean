import OrionBroker.AttributeParser
import OrionBroker.CompoundValue

/-!
# Compound trees that are built and cloned (`CompoundValueNode.cpp`, `compoundResponses.cpp`)

`add` puts a node below another one and sets its container, its level, its number and its root; what is below the node
is left as it is.  So a node that got children before it was added keeps a subtree that points to it as its root, and
both the reading of a BSON value and `clone` build their trees in this order: in `clone` a node still has the root of
the original when its children are added to it.  The roots are right only in trees without grandchildren
(`clone_right_iff`).
-/

namespace OrionBroker.AttributeParser

open Bson

/-! ### The source -/

/-- The constructor for toplevel nodes. -/
def toplevelNode (address : Nat) (type : ValueType) : NodeData where
  address := address
  name := "toplevel"
  valueType := type
  container := address
  rootP := address
  siblingNo := 0
  path := "/"
  level := 0

/-- The value that the constructors for other nodes and the variants of `add` take. -/
inductive NodeValue where
  | string (value : String)
  | number (value : Double)
  | boolean (value : Bool)

/-- The constructors for all nodes except toplevel. -/
def constructNode (address : Nat) (container : NodeData) (path name : String) (value : NodeValue) (siblingNo : Nat)
    (type : ValueType) : NodeData where
  address := address
  name := name
  valueType := type
  stringValue :=
    match value with
    | .string s => s
    | _ => ""
  numberValue :=
    match value with
    | .number d => d
    | _ => .fin 0
  boolValue :=
    match value with
    | .boolean b => b
    | _ => false
  container := container.address
  rootP := container.rootP
  siblingNo := siblingNo
  path := path
  level := container.level + 1

namespace PlacedNode

def add (this node : PlacedNode) : PlacedNode :=
  .mk this.data (this.childV ++
    [.mk { node.data with
      container := this.data.address
      level := this.data.level + 1
      siblingNo := this.childV.length
      rootP := this.data.rootP } node.childV])

/-- `add` of a type, a name and a value. -/
def addValue (address : Nat) (type : ValueType) (name : String) (value : NodeValue) (this : PlacedNode) : PlacedNode :=
  let newPath := if this.data.path = "/" then this.data.path ++ name else this.data.path ++ "/" ++ name
  this.add (.mk (constructNode address this.data newPath name value this.childV.length type) [])

mutual

/-- `clone`; `deref` gives the node of the original tree that a pointer points to, and `next` is the address that the
next node gets.  Without a result, a NULL pointer is dereferenced. -/
def clone (deref : Nat → Option NodeData) (next : Nat) : PlacedNode → Option (PlacedNode × Nat)
  | .mk data childV => do
    let me ←
      if data.rootP = data.address then some (toplevelNode next data.valueType)
      else
        match data.valueType with
        | .string | .object | .vector | .none =>
          (deref data.container).map fun container =>
            constructNode next container data.path data.name (.string data.stringValue) data.siblingNo data.valueType
        | .number =>
          (deref data.container).map fun container =>
            constructNode next container data.path data.name (.number data.numberValue) data.siblingNo data.valueType
        | .boolean =>
          (deref data.container).map fun container =>
            constructNode next container data.path data.name (.boolean data.boolValue) data.siblingNo data.valueType
        | .unknown => none
    cloneChildren deref (.mk me []) (next + 1) childV

/-- "Adding child": the loop of `clone`. -/
def cloneChildren (deref : Nat → Option NodeData) (me : PlacedNode) (next : Nat) :
    List PlacedNode → Option (PlacedNode × Nat)
  | [] => some (me, next)
  | child :: children => do
    let (child, next) ← clone deref next child
    cloneChildren deref (me.add child) next children

end

mutual

/-- A BSON element of a type other than the six of JSON is not added; the second component is the address that the next
node gets. -/
def addCompoundNode (cvP : PlacedNode) (next : Nat) (fieldName : String) : BSONValue → PlacedNode × Nat
  | .string s =>
    let child := { toplevelNode next .object with name := dbDotDecode fieldName, valueType := .string, stringValue := s }
    (cvP.add (.mk child []), next + 1)
  | .bool b =>
    let child := { toplevelNode next .object with name := dbDotDecode fieldName, valueType := .boolean, boolValue := b }
    (cvP.add (.mk child []), next + 1)
  | .double d =>
    let child := { toplevelNode next .object with name := dbDotDecode fieldName, valueType := .number, numberValue := d }
    (cvP.add (.mk child []), next + 1)
  | .null =>
    let child := { toplevelNode next .object with name := dbDotDecode fieldName, valueType := .none }
    (cvP.add (.mk child []), next + 1)
  | .object obj =>
    let child := { toplevelNode next .object with name := dbDotDecode fieldName, valueType := .object }
    let (child, next) := objectMembers (.mk child []) (next + 1) obj
    (cvP.add child, next)
  | .array vec =>
    let child := { toplevelNode next .object with name := dbDotDecode fieldName, valueType := .vector }
    let (child, next) := vectorItems (.mk child []) (next + 1) 0 vec
    (cvP.add child, next)
  | .int _ => (cvP, next)

/-- The loop of `compoundObjectResponse`. -/
def objectMembers (cvP : PlacedNode) (next : Nat) : BSONObj → PlacedNode × Nat
  | [] => (cvP, next)
  | (fieldName, e) :: obj =>
    let (cvP, next) := addCompoundNode cvP next fieldName e
    objectMembers cvP next obj

/-- The loop of `compoundVectorResponse`, from index `ix` on. -/
def vectorItems (cvP : PlacedNode) (next ix : Nat) : List BSONValue → PlacedNode × Nat
  | [] => (cvP, next)
  | e :: vec =>
    let (cvP, next) := addCompoundNode cvP next (Nat.repr ix) e
    vectorItems cvP next (ix + 1) vec

end

/-- `compoundObjectResponse` for a new toplevel node. -/
def compoundObjectResponse (address : Nat) (obj : BSONObj) : PlacedNode :=
  (objectMembers (.mk (toplevelNode address .object) []) (address + 1) obj).1

/-- `compoundVectorResponse` for a new toplevel node. -/
def compoundVectorResponse (address : Nat) (vec : List BSONValue) : PlacedNode :=
  (vectorItems (.mk (toplevelNode address .vector) []) (address + 1) 0 vec).1

/-! ### Trees in memory -/

mutual

/-- The node at an address. -/
def find (address : Nat) : PlacedNode → Option NodeData
  | .mk data childV => if data.address = address then some data else findIn address childV

def findIn (address : Nat) : List PlacedNode → Option NodeData
  | [] => none
  | c :: childV => (find address c).or (findIn address childV)

end

mutual

/-- The tree after something was done to the node at an address. -/
def modify (address : Nat) (f : PlacedNode → PlacedNode) : PlacedNode → PlacedNode
  | .mk data childV => if data.address = address then f (.mk data childV) else .mk data (modifyAll address f childV)

def modifyAll (address : Nat) (f : PlacedNode → PlacedNode) : List PlacedNode → List PlacedNode
  | [] => []
  | c :: childV => modify address f c :: modifyAll address f childV

end

/-- The fields that are not about the place of a node are public, and set one by one. -/
def setFields (name : String) (valueType : ValueType) (stringValue : String) (numberValue : Double) (boolValue : Bool)
    (this : PlacedNode) : PlacedNode :=
  .mk { this.data with
    name := name
    valueType := valueType
    stringValue := stringValue
    numberValue := numberValue
    boolValue := boolValue } this.childV

/-- The trees that are built with `add`, in whatever order: each starts with a toplevel node, and other trees are added to
nodes of it. -/
inductive BuiltByAdd : PlacedNode → Prop where
  | toplevel (address : Nat) (type : ValueType) : BuiltByAdd (.mk (toplevelNode address type) [])
  | add (target : Nat) {tree node : PlacedNode} (htree : BuiltByAdd tree) (hnode : BuiltByAdd node)
      (hdisjoint : tree.addresses.Disjoint node.addresses) : BuiltByAdd (tree.modify target fun this => this.add node)
  | addValue (target address : Nat) (type : ValueType) (name : String) (value : NodeValue) {tree : PlacedNode}
      (htree : BuiltByAdd tree) (hfresh : address ∉ tree.addresses) :
      BuiltByAdd (tree.modify target (PlacedNode.addValue address type name value))
  | setFields (target : Nat) (name : String) (valueType : ValueType) (stringValue : String) (numberValue : Double)
      (boolValue : Bool) {tree : PlacedNode} (htree : BuiltByAdd tree) :
      BuiltByAdd (tree.modify target (PlacedNode.setFields name valueType stringValue numberValue boolValue))

/-! ### What is meant -/

/-- The value of a node, which is the field for its type. -/
def value (data : NodeData) : Option NodeValue :=
  match data.valueType with
  | .string => some (.string data.stringValue)
  | .number => some (.number data.numberValue)
  | .boolean => some (.boolean data.boolValue)
  | _ => none

mutual

/-- The trees have one shape, with the same names, types and values. -/
def Same : PlacedNode → PlacedNode → Prop
  | .mk data childV, .mk data' childV' =>
    data.name = data'.name ∧ data.valueType = data'.valueType ∧ value data = value data' ∧ SameChildren childV childV'

def SameChildren : List PlacedNode → List PlacedNode → Prop
  | [], [] => True
  | c :: childV, c' :: childV' => Same c c' ∧ SameChildren childV childV'
  | _, _ => False

end

/-- The root is as its constructor made it, and its children have no children and types that are known. -/
structure Clonable (tree : PlacedNode) : Prop where
  rootName : tree.data.name = "toplevel"
  rootValue : value tree.data = value (toplevelNode tree.data.address tree.data.valueType)
  known : ∀ c ∈ tree.childV, c.data.valueType ≠ .unknown
  flat : ∀ c ∈ tree.childV, c.childV = []

/-- The clone is a tree like the original without a node in common, and in both trees all pointers and numbers are
right. -/
def CloneRight (next : Nat) (tree : PlacedNode) : Prop :=
  ∃ copy next', clone (fun address => tree.find address) next tree = some (copy, next') ∧ tree.Same copy ∧
    tree.addresses.Disjoint copy.addresses ∧ tree.WellPlaced ∧ copy.WellPlaced

/-! ### Addresses -/

theorem addressesOf_append (front back : List PlacedNode) :
    addressesOf (front ++ back) = addressesOf front ++ addressesOf back := by
  induction front with
  | nil => rfl
  | cons c front ih => rw [List.cons_append, addressesOf, ih, addressesOf, List.append_assoc]

theorem addresses_eq (tree : PlacedNode) : tree.addresses = tree.data.address :: addressesOf tree.childV := by
  cases tree with
  | mk data childV => rw [addresses, PlacedNode.data, PlacedNode.childV]

theorem addresses_add (this node : PlacedNode) : (this.add node).addresses = this.addresses ++ node.addresses := by
  rw [add, addresses, addressesOf_append, addressesOf, addressesOf, addresses, addresses_eq this, addresses_eq node,
    List.append_nil, List.cons_append]

theorem modifyAll_eq_map (address : Nat) (f : PlacedNode → PlacedNode) (childV : List PlacedNode) :
    modifyAll address f childV = childV.map (modify address f) := by
  induction childV with
  | nil => rfl
  | cons c childV ih => rw [modifyAll, ih, List.map_cons]

/-- The fields that say where a node is. -/
def SamePlace (data data' : NodeData) : Prop :=
  data'.address = data.address ∧ data'.container = data.container ∧ data'.rootP = data.rootP ∧
    data'.level = data.level ∧ data'.siblingNo = data.siblingNo

/-- A node of a tree is right with respect to its parent. -/
def PlacedBelow (parent : NodeData) (ix : Nat) (data : NodeData) : Prop :=
  data.container = parent.address ∧ data.rootP = parent.rootP ∧ data.level = parent.level + 1 ∧ data.siblingNo = ix

/-- What the operations do to a node: it stays in its place and gets children, which are right with respect to it. -/
structure Extends (f : PlacedNode → PlacedNode) (extra : List Nat) : Prop where
  samePlace : ∀ this : PlacedNode, SamePlace this.data (f this).data
  addresses : ∀ this : PlacedNode, (f this).addresses = this.addresses ++ extra
  children : ∀ this : PlacedNode, ∃ new : List PlacedNode, (f this).childV = this.childV ++ new ∧
    ∀ ix c, new[ix]? = some c → PlacedBelow this.data (this.childV.length + ix) c.data

theorem extends_add (node : PlacedNode) : Extends (fun this => this.add node) node.addresses where
  samePlace _ := ⟨rfl, rfl, rfl, rfl, rfl⟩
  addresses this := addresses_add this node
  children this := by
    refine ⟨_, rfl, fun ix c hc => ?_⟩
    cases ix with
    | zero =>
      cases hc
      exact ⟨rfl, rfl, rfl, rfl⟩
    | succ ix => cases hc

theorem extends_addValue (address : Nat) (type : ValueType) (name : String) (value : NodeValue) :
    Extends (addValue address type name value) [address] where
  samePlace _ := ⟨rfl, rfl, rfl, rfl, rfl⟩
  addresses this := by
    rw [addValue, addresses_add]
    rfl
  children this := by
    refine ⟨_, rfl, fun ix c hc => ?_⟩
    cases ix with
    | zero =>
      cases hc
      exact ⟨rfl, rfl, rfl, rfl⟩
    | succ ix => cases hc

theorem extends_setFields (name : String) (valueType : ValueType) (stringValue : String) (numberValue : Double)
    (boolValue : Bool) : Extends (setFields name valueType stringValue numberValue boolValue) [] where
  samePlace _ := ⟨rfl, rfl, rfl, rfl, rfl⟩
  addresses this := by rw [setFields, addresses, List.append_nil, addresses_eq this]
  children this := ⟨[], (List.append_nil _).symm, fun ix c hc => by cases hc⟩

section Modify

variable {f : PlacedNode → PlacedNode} {extra : List Nat} {target : Nat}

theorem samePlace_modify (hf : Extends f extra) (target : Nat) (tree : PlacedNode) :
    SamePlace tree.data (tree.modify target f).data := by
  cases tree with
  | mk data childV =>
    rw [modify]
    split
    · exact hf.samePlace _
    · exact ⟨rfl, rfl, rfl, rfl, rfl⟩

mutual

/-- Nothing is done if no node has the address. -/
theorem modify_of_not_mem {tree : PlacedNode} (h : target ∉ tree.addresses) : tree.modify target f = tree := by
  match tree with
  | .mk data childV =>
    rw [addresses, List.mem_cons, not_or] at h
    rw [modify, if_neg (Ne.symm h.1), modifyAll_of_not_mem h.2]

theorem modifyAll_of_not_mem {childV : List PlacedNode} (h : target ∉ addressesOf childV) :
    modifyAll target f childV = childV := by
  match childV with
  | [] => rfl
  | c :: childV =>
    rw [addressesOf, List.mem_append, not_or] at h
    rw [modifyAll, modify_of_not_mem h.1, modifyAll_of_not_mem h.2]

end

mutual

/-- The addresses of the tree, and those of the new children if there is a node with the address. -/
theorem addresses_modify (hf : Extends f extra) {tree : PlacedNode} (h : tree.addresses.Nodup)
    (hmem : target ∈ tree.addresses) : (tree.modify target f).addresses.Perm (tree.addresses ++ extra) := by
  match tree with
  | .mk data childV =>
    rw [modify]
    split
    · rw [hf.addresses]
    · rename_i hne
      rw [addresses, List.nodup_cons] at h
      rw [addresses, List.mem_cons] at hmem
      rw [addresses, addresses, List.cons_append]
      exact (addressesOf_modifyAll hf h.2 (hmem.resolve_left (Ne.symm hne))).cons _

theorem addressesOf_modifyAll (hf : Extends f extra) {childV : List PlacedNode} (h : (addressesOf childV).Nodup)
    (hmem : target ∈ addressesOf childV) : (addressesOf (modifyAll target f childV)).Perm (addressesOf childV ++ extra) := by
  match childV with
  | [] => cases hmem
  | c :: childV =>
    rw [addressesOf] at h hmem
    obtain ⟨hc, hchildV, hdisjoint⟩ := List.nodup_append'.1 h
    rw [modifyAll, addressesOf, addressesOf]
    rcases List.mem_append.1 hmem with hmem | hmem
    · rw [modifyAll_of_not_mem fun h => hdisjoint hmem h, List.append_assoc]
      refine ((addresses_modify hf hc hmem).append_right _).trans ?_
      rw [List.append_assoc]
      exact List.perm_append_comm.append_left _
    · rw [modify_of_not_mem fun h => hdisjoint h hmem, List.append_assoc]
      exact (addressesOf_modifyAll hf hchildV hmem).append_left _

end

end Modify

/-! ### The root and its children -/

/-- The root and its children are right, and no two nodes have one address. -/
structure TopPlaced (tree : PlacedNode) : Prop where
  nodup : tree.addresses.Nodup
  root : tree.data.container = tree.data.address ∧ tree.data.rootP = tree.data.address ∧ tree.data.level = 0 ∧
    tree.data.siblingNo = 0
  children : ∀ ix c, tree.childV[ix]? = some c → PlacedBelow tree.data ix c.data

theorem TopPlaced.modify {tree : PlacedNode} (h : TopPlaced tree) {f : PlacedNode → PlacedNode} {extra : List Nat}
    (hf : Extends f extra) (hextra : extra.Nodup) (hdisjoint : tree.addresses.Disjoint extra) (target : Nat) :
    TopPlaced (tree.modify target f) := by
  have hnodup : (tree.modify target f).addresses.Nodup := by
    by_cases hmem : target ∈ tree.addresses
    · rw [(addresses_modify hf h.nodup hmem).nodup_iff]
      exact List.nodup_append'.2 ⟨h.nodup, hextra, hdisjoint⟩
    · rw [modify_of_not_mem hmem]
      exact h.nodup
  obtain ⟨haddress, hcontainer, hroot, hlevel, hsibling⟩ := samePlace_modify hf target tree
  refine ⟨hnodup, by rw [hcontainer, hroot, hlevel, hsibling, haddress]; exact h.root, ?_⟩
  intro ix c hc
  unfold PlacedBelow
  rw [haddress, hroot, hlevel]
  cases tree with
  | mk data childV =>
    rw [PlacedNode.modify] at hc
    split at hc
    · obtain ⟨new, hnew, hplaced⟩ := hf.children (.mk data childV)
      rw [hnew] at hc
      rcases Nat.lt_or_ge ix (PlacedNode.mk data childV).childV.length with hlt | hge
      · rw [List.getElem?_append_left hlt] at hc
        exact h.children ix c hc
      · rw [List.getElem?_append_right hge] at hc
        have hix : (PlacedNode.mk data childV).childV.length + (ix - (PlacedNode.mk data childV).childV.length) = ix := by
          omega
        have hbelow := hplaced _ c hc
        rw [hix] at hbelow
        exact hbelow
    · rw [PlacedNode.childV, modifyAll_eq_map, List.getElem?_map, Option.map_eq_some_iff] at hc
      obtain ⟨c', hc', rfl⟩ := hc
      obtain ⟨-, hcontainer', hroot', hlevel', hsibling'⟩ := samePlace_modify hf target c'
      rw [hcontainer', hroot', hlevel', hsibling']
      exact h.children ix c' hc'

/-- In all trees that are built with `add`, the root and its children are right. -/
theorem BuiltByAdd.topPlaced {tree : PlacedNode} (h : BuiltByAdd tree) : TopPlaced tree := by
  induction h with
  | toplevel address type => exact ⟨List.nodup_singleton _, ⟨rfl, rfl, rfl, rfl⟩, fun ix c hc => by cases hc⟩
  | add target _ _ hdisjoint htree hnode => exact htree.modify (extends_add _) hnode.nodup hdisjoint target
  | addValue target address type name value _ hfresh htree =>
    exact htree.modify (extends_addValue address type name value) (List.nodup_singleton _)
      (List.disjoint_singleton.2 hfresh) target
  | setFields target name valueType stringValue numberValue boolValue _ htree =>
    exact htree.modify (extends_setFields name valueType stringValue numberValue boolValue) List.nodup_nil
      (List.disjoint_nil_right _) target

/-! ### What clone does -/

section Clone

variable {deref : Nat → Option NodeData}

theorem clone_of_root {data : NodeData} (h : data.rootP = data.address) (next : Nat) (childV : List PlacedNode) :
    clone deref next (.mk data childV) =
      cloneChildren deref (.mk (toplevelNode next data.valueType) []) (next + 1) childV := by
  rw [clone, if_pos h]
  rfl

/-- A node below the root gets the root of the container of the original. -/
theorem clone_of_node {data container : NodeData} (h : data.rootP ≠ data.address)
    (hknown : data.valueType ≠ .unknown) (hcontainer : deref data.container = some container) (next : Nat)
    (childV : List PlacedNode) :
    ∃ me : NodeData, clone deref next (.mk data childV) = cloneChildren deref (.mk me []) (next + 1) childV ∧
      me.address = next ∧ me.rootP = container.rootP ∧ me.name = data.name ∧ me.valueType = data.valueType ∧
      value me = value data := by
  rw [clone, if_neg h, hcontainer]
  cases htype : data.valueType with
  | unknown => exact absurd htype hknown
  | _ => exact ⟨_, rfl, rfl, rfl, rfl, rfl, by simp [value, constructNode, htype]⟩

theorem clone_of_unknown {data : NodeData} (h : data.rootP ≠ data.address) (hunknown : data.valueType = .unknown)
    (next : Nat) (childV : List PlacedNode) : clone deref next (.mk data childV) = none := by
  rw [clone, if_neg h, hunknown]
  rfl

theorem data_of_cloneChildren {me copy : PlacedNode} {next next' : Nat} {childV : List PlacedNode}
    (h : cloneChildren deref me next childV = some (copy, next')) : copy.data = me.data := by
  induction childV generalizing me next with
  | nil =>
    cases h
    rfl
  | cons c childV ih =>
    rw [cloneChildren, Option.bind_eq_bind, Option.bind_eq_some_iff] at h
    obtain ⟨⟨c', next''⟩, -, h⟩ := h
    have hdata := ih h
    exact hdata

/-- The children of a copy: each has the root that the copy had when it was added, and the children of a clone. -/
theorem childV_of_cloneChildren {me copy : PlacedNode} {next next' : Nat} {childV : List PlacedNode}
    (h : cloneChildren deref me next childV = some (copy, next')) :
    ∃ new : List PlacedNode, copy.childV = me.childV ++ new ∧
      List.Forall₂ (fun c c' => c'.data.rootP = me.data.rootP ∧
        ∃ next next' clone', clone deref next c = some (clone', next') ∧ c'.childV = clone'.childV) childV new := by
  induction childV generalizing me next with
  | nil =>
    cases h
    exact ⟨[], (List.append_nil _).symm, .nil⟩
  | cons c childV ih =>
    rw [cloneChildren, Option.bind_eq_bind, Option.bind_eq_some_iff] at h
    obtain ⟨⟨c', next''⟩, hclone, h⟩ := h
    obtain ⟨new, hnew, hforall⟩ := ih h
    refine ⟨.mk { c'.data with
      container := me.data.address
      level := me.data.level + 1
      siblingNo := me.childV.length
      rootP := me.data.rootP } c'.childV :: new, ?_, .cons ⟨rfl, next, next'', c', hclone, rfl⟩ hforall⟩
    rw [hnew, add, PlacedNode.childV, List.append_assoc]
    rfl

/-- Children without children of their own are added one after the other. -/
theorem cloneChildren_of_leaves {me : NodeData} {container : NodeData} {childV : List PlacedNode}
    (hflat : ∀ c ∈ childV, c.childV = []) (hnode : ∀ c ∈ childV, c.data.rootP ≠ c.data.address)
    (hknown : ∀ c ∈ childV, c.data.valueType ≠ .unknown)
    (hcontainer : ∀ c ∈ childV, deref c.data.container = some container) (front : List PlacedNode) (next : Nat) :
    ∃ new : List PlacedNode,
      cloneChildren deref (.mk me front) next childV = some (.mk me (front ++ new), next + childV.length) ∧
      addressesOf new = List.range' next childV.length ∧ SameChildren childV new ∧ (∀ c ∈ new, c.childV = []) ∧
      ∀ ix c, new[ix]? = some c → PlacedBelow me (front.length + ix) c.data := by
  induction childV generalizing front next with
  | nil => exact ⟨[], by rw [cloneChildren, List.append_nil]; rfl, rfl, trivial, by simp, fun ix c hc => by cases hc⟩
  | cons c childV ih =>
    simp only [List.forall_mem_cons] at hflat hnode hknown hcontainer
    cases c with
    | mk data childV' =>
      obtain ⟨hflat', hflat⟩ := hflat
      cases hflat'
      obtain ⟨copy, hclone, haddress, -, hname, htype, hvalue⟩ :=
        clone_of_node hnode.1 hknown.1 hcontainer.1 next ([] : List PlacedNode)
      have hleaf : clone deref next (.mk data []) = some (.mk copy [], next + 1) := by
        rw [cloneChildren] at hclone
        exact hclone
      have hadd := ih hflat hnode.2 hknown.2 hcontainer.2 (PlacedNode.add (.mk me front) (.mk copy [])).childV (next + 1)
      obtain ⟨new, hnew, haddresses, hsame, hleaves, hplaced⟩ := hadd
      refine ⟨.mk { copy with
        container := me.address, level := me.level + 1, siblingNo := front.length, rootP := me.rootP } [] :: new,
        ?_, ?_, ?_, ?_, ?_⟩
      · rw [cloneChildren, hleaf]
        refine hnew.trans ?_
        rw [add, PlacedNode.childV, List.append_assoc, List.length_cons, Nat.add_assoc, Nat.add_comm 1]
        rfl
      · rw [addressesOf, haddresses, addresses, addressesOf, haddress, List.length_cons, List.range'_succ]
        rfl
      · exact ⟨⟨hname.symm, htype.symm, hvalue.symm, trivial⟩, hsame⟩
      · simpa [PlacedNode.childV] using hleaves
      · intro ix c hc
        cases ix with
        | zero =>
          cases hc
          exact ⟨rfl, rfl, rfl, rfl⟩
        | succ ix =>
          have hbelow := hplaced ix c hc
          have hlength : (PlacedNode.add (.mk me front) (.mk copy [])).childV.length + ix = front.length + (ix + 1) := by
            rw [add, PlacedNode.childV, List.length_append]
            simp only [PlacedNode.childV, List.length_cons, List.length_nil]
            omega
          rw [hlength] at hbelow
          exact hbelow

end Clone

/-! ### Trees without grandchildren -/

theorem childrenPlaced_of_leaves {parent : NodeData} {childV : List PlacedNode} {start : Nat}
    (hflat : ∀ c ∈ childV, c.childV = [])
    (hplaced : ∀ ix c, childV[ix]? = some c → PlacedBelow parent (start + ix) c.data) :
    ChildrenPlaced parent.address parent.rootP (parent.level + 1) start childV := by
  induction childV generalizing start with
  | nil => trivial
  | cons c childV ih =>
    obtain ⟨hcontainer, hroot, hlevel, hsibling⟩ := hplaced 0 c rfl
    have hleaf := hflat c (List.mem_cons_self ..)
    refine ⟨?_, ih (fun c' hc' => hflat c' (List.mem_cons_of_mem _ hc')) fun ix c' hc' => ?_⟩
    · cases c with
      | mk data childV' =>
        cases hleaf
        exact ⟨hcontainer, hroot, hlevel, hsibling, trivial⟩
    · rw [Nat.add_assoc, Nat.add_comm 1]
      exact hplaced (ix + 1) c' hc'

theorem TopPlaced.wellPlaced {tree : PlacedNode} (h : TopPlaced tree) (hflat : ∀ c ∈ tree.childV, c.childV = []) :
    tree.WellPlaced := by
  refine ⟨?_, h.nodup⟩
  obtain ⟨hcontainer, hroot, hlevel, hsibling⟩ := h.root
  have hchildren := @childrenPlaced_of_leaves tree.data tree.childV 0 hflat fun ix c hc => by
    rw [Nat.zero_add]
    exact h.children ix c hc
  rw [hroot, hlevel] at hchildren
  cases tree with
  | mk data childV => exact ⟨hcontainer, hroot, hlevel, hsibling, hchildren⟩

/-- In a well placed tree, the grandchildren of the root have its address as their root. -/
theorem WellPlaced.rootP_eq {tree : PlacedNode} (h : tree.WellPlaced) {c g : PlacedNode} (hc : c ∈ tree.childV)
    (hg : g ∈ c.childV) : g.data.rootP = tree.data.address := by
  have hbelow {container root level ix : Nat} {childV : List PlacedNode}
      (h : ChildrenPlaced container root level ix childV) {c : PlacedNode} (hc : c ∈ childV) :
      ∃ ix', Placed container root level ix' c := by
    induction childV generalizing ix with
    | nil => cases hc
    | cons first childV ih =>
      rcases List.mem_cons.1 hc with rfl | hc
      · exact ⟨ix, h.1⟩
      · exact ih h.2 hc
  cases tree with
  | mk data childV =>
    obtain ⟨-, -, -, -, hchildren⟩ := h.1
    obtain ⟨_, hplaced⟩ := hbelow hchildren hc
    cases c with
    | mk cData cChildV =>
      obtain ⟨-, -, -, -, hgrandchildren⟩ := hplaced
      obtain ⟨_, hgrandchild⟩ := hbelow hgrandchildren hg
      cases g with
      | mk gData gChildV => exact hgrandchild.2.1

theorem find_root (tree : PlacedNode) : tree.find tree.data.address = some tree.data := by
  cases tree with
  | mk data childV => rw [find, PlacedNode.data, if_pos rfl]

/-- The children of the root are not roots. -/
theorem TopPlaced.rootP_ne {tree : PlacedNode} (h : TopPlaced tree) {c : PlacedNode} (hc : c ∈ tree.childV) :
    c.data.rootP ≠ c.data.address := by
  obtain ⟨ix, hix⟩ := List.mem_iff_getElem?.1 hc
  have hroot : c.data.rootP = tree.data.address := (h.children ix c hix).2.1.trans h.root.2.1
  have hmem : c.data.address ∈ addressesOf tree.childV := by
    obtain ⟨front, back, hsplit⟩ := List.append_of_mem hc
    rw [hsplit, addressesOf_append, addressesOf, addresses_eq]
    simp
  have hnodup := h.nodup
  rw [addresses_eq, List.nodup_cons] at hnodup
  rw [hroot]
  exact fun heq => hnodup.1 (heq ▸ hmem)

theorem TopPlaced.find_container {tree : PlacedNode} (h : TopPlaced tree) {c : PlacedNode} (hc : c ∈ tree.childV) :
    tree.find c.data.container = some tree.data := by
  obtain ⟨ix, hix⟩ := List.mem_iff_getElem?.1 hc
  rw [(h.children ix c hix).1, find_root]

theorem cloneRight_of_clonable {tree : PlacedNode} (h : TopPlaced tree) {next : Nat} (hnext : ∀ a ∈ tree.addresses, a < next)
    (hclonable : tree.Clonable) : tree.CloneRight next := by
  obtain ⟨new, hclone, haddresses, hsame, hleaves, hplaced⟩ :=
    @cloneChildren_of_leaves (fun address => tree.find address) (toplevelNode next tree.data.valueType) tree.data
      tree.childV hclonable.flat (fun c hc => h.rootP_ne hc) hclonable.known (fun c hc => h.find_container hc) [] (next + 1)
  rw [List.nil_append] at hclone
  have hcopy : (PlacedNode.mk (toplevelNode next tree.data.valueType) new).addresses =
      List.range' next (tree.childV.length + 1) := by
    rw [addresses, haddresses, List.range'_succ]
    rfl
  have htop : TopPlaced (.mk (toplevelNode next tree.data.valueType) new) := by
    refine ⟨?_, ⟨rfl, rfl, rfl, rfl⟩, fun ix c hc => ?_⟩
    · rw [hcopy]
      exact List.nodup_range'
    · have hbelow := hplaced ix c hc
      rw [List.length_nil, Nat.zero_add] at hbelow
      exact hbelow
  refine ⟨.mk (toplevelNode next tree.data.valueType) new, next + 1 + tree.childV.length, ?_, ?_, ?_,
    h.wellPlaced hclonable.flat, htop.wellPlaced hleaves⟩
  · cases tree with
    | mk data childV => exact (clone_of_root h.root.2.1 next childV).trans hclone
  · cases tree with
    | mk data childV => exact ⟨hclonable.rootName, rfl, hclonable.rootValue, hsame⟩
  · intro a ha hcopied
    rw [hcopy, List.mem_range'_1] at hcopied
    exact absurd (hnext a ha) (by omega)

theorem clonable_of_cloneRight {tree : PlacedNode} (h : TopPlaced tree) {next : Nat} (hnext : ∀ a ∈ tree.addresses, a < next)
    (hright : tree.CloneRight next) : tree.Clonable := by
  obtain ⟨copy, next', hclone, hsame, -, -, hwell⟩ := hright
  have hroot : clone (fun address => tree.find address) next tree = cloneChildren (fun address => tree.find address)
      (.mk (toplevelNode next tree.data.valueType) []) (next + 1) tree.childV := by
    cases tree with
    | mk data childV => exact clone_of_root h.root.2.1 next childV
  rw [hroot] at hclone
  have hdata := data_of_cloneChildren hclone
  obtain ⟨new, hnew, hforall⟩ := childV_of_cloneChildren hclone
  have hchildV : copy.childV = new := hnew
  -- each child of the root was cloned, and its copy has the children of the clone
  have hchild {c : PlacedNode} (hc : c ∈ tree.childV) : ∃ c' ∈ copy.childV, ∃ n n' clone',
      clone (fun address => tree.find address) n c = some (clone', n') ∧ c'.childV = clone'.childV := by
    obtain ⟨ix, hix, rfl⟩ := List.mem_iff_getElem.1 hc
    have hix' : ix < new.length := hforall.length_eq ▸ hix
    obtain ⟨-, hcloned⟩ := hforall.get hix hix'
    refine ⟨new[ix], ?_, hcloned⟩
    rw [hchildV]
    exact List.getElem_mem hix'
  have hknown : ∀ c ∈ tree.childV, c.data.valueType ≠ .unknown := by
    intro c hc hunknown
    obtain ⟨-, -, n, n', clone', hcloned, -⟩ := hchild hc
    have hne := h.rootP_ne hc
    cases c with
    | mk data childV =>
      have hnone : clone (fun address => tree.find address) n (.mk data childV) = none :=
        clone_of_unknown hne hunknown n childV
      rw [hnone] at hcloned
      cases hcloned
  have hsameRoot : tree.data.name = copy.data.name ∧ value tree.data = value copy.data := by
    cases tree with
    | mk data childV =>
      cases copy with
      | mk data' childV' => exact ⟨hsame.1, hsame.2.2.1⟩
  refine ⟨?_, ?_, hknown, ?_⟩
  · rw [hsameRoot.1, hdata]
    rfl
  · rw [hsameRoot.2, hdata]
    rfl
  · intro c hc
    obtain ⟨c', hc', n, n', clone', hcloned, hchildren⟩ := hchild hc
    have hne := h.rootP_ne hc
    have hcontainer := h.find_container hc
    have htype := hknown c hc
    cases c with
    | mk data childV =>
      obtain ⟨me, hme, -, hrootP, -⟩ :=
        @clone_of_node (fun address => tree.find address) _ _ hne htype hcontainer n childV
      have hloop := hme.symm.trans hcloned
      obtain ⟨grandchildren, hgrandchildren, hforall'⟩ := childV_of_cloneChildren hloop
      cases hforall' with
      | nil => rfl
      | @cons g g' _ _ hg _ =>
        -- the copy of a grandchild has the root of the original
        have hmem : g' ∈ c'.childV := by
          rw [hchildren, hgrandchildren]
          exact List.mem_append_right _ (List.mem_cons_self ..)
        have hcopied : g'.data.rootP = next := by
          rw [hwell.rootP_eq hc' hmem, hdata]
          rfl
        have horiginal : g'.data.rootP = tree.data.address := hg.1.trans (hrootP.trans h.root.2.1)
        have hlt := hnext tree.data.address (by rw [addresses_eq]; exact List.mem_cons_self ..)
        omega

/-! ### Trees of BSON values -/

theorem modify_root (tree : PlacedNode) (f : PlacedNode → PlacedNode) : tree.modify tree.data.address f = f tree := by
  cases tree with
  | mk data childV => rw [modify, PlacedNode.data, if_pos rfl]

/-- The tree with the nodes that were made with the addresses from `next` to `next'`. -/
structure Grows (tree : PlacedNode) (next : Nat) (grown : PlacedNode) (next' : Nat) : Prop where
  built : BuiltByAdd grown
  le : next ≤ next'
  addresses : ∀ a ∈ grown.addresses, a ∈ tree.addresses ∨ (next ≤ a ∧ a < next')

/-- All addresses of the tree are below the one that the next node gets. -/
def Below (next : Nat) (tree : PlacedNode) : Prop := ∀ a ∈ tree.addresses, a < next

theorem below_of_leaf (data : NodeData) : (PlacedNode.mk data []).Below (data.address + 1) := by
  intro a ha
  rw [addresses, addressesOf, List.mem_singleton] at ha
  omega

theorem Grows.below {tree grown : PlacedNode} {next next' : Nat} (h : Grows tree next grown next') (hbelow : tree.Below next) :
    grown.Below next' := by
  intro a ha
  have hle := h.le
  rcases h.addresses a ha with hold | ⟨-, hlt⟩
  · exact lt_of_lt_of_le (hbelow a hold) hle
  · exact hlt

theorem Grows.trans {tree middle grown : PlacedNode} {next next' next'' : Nat} (h : Grows tree next middle next')
    (h' : Grows middle next' grown next'') : Grows tree next grown next'' := by
  have hle := h.le
  have hle' := h'.le
  refine ⟨h'.built, hle.trans hle', fun a ha => ?_⟩
  rcases h'.addresses a ha with hmiddle | ⟨hge, hlt⟩
  · rcases h.addresses a hmiddle with hold | ⟨hge, hlt⟩
    · exact .inl hold
    · exact .inr ⟨hge, by omega⟩
  · exact .inr ⟨by omega, hlt⟩

/-- A node that was made as a toplevel node and then filled is added. -/
theorem grows_add {tree child start : PlacedNode} {next next' : Nat} (htree : BuiltByAdd tree) (hbelow : tree.Below next)
    (hchild : Grows start (next + 1) child next') (hstart : start.addresses = [next]) :
    Grows tree next (tree.add child) next' := by
  have hle := hchild.le
  have hfresh : ∀ a ∈ child.addresses, next ≤ a ∧ a < next' := by
    intro a ha
    rcases hchild.addresses a ha with hmem | ⟨hge, hlt⟩
    · rw [hstart, List.mem_singleton] at hmem
      omega
    · exact ⟨by omega, hlt⟩
  have hdisjoint : tree.addresses.Disjoint child.addresses := by
    intro a ha hac
    have hlt := hbelow a ha
    have hge := (hfresh a hac).1
    omega
  refine ⟨?_, by omega, fun a ha => ?_⟩
  · have hbuilt := BuiltByAdd.add tree.data.address htree hchild.built hdisjoint
    rw [modify_root] at hbuilt
    exact hbuilt
  · rw [addresses_add, List.mem_append] at ha
    exact ha.imp id (hfresh a)

/-- A toplevel node whose fields were set. -/
theorem builtByAdd_setFields (address : Nat) (name : String) (valueType : ValueType) (stringValue : String)
    (numberValue : Double) (boolValue : Bool) :
    BuiltByAdd (setFields name valueType stringValue numberValue boolValue (.mk (toplevelNode address .object) [])) := by
  have hbuilt := BuiltByAdd.setFields address name valueType stringValue numberValue boolValue
    (BuiltByAdd.toplevel address .object)
  have hroot := modify_root (.mk (toplevelNode address .object) [])
    (setFields name valueType stringValue numberValue boolValue)
  rw [← hroot]
  exact hbuilt

theorem Grows.refl {tree : PlacedNode} (h : BuiltByAdd tree) (next : Nat) : Grows tree next tree next :=
  ⟨h, le_rfl, fun _ ha => .inl ha⟩

mutual

theorem grows_addCompoundNode {cvP : PlacedNode} {next : Nat} (h : BuiltByAdd cvP) (hbelow : cvP.Below next)
    (fieldName : String) (e : BSONValue) :
    Grows cvP next (addCompoundNode cvP next fieldName e).1 (addCompoundNode cvP next fieldName e).2 := by
  match e with
  | .string s =>
    rw [addCompoundNode]
    exact grows_add h hbelow (.refl (builtByAdd_setFields next (dbDotDecode fieldName) .string s (.fin 0) false) _) rfl
  | .bool b =>
    rw [addCompoundNode]
    exact grows_add h hbelow (.refl (builtByAdd_setFields next (dbDotDecode fieldName) .boolean "" (.fin 0) b) _) rfl
  | .double d =>
    rw [addCompoundNode]
    exact grows_add h hbelow (.refl (builtByAdd_setFields next (dbDotDecode fieldName) .number "" d false) _) rfl
  | .null =>
    rw [addCompoundNode]
    exact grows_add h hbelow (.refl (builtByAdd_setFields next (dbDotDecode fieldName) .none "" (.fin 0) false) _) rfl
  | .object obj =>
    rw [addCompoundNode]
    have hstart := builtByAdd_setFields next (dbDotDecode fieldName) .object "" (.fin 0) false
    exact grows_add h hbelow (grows_objectMembers hstart (below_of_leaf _) obj) rfl
  | .array vec =>
    rw [addCompoundNode]
    have hstart := builtByAdd_setFields next (dbDotDecode fieldName) .vector "" (.fin 0) false
    exact grows_add h hbelow (grows_vectorItems hstart (below_of_leaf _) 0 vec) rfl
  | .int _ =>
    rw [addCompoundNode]
    exact .refl h next

theorem grows_objectMembers {cvP : PlacedNode} {next : Nat} (h : BuiltByAdd cvP) (hbelow : cvP.Below next) (obj : BSONObj) :
    Grows cvP next (objectMembers cvP next obj).1 (objectMembers cvP next obj).2 := by
  match obj with
  | [] =>
    rw [objectMembers]
    exact .refl h next
  | (fieldName, e) :: obj =>
    have hfirst := grows_addCompoundNode h hbelow fieldName e
    rw [objectMembers]
    exact hfirst.trans (grows_objectMembers hfirst.built (hfirst.below hbelow) obj)

theorem grows_vectorItems {cvP : PlacedNode} {next : Nat} (h : BuiltByAdd cvP) (hbelow : cvP.Below next) (ix : Nat)
    (vec : List BSONValue) : Grows cvP next (vectorItems cvP next ix vec).1 (vectorItems cvP next ix vec).2 := by
  match vec with
  | [] =>
    rw [vectorItems]
    exact .refl h next
  | e :: vec =>
    have hfirst := grows_addCompoundNode h hbelow (Nat.repr ix) e
    rw [vectorItems]
    exact hfirst.trans (grows_vectorItems hfirst.built (hfirst.below hbelow) (ix + 1) vec)

end

/-- The trees that are read of BSON values are built with `add`. -/
theorem builtByAdd_compoundObjectResponse (address : Nat) (obj : BSONObj) :
    BuiltByAdd (compoundObjectResponse address obj) :=
  (grows_objectMembers (.toplevel address .object) (below_of_leaf _) obj).built

theorem builtByAdd_compoundVectorResponse (address : Nat) (vec : List BSONValue) :
    BuiltByAdd (compoundVectorResponse address vec) :=
  (grows_vectorItems (.toplevel address .vector) (below_of_leaf _) 0 vec).built

/-- The clone of a tree that was built with `add` is right, in a tree that is right itself, if and only if the root is as
its constructor made it and has no grandchildren and no child of an unknown type; the trees that are read of BSON values
are among those. -/
theorem clone_right_iff (tree : PlacedNode) (next address : Nat) (obj : BSONObj) (vec : List BSONValue)
    (h : BuiltByAdd tree) (hnext : ∀ a ∈ tree.addresses, a < next) :
    (tree.CloneRight next ↔ tree.Clonable) ∧
      BuiltByAdd (compoundObjectResponse address obj) ∧ BuiltByAdd (compoundVectorResponse address vec) := by
  refine ⟨?_, builtByAdd_compoundObjectResponse address obj, builtByAdd_compoundVectorResponse address vec⟩
  exact ⟨clonable_of_cloneRight h.topPlaced hnext, cloneRight_of_clonable h.topPlaced hnext⟩

/-- An object with one member is cloned right. -/
theorem clone_right_iff_member :
    (compoundObjectResponse 0 [("a", .string "x")]).CloneRight 2 ↔ (compoundObjectResponse 0 [("a", .string "x")]).Clonable :=
  (clone_right_iff _ 2 0 [] [] (builtByAdd_compoundObjectResponse 0 [("a", .string "x")]) (by decide)).1

/-- An object in an object: the member of the inner one has the inner one as its root, and its clone the original. -/
theorem stale_root :
    ¬∀ (tree : PlacedNode) (next : Nat), BuiltByAdd tree → (∀ a ∈ tree.addresses, a < next) → tree.CloneRight next := by
  intro hall
  have hright := hall (compoundObjectResponse 0 [("a", .object [("b", .string "x")])]) 3
    (builtByAdd_compoundObjectResponse 0 _) (by decide)
  have hflat := (clonable_of_cloneRight (builtByAdd_compoundObjectResponse 0 _).topPlaced (by decide) hright).flat
  exact absurd (hflat _ (List.mem_cons_self ..)) (by rintro ⟨⟩)

end PlacedNode

end OrionBroker.AttributeParser
