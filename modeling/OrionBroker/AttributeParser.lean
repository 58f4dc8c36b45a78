import OrionBroker.ContextAttribute
import OrionBroker.Json

/-!
# Attributes of version 2 (`parseContextAttribute.cpp`)

The members of an attribute are read one after the other, by names that end at a zero character.  A compound value is a
tree of nodes with pointers to their container and to the root.  The root is made if the attribute has no compound value
yet; for the children of another one the parent is the NULL pointer.

`parse_iff` says when an attribute is parsed as its last members say.  The builders never fail below the root
(`parseItems_built`).
-/

namespace OrionBroker.AttributeParser

open Bson

/-! ### Compound values -/

/-- The fields of a node.  An address stands for a pointer to the node that has it. -/
structure NodeData where
  address : Nat
  name : String
  valueType : ValueType
  stringValue : String := ""
  numberValue : Double := .fin 0
  boolValue : Bool := false
  container : Nat
  rootP : Nat
  siblingNo : Nat
  path : String
  level : Nat

inductive PlacedNode where
  | mk (data : NodeData) (childV : List PlacedNode)

/-- `stringToCompoundType` of the name of the JSON type. -/
def compoundType : Json → ValueType
  | .string _ => .string
  | .int _ | .double _ => .number
  | .bool _ => .boolean
  | .object _ => .object
  | .array _ => .vector
  | .null => .none

def isCompound : Json → Bool
  | .array _ | .object _ => true
  | _ => false

/-- The number of an item as it stands in a path, in a buffer of four characters. -/
def itemNo (counter : Nat) : String :=
  let digits := (Nat.repr counter).toList
  String.ofList ((List.replicate (3 - digits.length) '0' ++ digits).take 3)

section

variable (getDouble : Int → Double)

/-- A node for a value; `parent` is dereferenced. -/
def newNode (parent : NodeData) (address counter : Nat) (name pathEnd : String) (v : Json) : NodeData where
  address := address
  name := name
  valueType := compoundType v
  stringValue :=
    match v with
    | .string s => cString s
    | _ => ""
  numberValue :=
    match v with
    | .int n => getDouble n
    | .double d => d
    | _ => .fin 0
  boolValue :=
    match v with
    | .bool b => b
    | _ => false
  container := parent.address
  rootP := parent.rootP
  siblingNo := counter
  path := parent.path ++ pathEnd ++ if isCompound v then "/" else ""
  level := parent.level + 1

mutual

/-- The children of the node of a value.  `next` is the address that the next node gets; without a result, the NULL
pointer is dereferenced. -/
def parseChildren (parent : Option NodeData) (next : Nat) : Json → Option (List PlacedNode × Nat)
  | .array items => parseItems parent 0 next items
  | .object members => parseMembers parent 0 next members
  | _ => some ([], next)

def parseItems (parent : Option NodeData) (counter next : Nat) : List Json → Option (List PlacedNode × Nat)
  | [] => some ([], next)
  | v :: items => do
    let cvnP := newNode getDouble (← parent) next counter "Unset" ("[" ++ itemNo counter ++ "]") v
    let (childV, next) ← parseChildren (some cvnP) (next + 1) v
    let (nodes, next) ← parseItems parent (counter + 1) next items
    return (.mk cvnP childV :: nodes, next)

def parseMembers (parent : Option NodeData) (counter next : Nat) : List (String × Json) → Option (List PlacedNode × Nat)
  | [] => some ([], next)
  | (name, v) :: members => do
    let cvnP := newNode getDouble (← parent) next counter (cString name) (cString name) v
    let (childV, next) ← parseChildren (some cvnP) (next + 1) v
    let (nodes, next) ← parseMembers parent (counter + 1) next members
    return (.mk cvnP childV :: nodes, next)

end

/-! ### Attributes -/

/-- The fields of `ContextAttribute` that are read or set. -/
structure Attribute where
  type : String := ""
  typeGiven : Bool := false
  valueType : ValueType := .string
  stringValue : String := ""
  numberValue : Double := .fin 0
  boolValue : Bool := false
  metadataVector : List Metadata := []
  compoundValueP : Option PlacedNode := none

def rootNode (v : Json) : NodeData where
  address := 0
  name := "TOP"
  valueType := compoundType v
  container := 0
  rootP := 0
  siblingNo := 0
  path := "/"
  level := 0

/-- The attribute gets a compound value if it has none; the parent of the caller is the NULL pointer. -/
def parseContextAttributeCompoundValue (v : Json) (caP : Attribute) : Option Attribute := do
  let compoundValueP ←
    match caP.compoundValueP with
    | none => (parseChildren getDouble (some (rootNode v)) 1 v).map fun (childV, _) => .mk (rootNode v) childV
    | some tree => (parseChildren getDouble none 1 v).map fun _ => tree
  let caP := { caP with compoundValueP := some compoundValueP }
  return if caP.typeGiven then caP else { caP with type := DEFAULT_TYPE }

/-- The loop of `parseMetadataObject`. -/
def parseMetadataMembers (mP : Metadata) : List (String × Json) → Except String Metadata
  | [] => .ok mP
  | (name, v) :: members =>
    if cString name = "type" then
      match v with
      | .string s => parseMetadataMembers { mP with type := cString s, typeGiven := true } members
      | _ => .error "invalid JSON type for attribute metadata type"
    else if cString name = "value" then
      match v with
      | .string s => parseMetadataMembers { mP with stringValue := cString s, valueType := .string } members
      | .int n => parseMetadataMembers { mP with numberValue := getDouble n, valueType := .number } members
      | .double d => parseMetadataMembers { mP with numberValue := d, valueType := .number } members
      | .bool b => parseMetadataMembers { mP with boolValue := b, valueType := .boolean } members
      | .null => parseMetadataMembers { mP with valueType := .none } members
      | _ => .error "invalid JSON type for attribute metadata value"
    else .error "invalid JSON field for attribute metadata"

/-- A metadata of this name, with a value alone or with members. -/
def parseMetadata (name : String) (v : Json) : Except String Metadata := do
  let mP : Metadata := { name := name, type := "" }
  let mP ←
    match v with
    | .object members => parseMetadataMembers getDouble mP members
    | .string s => .ok { mP with stringValue := cString s, valueType := .string }
    | .int n => .ok { mP with numberValue := getDouble n, valueType := .number }
    | .double d => .ok { mP with numberValue := d, valueType := .number }
    | .bool b => .ok { mP with boolValue := b, valueType := .boolean }
    | .null => .ok { mP with valueType := .none }
    | .array _ => .error "invalid JSON type for attribute metadata value"
  return if mP.typeGiven then mP else { mP with type := DEFAULT_TYPE }

/-- The metadata that are added to the attribute. -/
def parseMetadataVector : Json → Except String (List Metadata)
  | .object members => members.mapM fun (name, v) => parseMetadata getDouble (cString name) v
  | _ => .error "metadata not a JSON object"

/-- The value of an attribute; `parseContextAttributeCompoundValue` always returns "OK". -/
def parseValue (v : Json) (caP : Attribute) : Option Attribute :=
  match v with
  | .string s => some { caP with stringValue := cString s, valueType := .string }
  | .int n => some { caP with numberValue := getDouble n, valueType := .number }
  | .double d => some { caP with numberValue := d, valueType := .number }
  | .bool b => some { caP with boolValue := b, valueType := .boolean }
  | .null => some { caP with valueType := .none }
  | .array _ => parseContextAttributeCompoundValue getDouble v { caP with valueType := .vector }
  | .object _ => parseContextAttributeCompoundValue getDouble v { caP with valueType := .object }

def parseMember (caP : Attribute) (name : String) (v : Json) : Option (Except String Attribute) :=
  if name = "type" then
    match v with
    | .string s => some (.ok { caP with type := cString s, typeGiven := true })
    | _ => some (.error "invalid JSON type for attribute type")
  else if name = "value" then (parseValue getDouble v caP).map .ok
  else if name = "metadata" then
    some ((parseMetadataVector getDouble v).map fun mds => { caP with metadataVector := caP.metadataVector ++ mds })
  else some (.error "unrecognized property for context attribute")

/-- The loop over the members. -/
def parseAttributeMembers (caP : Attribute) : List (String × Json) → Option (Except String Attribute)
  | [] => some (.ok caP)
  | (name, v) :: members =>
    match parseMember getDouble caP (cString name) v with
    | none => none
    | some (.error e) => some (.error e)
    | some (.ok caP) => parseAttributeMembers caP members

abbrev DATE_TYPE : String := "date"

/-- The end of the function: the value of a date is a number. -/
def parseDate (parse8601Time : String → Int) (caP : Attribute) : Except String Attribute :=
  if caP.type = DATE_TYPE then
    if parse8601Time caP.stringValue = -1 then .error "date has invalid format"
    else .ok { caP with
      numberValue := getDouble (parse8601Time caP.stringValue), stringValue := "", valueType := .number }
  else .ok caP

/-- No result: the NULL pointer is dereferenced; an error: what is returned if it is not "OK". -/
def parseContextAttributeObject (parse8601Time : String → Int) (start : List (String × Json)) (caP : Attribute) :
    Option (Except String Attribute) :=
  (parseAttributeMembers getDouble { caP with valueType := .none } start).map (· >>= parseDate getDouble parse8601Time)

/-! ### What a tree stands for -/

mutual

/-- A value as it is read: names and texts end at a zero character. -/
def cut : Json → Json
  | .string s => .string (cString s)
  | .array items => .array (cutItems items)
  | .object members => .object (cutMembers members)
  | v => v

def cutItems : List Json → List Json
  | [] => []
  | v :: items => cut v :: cutItems items

def cutMembers : List (String × Json) → List (String × Json)
  | [] => []
  | (name, v) :: members => (cString name, cut v) :: cutMembers members

end

mutual

def bson : Json → BSONValue
  | .string s => .string s
  | .int n => .double (getDouble n)
  | .double d => .double d
  | .bool b => .bool b
  | .null => .null
  | .array items => .array (bsonItems items)
  | .object members => .object (bsonMembers members)

def bsonItems : List Json → List BSONValue
  | [] => []
  | v :: items => bson v :: bsonItems items

def bsonMembers : List (String × Json) → BSONObj
  | [] => []
  | (name, v) :: members => (name, bson v) :: bsonMembers members

end

namespace PlacedNode

def data : PlacedNode → NodeData
  | .mk data _ => data

def childV : PlacedNode → List PlacedNode
  | .mk _ childV => childV

mutual

/-- The compound value without the places of its nodes. -/
def plain : PlacedNode → CompoundValueNode
  | .mk data childV =>
    match data.valueType with
    | .string => .string data.name data.stringValue
    | .number => .number data.name data.numberValue
    | .boolean => .boolean data.name data.boolValue
    | .vector => .vector data.name (plainChildren childV)
    | .object => .object data.name data.path (plainChildren childV)
    | .none | .unknown => .none data.name

def plainChildren : List PlacedNode → List CompoundValueNode
  | [] => []
  | c :: childV => plain c :: plainChildren childV

end

mutual

/-- The addresses of the nodes, each before those of its children. -/
def addresses : PlacedNode → List Nat
  | .mk data childV => data.address :: addressesOf childV

def addressesOf : List PlacedNode → List Nat
  | [] => []
  | c :: childV => addresses c ++ addressesOf childV

end

mutual

/-- The pointers and the numbers of a node and of those below it say where they are. -/
def Placed (container rootP level siblingNo : Nat) : PlacedNode → Prop
  | .mk data childV =>
    data.container = container ∧ data.rootP = rootP ∧ data.level = level ∧ data.siblingNo = siblingNo ∧
      ChildrenPlaced data.address rootP (level + 1) 0 childV

def ChildrenPlaced (container rootP level ix : Nat) : List PlacedNode → Prop
  | [] => True
  | c :: childV => Placed container rootP level ix c ∧ ChildrenPlaced container rootP level (ix + 1) childV

end

/-- The root is its own container, and no two nodes have one address. -/
def WellPlaced (tree : PlacedNode) : Prop :=
  tree.Placed tree.data.address tree.data.address 0 0 ∧ tree.addresses.Nodup

end PlacedNode

open PlacedNode

/-- What is built for the children of a node: they have the addresses from `next` to `next'`. -/
structure Built (parent : NodeData) (counter next next' : Nat) (nodes : List PlacedNode) : Prop where
  le : next ≤ next'
  addresses : addressesOf nodes = List.range' next (next' - next)
  placed : ChildrenPlaced parent.address parent.rootP (parent.level + 1) counter nodes

/-- The children that a node gets for its value. -/
def denoteChildren (v : Json) (nodes : List PlacedNode) : Prop :=
  match v with
  | .array items => CompoundValueNode.denoteItems (plainChildren nodes) = bsonItems getDouble (cutItems items)
  | .object members => CompoundValueNode.denoteMembers (plainChildren nodes) = bsonMembers getDouble (cutMembers members)
  | _ => nodes = []

theorem newNode_denote (parent : NodeData) (address counter : Nat) (name pathEnd : String) (v : Json)
    {childV : List PlacedNode} (h : denoteChildren getDouble v childV) :
    (PlacedNode.mk (newNode getDouble parent address counter name pathEnd v) childV).plain.denote =
      bson getDouble (cut v) := by
  cases v with
  | array items =>
    have hchildren : CompoundValueNode.denoteItems (plainChildren childV) = bsonItems getDouble (cutItems items) := h
    simp [plain, newNode, compoundType, CompoundValueNode.denote, cut, bson, hchildren]
  | object members =>
    have hchildren : CompoundValueNode.denoteMembers (plainChildren childV) =
      bsonMembers getDouble (cutMembers members) := h
    simp [plain, newNode, compoundType, CompoundValueNode.denote, cut, bson, hchildren]
  | _ => simp [plain, newNode, compoundType, CompoundValueNode.denote, cut, bson]

theorem newNode_name (parent : NodeData) (address counter : Nat) (name pathEnd : String) (v : Json)
    (childV : List PlacedNode) :
    (PlacedNode.mk (newNode getDouble parent address counter name pathEnd v) childV).plain.name = name := by
  cases v <;> rfl

/-- A node with its children, and the nodes that are built after it. -/
theorem Built.cons {parent : NodeData} {counter next next' next'' : Nat} {name pathEnd : String} {v : Json}
    {childV nodes : List PlacedNode}
    (hchildren : Built (newNode getDouble parent next counter name pathEnd v) 0 (next + 1) next' childV)
    (hnodes : Built parent (counter + 1) next' next'' nodes) :
    Built parent counter next next'' (.mk (newNode getDouble parent next counter name pathEnd v) childV :: nodes) := by
  have hle := hchildren.le
  have hle' := hnodes.le
  refine ⟨by omega, ?_, ?_, hnodes.placed⟩
  · have hsum : next'' - next = (next' - (next + 1) + 1) + (next'' - next') := by omega
    have hstart : next + (next' - (next + 1) + 1) = next' := by omega
    rw [addressesOf, PlacedNode.addresses, hchildren.addresses, hnodes.addresses, hsum, ← List.range'_append_1, hstart,
      List.range'_succ]
    rfl
  · exact ⟨rfl, rfl, rfl, rfl, hchildren.placed⟩

mutual

/-- Under a parent, the children of a value are built without failing. -/
theorem parseChildren_built (parent : NodeData) (next : Nat) (v : Json) :
    ∃ childV next', parseChildren getDouble (some parent) next v = some (childV, next') ∧
      Built parent 0 next next' childV ∧ denoteChildren getDouble v childV := by
  cases v with
  | array items => exact parseItems_built parent 0 next items
  | object members => exact parseMembers_built parent 0 next members
  | _ => exact ⟨[], next, rfl, ⟨le_rfl, by simp [addressesOf], trivial⟩, rfl⟩

theorem parseItems_built (parent : NodeData) (counter next : Nat) (items : List Json) :
    ∃ nodes next', parseItems getDouble (some parent) counter next items = some (nodes, next') ∧
      Built parent counter next next' nodes ∧
      CompoundValueNode.denoteItems (plainChildren nodes) = bsonItems getDouble (cutItems items) := by
  cases items with
  | nil => exact ⟨[], next, rfl, ⟨le_rfl, by simp [addressesOf], trivial⟩, rfl⟩
  | cons v items =>
    let cvnP := newNode getDouble parent next counter "Unset" ("[" ++ itemNo counter ++ "]") v
    obtain ⟨childV, next', hchildV, hbuilt, hdenote⟩ := parseChildren_built cvnP (next + 1) v
    obtain ⟨nodes, next'', hnodes, hbuilt', hdenote'⟩ := parseItems_built parent (counter + 1) next' items
    refine ⟨.mk cvnP childV :: nodes, next'', ?_, Built.cons getDouble hbuilt hbuilt', ?_⟩
    · simp only [parseItems, Option.bind_eq_bind, Option.bind_some]
      rw [hchildV, Option.bind_some, hnodes]
      rfl
    · rw [plainChildren, CompoundValueNode.denoteItems, newNode_denote getDouble _ _ _ _ _ _ hdenote, hdenote', cutItems,
        bsonItems]

theorem parseMembers_built (parent : NodeData) (counter next : Nat) (members : List (String × Json)) :
    ∃ nodes next', parseMembers getDouble (some parent) counter next members = some (nodes, next') ∧
      Built parent counter next next' nodes ∧
      CompoundValueNode.denoteMembers (plainChildren nodes) = bsonMembers getDouble (cutMembers members) := by
  cases members with
  | nil => exact ⟨[], next, rfl, ⟨le_rfl, by simp [addressesOf], trivial⟩, rfl⟩
  | cons m members =>
    obtain ⟨name, v⟩ := m
    let cvnP := newNode getDouble parent next counter (cString name) (cString name) v
    obtain ⟨childV, next', hchildV, hbuilt, hdenote⟩ := parseChildren_built cvnP (next + 1) v
    obtain ⟨nodes, next'', hnodes, hbuilt', hdenote'⟩ := parseMembers_built parent (counter + 1) next' members
    refine ⟨.mk cvnP childV :: nodes, next'', ?_, Built.cons getDouble hbuilt hbuilt', ?_⟩
    · simp only [parseMembers, Option.bind_eq_bind, Option.bind_some]
      rw [hchildV, Option.bind_some, hnodes]
      rfl
    · rw [plainChildren, CompoundValueNode.denoteMembers, newNode_denote getDouble _ _ _ _ _ _ hdenote, hdenote',
        newNode_name, cutMembers, bsonMembers]

end

/-- The tree of an attribute that had none. -/
def builtTree (v : Json) : PlacedNode :=
  .mk (rootNode v) (((parseChildren getDouble (some (rootNode v)) 1 v).map Prod.fst).getD [])

theorem parseChildren_root (v : Json) :
    ∃ next, parseChildren getDouble (some (rootNode v)) 1 v = some ((builtTree getDouble v).childV, next) ∧
      Built (rootNode v) 0 1 next (builtTree getDouble v).childV ∧
      denoteChildren getDouble v (builtTree getDouble v).childV := by
  obtain ⟨childV, next, hparse, hbuilt, hdenote⟩ := parseChildren_built getDouble (rootNode v) 1 v
  have htree : builtTree getDouble v = .mk (rootNode v) childV := by rw [builtTree, hparse]; rfl
  rw [htree]
  exact ⟨next, hparse, hbuilt, hdenote⟩

theorem builtTree_denote {v : Json} (hv : isCompound v = true) :
    (builtTree getDouble v).plain.denote = bson getDouble (cut v) := by
  obtain ⟨next, -, -, hdenote⟩ := parseChildren_root getDouble v
  have htree : builtTree getDouble v = .mk (rootNode v) (builtTree getDouble v).childV := rfl
  rw [htree]
  cases v with
  | array items =>
    have hchildren : CompoundValueNode.denoteItems (plainChildren (builtTree getDouble (.array items)).childV) =
      bsonItems getDouble (cutItems items) := hdenote
    simp [plain, rootNode, compoundType, CompoundValueNode.denote, cut, bson, hchildren]
  | object members =>
    have hchildren : CompoundValueNode.denoteMembers (plainChildren (builtTree getDouble (.object members)).childV) =
      bsonMembers getDouble (cutMembers members) := hdenote
    simp [plain, rootNode, compoundType, CompoundValueNode.denote, cut, bson, hchildren]
  | _ => cases hv

theorem builtTree_wellPlaced (v : Json) : (builtTree getDouble v).WellPlaced := by
  obtain ⟨next, -, hbuilt, -⟩ := parseChildren_root getDouble v
  refine ⟨⟨rfl, rfl, rfl, rfl, hbuilt.placed⟩, ?_⟩
  have haddresses : (builtTree getDouble v).addresses = 0 :: List.range' 1 (next - 1) :=
    congrArg (0 :: ·) hbuilt.addresses
  rw [haddresses, List.nodup_cons, List.mem_range'_1]
  exact ⟨by omega, List.nodup_range'⟩

/-! ### The members of an attribute -/

def hasChildren : Json → Bool
  | .array items => !items.isEmpty
  | .object members => !members.isEmpty
  | _ => false

/-- The type of an attribute whose compound value was parsed. -/
def Attribute.withType (caP : Attribute) : Attribute :=
  { caP with type := if caP.typeGiven then caP.type else DEFAULT_TYPE }

theorem parseContextAttributeCompoundValue_first {caP : Attribute} (h : caP.compoundValueP = none) (v : Json) :
    parseContextAttributeCompoundValue getDouble v caP =
      some { caP.withType with compoundValueP := some (builtTree getDouble v) } := by
  obtain ⟨next, hparse, -⟩ := parseChildren_root getDouble v
  have htree : PlacedNode.mk (rootNode v) (builtTree getDouble v).childV = builtTree getDouble v := rfl
  simp only [parseContextAttributeCompoundValue, h, hparse, Option.map_some, htree, Option.bind_eq_bind, Option.bind_some,
    Attribute.withType]
  split <;> rfl

/-- Another compound value has no parent: its first child dereferences the NULL pointer. -/
theorem parseContextAttributeCompoundValue_again {caP : Attribute} {tree : PlacedNode}
    (h : caP.compoundValueP = some tree) (v : Json) :
    parseContextAttributeCompoundValue getDouble v caP = if hasChildren v then none else some caP.withType := by
  have hchildren : parseChildren getDouble none 1 v = if hasChildren v then none else some ([], 1) := by
    cases v with
    | array items => cases items <;> rfl
    | object members => cases members <;> rfl
    | _ => rfl
  obtain ⟨type, typeGiven, valueType, stringValue, numberValue, boolValue, metadataVector, compoundValueP⟩ := caP
  cases h
  simp only [parseContextAttributeCompoundValue, hchildren]
  cases hasChildren v with
  | true => rfl
  | false => cases typeGiven <;> rfl

/-- Whether a member is accepted. -/
def accepted (m : String × Json) : Bool :=
  if cString m.1 = "type" then compoundType m.2 = .string
  else if cString m.1 = "value" then true
  else if cString m.1 = "metadata" then (parseMetadataVector getDouble m.2).isOk
  else false

/-- The values of the members whose name is read as `name`. -/
def readAs (name : String) (members : List (String × Json)) : List Json :=
  (members.filter fun m => cString m.1 = name).map Prod.snd

/-- The value that the fields of an attribute have. -/
def Attribute.value (caP : Attribute) : Option BSONValue :=
  match caP.valueType with
  | .string => some (.string caP.stringValue)
  | .number => some (.double caP.numberValue)
  | .boolean => some (.bool caP.boolValue)
  | .none => some .null
  | .vector | .object => caP.compoundValueP.map fun tree => tree.plain.denote
  | .unknown => none

/-- What an attribute has when these members are parsed: the compound value is that of the first array or object. -/
structure After (members : List (String × Json)) (caP : Attribute) : Prop where
  tree : caP.compoundValueP = ((readAs "value" members).find? isCompound).map (builtTree getDouble)
  kind : caP.valueType = ((readAs "value" members).getLast?.map compoundType).getD .none
  value : ∀ v ∈ (readAs "value" members).getLast?, isCompound v = false → caP.value = some (bson getDouble (cut v))
  typeGiven : ∀ t ∈ (readAs "type" members).getLast?, caP.typeGiven = true ∧ cut t = .string caP.type
  noType : readAs "type" members = [] → caP.typeGiven = false ∧ (caP.type = "" ∨ caP.type = DEFAULT_TYPE)

theorem readAs_concat (name : String) (members : List (String × Json)) (m : String × Json) :
    readAs name (members ++ [m]) = readAs name members ++ if cString m.1 = name then [m.2] else [] := by
  unfold readAs
  rw [List.filter_append, List.map_append]
  by_cases h : cString m.1 = name <;> simp [h]

/-- The type of an attribute is set, or its metadata, and its value is not. -/
theorem After.keep_value {members : List (String × Json)} {caP caP' : Attribute} (h : After getDouble members caP)
    {m : String × Json} (hm : cString m.1 ≠ "value") (hkept : caP'.compoundValueP = caP.compoundValueP ∧
      caP'.valueType = caP.valueType ∧ caP'.value = caP.value)
    (htypeGiven : ∀ t ∈ (readAs "type" (members ++ [m])).getLast?, caP'.typeGiven = true ∧ cut t = .string caP'.type)
    (hnoType : readAs "type" (members ++ [m]) = [] →
      caP'.typeGiven = false ∧ (caP'.type = "" ∨ caP'.type = DEFAULT_TYPE)) :
    After getDouble (members ++ [m]) caP' := by
  have hvalues : readAs "value" (members ++ [m]) = readAs "value" members := by
    rw [readAs_concat, if_neg hm, List.append_nil]
  refine ⟨?_, ?_, ?_, htypeGiven, hnoType⟩
  · rw [hvalues, hkept.1, h.tree]
  · rw [hvalues, hkept.2.1, h.kind]
  · rw [hvalues, hkept.2.2]
    exact h.value

/-- A value is set; of the type there is at most the default. -/
theorem After.value_set {members : List (String × Json)} {caP caP' : Attribute} (h : After getDouble members caP)
    {m : String × Json} (hm : cString m.1 = "value")
    (htree : caP'.compoundValueP = ((readAs "value" members ++ [m.2]).find? isCompound).map (builtTree getDouble))
    (hkind : caP'.valueType = compoundType m.2)
    (hvalue : isCompound m.2 = false → caP'.value = some (bson getDouble (cut m.2)))
    (htype : caP'.typeGiven = caP.typeGiven ∧ (caP'.type = caP.type ∨ caP.typeGiven = false ∧ caP'.type = DEFAULT_TYPE)) :
    After getDouble (members ++ [m]) caP' := by
  have hvalues : readAs "value" (members ++ [m]) = readAs "value" members ++ [m.2] := by
    rw [readAs_concat, if_pos hm]
  have htypes : readAs "type" (members ++ [m]) = readAs "type" members := by
    rw [readAs_concat, if_neg (by rw [hm]; decide), List.append_nil]
  refine ⟨?_, ?_, ?_, ?_, ?_⟩
  · rw [hvalues, htree]
  · rw [hvalues, List.getLast?_concat, hkind]
    rfl
  · rw [hvalues, List.getLast?_concat]
    rintro v ⟨⟩ hv
    exact hvalue hv
  · rw [htypes]
    intro t ht
    obtain ⟨hgiven, hcut⟩ := h.typeGiven t ht
    rcases htype with ⟨hgiven', hsame | ⟨hnot, -⟩⟩
    · exact ⟨hgiven'.trans hgiven, by rw [hsame, hcut]⟩
    · rw [hgiven] at hnot
      cases hnot
  · rw [htypes]
    intro hnone
    obtain ⟨hnot, hdefault⟩ := h.noType hnone
    refine ⟨htype.1.trans hnot, ?_⟩
    rcases htype.2 with hsame | ⟨-, hdefault'⟩
    · rw [hsame]
      exact hdefault
    · exact Or.inr hdefault'

/-- An array or object with children after another one. -/
def Unparented (values : List Json) (v : Json) : Prop := hasChildren v = true ∧ ∃ w ∈ values, isCompound w = true

/-- A value after those of other members. -/
theorem parseValue_after {members : List (String × Json)} {caP : Attribute} (h : After getDouble members caP)
    {m : String × Json} (hm : cString m.1 = "value") :
    (Unparented (readAs "value" members) m.2 ∧ parseValue getDouble m.2 caP = none) ∨
    (¬ Unparented (readAs "value" members) m.2 ∧
      ∃ caP', parseValue getDouble m.2 caP = some caP' ∧ After getDouble (members ++ [m]) caP') := by
  obtain ⟨name, v⟩ := m
  by_cases hv : isCompound v = true
  · have hparse : parseValue getDouble v caP =
        parseContextAttributeCompoundValue getDouble v { caP with valueType := compoundType v } := by
      cases v <;> first | rfl | cases hv
    have hnotScalar : isCompound v = false → ∀ x : Option BSONValue, x = some (bson getDouble (cut v)) :=
      fun hscalar => absurd hv (by rw [hscalar]; decide)
    rw [hparse]
    cases hfind : (readAs "value" members).find? isCompound with
    | none =>
      have hnone : caP.compoundValueP = none := by rw [h.tree, hfind]; rfl
      have hall := List.find?_eq_none.1 hfind
      refine Or.inr ⟨fun hun => ?_, _, @parseContextAttributeCompoundValue_first getDouble
        { caP with valueType := compoundType v } hnone v, ?_⟩
      · obtain ⟨-, w, hw, hcompound⟩ := hun
        exact hall w hw hcompound
      · refine h.value_set getDouble hm ?_ rfl (fun hscalar => hnotScalar hscalar _) ⟨rfl, ?_⟩
        · rw [List.find?_append, hfind]
          simp [hv]
        · simp only [Attribute.withType]
          cases caP.typeGiven <;> simp
    | some w =>
      have htree : caP.compoundValueP = some (builtTree getDouble w) := by rw [h.tree, hfind]; rfl
      have hw : ∃ w ∈ readAs "value" members, isCompound w = true :=
        ⟨w, List.mem_of_find?_eq_some hfind, List.find?_some hfind⟩
      rw [@parseContextAttributeCompoundValue_again getDouble { caP with valueType := compoundType v } _ htree]
      by_cases hchildren : hasChildren v = true
      · exact Or.inl ⟨⟨hchildren, hw⟩, if_pos hchildren⟩
      · refine Or.inr ⟨fun hun => hchildren hun.1, _, if_neg hchildren, ?_⟩
        refine h.value_set getDouble hm ?_ rfl (fun hscalar => hnotScalar hscalar _) ⟨rfl, ?_⟩
        · rw [List.find?_append, hfind]
          exact htree
        · simp only [Attribute.withType]
          cases caP.typeGiven <;> simp
  · have hscalar : isCompound v = false := by simpa using hv
    have htree : caP.compoundValueP = ((readAs "value" members ++ [v]).find? isCompound).map (builtTree getDouble) := by
      rw [List.find?_append, h.tree]
      simp [hscalar]
    have hno : ¬ Unparented (readAs "value" members) v := by
      rintro ⟨hchildren, -⟩
      cases v <;> first | cases hchildren | cases hscalar
    refine Or.inr ⟨hno, ?_⟩
    cases v with
    | array items => cases hscalar
    | object members => cases hscalar
    | _ => exact ⟨_, rfl, h.value_set getDouble hm htree rfl (fun _ => rfl) ⟨rfl, Or.inl rfl⟩⟩

/-- A member is refused, dereferences the NULL pointer or is parsed. -/
theorem parseMember_after {members : List (String × Json)} {caP : Attribute} (h : After getDouble members caP)
    (m : String × Json) :
    (accepted getDouble m = false ∧ ∃ e, parseMember getDouble caP (cString m.1) m.2 = some (.error e)) ∨
    (accepted getDouble m = true ∧ cString m.1 = "value" ∧ Unparented (readAs "value" members) m.2 ∧
      parseMember getDouble caP (cString m.1) m.2 = none) ∨
    (accepted getDouble m = true ∧ (cString m.1 = "value" → ¬ Unparented (readAs "value" members) m.2) ∧
      ∃ caP', parseMember getDouble caP (cString m.1) m.2 = some (.ok caP') ∧ After getDouble (members ++ [m]) caP') := by
  obtain ⟨name, v⟩ := m
  unfold parseMember accepted
  by_cases htype : cString name = "type"
  · have hnotValue : cString name ≠ "value" := by rw [htype]; decide
    simp only [htype, if_true]
    cases v with
    | string s =>
      refine Or.inr (Or.inr ⟨rfl, fun h => absurd h (by decide), _, rfl, ?_⟩)
      have hlast : (readAs "type" (members ++ [(name, .string s)])).getLast? = some (.string s) := by
        rw [readAs_concat, if_pos htype, List.getLast?_concat]
      refine h.keep_value getDouble hnotValue ⟨rfl, rfl, rfl⟩ ?_ ?_
      · rw [hlast]
        rintro t ⟨⟩
        exact ⟨rfl, rfl⟩
      · intro hnone
        rw [hnone] at hlast
        cases hlast
    | _ => exact Or.inl ⟨rfl, _, rfl⟩
  · have htypes : readAs "type" (members ++ [(name, v)]) = readAs "type" members := by
      rw [readAs_concat, if_neg htype, List.append_nil]
    simp only [htype, if_false]
    by_cases hvalue : cString name = "value"
    · simp only [hvalue, if_true]
      rcases parseValue_after getDouble h (m := (name, v)) hvalue with ⟨hun, hparse⟩ | ⟨hno, caP', hparse, hafter⟩
      · exact Or.inr (Or.inl ⟨trivial, trivial, hun, by rw [hparse]; rfl⟩)
      · exact Or.inr (Or.inr ⟨trivial, fun _ => hno, caP', by rw [hparse]; rfl, hafter⟩)
    · simp only [hvalue, if_false]
      by_cases hmetadata : cString name = "metadata"
      · simp only [hmetadata, if_true]
        cases hmds : parseMetadataVector getDouble v with
        | error e => exact Or.inl ⟨rfl, e, rfl⟩
        | ok mds =>
          refine Or.inr (Or.inr ⟨rfl, fun h => absurd h (by decide), _, rfl, ?_⟩)
          refine h.keep_value getDouble hvalue ⟨rfl, rfl, rfl⟩ ?_ ?_
          · rw [htypes]
            exact h.typeGiven
          · rw [htypes]
            exact h.noType
      · simp only [hmetadata, if_false]
        exact Or.inl ⟨trivial, _, rfl⟩

/-- No array or object with children comes after another array or object. -/
def ParentsKnown (members : List (String × Json)) : Prop :=
  (readAs "value" members).Pairwise fun v w => isCompound v = true → hasChildren w = false

theorem parentsKnown_concat {members : List (String × Json)} {m : String × Json} :
    ParentsKnown (members ++ [m]) ↔
      ParentsKnown members ∧ (cString m.1 = "value" → ¬ Unparented (readAs "value" members) m.2) := by
  unfold ParentsKnown Unparented
  rw [readAs_concat]
  by_cases hm : cString m.1 = "value"
  · rw [if_pos hm, List.pairwise_append]
    constructor
    · rintro ⟨hknown, -, hlast⟩
      refine ⟨hknown, fun _ ⟨hchildren, w, hw, hcompound⟩ => ?_⟩
      have hnone := hlast w hw m.2 List.mem_cons_self hcompound
      rw [hchildren] at hnone
      cases hnone
    · rintro ⟨hknown, hno⟩
      refine ⟨hknown, List.pairwise_singleton _ _, fun w hw v hv hcompound => ?_⟩
      rw [List.mem_singleton.1 hv]
      by_contra hchildren
      exact hno hm ⟨by simpa using hchildren, w, hw, hcompound⟩
  · simp [hm]

theorem ParentsKnown.of_append {members members' : List (String × Json)} (h : ParentsKnown (members ++ members')) :
    ParentsKnown members := by
  refine List.Pairwise.sublist ?_ h
  unfold readAs
  rw [List.filter_append, List.map_append]
  exact List.sublist_append_left _ _

/-- The members that are read before one is refused. -/
def readMembers (members : List (String × Json)) : List (String × Json) := members.takeWhile (accepted getDouble)

/-- The loop fails if a child has no parent, it returns an error if a member is refused, and else all are parsed. -/
theorem parseAttributeMembers_after {before : List (String × Json)} {caP : Attribute} (h : After getDouble before caP)
    (hknown : ParentsKnown before) (members : List (String × Json)) :
    (¬ ParentsKnown (before ++ readMembers getDouble members) ∧ parseAttributeMembers getDouble caP members = none) ∨
    (ParentsKnown (before ++ readMembers getDouble members) ∧ (∃ m ∈ members, accepted getDouble m = false) ∧
      ∃ e, parseAttributeMembers getDouble caP members = some (.error e)) ∨
    (ParentsKnown (before ++ readMembers getDouble members) ∧ (∀ m ∈ members, accepted getDouble m = true) ∧
      ∃ caP', parseAttributeMembers getDouble caP members = some (.ok caP') ∧
        After getDouble (before ++ members) caP') := by
  induction members generalizing before caP with
  | nil =>
    have hnone : before ++ readMembers getDouble [] = before := List.append_nil before
    rw [hnone, List.append_nil]
    exact Or.inr (Or.inr ⟨hknown, by simp, caP, rfl, h⟩)
  | cons m members ih =>
    rcases parseMember_after getDouble h m with
      ⟨hrefused, e, hparse⟩ | ⟨haccepted, hm, hun, hparse⟩ | ⟨haccepted, hm, caP', hparse, hafter⟩
    · have hread : readMembers getDouble (m :: members) = [] := by simp [readMembers, hrefused]
      rw [hread, List.append_nil]
      refine Or.inr (Or.inl ⟨hknown, ⟨m, List.mem_cons_self, hrefused⟩, e, ?_⟩)
      rw [parseAttributeMembers, hparse]
    · have hread : readMembers getDouble (m :: members) = m :: readMembers getDouble members := by
        simp [readMembers, haccepted]
      refine Or.inl ⟨fun hall => ?_, ?_⟩
      · rw [hread, List.append_cons] at hall
        exact (parentsKnown_concat.1 hall.of_append).2 hm hun
      · rw [parseAttributeMembers, hparse]
    · have hread : readMembers getDouble (m :: members) = m :: readMembers getDouble members := by
        simp [readMembers, haccepted]
      have hloop : parseAttributeMembers getDouble caP (m :: members) = parseAttributeMembers getDouble caP' members := by
        rw [parseAttributeMembers, hparse]
      have hknown' : ParentsKnown (before ++ [m]) := parentsKnown_concat.2 ⟨hknown, hm⟩
      rw [hread, hloop, List.append_cons, List.append_cons before m members]
      rcases ih hafter hknown' with hnull | ⟨hall, ⟨m', hm', hrefused⟩, herror⟩ | ⟨hall, haccepted', hok⟩
      · exact Or.inl hnull
      · exact Or.inr (Or.inl ⟨hall, ⟨m', List.mem_cons_of_mem m hm', hrefused⟩, herror⟩)
      · exact Or.inr (Or.inr ⟨hall, List.forall_mem_cons.2 ⟨haccepted, haccepted'⟩, hok⟩)

theorem after_nil : After getDouble [] { ({} : Attribute) with valueType := .none } where
  tree := rfl
  kind := rfl
  value := by simp [readAs]
  typeGiven := by simp [readAs]
  noType := fun _ => ⟨rfl, Or.inl rfl⟩

/-! ### What is promised -/

/-- The value of the last member of this name. -/
def lastNamed (name : String) (members : List (String × Json)) : Option Json :=
  ((members.filter fun m => m.1 = name).map Prod.snd).getLast?

/-- An attribute has the type, the kind of value and the value of the last members. -/
structure Faithful (members : List (String × Json)) (caP : Attribute) : Prop where
  type : ∀ t ∈ lastNamed "type" members, t = .string caP.type
  kind : caP.valueType = ((lastNamed "value" members).map compoundType).getD .none
  value : caP.value = some (((lastNamed "value" members).map (bson getDouble)).getD .null)
  placed : ∀ tree ∈ caP.compoundValueP, tree.WellPlaced

/-- The members are parsed without an access to the NULL pointer, and what is returned for them is faithful, unless it is
a date. -/
def Parses (parse8601Time : String → Int) (members : List (String × Json)) : Prop :=
  ∃ result, parseContextAttributeObject getDouble parse8601Time members {} = some result ∧
    ∀ caP, result = .ok caP → caP.type ≠ DATE_TYPE → Faithful getDouble members caP

/-- Which value an attribute keeps: of arrays and objects the first one is kept. -/
def kept (values : List Json) : Option Json :=
  values.getLast?.bind fun v => if isCompound v then values.find? isCompound else some v

/-- What is kept of the members is what the last ones of the exact names have. -/
structure ReadsLast (members : List (String × Json)) : Prop where
  type : ∀ t ∈ lastNamed "type" members, (readAs "type" members).getLast?.map cut = some t
  kind : ((readAs "value" members).getLast?.map compoundType).getD .none =
    ((lastNamed "value" members).map compoundType).getD .none
  value : ((kept (readAs "value" members)).map fun v => bson getDouble (cut v)).getD .null =
    ((lastNamed "value" members).map (bson getDouble)).getD .null

theorem After.value_eq {members : List (String × Json)} {caP : Attribute} (h : After getDouble members caP) :
    caP.value = some (((kept (readAs "value" members)).map fun v => bson getDouble (cut v)).getD .null) := by
  have hkind := h.kind
  unfold kept
  cases hlast : (readAs "value" members).getLast? with
  | none =>
    rw [hlast] at hkind
    simp only [Attribute.value, hkind, Option.map_none, Option.getD_none, Option.bind_none]
  | some v =>
    rw [hlast] at hkind
    rw [Option.bind_some]
    by_cases hv : isCompound v = true
    · rw [if_pos hv]
      obtain ⟨w, hfind⟩ : ∃ w, (readAs "value" members).find? isCompound = some w := by
        rw [← Option.isSome_iff_exists, List.find?_isSome]
        exact ⟨v, List.mem_of_getLast? hlast, hv⟩
      have hw : isCompound w = true := List.find?_some hfind
      have htree : caP.compoundValueP = some (builtTree getDouble w) := by rw [h.tree, hfind]; rfl
      have hvalue : caP.value = caP.compoundValueP.map fun tree => tree.plain.denote := by
        cases v with
        | array items =>
          have hvector : caP.valueType = .vector := hkind
          rw [Attribute.value, hvector]
        | object members =>
          have hobject : caP.valueType = .object := hkind
          rw [Attribute.value, hobject]
        | _ => cases hv
      rw [hvalue, htree, hfind, Option.map_some, builtTree_denote getDouble hw]
      rfl
    · rw [if_neg hv]
      exact h.value v hlast (by simpa using hv)

theorem exists_readAs {name : String} (hname : cString name = name) {members : List (String × Json)} {t : Json}
    (ht : t ∈ lastNamed name members) : ∃ u, (readAs name members).getLast? = some u := by
  rw [← Option.isSome_iff_exists, List.getLast?_isSome]
  obtain ⟨m, hm, -⟩ := List.mem_map.1 (List.mem_of_getLast? ht)
  obtain ⟨hmem, hm⟩ := List.mem_filter.1 hm
  have hread : cString m.1 = name := by
    rw [of_decide_eq_true hm]
    exact hname
  exact List.ne_nil_of_mem (List.mem_map_of_mem (List.mem_filter.2 ⟨hmem, decide_eq_true hread⟩))

/-- The attribute of accepted members is faithful exactly if what is kept is what the last members have. -/
theorem After.faithful_iff {members : List (String × Json)} {caP : Attribute} (h : After getDouble members caP) :
    Faithful getDouble members caP ↔ ReadsLast getDouble members := by
  have htype : ∀ t ∈ lastNamed "type" members,
      (t = .string caP.type ↔ (readAs "type" members).getLast?.map cut = some t) := by
    intro t ht
    obtain ⟨u, hu⟩ := exists_readAs (by decide) ht
    rw [hu, Option.map_some, (h.typeGiven u hu).2, Option.some.injEq]
    exact eq_comm
  have hplaced : ∀ tree ∈ caP.compoundValueP, tree.WellPlaced := by
    intro tree htree
    rw [h.tree] at htree
    obtain ⟨v, -, rfl⟩ := Option.mem_map.1 htree
    exact builtTree_wellPlaced getDouble v
  constructor
  · intro hfaithful
    refine ⟨fun t ht => (htype t ht).1 (hfaithful.type t ht), ?_, ?_⟩
    · rw [← h.kind, hfaithful.kind]
    · have hvalue := hfaithful.value
      rw [h.value_eq, Option.some.injEq] at hvalue
      exact hvalue
  · intro hread
    refine ⟨fun t ht => (htype t ht).2 (hread.type t ht), ?_, ?_, hplaced⟩
    · rw [h.kind, hread.kind]
    · rw [h.value_eq, hread.value]

/-- The type that is read last, if there is one, is that of a date. -/
def ReadsDate (members : List (String × Json)) : Prop := (readAs "type" members).getLast?.map cut = some (.string DATE_TYPE)

theorem After.type_iff {members : List (String × Json)} {caP : Attribute} (h : After getDouble members caP) :
    caP.type = DATE_TYPE ↔ ReadsDate members := by
  unfold ReadsDate
  cases hlast : (readAs "type" members).getLast? with
  | none =>
    obtain ⟨-, hdefault⟩ := h.noType (List.getLast?_eq_none_iff.1 hlast)
    refine iff_of_false ?_ (by simp)
    rcases hdefault with hdefault | hdefault <;> rw [hdefault] <;> decide
  | some t =>
    rw [Option.map_some, (h.typeGiven t hlast).2, Option.some.injEq, Json.string.injEq]

theorem parseDate_type {parse8601Time : String → Int} {caP caP' : Attribute}
    (h : parseDate getDouble parse8601Time caP = .ok caP') : caP'.type = caP.type := by
  unfold parseDate at h
  split at h
  · split at h
    · cases h
    · cases h
      rfl
  · cases h
    rfl

/-- The members of an attribute are parsed as they should be if and only if every child has its parent and, where no
member is refused and the attribute is no date, what is kept is what the last members have. -/
theorem parses_iff (parse8601Time : String → Int) (members : List (String × Json)) :
    Parses getDouble parse8601Time members ↔
      ParentsKnown (readMembers getDouble members) ∧
        ((∀ m ∈ members, accepted getDouble m = true) → ¬ ReadsDate members → ReadsLast getDouble members) := by
  unfold Parses parseContextAttributeObject
  have hloop := parseAttributeMembers_after getDouble (after_nil getDouble) List.Pairwise.nil members
  rw [List.nil_append, List.nil_append] at hloop
  rcases hloop with ⟨hno, hnull⟩ | ⟨hknown, ⟨m, hm, hrefused⟩, e, herror⟩ | ⟨hknown, haccepted, caP, hok, hafter⟩
  · rw [hnull]
    exact iff_of_false (by simp) fun h => hno h.1
  · rw [herror]
    refine iff_of_true ⟨_, rfl, fun caP h => by cases h⟩ ⟨hknown, fun hall => ?_⟩
    rw [hall m hm] at hrefused
    cases hrefused
  · rw [hok]
    by_cases hdate : ReadsDate members
    · have htype : caP.type = DATE_TYPE := (hafter.type_iff getDouble).2 hdate
      refine iff_of_true ⟨_, rfl, fun caP' hend hnot => ?_⟩ ⟨hknown, fun _ hnot => absurd hdate hnot⟩
      exact absurd ((parseDate_type getDouble hend).trans htype) hnot
    · have htype : caP.type ≠ DATE_TYPE := fun h => hdate ((hafter.type_iff getDouble).1 h)
      have hend : parseDate getDouble parse8601Time caP = .ok caP := if_neg htype
      constructor
      · rintro ⟨result, hresult, hfaithful⟩
        obtain rfl : parseDate getDouble parse8601Time caP = result := Option.some.inj hresult
        exact ⟨hknown, fun _ _ => (hafter.faithful_iff getDouble).1 (hfaithful caP hend htype)⟩
      · rintro ⟨-, hread⟩
        refine ⟨_, rfl, fun caP' hresult _ => ?_⟩
        obtain rfl : caP = caP' := Except.ok.inj (hend.symm.trans hresult)
        exact (hafter.faithful_iff getDouble).2 (hread haccepted hdate)

end

/-- The value is given twice: the item of the second array has no parent. -/
theorem second_array_unparented :
    parseContextAttributeObject (fun n => .fin n) (fun _ => -1)
        [("value", .array [.bool true]), ("value", .array [.bool false])] {} = none ∧
      ¬ Parses (fun n => .fin n) (fun _ => -1) [("value", .array [.bool true]), ("value", .array [.bool false])] := by
  have hnull : parseContextAttributeObject (fun n => .fin n) (fun _ => -1)
      [("value", .array [.bool true]), ("value", .array [.bool false])] {} = none := rfl
  refine ⟨hnull, ?_⟩
  rintro ⟨result, hresult, -⟩
  rw [hnull] at hresult
  cases hresult

end OrionBroker.AttributeParser
