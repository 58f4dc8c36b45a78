import OrionBroker.Separators
import OrionBroker.Tag

/-!
# The text of an attribute in the first version of the API (`ContextAttribute::render`)

Each line is written with the comma that the next one needs, so `render` and `renderAsJsonObject` say beforehand what
will be rendered.  `render` takes it that the type is followed by nothing if the value is not rendered, but the metadata
are always rendered; `renderAsJsonObject` takes it that the metadata are always rendered, but without the value they are
not, and that a compound value is not rendered either if the values are left out, but it is.
-/

namespace OrionBroker

open Bson Separators

/-! ### The source -/

inductive MimeType where
  | JSON
  | TEXT
  | HTML
  | NOMIMETYPE
deriving DecidableEq

/-- What the rendering looks at in the `ConnectionInfo`; `attributeFormat` is a parameter of the URI. -/
structure RenderInfo where
  apiVersion : ApiVersion := .v1
  attributeFormat : String := ""
  outMimeType : MimeType := .JSON

section Rendering

variable (toString isodate2str : Double → String)

namespace CompoundValueNode

/-- `jsonComma` of a node at the place `siblingNo` of its container. -/
def commaAfter (siblings siblingNo : Nat) : Bool := decide ((siblingNo : Int) < siblings - 1)

mutual

/-- `CompoundValueNode::render` of the node at place `siblingNo` among the children of its container. -/
def render (indent : String) (inVector : Bool) (siblings siblingNo : Nat) : CompoundValueNode → String
  | .string name s =>
    valueTag1 indent (if inVector then "item" else name) s (commaAfter siblings siblingNo) inVector false
  | .number name d =>
    valueTag1 indent (if inVector then "item" else name) (toString d) (commaAfter siblings siblingNo) inVector true
  | .boolean name b =>
    valueTag1 indent (if inVector then "item" else name) (if b then "true" else "false") (commaAfter siblings siblingNo)
      inVector true
  | .none name =>
    valueTag1 indent (if inVector then "item" else name) "null" (commaAfter siblings siblingNo) inVector true
  | .vector name childV =>
    startTag2 indent (if inVector then "item" else name) true (!inVector) ++
      renderChildren (indent ++ "  ") true childV.length 0 childV ++ endTag indent (commaAfter siblings siblingNo) true
  | .object name _ childV =>
    (if inVector then startTag2 indent "" false false else startTag2 indent name false true) ++
      renderChildren (indent ++ "  ") false childV.length 0 childV ++ endTag indent (commaAfter siblings siblingNo) false

/-- The children from the place `ix` on. -/
def renderChildren (indent : String) (inVector : Bool) (siblings ix : Nat) : List CompoundValueNode → String
  | [] => ""
  | child :: children =>
    render indent inVector siblings ix child ++ renderChildren indent inVector siblings (ix + 1) children

end

/-- `CompoundValueNode::render` of the root, which is its own container: the brackets are added by the caller. -/
def rootRender (apiVersion : ApiVersion) (indent : String) (root : CompoundValueNode) : String :=
  if apiVersion = .v2 then root.rootToJson toString
  else
    match root with
    | .vector _ childV => renderChildren toString indent true childV.length 0 childV
    | .object _ _ childV => renderChildren toString indent false childV.length 0 childV
    | leaf => render toString indent false 0 0 leaf

end CompoundValueNode

/-- `Metadata::render`, which takes the string value whatever the type of the value is. -/
def Metadata.render (indent : String) (comma : Bool) (md : Metadata) : String :=
  startTag2 indent "contextMetadata" false false ++ valueTag1 (indent ++ "  ") "name" md.name true false false ++
    valueTag1 (indent ++ "  ") "type" md.type true false false ++
    valueTag1 (indent ++ "  ") "value" md.stringValue false false false ++ endTag indent comma false

/-- The metadata from the place `ix` on. -/
def renderMetadatas (indent : String) (siblings ix : Nat) : List Metadata → String
  | [] => ""
  | md :: mds => md.render indent (ix ≠ siblings - 1) ++ renderMetadatas indent siblings (ix + 1) mds

/-- `MetadataVector::render`. -/
def metadataVectorRender (indent : String) (comma : Bool) (mds : List Metadata) : String :=
  if mds.length = 0 then ""
  else startTag2 indent "metadatas" true true ++ renderMetadatas (indent ++ "  ") mds.length 0 mds ++
    endTag indent comma true

namespace ContextAttribute

/-- The text of a value that is not a compound one, and whether it is written without quotes. -/
def effectiveValue (ca : ContextAttribute) : String × Bool :=
  match ca.valueType with
  | .string => (ca.stringValue, false)
  | .boolean => (if ca.boolValue then "true" else "false", true)
  | .number => if ca.type = DATE_TYPE then (isodate2str ca.numberValue, false) else (toString ca.numberValue, true)
  | .none => ("null", true)
  | _ => ("", false)

/-- The member `value` of a compound value. -/
def renderCompound (ci : RenderInfo) (indent : String) (comma : Bool) (compoundValue : CompoundValueNode) : String :=
  startTag2 (indent ++ "  ") "value" compoundValue.isVector true ++
    compoundValue.rootRender toString ci.apiVersion (indent ++ "    ") ++
    endTag (indent ++ "  ") comma compoundValue.isVector

/-- `updateResponse` if the request type is `RtUpdateContextResponse`. -/
def renderAsJsonObject (ci : RenderInfo) (updateResponse : Bool) (indent : String) (comma omitValue : Bool)
    (ca : ContextAttribute) : String :=
  let commaAfterContextValue := decide (ca.metadataVector.length ≠ 0)
  let commaAfterType := !omitValue || commaAfterContextValue
  startTag2 indent ca.name false true ++ valueTag1 (indent ++ "  ") "type" ca.type commaAfterType false false ++
    (match ca.compoundValueP with
      | none =>
        if omitValue = false then
          valueTag1 (indent ++ "  ") "value" (if updateResponse then "" else (ca.effectiveValue toString isodate2str).1)
            commaAfterContextValue false (ca.effectiveValue toString isodate2str).2
        else ""
      | some compoundValue => renderCompound toString ci indent commaAfterContextValue compoundValue) ++
    (if omitValue = false then metadataVectorRender (indent ++ "  ") false ca.metadataVector else "") ++
    endTag indent comma false

def render (ci : RenderInfo) (updateResponse : Bool) (indent : String) (comma omitValue : Bool) (ca : ContextAttribute) :
    String :=
  let valueRendered := ca.compoundValueP.isSome || !omitValue || updateResponse
  let commaAfterContextValue := decide (ca.metadataVector.length ≠ 0)
  let commaAfterType := valueRendered
  if ci.attributeFormat = "object" && ci.outMimeType = .JSON then
    ca.renderAsJsonObject toString isodate2str ci updateResponse indent comma omitValue
  else
    startTag2 indent "attribute" false false ++ valueTag1 (indent ++ "  ") "name" ca.name true false false ++
      valueTag1 (indent ++ "  ") "type" ca.type commaAfterType false false ++
      (match ca.compoundValueP with
        | none =>
          if omitValue = false then
            valueTag2 (indent ++ "  ") "value" (if updateResponse then "" else (ca.effectiveValue toString isodate2str).1)
              commaAfterContextValue (ca.effectiveValue toString isodate2str).2
          else if updateResponse then valueTag1 (indent ++ "  ") "value" "" commaAfterContextValue false false
          else ""
        | some compoundValue => renderCompound toString ci indent commaAfterContextValue compoundValue) ++
      metadataVectorRender (indent ++ "  ") false ca.metadataVector ++ endTag indent comma false

end ContextAttribute

/-! ### What is meant -/

/-- A member on a line of its own. -/
def memberLine (indent key value : String) : List Char := (indent ++ "\"" ++ key ++ "\" : " ++ value).toList

/-- Members on lines of their own, with commas between them. -/
def lineGroup (opening : String) (members : List (Block Char)) (closing : String) : Block Char :=
  .group opening.toList [',', '\n'] ['\n'] members closing.toList

/-- Members in one line, with commas between them. -/
def jsonGroup (opening : String) (members : List (Block Char)) (closing : String) : Block Char :=
  .group opening.toList [','] [] members closing.toList

namespace CompoundValueNode

/-- The value of a leaf. -/
def leafBlock (indent : String) (inVector : Bool) (name value : String) : Block Char :=
  .leaf (if inVector then (indent ++ value).toList else memberLine indent name value)

mutual

/-- A node on lines of its own. -/
def block (indent : String) (inVector : Bool) : CompoundValueNode → Block Char
  | .string name s => leafBlock indent inVector name (effectiveValue1 s false)
  | .number name d => leafBlock indent inVector name (effectiveValue1 (toString d) true)
  | .boolean name b => leafBlock indent inVector name (effectiveValue1 (if b then "true" else "false") true)
  | .none name => leafBlock indent inVector name (effectiveValue1 "null" true)
  | .vector name childV =>
    lineGroup (startTag2 indent name true (!inVector)) (blocks (indent ++ "  ") true childV) (indent ++ "]")
  | .object name _ childV =>
    lineGroup (startTag2 indent name false (!inVector)) (blocks (indent ++ "  ") false childV) (indent ++ "\x7d")

def blocks (indent : String) (inVector : Bool) : List CompoundValueNode → List (Block Char)
  | [] => []
  | child :: children => block indent inVector child :: blocks indent inVector children

end

/-- The name of a member, unless it is in a vector. -/
def jsonKey (inVector : Bool) (name : String) : String := if inVector then "" else JSON_STR name ++ ":"

mutual

/-- A node in one line. -/
def jsonBlock (inVector : Bool) : CompoundValueNode → Block Char
  | .string name s => .leaf (jsonKey inVector name ++ JSON_STR s).toList
  | .number name d => .leaf (jsonKey inVector name ++ toString d).toList
  | .boolean name b => .leaf (jsonKey inVector name ++ JSON_BOOL b).toList
  | .none name => .leaf (jsonKey inVector name ++ "null").toList
  | .vector name childV => jsonGroup (jsonKey inVector name ++ "[") (jsonBlocks true childV) "]"
  | .object name _ childV => jsonGroup (jsonKey inVector name ++ "\x7b") (jsonBlocks false childV) "\x7d"

def jsonBlocks (inVector : Bool) : List CompoundValueNode → List (Block Char)
  | [] => []
  | child :: children => jsonBlock inVector child :: jsonBlocks inVector children

end

/-- A compound value as the member `value`. -/
def valueBlock (apiVersion : ApiVersion) (indent : String) (root : CompoundValueNode) : Block Char :=
  let opening := startTag2 (indent ++ "  ") "value" root.isVector true
  let closing := indent ++ "  " ++ if root.isVector then "]" else "\x7d"
  if apiVersion = .v2 then
    jsonGroup opening
      (match root with
        | .vector _ childV => jsonBlocks toString true childV
        | .object _ _ childV => jsonBlocks toString false childV
        | leaf => [jsonBlock toString false leaf]) closing
  else
    lineGroup opening
      (match root with
        | .vector _ childV => blocks toString (indent ++ "    ") true childV
        | .object _ _ childV => blocks toString (indent ++ "    ") false childV
        | leaf => [block toString (indent ++ "    ") false leaf]) closing

end CompoundValueNode

def Metadata.block (indent : String) (md : Metadata) : Block Char :=
  lineGroup (startTag2 indent "contextMetadata" false false)
    [.leaf (memberLine (indent ++ "  ") "name" (effectiveValue1 md.name false)),
      .leaf (memberLine (indent ++ "  ") "type" (effectiveValue1 md.type false)),
      .leaf (memberLine (indent ++ "  ") "value" (effectiveValue1 md.stringValue false))] (indent ++ "\x7d")

/-- The member `metadatas`, if there are any. -/
def metadataBlocks (indent : String) (mds : List Metadata) : List (Block Char) :=
  if mds = [] then []
  else [lineGroup (startTag2 indent "metadatas" true true) (mds.map (Metadata.block (indent ++ "  "))) (indent ++ "]")]

namespace ContextAttribute

/-- The attribute is a member of an object under its name. -/
def asObject (ci : RenderInfo) : Bool := ci.attributeFormat = "object" && ci.outMimeType = .JSON

/-- The member `value`, if it is rendered. -/
def valueBlocks (ci : RenderInfo) (updateResponse : Bool) (indent : String) (omitValue : Bool) (ca : ContextAttribute) :
    List (Block Char) :=
  let value := if updateResponse then "" else (ca.effectiveValue toString isodate2str).1
  let withoutQuotes := (ca.effectiveValue toString isodate2str).2
  match ca.compoundValueP with
  | some compoundValue => [compoundValue.valueBlock toString ci.apiVersion indent]
  | none =>
    if omitValue then
      if updateResponse && !asObject ci then [.leaf (memberLine (indent ++ "  ") "value" (effectiveValue1 "" false))] else []
    else
      [.leaf (memberLine (indent ++ "  ") "value"
        (if asObject ci then effectiveValue1 value withoutQuotes else effectiveValue2 value withoutQuotes))]

/-- The attribute with the members that are rendered: its name and its type, its value and its metadata. -/
def block (ci : RenderInfo) (updateResponse : Bool) (indent : String) (omitValue : Bool) (ca : ContextAttribute) :
    Block Char :=
  let type := Block.leaf (memberLine (indent ++ "  ") "type" (effectiveValue1 ca.type false))
  let value := ca.valueBlocks toString isodate2str ci updateResponse indent omitValue
  let metadata := metadataBlocks (indent ++ "  ") ca.metadataVector
  if asObject ci then
    lineGroup (startTag2 indent ca.name false true) (type :: value ++ if omitValue then [] else metadata) (indent ++ "\x7d")
  else
    lineGroup (startTag2 indent "attribute" false false)
      (.leaf (memberLine (indent ++ "  ") "name" (effectiveValue1 ca.name false)) :: type :: value ++ metadata)
      (indent ++ "\x7d")

end ContextAttribute

/-! ### Lines -/

theorem valueTag1_toList (indent key value : String) (comma inVector withoutQuotes : Bool) :
    (valueTag1 indent key value comma inVector withoutQuotes).toList =
      (if inVector then (indent ++ effectiveValue1 value withoutQuotes).toList
        else memberLine indent key (effectiveValue1 value withoutQuotes)) ++
        if comma then [',', '\n'] else ['\n'] := by
  cases comma <;> cases inVector <;> simp [valueTag1, memberLine, String.toList_append]

theorem valueTag2_toList (indent value : String) {key : String} (hkey : key ≠ "") (comma withoutQuotes : Bool) :
    (valueTag2 indent key value comma withoutQuotes).toList =
      memberLine indent key (effectiveValue2 value withoutQuotes) ++ if comma then [',', '\n'] else ['\n'] := by
  cases comma <;> simp [valueTag2, memberLine, hkey, String.toList_append]

theorem endTag_toList (indent : String) (comma isVector : Bool) :
    (endTag indent comma isVector).toList =
      (indent ++ if isVector then "]" else "\x7d").toList ++ if comma then [',', '\n'] else ['\n'] := by
  cases comma <;> simp [endTag, String.toList_append]

theorem text_lineGroup (opening : String) (members : List (Block Char)) (closing : String) :
    (lineGroup opening members closing).text =
      opening.toList ++ separated [',', '\n'] ['\n'] (Block.texts members) ++ closing.toList := by
  rw [lineGroup, Block.text]

theorem text_jsonGroup (opening : String) (members : List (Block Char)) (closing : String) :
    (jsonGroup opening members closing).text =
      opening.toList ++ separated [','] [] (Block.texts members) ++ closing.toList := by
  rw [jsonGroup, Block.text]

namespace CompoundValueNode

/-- A comma follows the first of the children from a place on if and only if there are more of them. -/
theorem commaAfter_eq {siblings ix : Nat} {child : CompoundValueNode} {children : List CompoundValueNode}
    (h : siblings = ix + (child :: children).length) : commaAfter siblings ix = decide (children ≠ []) := by
  rw [List.length_cons] at h
  unfold commaAfter
  rw [decide_eq_decide, ← List.length_pos_iff]
  omega

theorem jsonComma_toList (siblings siblingNo : Nat) :
    (jsonComma siblings siblingNo).toList = if commaAfter siblings siblingNo then [','] else [] := by
  unfold jsonComma commaAfter
  by_cases h : (siblingNo : Int) < siblings - 1
  · rw [if_pos h, decide_eq_true h]
    rfl
  · rw [if_neg h, decide_eq_false h]
    rfl

mutual

/-- The lines of a node. -/
theorem render_toList (indent : String) (inVector : Bool) (siblings siblingNo : Nat) (t : CompoundValueNode) :
    (t.render toString indent inVector siblings siblingNo).toList =
      (t.block toString indent inVector).text ++ if commaAfter siblings siblingNo then [',', '\n'] else ['\n'] := by
  match t with
  | .string name s => cases inVector <;> rw [render, valueTag1_toList] <;> rfl
  | .number name d => cases inVector <;> rw [render, valueTag1_toList] <;> rfl
  | .boolean name b => cases inVector <;> rw [render, valueTag1_toList] <;> rfl
  | .none name => cases inVector <;> rw [render, valueTag1_toList] <;> rfl
  | .vector name childV =>
    have hchildren := renderChildren_toList (indent ++ "  ") true childV.length 0 childV (by simp)
    have hopening : startTag2 indent (if inVector then "item" else name) true (!inVector) =
        startTag2 indent name true (!inVector) := by cases inVector <;> rfl
    rw [render, block, text_lineGroup, hopening, String.toList_append, String.toList_append, hchildren, endTag_toList]
    simp only [if_true, List.append_assoc]
  | .object name path childV =>
    have hchildren := renderChildren_toList (indent ++ "  ") false childV.length 0 childV (by simp)
    have hopening : (if inVector then startTag2 indent "" false false else startTag2 indent name false true) =
        startTag2 indent name false (!inVector) := by cases inVector <;> rfl
    rw [render, block, text_lineGroup, hopening, String.toList_append, String.toList_append, hchildren, endTag_toList]
    simp only [Bool.false_eq_true, if_false, List.append_assoc]

theorem renderChildren_toList (indent : String) (inVector : Bool) (siblings ix : Nat) (ts : List CompoundValueNode)
    (h : siblings = ix + ts.length) :
    (renderChildren toString indent inVector siblings ix ts).toList =
      separated [',', '\n'] ['\n'] (Block.texts (blocks toString indent inVector ts)) := by
  match ts with
  | [] => rfl
  | child :: children =>
    have hrest := renderChildren_toList indent inVector siblings (ix + 1) children
      (by rw [h, List.length_cons]; omega)
    have hempty : Block.texts (blocks toString indent inVector children) = [] ↔ children = [] := by
      cases children <;> simp [blocks, Block.texts]
    rw [renderChildren, String.toList_append, render_toList, hrest, blocks, Block.texts, separated_cons, commaAfter_eq h]
    simp only [hempty, decide_eq_true_eq, ite_not]

end

mutual

/-- A node in one line. -/
theorem toJson_toList (inVector : Bool) (siblings siblingNo : Nat) (t : CompoundValueNode) :
    (t.toJson toString inVector siblings siblingNo).toList =
      (t.jsonBlock toString inVector).text ++ if commaAfter siblings siblingNo then [','] else [] := by
  match t with
  | .string name s => cases inVector <;> simp [toJson, jsonBlock, jsonKey, Block.text, jsonComma_toList]
  | .number name d => cases inVector <;> simp [toJson, jsonBlock, jsonKey, Block.text, jsonComma_toList]
  | .boolean name b => cases inVector <;> simp [toJson, jsonBlock, jsonKey, Block.text, jsonComma_toList]
  | .none name => cases inVector <;> simp [toJson, jsonBlock, jsonKey, Block.text, jsonComma_toList]
  | .vector name childV =>
    have hchildren := childrenToJson_toList true childV.length 0 childV (by simp)
    cases inVector <;> simp [toJson, jsonBlock, jsonKey, text_jsonGroup, jsonComma_toList, hchildren]
  | .object name path childV =>
    have hchildren := childrenToJson_toList false childV.length 0 childV (by simp)
    cases inVector <;> simp [toJson, jsonBlock, jsonKey, text_jsonGroup, jsonComma_toList, hchildren]

theorem childrenToJson_toList (inVector : Bool) (siblings ix : Nat) (ts : List CompoundValueNode)
    (h : siblings = ix + ts.length) :
    (childrenToJson toString inVector siblings ix ts).toList =
      separated [','] [] (Block.texts (jsonBlocks toString inVector ts)) := by
  match ts with
  | [] => rfl
  | child :: children =>
    have hrest := childrenToJson_toList inVector siblings (ix + 1) children (by rw [h, List.length_cons]; omega)
    have hempty : Block.texts (jsonBlocks toString inVector children) = [] ↔ children = [] := by
      cases children <;> simp [jsonBlocks, Block.texts]
    rw [childrenToJson, String.toList_append, toJson_toList, hrest, jsonBlocks, Block.texts, separated_cons,
      commaAfter_eq h]
    simp only [hempty, decide_eq_true_eq, ite_not]

end

end CompoundValueNode

namespace CompoundValueNode

/-- The lines of a compound value as the member `value`. -/
theorem renderCompound_toList (ci : RenderInfo) (indent : String) (comma : Bool) (t : CompoundValueNode) :
    (ContextAttribute.renderCompound toString ci indent comma t).toList =
      (t.valueBlock toString ci.apiVersion indent).text ++ if comma then [',', '\n'] else ['\n'] := by
  have hclosing : (endTag (indent ++ "  ") comma t.isVector).toList =
      (indent ++ "  " ++ if t.isVector then "]" else "\x7d").toList ++ if comma then [',', '\n'] else ['\n'] :=
    endTag_toList (indent ++ "  ") comma t.isVector
  unfold ContextAttribute.renderCompound valueBlock rootRender
  rw [String.toList_append, String.toList_append, hclosing]
  by_cases hapi : ci.apiVersion = .v2
  · rw [if_pos hapi, if_pos hapi, text_jsonGroup]
    have hleaf (leaf : CompoundValueNode) : (leaf.toJson toString false 1 0).toList =
        separated [','] [] (Block.texts [leaf.jsonBlock toString false]) := by
      rw [toJson_toList, Block.texts, Block.texts, separated]
      rfl
    cases t with
    | vector name childV =>
      simp only [rootToJson, childrenToJson_toList toString true childV.length 0 childV (by simp), List.append_assoc]
    | object name path childV =>
      simp only [rootToJson, childrenToJson_toList toString false childV.length 0 childV (by simp), List.append_assoc]
    | _ => simp only [rootToJson, hleaf, List.append_assoc]
  · rw [if_neg hapi, if_neg hapi, text_lineGroup]
    have hleaf (leaf : CompoundValueNode) : (leaf.render toString (indent ++ "    ") false 0 0).toList =
        separated [',', '\n'] ['\n'] (Block.texts [leaf.block toString (indent ++ "    ") false]) := by
      rw [render_toList, Block.texts, Block.texts, separated]
      rfl
    cases t with
    | vector name childV =>
      simp only [renderChildren_toList toString _ true childV.length 0 childV (by simp), List.append_assoc]
    | object name path childV =>
      simp only [renderChildren_toList toString _ false childV.length 0 childV (by simp), List.append_assoc]
    | _ => simp only [hleaf, List.append_assoc]

end CompoundValueNode

/-! ### Metadata -/

theorem Metadata.render_toList (indent : String) (comma : Bool) (md : Metadata) :
    (md.render indent comma).toList = (md.block indent).text ++ if comma then [',', '\n'] else ['\n'] := by
  simp only [Metadata.render, Metadata.block, text_lineGroup, String.toList_append, valueTag1_toList, endTag_toList,
    Block.texts, Block.text, separated, Bool.false_eq_true, if_false, if_true, List.append_assoc]

theorem renderMetadatas_toList (indent : String) (siblings ix : Nat) (mds : List Metadata) (h : siblings = ix + mds.length) :
    (renderMetadatas indent siblings ix mds).toList =
      separated [',', '\n'] ['\n'] (Block.texts (mds.map (Metadata.block indent))) := by
  induction mds generalizing ix with
  | nil => rfl
  | cons md mds ih =>
    rw [List.length_cons] at h
    have hcomma : (ix ≠ siblings - 1) ↔ ¬mds = [] := by
      rw [← List.length_eq_zero_iff]
      omega
    have hempty : Block.texts (mds.map (Metadata.block indent)) = [] ↔ mds = [] := by
      cases mds <;> simp [Block.texts]
    rw [renderMetadatas, String.toList_append, Metadata.render_toList, ih (ix + 1) (by omega), List.map_cons, Block.texts,
      separated_cons]
    simp only [hcomma, hempty, decide_eq_true_eq, ite_not]

/-- The lines of the member `metadatas`, behind which no comma stands. -/
theorem metadataVectorRender_toList (indent : String) (mds : List Metadata) :
    (metadataVectorRender indent false mds).toList =
      flagged ',' ['\n'] ((Block.texts (metadataBlocks indent mds)).map fun p => (p, false)) := by
  unfold metadataVectorRender metadataBlocks
  by_cases h : mds = []
  · rw [if_pos (by simp [h]), if_pos h]
    rfl
  · rw [if_neg (by simpa using h), if_neg h]
    simp only [Block.texts, text_lineGroup, String.toList_append, endTag_toList,
      renderMetadatas_toList (indent ++ "  ") mds.length 0 mds (by simp), List.map_cons, List.map_nil, flagged,
      Bool.false_eq_true, if_false, if_true, List.append_assoc, List.append_nil]

namespace ContextAttribute

variable (ci : RenderInfo) (updateResponse : Bool) (indent : String) (comma omitValue : Bool) (ca : ContextAttribute)

/-! ### Attributes -/

/-- The lines of an attribute with the flags that say where the commas stand. -/
def lines : List (List Char × Bool) :=
  let type := memberLine (indent ++ "  ") "type" (effectiveValue1 ca.type false)
  let value := Block.texts (ca.valueBlocks toString isodate2str ci updateResponse indent omitValue)
  let metadata := Block.texts (metadataBlocks (indent ++ "  ") ca.metadataVector)
  let more := decide (ca.metadataVector ≠ [])
  if asObject ci then
    (type, !omitValue || more) :: value.map (fun p => (p, more)) ++
      if omitValue then [] else metadata.map fun p => (p, false)
  else
    (memberLine (indent ++ "  ") "name" (effectiveValue1 ca.name false), true) ::
      (type, ca.compoundValueP.isSome || !omitValue || updateResponse) :: value.map (fun p => (p, more)) ++
      metadata.map fun p => (p, false)

/-- The opening line, the lines with their flags and the closing line. -/
theorem render_eq_flagged :
    (ca.render toString isodate2str ci updateResponse indent comma omitValue).toList =
      (if asObject ci then startTag2 indent ca.name false true else startTag2 indent "attribute" false false).toList ++
        flagged ',' ['\n'] (ca.lines toString isodate2str ci updateResponse indent omitValue) ++
        (indent ++ "\x7d").toList ++ if comma then [',', '\n'] else ['\n'] := by
  have hmore : decide (ca.metadataVector.length ≠ 0) = decide (ca.metadataVector ≠ []) := by
    rw [decide_eq_decide, ne_eq, List.length_eq_zero_iff]
  unfold render lines
  by_cases hobject : asObject ci = true
  · have hsource : (ci.attributeFormat = "object" && ci.outMimeType = .JSON) = true := hobject
    rw [if_pos hsource, if_pos hobject, if_pos hobject]
    unfold renderAsJsonObject valueBlocks
    simp only [String.toList_append, valueTag1_toList, endTag_toList, hobject, hmore, flagged_append, flagged,
      List.cons_append, List.append_assoc, Bool.false_eq_true, if_false, if_true, Bool.not_true, Bool.and_false]
    cases ca.compoundValueP with
    | none =>
      cases omitValue <;> simp [Block.texts, Block.text, flagged, metadataVectorRender_toList, valueTag1_toList]
    | some t =>
      cases omitValue <;>
        simp [Block.texts, flagged, metadataVectorRender_toList, CompoundValueNode.renderCompound_toList]
  · have hsource : ¬(ci.attributeFormat = "object" && ci.outMimeType = .JSON) = true := hobject
    rw [if_neg hsource, if_neg hobject, if_neg hobject]
    unfold valueBlocks
    simp only [String.toList_append, valueTag1_toList, endTag_toList, hobject, hmore, flagged_append, flagged,
      metadataVectorRender_toList, List.cons_append, List.append_assoc, Bool.false_eq_true, if_false, if_true]
    cases ca.compoundValueP with
    | none =>
      cases omitValue <;> cases updateResponse <;>
        simp [Block.texts, Block.text, flagged, valueTag1_toList, valueTag2_toList]
    | some t => simp [Block.texts, flagged, CompoundValueNode.renderCompound_toList]

theorem text_block :
    (ca.block toString isodate2str ci updateResponse indent omitValue).text =
      (if asObject ci then startTag2 indent ca.name false true else startTag2 indent "attribute" false false).toList ++
        separated [',', '\n'] ['\n'] ((ca.lines toString isodate2str ci updateResponse indent omitValue).map Prod.fst) ++
        (indent ++ "\x7d").toList := by
  have hmap (blocks : List (Block Char)) (more : Bool) :
      ((Block.texts blocks).map fun p => (p, more)).map Prod.fst = Block.texts blocks := by
    rw [List.map_map]
    exact List.map_id _
  have hblocks (left right : List (Block Char)) : Block.texts (left ++ right) = Block.texts left ++ Block.texts right := by
    simp only [Block.texts_eq_map, List.map_append]
  unfold block lines
  by_cases hobject : asObject ci = true
  · simp only [hobject, if_true, text_lineGroup, Block.texts, Block.text, List.map_cons, List.map_append, hblocks, hmap,
      List.cons_append]
    cases omitValue <;> simp [Block.texts, hmap]
  · simp only [hobject, if_false, text_lineGroup, Block.texts, Block.text, List.map_cons, List.map_append, hblocks, hmap,
      List.cons_append, Bool.false_eq_true]

/-- The text of the attribute consists of its members, with one comma between each two of them and none after the last
one. -/
def RenderedRight : Prop :=
  (ca.render toString isodate2str ci updateResponse indent comma omitValue).toList =
    (ca.block toString isodate2str ci updateResponse indent omitValue).text ++ if comma then [',', '\n'] else ['\n']

/-- It is all in the flags. -/
theorem renderedRight_iff_flagged :
    ca.RenderedRight toString isodate2str ci updateResponse indent comma omitValue ↔
      flagged ',' ['\n'] (ca.lines toString isodate2str ci updateResponse indent omitValue) =
        separated [',', '\n'] ['\n'] ((ca.lines toString isodate2str ci updateResponse indent omitValue).map Prod.fst) := by
  unfold RenderedRight
  rw [render_eq_flagged, text_block, List.append_left_inj, List.append_left_inj, List.append_right_inj]

/-- There is at most one member `value`, and one if the value is rendered. -/
theorem valueBlocks_cases :
    (ca.valueBlocks toString isodate2str ci updateResponse indent omitValue = [] ∧ ca.compoundValueP = none ∧
        omitValue = true ∧ (asObject ci = false → updateResponse = false)) ∨
      ∃ b, ca.valueBlocks toString isodate2str ci updateResponse indent omitValue = [b] ∧
        (omitValue = true → ca.compoundValueP = none → asObject ci = false ∧ updateResponse = true) := by
  unfold valueBlocks
  cases ca.compoundValueP with
  | some t => exact .inr ⟨_, rfl, fun _ h => by cases h⟩
  | none =>
    cases omitValue with
    | false => exact .inr ⟨_, rfl, fun h => by cases h⟩
    | true =>
      by_cases hrendered : updateResponse = true ∧ asObject ci = false
      · refine .inr ⟨.leaf (memberLine (indent ++ "  ") "value" (effectiveValue1 "" false)), ?_, fun _ _ => hrendered.symm⟩
        simp [hrendered]
      · refine .inl ⟨?_, rfl, rfl, fun hobject => ?_⟩
        · cases updateResponse <;> simp_all
        · cases updateResponse <;> simp_all

theorem metadataBlocks_cases (mds : List Metadata) :
    (mds = [] ∧ metadataBlocks indent mds = []) ∨ (mds ≠ [] ∧ ∃ b, metadataBlocks indent mds = [b]) := by
  unfold metadataBlocks
  by_cases h : mds = []
  · exact .inl ⟨h, if_pos h⟩
  · exact .inr ⟨h, _, if_neg h⟩

/-- The commas are right if they follow all lines but the last. -/
theorem commas_right (front : List (List Char)) (line : List Char) :
    flagged ',' ['\n'] (front.map (fun p => (p, true)) ++ [(line, false)]) =
      separated [',', '\n'] ['\n'] ((front.map (fun p => (p, true)) ++ [(line, false)]).map Prod.fst) := by
  rw [flagged_eq_separated]
  simp [Function.comp_def]

/-- In a vector, the text of an attribute is right if and only if its value is rendered or it has no metadata. -/
theorem renderedRight_iff_of_vector (hobject : asObject ci = false) :
    ca.RenderedRight toString isodate2str ci updateResponse indent comma omitValue ↔
      ca.compoundValueP.isSome = true ∨ omitValue = false ∨ updateResponse = true ∨ ca.metadataVector = [] := by
  rw [renderedRight_iff_flagged]
  set name := memberLine (indent ++ "  ") "name" (effectiveValue1 ca.name false) with hname
  set type := memberLine (indent ++ "  ") "type" (effectiveValue1 ca.type false) with htype
  rcases ca.valueBlocks_cases toString isodate2str ci updateResponse indent omitValue with
    ⟨hvalue, hcompound, homit, hupdate⟩ | ⟨value, hvalue, hrendered⟩
  · have hcomma : (ca.compoundValueP.isSome || !omitValue || updateResponse) = false := by
      simp [hcompound, homit, hupdate hobject]
    rcases metadataBlocks_cases (indent ++ "  ") ca.metadataVector with ⟨hnone, hmetadata⟩ | ⟨hsome, metadata, hmetadata⟩
    · have hlines : ca.lines toString isodate2str ci updateResponse indent omitValue = [(name, true), (type, false)] := by
        simp [lines, hobject, hvalue, hmetadata, hcomma, Block.texts, hname, htype]
      rw [hlines]
      exact iff_of_true (commas_right [name] type) (.inr (.inr (.inr hnone)))
    · have hlines : ca.lines toString isodate2str ci updateResponse indent omitValue =
          [(name, true), (type, false), (metadata.text, false)] := by
        simp [lines, hobject, hvalue, hmetadata, hcomma, Block.texts, hname, htype]
      rw [hlines]
      refine iff_of_false (flagged_ne_separated ',' ['\n'] (by simp) (by simp)) ?_
      simp [hcompound, homit, hupdate hobject, hsome]
  · have hcomma : (ca.compoundValueP.isSome || !omitValue || updateResponse) = true := by
      cases hcompound : ca.compoundValueP with
      | some t => rfl
      | none => cases omitValue <;> simp_all
    have hcondition : ca.compoundValueP.isSome = true ∨ omitValue = false ∨ updateResponse = true ∨
        ca.metadataVector = [] := by
      simp only [Bool.or_eq_true, Bool.not_eq_true'] at hcomma
      rcases hcomma with (h | h) | h
      · exact .inl h
      · exact .inr (.inl h)
      · exact .inr (.inr (.inl h))
    rcases metadataBlocks_cases (indent ++ "  ") ca.metadataVector with ⟨hnone, hmetadata⟩ | ⟨hsome, metadata, hmetadata⟩
    · have hlines : ca.lines toString isodate2str ci updateResponse indent omitValue =
          [(name, true), (type, true), (value.text, false)] := by
        rw [hnone] at hmetadata
        simp [lines, hobject, hvalue, hmetadata, hcomma, hnone, Block.texts, hname, htype]
      rw [hlines]
      exact iff_of_true (commas_right [name, type] value.text) hcondition
    · have hlines : ca.lines toString isodate2str ci updateResponse indent omitValue =
          [(name, true), (type, true), (value.text, true), (metadata.text, false)] := by
        simp [lines, hobject, hvalue, hmetadata, hcomma, hsome, Block.texts, hname, htype]
      rw [hlines]
      exact iff_of_true (commas_right [name, type, value.text] metadata.text) hcondition

/-- As a member of an object, the text of an attribute is right if and only if the value is not left out, or the
attribute has neither a compound value nor metadata. -/
theorem renderedRight_iff_of_object (hobject : asObject ci = true) :
    ca.RenderedRight toString isodate2str ci updateResponse indent comma omitValue ↔
      omitValue = false ∨ (ca.compoundValueP = none ∧ ca.metadataVector = []) := by
  rw [renderedRight_iff_flagged]
  set type := memberLine (indent ++ "  ") "type" (effectiveValue1 ca.type false) with htype
  rcases ca.valueBlocks_cases toString isodate2str ci updateResponse indent omitValue with
    ⟨hvalue, hcompound, homit, -⟩ | ⟨value, hvalue, hrendered⟩
  · rw [homit] at hvalue ⊢
    by_cases hnone : ca.metadataVector = []
    · have hlines : ca.lines toString isodate2str ci updateResponse indent true = [(type, false)] := by
        simp [lines, hobject, hvalue, hnone, Block.texts, htype]
      rw [hlines]
      exact iff_of_true (commas_right [] type) (.inr ⟨hcompound, hnone⟩)
    · have hlines : ca.lines toString isodate2str ci updateResponse indent true = [(type, true)] := by
        simp [lines, hobject, hvalue, hnone, Block.texts, htype]
      rw [hlines]
      exact iff_of_false (flagged_ne_separated ',' ['\n'] (by simp) (by simp)) (by simp [hnone])
  · cases homit : omitValue with
    | false =>
      rw [homit] at hvalue
      rcases metadataBlocks_cases (indent ++ "  ") ca.metadataVector with
        ⟨hnone, hmetadata⟩ | ⟨hsome, metadata, hmetadata⟩
      · have hlines : ca.lines toString isodate2str ci updateResponse indent false =
            [(type, true), (value.text, false)] := by
          rw [hnone] at hmetadata
          simp [lines, hobject, hvalue, hmetadata, hnone, Block.texts, htype]
        rw [hlines]
        exact iff_of_true (commas_right [type] value.text) (.inl rfl)
      · have hlines : ca.lines toString isodate2str ci updateResponse indent false =
            [(type, true), (value.text, true), (metadata.text, false)] := by
          simp [lines, hobject, hvalue, hmetadata, hsome, Block.texts, htype]
        rw [hlines]
        exact iff_of_true (commas_right [type, value.text] metadata.text) (.inl rfl)
    | true =>
      -- the value is a compound one, behind which a comma stands if and only if there are metadata
      rw [homit] at hvalue
      have hcompound : ca.compoundValueP ≠ none := fun hnone => by
        have hvector := (hrendered homit hnone).1
        rw [hobject] at hvector
        cases hvector
      have hcondition : ¬(true = false ∨ (ca.compoundValueP = none ∧ ca.metadataVector = [])) := by simp [hcompound]
      by_cases hnone : ca.metadataVector = []
      · have hlines : ca.lines toString isodate2str ci updateResponse indent true =
            [(type, false), (value.text, false)] := by
          simp [lines, hobject, hvalue, hnone, Block.texts, htype]
        rw [hlines]
        exact iff_of_false (flagged_ne_separated ',' ['\n'] (by simp) (by simp)) hcondition
      · have hlines : ca.lines toString isodate2str ci updateResponse indent true =
            [(type, true), (value.text, true)] := by
          simp [lines, hobject, hvalue, hnone, Block.texts, htype]
        rw [hlines]
        exact iff_of_false (flagged_ne_separated ',' ['\n'] (by simp) (by simp)) hcondition

/-- An attribute is rendered right if and only if, in a vector, its value is rendered or it has no metadata, and as a
member of an object its value is not left out or it has neither a compound value nor metadata. -/
theorem renderedRight_iff :
    ca.RenderedRight toString isodate2str ci updateResponse indent comma omitValue ↔
      if asObject ci then omitValue = false ∨ (ca.compoundValueP = none ∧ ca.metadataVector = [])
      else ca.compoundValueP.isSome = true ∨ omitValue = false ∨ updateResponse = true ∨ ca.metadataVector = [] := by
  cases hobject : asObject ci with
  | true => exact ca.renderedRight_iff_of_object toString isodate2str ci updateResponse indent comma omitValue hobject
  | false => exact ca.renderedRight_iff_of_vector toString isodate2str ci updateResponse indent comma omitValue hobject

end ContextAttribute

end Rendering

/-- Without its value, the type of an attribute is followed by its metadata without a comma. -/
theorem ContextAttribute.no_comma_before_metadata :
    ¬∀ (toString isodate2str : Double → String) (ci : RenderInfo) (updateResponse : Bool) (indent : String)
        (comma omitValue : Bool) (ca : ContextAttribute),
      ca.RenderedRight toString isodate2str ci updateResponse indent comma omitValue := by
  intro hall
  let ca : ContextAttribute := { name := "A", type := "T", metadataVector := [{ name := "M", type := "T" }] }
  have hright := (ca.renderedRight_iff_of_vector (fun _ => "") (fun _ => "") {} false "" false true rfl).1
    (hall _ _ {} false "" false true ca)
  simp [ca] at hright

end OrionBroker
