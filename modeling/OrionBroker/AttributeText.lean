import OrionBroker.CheckedTexts
import OrionBroker.JsonText
import OrionBroker.Subscription

/-!
# The text of an attribute (`ContextAttribute::toJson`)

The second version of the API writes an attribute by splicing its texts between quotes.  The text of an accepted
attribute denotes its name, type, value and metadata as long as none of the texts needs an escape
(`toJson_denotes`); an empty type is written as `none`, and metadata of the names `value` and `type` are left out.
Which characters the check lets through is another matter (`CheckedTexts.lean`).
-/

namespace OrionBroker

open Bson JsonText

abbrev DATE_TYPE : String := "date"

/-! ### The macros of `tag.h` -/

def JSON_STR (value : String) : String := "\"" ++ value ++ "\""

def JSON_BOOL (bvalue : Bool) : String := if bvalue then "true" else "false"

def JSON_PROP (name : String) : String := "\"" ++ name ++ "\":"

def JSON_VALUE (name value : String) : String := JSON_PROP name ++ JSON_STR value

def JSON_VALUE_NUMBER (name value : String) : String := JSON_PROP name ++ value

def JSON_VALUE_BOOL (name : String) (value : Bool) : String := JSON_PROP name ++ JSON_BOOL value

section Rendering

-- how the library writes a number to a stream, and the date that a number stands for
variable (toString isodate2str : Double → String)

namespace CompoundValueNode

/-- A comma follows all children but the last. -/
def jsonComma (siblings siblingNo : Nat) : String := if (siblingNo : Int) < siblings - 1 then "," else ""

mutual

/-- `CompoundValueNode::toJson` of the node at place `siblingNo` among the children of its container. -/
def toJson (inVector : Bool) (siblings siblingNo : Nat) : CompoundValueNode → String
  | .string name s =>
    (if inVector then JSON_STR s else JSON_STR name ++ ":" ++ JSON_STR s) ++ jsonComma siblings siblingNo
  | .number name d =>
    (if inVector then toString d else JSON_STR name ++ ":" ++ toString d) ++ jsonComma siblings siblingNo
  | .boolean name b =>
    (if inVector then JSON_BOOL b else JSON_STR name ++ ":" ++ JSON_BOOL b) ++ jsonComma siblings siblingNo
  | .none name =>
    (if inVector then "null" else JSON_STR name ++ ":" ++ "null") ++ jsonComma siblings siblingNo
  | .vector name childV =>
    (if inVector then "[" ++ childrenToJson true childV.length 0 childV ++ "]"
      else JSON_STR name ++ ":[" ++ childrenToJson true childV.length 0 childV ++ "]") ++ jsonComma siblings siblingNo
  | .object name _ childV =>
    (if inVector then "\x7b" ++ childrenToJson false childV.length 0 childV ++ "\x7d"
      else JSON_STR name ++ ":\x7b" ++ childrenToJson false childV.length 0 childV ++ "\x7d") ++ jsonComma siblings siblingNo

/-- The children from the place `ix` on. -/
def childrenToJson (inVector : Bool) (siblings ix : Nat) : List CompoundValueNode → String
  | [] => ""
  | child :: children =>
    toJson inVector siblings ix child ++ childrenToJson inVector siblings (ix + 1) children

end

/-- `CompoundValueNode::toJson` of the root, which is its own container: the brackets are added by the caller. -/
def rootToJson : CompoundValueNode → String
  | .vector _ childV => childrenToJson toString true childV.length 0 childV
  | .object _ _ childV => childrenToJson toString false childV.length 0 childV
  | leaf => toJson toString false 1 0 leaf

end CompoundValueNode

namespace Metadata

/-- The member `value` of a metadata. -/
def valueMemberToJson (md : Metadata) : String :=
  match md.valueType with
  | .string => JSON_VALUE "value" md.stringValue
  | .number => JSON_VALUE_NUMBER "value" (toString md.numberValue)
  | .boolean => JSON_VALUE_BOOL "value" md.boolValue
  | .none => JSON_STR "value" ++ ":null"
  | _ => JSON_VALUE "value" md.stringValue

def toJson (isLastElement : Bool) (md : Metadata) : String :=
  JSON_STR md.name ++ ":\x7b" ++
    (if md.type ≠ "" then JSON_VALUE "type" md.type else JSON_VALUE "type" DEFAULT_TYPE) ++ "," ++
    md.valueMemberToJson toString ++ "\x7d" ++ (if isLastElement then "" else ",")

end Metadata

/-- Metadata of the names `value` and `type` are not rendered. -/
def metadataRendered (md : Metadata) : Bool := !(md.name = "value" || md.name = "type")

/-- The second pass of `MetadataVector::toJson`. -/
def metadataPass (validMetadatas renderedMetadatas : Nat) : List Metadata → String
  | [] => ""
  | md :: mds =>
    if metadataRendered md then
      md.toJson toString (renderedMetadatas + 1 = validMetadatas) ++ metadataPass validMetadatas (renderedMetadatas + 1) mds
    else metadataPass validMetadatas renderedMetadatas mds

/-- `MetadataVector::toJson`, with its first pass. -/
def metadataVectorToJson (isLastElement : Bool) (mds : List Metadata) : String :=
  if mds.length = 0 then ""
  else metadataPass toString (mds.countP metadataRendered) 0 mds ++ (if isLastElement then "" else ",")

namespace ContextAttribute

/-- The value in the formats that give nothing but the value. -/
def valueToJson (ca : ContextAttribute) : String :=
  match ca.compoundValueP with
  | some compoundValue =>
    if compoundValue.isObject then "\x7b" ++ compoundValue.rootToJson toString ++ "\x7d"
    else if compoundValue.isVector then "[" ++ compoundValue.rootToJson toString ++ "]"
    else ""
  | none =>
    match ca.valueType with
    | .number => if ca.type = DATE_TYPE then JSON_STR (isodate2str ca.numberValue) else toString ca.numberValue
    | .string => JSON_STR ca.stringValue
    | .boolean => JSON_BOOL ca.boolValue
    | .none => "null"
    | _ => ""

/-- The member `value` of the normalized format. -/
def valueMemberToJson (ca : ContextAttribute) : String :=
  match ca.compoundValueP with
  | some compoundValue =>
    if compoundValue.isObject then JSON_STR "value" ++ ":\x7b" ++ compoundValue.rootToJson toString ++ "\x7d"
    else if compoundValue.isVector then JSON_STR "value" ++ ":[" ++ compoundValue.rootToJson toString ++ "]"
    else ""
  | none =>
    match ca.valueType with
    | .number =>
      if ca.type = DATE_TYPE then JSON_VALUE "value" (isodate2str ca.numberValue)
      else JSON_VALUE_NUMBER "value" (toString ca.numberValue)
    | .string => JSON_VALUE "value" ca.stringValue
    | .boolean => JSON_VALUE_BOOL "value" ca.boolValue
    | .none => JSON_STR "value" ++ ":" ++ "null"
    | _ => JSON_VALUE "value" ca.stringValue

/-- `ContextAttribute::toJson`; `attributeResponse` if the request type is `EntityAttributeResponse`. -/
def toJson (isLastElement : Bool) (renderFormat : RenderFormat) (attributeResponse : Bool) (ca : ContextAttribute) :
    String :=
  (if renderFormat = .NGSI_V2_VALUES ∨ renderFormat = .NGSI_V2_KEYVALUES ∨ renderFormat = .NGSI_V2_UNIQUE_VALUES then
    (if renderFormat = .NGSI_V2_KEYVALUES then JSON_STR ca.name ++ ":" else "") ++ ca.valueToJson toString isodate2str
  else
    (if attributeResponse then "" else JSON_STR ca.name ++ ":\x7b") ++
      (if ca.type ≠ "" then JSON_VALUE "type" ca.type else JSON_VALUE "type" DEFAULT_TYPE) ++ "," ++
      ca.valueMemberToJson toString isodate2str ++ "," ++
      JSON_STR "metadata" ++ ":" ++ "\x7b" ++ metadataVectorToJson toString true ca.metadataVector ++ "\x7d" ++
      (if attributeResponse then "" else "\x7d")) ++
  (if isLastElement then "" else ",")

end ContextAttribute

end Rendering

/-! ### What the text stands for -/

namespace CompoundValueNode

mutual

/-- The JSON value of a tree. -/
def value : CompoundValueNode → Json
  | .string _ s => .string s
  | .number _ d => .double d
  | .boolean _ b => .bool b
  | .none _ => .null
  | .vector _ childV => .array (itemValues childV)
  | .object _ _ childV => .object (memberValues childV)

def itemValues : List CompoundValueNode → List Json
  | [] => []
  | c :: cs => value c :: itemValues cs

def memberValues : List CompoundValueNode → List (String × Json)
  | [] => []
  | c :: cs => (c.name, value c) :: memberValues cs

end

mutual

def numberless : CompoundValueNode → Bool
  | .number _ _ => false
  | .vector _ childV => numberlessAll childV
  | .object _ _ childV => numberlessAll childV
  | _ => true

def numberlessAll : List CompoundValueNode → Bool
  | [] => true
  | c :: cs => numberless c && numberlessAll cs

end

end CompoundValueNode

/-- None of the characters needs an escape. -/
def PlainText (s : String) : Prop := ∀ c ∈ s.toList, Unescaped c

namespace Metadata

/-- The value of a metadata without a number. -/
def value (md : Metadata) : Json :=
  match md.valueType with
  | .string => .string md.stringValue
  | .boolean => .bool md.boolValue
  | _ => .null

/-- A metadata as a member of the object of the metadata. -/
def member (md : Metadata) : String × Json :=
  (md.name, .object [("type", .string (if md.type ≠ "" then md.type else DEFAULT_TYPE)), ("value", md.value)])

def Numberless (md : Metadata) : Prop := md.valueType = .string ∨ md.valueType = .boolean ∨ md.valueType = .none

/-- The texts that are spliced into the text of a metadata. -/
def texts (md : Metadata) : List String :=
  [md.name, md.type] ++ if md.valueType = .string then [md.stringValue] else []

end Metadata

namespace ContextAttribute

def jsonValue (ca : ContextAttribute) : Json :=
  match ca.compoundValueP with
  | some compoundValue => compoundValue.value
  | none =>
    match ca.valueType with
    | .string => .string ca.stringValue
    | .boolean => .bool ca.boolValue
    | _ => .null

/-- The attribute as the normalized format gives it: the type as it is, or `none` if there is none, and the metadata but
for those named `value` or `type`. -/
def normalized (ca : ContextAttribute) : Json :=
  .object [("type", .string (if ca.type ≠ "" then ca.type else DEFAULT_TYPE)), ("value", ca.jsonValue),
    ("metadata", .object ((ca.metadataVector.filter metadataRendered).map Metadata.member))]

/-- The value is a string, a boolean, null or a compound tree without numbers; so are the values of the metadata. -/
structure Numberless (ca : ContextAttribute) : Prop where
  compound : ∀ t ∈ ca.compoundValueP, (t.isVector = true ∨ t.isObject = true) ∧ t.numberless = true
  plain : ca.compoundValueP = none → ca.valueType = .string ∨ ca.valueType = .boolean ∨ ca.valueType = .none
  metadata : ∀ md ∈ ca.metadataVector, md.Numberless

/-- The texts of the value: those of the leaves and the names of the members. -/
def valueTexts (ca : ContextAttribute) : List String :=
  match ca.compoundValueP with
  | some t => t.stringLeaves ++ t.memberNames
  | none => if ca.valueType = .string then [ca.stringValue] else []

/-- The texts that are spliced into the text of an attribute. -/
def texts (ca : ContextAttribute) : List String :=
  [ca.name, ca.type] ++ ca.valueTexts ++ ca.metadataVector.flatMap Metadata.texts

/-- The texts that the check does not look at: the type of a bare value, the names of the members of a compound value
and, beside a compound value with children, the metadata. -/
def uncheckedTexts (requestType : RequestType) (ca : ContextAttribute) : List String :=
  (if requestType = .entityAttributeValueRequest then [ca.type] else []) ++
    match ca.compoundValueP with
    | some t => t.memberNames ++ if t.hasChildren then ca.metadataVector.flatMap Metadata.texts else []
    | none => []

/-- No text has a backslash or a control character, and none of those that the check does not look at has a double
quote. -/
structure NeedsNoEscape (requestType : RequestType) (ca : ContextAttribute) : Prop where
  texts : ∀ s ∈ ca.texts, ∀ c ∈ s.toList, c ≠ '\\' ∧ 0x20 ≤ c.toNat
  unchecked : ∀ s ∈ ca.uncheckedTexts requestType, '"' ∉ s.toList

end ContextAttribute

/-! ### The text of a compound value -/

theorem JSON_STR_toList (s : String) : (JSON_STR s).toList = quoted s.toList := by
  simp [JSON_STR, quoted, String.toList_append]

theorem denotes_JSON_STR {s : String} (h : PlainText s) : Denotes (JSON_STR s).toList (.string s) := by
  rw [JSON_STR_toList]
  exact denotes_string h

theorem denotes_JSON_BOOL (b : Bool) : Denotes (JSON_BOOL b).toList (.bool b) := by
  cases b with
  | true => exact denotes_true
  | false => exact denotes_false

namespace CompoundValueNode

variable (toString : Double → String)

theorem jsonComma_of_last (ix : Nat) : jsonComma (ix + 1) ix = "" := by
  unfold jsonComma
  rw [if_neg (by omega)]

theorem jsonComma_of_sibling (ix n : Nat) : jsonComma (ix + (n + 2)) ix = "," := by
  unfold jsonComma
  rw [if_pos (by omega)]

mutual

/-- The text of a node: that of its value, after its name unless it is in a vector, and then the comma. -/
theorem denotes_toJson {t : CompoundValueNode} (hn : t.numberless = true) (hs : ∀ s ∈ t.stringLeaves, PlainText s)
    (hm : ∀ n ∈ t.memberNames, PlainText n) (siblings siblingNo : Nat) :
    ∃ text, Denotes text t.value ∧
      (t.toJson toString true siblings siblingNo).toList = text ++ (jsonComma siblings siblingNo).toList ∧
      (t.toJson toString false siblings siblingNo).toList =
        quoted t.name.toList ++ ':' :: text ++ (jsonComma siblings siblingNo).toList := by
  match t with
  | .string name s =>
    refine ⟨(JSON_STR s).toList, denotes_JSON_STR (hs s (by simp [stringLeaves])), ?_, ?_⟩
    · simp [toJson]
    · simp [toJson, JSON_STR_toList, CompoundValueNode.name]
  | .number name d => cases hn
  | .boolean name b =>
    refine ⟨(JSON_BOOL b).toList, denotes_JSON_BOOL b, ?_, ?_⟩
    · simp [toJson]
    · simp [toJson, JSON_STR_toList, CompoundValueNode.name]
  | .none name =>
    refine ⟨"null".toList, denotes_null, ?_, ?_⟩
    · simp [toJson]
    · simp [toJson, JSON_STR_toList, CompoundValueNode.name]
  | .vector name childV =>
    obtain ⟨texts, htexts, hlist⟩ := itemsToJson_denotes hn hs hm 0 childV.length (by simp)
    refine ⟨'[' :: (commaSeparated texts ++ [']']), denotes_array htexts, ?_, ?_⟩
    · simp [toJson, hlist]
    · simp [toJson, hlist, JSON_STR_toList, CompoundValueNode.name]
  | .object name path childV =>
    obtain ⟨texts, htexts, hlist⟩ := membersToJson_denotes hn hs hm 0 childV.length (by simp)
    refine ⟨'{' :: (commaSeparated texts ++ ['}']), denotes_object htexts, ?_, ?_⟩
    · simp [toJson, hlist]
    · simp [toJson, hlist, JSON_STR_toList, CompoundValueNode.name]

theorem itemsToJson_denotes {ts : List CompoundValueNode} (hn : numberlessAll ts = true)
    (hs : ∀ s ∈ stringLeavesAll ts, PlainText s) (hm : ∀ n ∈ memberNamesItems ts, PlainText n) (ix siblings : Nat)
    (hsiblings : siblings = ix + ts.length) :
    ∃ texts, List.Forall₂ Denotes texts (itemValues ts) ∧
      (childrenToJson toString true siblings ix ts).toList = commaSeparated texts := by
  match ts with
  | [] => exact ⟨[], .nil, rfl⟩
  | c :: cs =>
    simp only [numberlessAll, Bool.and_eq_true, stringLeavesAll, memberNamesItems, List.mem_append] at hn hs hm
    obtain ⟨text, htext, hlist, -⟩ := denotes_toJson hn.1 (fun s h => hs s (.inl h)) (fun n h => hm n (.inl h)) siblings ix
    obtain ⟨texts, htexts, hlists⟩ := itemsToJson_denotes hn.2 (fun s h => hs s (.inr h)) (fun n h => hm n (.inr h))
      (ix + 1) siblings (by simp only [List.length_cons] at hsiblings; omega)
    refine ⟨text :: texts, .cons htext htexts, ?_⟩
    rw [childrenToJson, String.toList_append, hlist, hlists]
    cases cs with
    | nil =>
      cases htexts
      subst hsiblings
      simp [jsonComma_of_last, commaSeparated]
    | cons d ds =>
      cases htexts with
      | cons hd hds =>
        subst hsiblings
        simp only [List.length_cons]
        rw [jsonComma_of_sibling]
        simp [commaSeparated]

theorem membersToJson_denotes {ts : List CompoundValueNode} (hn : numberlessAll ts = true)
    (hs : ∀ s ∈ stringLeavesAll ts, PlainText s) (hm : ∀ n ∈ memberNamesMembers ts, PlainText n) (ix siblings : Nat)
    (hsiblings : siblings = ix + ts.length) :
    ∃ texts, List.Forall₂ DenotesMember texts (memberValues ts) ∧
      (childrenToJson toString false siblings ix ts).toList = commaSeparated texts := by
  match ts with
  | [] => exact ⟨[], .nil, rfl⟩
  | c :: cs =>
    simp only [numberlessAll, Bool.and_eq_true, stringLeavesAll, memberNamesMembers, List.mem_cons, List.mem_append]
      at hn hs hm
    obtain ⟨text, htext, -, hlist⟩ :=
      denotes_toJson hn.1 (fun s h => hs s (.inl h)) (fun n h => hm n (.inl (.inr h))) siblings ix
    obtain ⟨texts, htexts, hlists⟩ := membersToJson_denotes hn.2 (fun s h => hs s (.inr h))
      (fun n h => hm n (.inr h)) (ix + 1) siblings (by simp only [List.length_cons] at hsiblings; omega)
    refine ⟨(quoted c.name.toList ++ ':' :: text) :: texts, .cons ⟨hm c.name (.inl (.inl rfl)), text, rfl, htext⟩ htexts, ?_⟩
    rw [childrenToJson, String.toList_append, hlist, hlists]
    cases cs with
    | nil =>
      cases htexts
      subst hsiblings
      simp [jsonComma_of_last, commaSeparated]
    | cons d ds =>
      cases htexts with
      | cons hd hds =>
        subst hsiblings
        simp only [List.length_cons]
        rw [jsonComma_of_sibling]
        simp [commaSeparated]

end

end CompoundValueNode

/-! ### The text of an attribute -/

section Attribute

variable (toString isodate2str : Double → String)

theorem JSON_PROP_toList (name : String) : (JSON_PROP name).toList = quoted name.toList ++ [':'] := by
  simp [JSON_PROP, quoted, String.toList_append]

theorem plain_of_decide {s : String} (h : s.toList.all fun c => 0x20 ≤ c.toNat && c ≠ '"' && c ≠ '\\') : PlainText s := by
  intro c hc
  have hall := List.all_eq_true.1 h c hc
  simp only [Bool.and_eq_true, decide_eq_true_eq] at hall
  exact ⟨hall.1.1, hall.1.2, hall.2⟩

/-- A text for each member: its name in quotes, a colon and the text of its value. -/
theorem denotesMember {name : String} {v : Json} {text : String} (hname : PlainText name) (h : Denotes text.toList v) :
    DenotesMember (JSON_PROP name ++ text).toList (name, v) :=
  ⟨hname, text.toList, by simp [JSON_PROP_toList, String.toList_append], h⟩

namespace Metadata

/-- The text of a value, as a member of the name `value`. -/
theorem value_denotes {md : Metadata} (hn : md.Numberless) (hs : md.valueType = .string → PlainText md.stringValue) :
    ∃ text : String, Denotes text.toList md.value ∧ md.valueMemberToJson toString = JSON_PROP "value" ++ text := by
  unfold value valueMemberToJson
  rcases hn with h | h | h
  · rw [h]
    exact ⟨_, denotes_JSON_STR (hs h), rfl⟩
  · rw [h]
    exact ⟨_, denotes_JSON_BOOL _, rfl⟩
  · rw [h]
    refine ⟨"null", denotes_null, ?_⟩
    show JSON_STR "value" ++ ":null" = JSON_PROP "value" ++ "null"
    decide

theorem denotes_toJson {md : Metadata} (hn : md.Numberless) (hplain : ∀ s ∈ md.texts, PlainText s) :
    ∃ text, DenotesMember text md.member ∧
      ∀ isLastElement, (md.toJson toString isLastElement).toList = text ++ if isLastElement then [] else [','] := by
  have hname : PlainText md.name := hplain _ (by simp [texts])
  have htype : PlainText md.type := hplain _ (by simp [texts])
  obtain ⟨valueText, hvalue, hrendered⟩ :=
    value_denotes toString hn fun h => hplain _ (by simp [texts, h])
  have htypeText : PlainText (if md.type ≠ "" then md.type else DEFAULT_TYPE) := by
    split
    · exact htype
    · exact plain_of_decide (by decide)
  have hobject := denotes_object (.cons (@denotesMember "type" _ _ (plain_of_decide (by decide))
    (denotes_JSON_STR htypeText)) (.cons (@denotesMember "value" _ _ (plain_of_decide (by decide)) hvalue) .nil))
  refine ⟨_, ⟨hname, _, rfl, hobject⟩, fun isLastElement => ?_⟩
  have hrenderedType : (if md.type ≠ "" then JSON_VALUE "type" md.type else JSON_VALUE "type" DEFAULT_TYPE) =
      JSON_PROP "type" ++ JSON_STR (if md.type ≠ "" then md.type else DEFAULT_TYPE) := by
    split <;> rfl
  rw [toJson, hrenderedType, hrendered]
  cases isLastElement <;> simp [commaSeparated, JSON_STR_toList, member]

end Metadata

/-- The metadata that are rendered, separated by commas: the first pass has counted those still to come. -/
theorem metadataPass_denotes {mds : List Metadata} (hn : ∀ md ∈ mds, md.Numberless)
    (hplain : ∀ md ∈ mds, ∀ s ∈ md.texts, PlainText s) (rendered : Nat) :
    ∃ texts, List.Forall₂ DenotesMember texts ((mds.filter metadataRendered).map Metadata.member) ∧
      (metadataPass toString (rendered + mds.countP metadataRendered) rendered mds).toList = commaSeparated texts := by
  induction mds generalizing rendered with
  | nil => exact ⟨[], .nil, rfl⟩
  | cons md mds ih =>
    have ih := ih (fun m hm => hn m (List.mem_cons_of_mem md hm)) (fun m hm => hplain m (List.mem_cons_of_mem md hm))
    by_cases hr : metadataRendered md
    · obtain ⟨text, htext, hlist⟩ := Metadata.denotes_toJson toString (hn md (List.mem_cons_self ..))
        (hplain md (List.mem_cons_self ..))
      obtain ⟨texts, htexts, hlists⟩ := ih (rendered + 1)
      refine ⟨text :: texts, ?_, ?_⟩
      · rw [List.filter_cons_of_pos hr, List.map_cons]
        exact .cons htext htexts
      · rw [List.countP_cons_of_pos hr, metadataPass, if_pos hr, String.toList_append, hlist]
        rw [show rendered + (mds.countP metadataRendered + 1) = rendered + 1 + mds.countP metadataRendered by omega,
          hlists]
        have hlength := htexts.length_eq
        rw [List.length_map, ← List.countP_eq_length_filter] at hlength
        cases texts with
        | nil =>
          rw [List.length_nil] at hlength
          rw [← hlength]
          simp [commaSeparated]
        | cons text' texts =>
          rw [List.length_cons] at hlength
          rw [if_neg (by rw [decide_eq_true_eq]; omega)]
          simp [commaSeparated]
    · obtain ⟨texts, htexts, hlists⟩ := ih rendered
      refine ⟨texts, ?_, ?_⟩
      · rw [List.filter_cons_of_neg hr]
        exact htexts
      · rw [List.countP_cons_of_neg hr, metadataPass, if_neg hr]
        exact hlists

theorem metadataVectorToJson_denotes {mds : List Metadata} (hn : ∀ md ∈ mds, md.Numberless)
    (hplain : ∀ md ∈ mds, ∀ s ∈ md.texts, PlainText s) :
    Denotes ("\x7b" ++ metadataVectorToJson toString true mds ++ "\x7d").toList
      (.object ((mds.filter metadataRendered).map Metadata.member)) := by
  obtain ⟨texts, htexts, hlist⟩ := metadataPass_denotes toString hn hplain 0
  have htext : (metadataVectorToJson toString true mds).toList = commaSeparated texts := by
    unfold metadataVectorToJson
    cases mds with
    | nil =>
      cases htexts
      rfl
    | cons md mds =>
      rw [Nat.zero_add] at hlist
      simpa using hlist
  have hobject := denotes_object htexts
  rw [← htext] at hobject
  simpa using hobject

/-- The text of the root of a tree, between the brackets that the caller adds. -/
theorem CompoundValueNode.rootToJson_denotes {t : CompoundValueNode} (hn : t.numberless = true)
    (hs : ∀ s ∈ t.stringLeaves, PlainText s) (hm : ∀ n ∈ t.memberNames, PlainText n) :
    (t.isObject = true → Denotes ("\x7b" ++ t.rootToJson toString ++ "\x7d").toList t.value) ∧
    (t.isVector = true → Denotes ("[" ++ t.rootToJson toString ++ "]").toList t.value) := by
  constructor
  · intro ht
    cases t with
    | object name path childV =>
      obtain ⟨texts, htexts, hlist⟩ := membersToJson_denotes toString hn hs hm 0 childV.length (by simp)
      have hobject := denotes_object htexts
      rw [← hlist] at hobject
      simpa [rootToJson, value] using hobject
    | _ => cases ht
  · intro ht
    cases t with
    | vector name childV =>
      obtain ⟨texts, htexts, hlist⟩ := itemsToJson_denotes toString hn hs hm 0 childV.length (by simp)
      have harray := denotes_array htexts
      rw [← hlist] at harray
      simpa [rootToJson, value] using harray
    | _ => cases ht

namespace ContextAttribute

variable {checkIdv1 : Bool} {api : ApiVersion} {requestType : RequestType} {ca : ContextAttribute}

/-- The text of the value, alone and as a member. -/
theorem value_denotes (hn : ca.Numberless) (hplain : ∀ s ∈ ca.valueTexts, PlainText s) :
    ∃ text : String, Denotes text.toList ca.jsonValue ∧ ca.valueToJson toString isodate2str = text ∧
      ca.valueMemberToJson toString isodate2str = JSON_PROP "value" ++ text := by
  refine ⟨ca.valueToJson toString isodate2str, ?_, rfl, ?_⟩
  · unfold jsonValue valueToJson
    unfold valueTexts at hplain
    cases ht : ca.compoundValueP with
    | some t =>
      rw [ht] at hplain
      obtain ⟨hroot, hnumberless⟩ := hn.compound t ht
      obtain ⟨hobject, hvector⟩ := CompoundValueNode.rootToJson_denotes toString hnumberless
        (fun s hs => hplain s (List.mem_append_left _ hs)) (fun n hn => hplain n (List.mem_append_right _ hn))
      by_cases ho : t.isObject = true
      · simp only [ho, if_true]
        exact hobject ho
      · have hv : t.isVector = true := hroot.resolve_right ho
        simp only [ho, hv, if_true]
        exact hvector hv
    | none =>
      rw [ht] at hplain
      rcases hn.plain ht with h | h | h
      · simp only [h, if_true] at hplain ⊢
        exact denotes_JSON_STR (hplain _ (List.mem_singleton.2 rfl))
      · simp only [h]
        exact denotes_JSON_BOOL _
      · simp only [h]
        exact denotes_null
  · have hobject : ":\x7b" = ":" ++ "\x7b" := by decide
    have hvector : ":[" = ":" ++ "[" := by decide
    have hprop : JSON_STR "value" ++ ":" = JSON_PROP "value" := by decide
    unfold valueMemberToJson valueToJson
    cases ht : ca.compoundValueP with
    | some t =>
      obtain ⟨hroot, -⟩ := hn.compound t ht
      by_cases ho : t.isObject = true
      · simp only [ho, if_true]
        rw [← hprop, hobject]
        simp only [String.append_assoc]
      · have hv : t.isVector = true := hroot.resolve_right ho
        simp only [ho, hv, if_true]
        rw [← hprop, hvector]
        simp only [String.append_assoc]
        rfl
    | none =>
      rcases hn.plain ht with h | h | h
      · simp only [h]
        rfl
      · simp only [h]
        rfl
      · simp only [h]
        rw [hprop]

theorem no_quote_of_forbiddenIdChars {s : String} (h : forbiddenIdChars checkIdv1 api s [] = false) :
    '"' ∉ s.toList := by
  intro hc
  exact absurd (not_commonForbidden_of_forbiddenIdChars h hc) (by decide)

theorem no_quote_of_forbiddenChars {s : String} (h : forbiddenChars s [] = false) : '"' ∉ s.toList := by
  intro hc
  have hall := (List.any_eq_false.1 h) '"' hc
  exact absurd hall (by decide)

theorem no_quote_of_clean {md : Metadata} (h : md.Clean checkIdv1 api) :
    ∀ s ∈ md.texts, '"' ∉ s.toList := by
  intro s hs
  simp only [Metadata.texts, List.mem_append, List.mem_cons, List.not_mem_nil, or_false] at hs
  rcases hs with (rfl | rfl) | hs
  · exact no_quote_of_forbiddenIdChars h.name
  · exact no_quote_of_forbiddenIdChars h.type
  · by_cases hstring : md.valueType = .string
    · rw [if_pos hstring, List.mem_singleton] at hs
      subst hs
      exact no_quote_of_forbiddenChars (h.value hstring)
    · rw [if_neg hstring] at hs
      cases hs

/-- A vector or an object without children has no leaves. -/
theorem stringLeaves_of_root {t : CompoundValueNode} (hroot : t.isVector = true ∨ t.isObject = true)
    (hchildless : t.hasChildren = false) : t.stringLeaves = [] := by
  match t with
  | .vector _ [] => rfl
  | .object _ _ [] => rfl
  | .vector _ (_ :: _) => cases hchildless
  | .object _ _ (_ :: _) => cases hchildless
  | .string _ _ => simp [CompoundValueNode.isVector, CompoundValueNode.isObject] at hroot
  | .number _ _ => rfl
  | .boolean _ _ => rfl
  | .none _ => rfl

/-- The texts of an accepted attribute need no escape if they have no backslash and no control character, and those
that the check does not look at no double quote. -/
theorem plain_texts (h : ca.check checkIdv1 api requestType = "OK") (hescape : ca.NeedsNoEscape requestType)
    (hn : ca.Numberless) : ∀ s ∈ ca.texts, PlainText s := by
  have hquote : ∀ s ∈ ca.texts, '"' ∉ s.toList := by
    obtain ⟨htype, hrest⟩ := cases_of_check h
    have hunchecked := hescape.unchecked
    intro s hs
    simp only [texts, List.mem_append, List.mem_cons, List.not_mem_nil, or_false] at hs
    rcases hs with ((rfl | rfl) | hs) | hs
    · exact no_quote_of_forbiddenIdChars (forbiddenIdChars_of_check h)
    · by_cases hr : requestType = .entityAttributeValueRequest
      · exact hunchecked _ (by simp [uncheckedTexts, hr])
      · exact no_quote_of_forbiddenIdChars (htype hr)
    · unfold valueTexts at hs
      unfold uncheckedTexts at hunchecked
      cases ht : ca.compoundValueP with
      | some t =>
        rw [ht] at hs hunchecked
        rcases List.mem_append.1 hs with hs | hs
        · rcases hrest with ⟨t', ht', -, hcheck⟩ | ⟨hchildless, -, -⟩
          · rw [ht] at ht'
            cases ht'
            exact no_quote_of_forbiddenChars (CompoundValueNode.stringLeaves_of_check hcheck s hs)
          · rw [stringLeaves_of_root (hn.compound t ht).1 (hchildless t ht)] at hs
            cases hs
        · exact hunchecked s (List.mem_append_right _ (List.mem_append_left _ hs))
      | none =>
        rw [ht] at hs
        rcases hrest with ⟨t', ht', -, -⟩ | ⟨-, hvalue, -⟩
        · rw [ht] at ht'
          cases ht'
        · by_cases hstring : ca.valueType = .string
          · rw [if_pos hstring, List.mem_singleton] at hs
            subst hs
            exact no_quote_of_forbiddenChars (hvalue hstring)
          · rw [if_neg hstring] at hs
            cases hs
    · obtain ⟨md, hmd, hs⟩ := List.mem_flatMap.1 hs
      rcases hrest with ⟨t, ht, hchildren, -⟩ | ⟨-, -, hmetadata⟩
      · have hmem : s ∈ ca.metadataVector.flatMap Metadata.texts := List.mem_flatMap_of_mem hmd hs
        exact hunchecked s (by simp only [uncheckedTexts, ht, hchildren, if_true, List.mem_append]; exact .inr (.inr hmem))
      · exact no_quote_of_clean (clean_of_metadataVectorCheck hmetadata md hmd) s hs
  intro s hs c hc
  obtain ⟨hbackslash, hcontrol⟩ := hescape.texts s hs c hc
  exact ⟨hcontrol, fun hq => hquote s hs (hq ▸ hc), hbackslash⟩

/-- The normalized text of an attribute whose texts need no escape. -/
theorem parse_normalized (hn : ca.Numberless) (hplain : ∀ s ∈ ca.texts, PlainText s) (attributeResponse : Bool) :
    parse ("\x7b" ++ ca.toJson toString isodate2str true .NGSI_V2_NORMALIZED attributeResponse ++ "\x7d") =
      some (if attributeResponse then ca.normalized else .object [(ca.name, ca.normalized)]) := by
  have hname : PlainText ca.name := hplain _ (by simp [texts])
  have htype : PlainText (if ca.type ≠ "" then ca.type else DEFAULT_TYPE) := by
    split
    · exact hplain _ (by simp [texts])
    · exact plain_of_decide (by decide)
  obtain ⟨text, hvalue, -, hmemberText⟩ := value_denotes toString isodate2str hn
    fun s hs => hplain s (by simp [texts, hs])
  have hmetadata := metadataVectorToJson_denotes toString hn.metadata
    fun md hmd s hs => hplain s (List.mem_append_right _ (List.mem_flatMap_of_mem hmd hs))
  -- the three members, and the object they make up
  have hnormalized : Denotes _ ca.normalized := denotes_object
    (.cons (denotesMember (plain_of_decide (by decide)) (denotes_JSON_STR htype))
      (.cons (denotesMember (plain_of_decide (by decide)) hvalue)
        (.cons (denotesMember (plain_of_decide (by decide)) hmetadata) .nil)))
  have hrenderedType : (if ca.type ≠ "" then JSON_VALUE "type" ca.type else JSON_VALUE "type" DEFAULT_TYPE) =
      JSON_PROP "type" ++ JSON_STR (if ca.type ≠ "" then ca.type else DEFAULT_TYPE) := by
    split <;> rfl
  refine parse_of_denotes ?_
  unfold toJson
  rw [if_neg (by decide), hrenderedType, hmemberText]
  cases attributeResponse with
  | true =>
    show Denotes _ ca.normalized
    convert hnormalized using 1
    simp [commaSeparated, JSON_PROP_toList, JSON_STR_toList]
  | false =>
    show Denotes _ (.object [(ca.name, ca.normalized)])
    convert denotes_object (.cons (@denotesMember ca.name _ (String.ofList _) hname (by rwa [String.toList_ofList]))
      .nil) using 1
    simp [commaSeparated, JSON_PROP_toList, JSON_STR_toList]

/-- The text of keys and values of an attribute whose texts need no escape. -/
theorem parse_keyValues (hn : ca.Numberless) (hplain : ∀ s ∈ ca.texts, PlainText s) (attributeResponse : Bool) :
    parse ("\x7b" ++ ca.toJson toString isodate2str true .NGSI_V2_KEYVALUES attributeResponse ++ "\x7d") =
      some (.object [(ca.name, ca.jsonValue)]) := by
  have hname : PlainText ca.name := hplain _ (by simp [texts])
  obtain ⟨text, hvalue, hvalueText, -⟩ := value_denotes toString isodate2str hn
    fun s hs => hplain s (by simp [texts, hs])
  refine parse_of_denotes ?_
  unfold toJson
  rw [if_pos (by decide), hvalueText]
  convert denotes_object (.cons (denotesMember hname hvalue) .nil) using 1
  simp [commaSeparated, JSON_PROP_toList, JSON_STR_toList]

/-- The text of an accepted attribute denotes it, in the normalized format and in that of keys and values, if its texts
need no escape. -/
theorem toJson_denotes (h : ca.check checkIdv1 api requestType = "OK") (hn : ca.Numberless)
    (hescape : ca.NeedsNoEscape requestType) (attributeResponse : Bool) :
    parse ("\x7b" ++ ca.toJson toString isodate2str true .NGSI_V2_NORMALIZED attributeResponse ++ "\x7d") =
      some (if attributeResponse then ca.normalized else .object [(ca.name, ca.normalized)]) ∧
    parse ("\x7b" ++ ca.toJson toString isodate2str true .NGSI_V2_KEYVALUES attributeResponse ++ "\x7d") =
      some (.object [(ca.name, ca.jsonValue)]) := by
  have hplain := plain_texts h hescape hn
  exact ⟨parse_normalized toString isodate2str hn hplain attributeResponse,
    parse_keyValues toString isodate2str hn hplain attributeResponse⟩

end ContextAttribute

end Attribute

namespace ContextAttribute

/-- A compound value with an array in an object, and a metadata. -/
theorem toJson_denotes_compound :
    let ca : ContextAttribute := { name := "A", type := "T", valueType := .object,
                                   compoundValueP := some (.object "TOP" "/" [.vector "xs" [.string "Unset" "x"]]) }
    parse ("\x7b" ++ ca.toJson (fun _ => "") (fun _ => "") true .NGSI_V2_KEYVALUES false ++ "\x7d") =
      some (.object [("A", .object [("xs", .array [.string "x"])])]) := by
  intro ca
  have hn : ca.Numberless := by
    refine ⟨?_, fun h => absurd h (by simp [ca]), fun md hmd => absurd hmd (List.not_mem_nil)⟩
    intro t ht
    cases ht
    exact ⟨.inr rfl, rfl⟩
  have hescape : ca.NeedsNoEscape .other := by
    have htexts : ca.texts.all fun s => s.toList.all fun c => c ≠ '\\' && 0x20 ≤ c.toNat := by decide
    have hunchecked : (ca.uncheckedTexts .other).all fun s => '"' ∉ s.toList := by decide
    refine ⟨fun s hs c hc => ?_, fun s hs => by simpa using List.all_eq_true.1 hunchecked s hs⟩
    simpa using List.all_eq_true.1 (List.all_eq_true.1 htexts s hs) c hc
  exact (toJson_denotes (fun _ => "") (fun _ => "") (by decide : ca.check false .v2 .other = "OK") hn hescape false).2

/-- A metadata as a member with its type as it is. -/
def memberAsItIs (md : Metadata) : String × Json :=
  (md.name, .object [("type", .string md.type), ("value", md.value)])

/-- The attribute with its type as it is and with all its metadata. -/
def asItIs (ca : ContextAttribute) : Json :=
  .object [("type", .string ca.type), ("value", ca.jsonValue), ("metadata", .object (ca.metadataVector.map memberAsItIs))]

/-- An attribute of the first version of the API may have no type, and is then written with the type `none`; its
metadata of the name `type` is not written. -/
theorem type_written_as_none :
    ¬∀ (ca : ContextAttribute) (checkIdv1 : Bool) (api : ApiVersion) (requestType : RequestType),
      ca.check checkIdv1 api requestType = "OK" → ca.Numberless →
        parse ("\x7b" ++ ca.toJson (fun _ => "") (fun _ => "") true .NGSI_V2_NORMALIZED false ++ "\x7d") =
          some (.object [(ca.name, ca.asItIs)]) ∧
        parse ("\x7b" ++ ca.toJson (fun _ => "") (fun _ => "") true .NGSI_V2_KEYVALUES false ++ "\x7d") =
          some (.object [(ca.name, ca.jsonValue)]) := by
  intro hall
  let ca : ContextAttribute := { name := "A", type := "", stringValue := "x",
                                 metadataVector := [{ name := "type", type := "t", stringValue := "y" }] }
  have hn : ca.Numberless := by
    refine ⟨fun t ht => absurd ht (by simp [ca]), fun _ => .inl rfl, ?_⟩
    intro md hmd
    cases List.mem_singleton.1 hmd
    exact .inl rfl
  have hplain : ∀ s ∈ ca.texts, PlainText s := by
    intro s hs
    have hall : ca.texts.all fun s => s.toList.all fun c => 0x20 ≤ c.toNat && c ≠ '"' && c ≠ '\\' := by decide
    exact plain_of_decide (List.all_eq_true.1 hall s hs)
  have htext := parse_normalized (fun _ => "") (fun _ => "") hn hplain false
  rw [(hall ca false .v1 .other (by decide) hn).1] at htext
  simp only [asItIs, normalized, ca, Bool.false_eq_true, if_false, Option.some.injEq, Json.object.injEq,
    List.cons.injEq, Prod.mk.injEq, Json.string.injEq, true_and, and_true] at htext
  exact absurd htext.1 (by decide)

end ContextAttribute

end OrionBroker
