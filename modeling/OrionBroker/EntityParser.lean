import OrionBroker.AttributeParser
import OrionBroker.EntityRender
import OrionBroker.NotifiedAttribute

/-!
# Entities of version 2 (`parseEntity.cpp`)

The payload of a request is an entity with its identity, or without it if the URL has it.  Each member that is not part
of the identity is an attribute (`parseContextAttribute`).

The members of a rendered attribute are read as the attribute itself unless one of its types is empty, one of its metadata
is not rendered, or it has the type of dates and a value that is not the text that was rendered (`reread_attribute_iff`).
-/

namespace OrionBroker.EntityParser

open Bson JsonText AttributeParser ContextAttributeVector

/-- The attribute of an entity, with the fields that have been read. -/
def named (name : String) (caP : Attribute) : ContextAttribute where
  name := name
  type := caP.type
  metadataVector := caP.metadataVector
  valueType := caP.valueType
  stringValue := caP.stringValue
  numberValue := caP.numberValue
  boolValue := caP.boolValue
  compoundValueP := caP.compoundValueP.map PlacedNode.plain
  typeGiven := caP.typeGiven

abbrev ERROR_STRING_PARSERROR : String := "ParseError"

section Parser

variable (getDouble : Int → Double) (parse8601Time : String → Int)

/-- The attribute is its value alone. -/
def parseKeyValue (v : Json) (caP : Attribute) : Option Attribute :=
  match v with
  | .string s => some { caP with type := "", stringValue := cString s, valueType := .string }
  | .int n => some { caP with type := "", numberValue := getDouble n, valueType := .number }
  | .double d => some { caP with type := "", numberValue := d, valueType := .number }
  | .bool b => some { caP with type := "", boolValue := b, valueType := .boolean }
  | .null => some { caP with type := "", valueType := .none }
  | .array _ => parseContextAttributeCompoundValue getDouble v { caP with valueType := .object }
  | .object _ =>
    (parseContextAttributeCompoundValue getDouble v caP).map fun caP => { caP with valueType := .object }

/-- What is asked of the attribute at the end. -/
def finishAttribute (name : String) (caP : Attribute) : Except String ContextAttribute :=
  if name = "" then .error "no 'name' for ContextAttribute"
  else .ok (named name (if caP.typeGiven then caP else { caP with type := DEFAULT_TYPE }))

/-- A member of an entity as an attribute. -/
def parseContextAttribute (keyValues : Bool) (apiVersion : ApiVersion) (name : String) (v : Json) :
    Option (Except String ContextAttribute) :=
  (if keyValues then (parseKeyValue getDouble v {}).map .ok
    else
      match v with
      | .object members =>
        if (v.member "value").isSome ∨ apiVersion = .v2 then parseContextAttributeObject getDouble parse8601Time members {}
        else some (.error "no 'value' for ContextAttribute without keyValues")
      | _ => some (.error "attribute must be a JSON object, unless keyValues option is used")).map
    fun parsed => parsed >>= finishAttribute name

/-- The loop over the members of the payload, with the entity so far and whether its type has been given. -/
def parseEntityMembers (eidInURL keyValues : Bool) (eP : Entity) (typeGiven : Bool) :
    List (String × Json) → Option (Except String (Entity × Bool))
  | [] => some (.ok (eP, typeGiven))
  | (name, v) :: members =>
    if cString name = "id" then
      if eidInURL then some (.error "invalid input, 'id' as attribute")
      else
        match v with
        | .string s => parseEntityMembers eidInURL keyValues { eP with id := cString s } typeGiven members
        | _ => some (.error "invalid JSON type for entity id")
    else if cString name = "type" then
      match v with
      | .string s => parseEntityMembers eidInURL keyValues { eP with type := cString s } true members
      | _ => some (.error "invalid JSON type for entity type")
    else
      match parseContextAttribute getDouble parse8601Time keyValues .v2 (cString name) v with
      | none => none
      | some (.error r) => some (.error r)
      | some (.ok caP) =>
        parseEntityMembers eidInURL keyValues { eP with attributeVector := eP.attributeVector ++ [caP] } typeGiven members

/-- The tests behind the loop. -/
def finishEntity (eidInURL : Bool) (members : List (String × Json)) (eP : Entity) (typeGiven : Bool) :
    Except ErrorCode Entity :=
  if members = [] then .error { error := "BadRequest", description := "empty payload" }
  else if eidInURL = false ∧ eP.id = "" then .error { error := "BadRequest", description := "empty entity id" }
  else .ok (if typeGiven then eP else { eP with type := DEFAULT_TYPE })

/-- The payload is given up to its terminator.  No result: the NULL pointer is dereferenced; an error: it is rendered, with
the status of a bad request. -/
def parseEntity (eidInURL keyValues : Bool) (payload : String) : Option (Except ErrorCode Entity) :=
  match parse payload with
  | none =>
    some (.error { error := ERROR_STRING_PARSERROR, description := "Errors found in incoming JSON buffer" })
  | some (.object members) =>
    if eidInURL = false ∧ (Json.object members).member "id" = none then
      some (.error { error := "BadRequest", description := "no entity id specified" })
    else if eidInURL = true ∧ (Json.object members).member "id" ≠ none then
      some (.error { error := "BadRequest", description := "entity id specified in payload" })
    else if eidInURL = true ∧ (Json.object members).member "type" ≠ none then
      some (.error { error := "BadRequest", description := "entity type specified in payload" })
    else
      (parseEntityMembers getDouble parse8601Time eidInURL keyValues { id := "" } false members).map fun
        | .error r => .error { error := "BadRequest", description := r }
        | .ok (eP, typeGiven) => finishEntity eidInURL members eP typeGiven
  | some _ =>
    some (.error { error := ERROR_STRING_PARSERROR, description := "Error parsing incoming JSON buffer" })

end Parser

/-! ### What is read of an attribute -/

section Reread

variable (getDouble : Int → Double)

theorem cString_of_plain {s : String} (h : PlainText s) : cString s = s := by
  rw [cString_eq_self_iff]
  intro hzero
  have hcontrol := (h _ hzero).1
  revert hcontrol
  decide

mutual

theorem bson_value {t : CompoundValueNode} (hs : ∀ s ∈ t.stringLeaves, PlainText s)
    (hm : ∀ n ∈ t.memberNames, PlainText n) : bson getDouble (cut t.value) = t.denote := by
  match t with
  | .string name s =>
    have hplain : PlainText s := hs s (by simp [CompoundValueNode.stringLeaves])
    simp [CompoundValueNode.value, cut, bson, CompoundValueNode.denote, cString_of_plain hplain]
  | .number name d => rfl
  | .boolean name b => rfl
  | .none name => rfl
  | .vector name childV =>
    have hitems := bsonItems_value hs hm
    simp [CompoundValueNode.value, cut, bson, CompoundValueNode.denote, hitems]
  | .object name path childV =>
    have hmembers := bsonMembers_value hs hm
    simp [CompoundValueNode.value, cut, bson, CompoundValueNode.denote, hmembers]

theorem bsonItems_value {ts : List CompoundValueNode} (hs : ∀ s ∈ CompoundValueNode.stringLeavesAll ts, PlainText s)
    (hm : ∀ n ∈ CompoundValueNode.memberNamesItems ts, PlainText n) :
    bsonItems getDouble (cutItems (CompoundValueNode.itemValues ts)) = CompoundValueNode.denoteItems ts := by
  match ts with
  | [] => rfl
  | c :: cs =>
    simp only [CompoundValueNode.stringLeavesAll, CompoundValueNode.memberNamesItems, List.mem_append] at hs hm
    have hfirst := bson_value (t := c) (fun s h => hs s (.inl h)) fun n h => hm n (.inl h)
    have hrest := @bsonItems_value cs (fun s h => hs s (.inr h)) fun n h => hm n (.inr h)
    simp [CompoundValueNode.itemValues, cutItems, bsonItems, CompoundValueNode.denoteItems, hfirst, hrest]

theorem bsonMembers_value {ts : List CompoundValueNode} (hs : ∀ s ∈ CompoundValueNode.stringLeavesAll ts, PlainText s)
    (hm : ∀ n ∈ CompoundValueNode.memberNamesMembers ts, PlainText n) :
    bsonMembers getDouble (cutMembers (CompoundValueNode.memberValues ts)) = CompoundValueNode.denoteMembers ts := by
  match ts with
  | [] => rfl
  | c :: cs =>
    simp only [CompoundValueNode.stringLeavesAll, CompoundValueNode.memberNamesMembers, List.mem_cons, List.mem_append]
      at hs hm
    have hname : PlainText c.name := hm c.name (.inl (.inl rfl))
    have hfirst := bson_value (t := c) (fun s h => hs s (.inl h)) fun n h => hm n (.inl (.inr h))
    have hrest := @bsonMembers_value cs (fun s h => hs s (.inr h)) fun n h => hm n (.inr h)
    simp [CompoundValueNode.memberValues, cutMembers, bsonMembers, CompoundValueNode.denoteMembers, hfirst, hrest,
      cString_of_plain hname]

end

/-- The type as it is rendered. -/
def renderedType (type : String) : String := if type ≠ "" then type else DEFAULT_TYPE

theorem renderedType_eq_iff (type : String) : renderedType type = type ↔ type ≠ "" := by
  unfold renderedType
  by_cases h : type = ""
  · rw [if_neg (not_not_intro h), h]
    decide
  · rw [if_pos h]
    exact iff_of_true rfl h

theorem cString_renderedType {type : String} (h : PlainText type) : cString (renderedType type) = renderedType type := by
  unfold renderedType
  split
  · exact cString_of_plain h
  · decide

/-- A metadata that is read of a rendered one. -/
def readMetadata (md : Metadata) : Metadata where
  name := md.name
  type := renderedType md.type
  valueType := compoundType md.value
  stringValue := md.value.text
  boolValue := md.valueType = .boolean ∧ md.boolValue
  typeGiven := true

theorem parseMetadata_member {md : Metadata} (hn : md.Numberless) (hplain : ∀ s ∈ md.texts, PlainText s) :
    parseMetadata getDouble (cString md.member.1) md.member.2 = .ok (readMetadata md) := by
  have hname : cString md.name = md.name := cString_of_plain (hplain _ (by simp [Metadata.texts]))
  have htype : cString (renderedType md.type) = renderedType md.type :=
    cString_renderedType (hplain _ (by simp [Metadata.texts]))
  have hmembers : parseMetadataMembers getDouble { name := md.name, type := "" }
      [("type", .string (renderedType md.type)), ("value", md.value)] = .ok (readMetadata md) := by
    have hnames : cString "type" = "type" ∧ cString "value" = "value" := by decide
    rcases hn with h | h | h
    · have hvalue : md.value = .string md.stringValue := by simp [Metadata.value, h]
      have hstring : cString md.stringValue = md.stringValue := cString_of_plain (hplain _ (by simp [Metadata.texts, h]))
      simp [parseMetadataMembers, readMetadata, hnames, htype, hvalue, hstring, h, compoundType, Json.text]
    · have hvalue : md.value = .bool md.boolValue := by simp [Metadata.value, h]
      simp [parseMetadataMembers, readMetadata, hnames, htype, hvalue, h, compoundType, Json.text]
    · have hvalue : md.value = .null := by simp [Metadata.value, h]
      simp [parseMetadataMembers, readMetadata, hnames, htype, hvalue, h, compoundType, Json.text]
  have hobject : md.member.2 = .object [("type", .string (renderedType md.type)), ("value", md.value)] := rfl
  rw [hobject, parseMetadata]
  show (do
    let mP ← parseMetadataMembers getDouble { name := cString md.name, type := "" } _
    pure (if mP.typeGiven = true then mP else { mP with type := DEFAULT_TYPE })) = _
  rw [hname, hmembers]
  rfl

theorem view_readMetadata {md : Metadata} (hn : md.Numberless) :
    (readMetadata md).view = (md.name, renderedType md.type, md.valueBson) := by
  rcases hn with h | h | h <;>
    simp [readMetadata, Metadata.view, Metadata.valueBson, Metadata.value, h, compoundType, Json.text]

theorem parseMetadataVector_members {mds : List Metadata} (hn : ∀ md ∈ mds, md.Numberless)
    (hplain : ∀ md ∈ mds, ∀ s ∈ md.texts, PlainText s) :
    parseMetadataVector getDouble (.object (mds.map Metadata.member)) = .ok (mds.map readMetadata) := by
  unfold parseMetadataVector
  induction mds with
  | nil => rfl
  | cons md mds ih =>
    have hfirst := parseMetadata_member getDouble (hn md List.mem_cons_self) (hplain md List.mem_cons_self)
    have hrest := ih (fun m hm => hn m (List.mem_cons_of_mem md hm)) fun m hm => hplain m (List.mem_cons_of_mem md hm)
    simp only [List.map_cons, List.mapM_cons, hfirst] at hrest ⊢
    rw [hrest]
    rfl

/-- An attribute that is read of a rendered one, but for the end of the function. -/
def readAttribute (ca : ContextAttribute) : Attribute where
  type := renderedType ca.type
  typeGiven := true
  valueType := compoundType ca.jsonValue
  stringValue := ca.jsonValue.text
  boolValue := match ca.jsonValue with
    | .bool b => b
    | _ => false
  metadataVector := (ca.metadataVector.filter metadataRendered).map readMetadata
  compoundValueP := if isCompound ca.jsonValue then some (builtTree getDouble ca.jsonValue) else none

/-- The value of an attribute without numbers. -/
theorem jsonValue_cases {ca : ContextAttribute} (hn : ca.Numberless) :
    (ca.compoundValueP = none ∧ ca.valueType = .string ∧ ca.jsonValue = .string ca.stringValue) ∨
    (ca.compoundValueP = none ∧ ca.valueType = .boolean ∧ ca.jsonValue = .bool ca.boolValue) ∨
    (ca.compoundValueP = none ∧ ca.valueType = .none ∧ ca.jsonValue = .null) ∨
    ∃ t, ca.compoundValueP = some t ∧ ca.jsonValue = t.value ∧ isCompound t.value = true := by
  unfold ContextAttribute.jsonValue
  cases ht : ca.compoundValueP with
  | none =>
    rcases hn.plain ht with h | h | h
    · exact Or.inl ⟨rfl, h, by rw [h]⟩
    · exact Or.inr (Or.inl ⟨rfl, h, by rw [h]⟩)
    · exact Or.inr (Or.inr (Or.inl ⟨rfl, h, by rw [h]⟩))
  | some t =>
    refine Or.inr (Or.inr (Or.inr ⟨t, rfl, rfl, ?_⟩))
    obtain ⟨hroot, -⟩ := hn.compound t ht
    cases t with
    | vector name childV => rfl
    | object name path childV => rfl
    | _ => rcases hroot with h | h <;> cases h

theorem parseValue_jsonValue {ca : ContextAttribute} (hn : ca.Numberless) (hplain : ∀ s ∈ ca.valueTexts, PlainText s) :
    parseValue getDouble ca.jsonValue { type := renderedType ca.type, typeGiven := true, valueType := .none } =
      some { readAttribute getDouble ca with metadataVector := [] } := by
  rcases jsonValue_cases hn with ⟨hnone, hkind, hvalue⟩ | ⟨-, -, hvalue⟩ | ⟨-, -, hvalue⟩ | ⟨t, -, hvalue, ht⟩
  · have hstring : cString ca.stringValue = ca.stringValue :=
      cString_of_plain (hplain _ (by simp [ContextAttribute.valueTexts, hnone, hkind]))
    simp [readAttribute, parseValue, hvalue, hstring, compoundType, isCompound, Json.text]
  · simp [readAttribute, parseValue, hvalue, compoundType, isCompound, Json.text]
  · simp [readAttribute, parseValue, hvalue, compoundType, isCompound, Json.text]
  · unfold readAttribute
    rw [hvalue]
    generalize t.value = v at ht
    cases v with
    | array items =>
      rw [parseValue, parseContextAttributeCompoundValue_first getDouble rfl]
      rfl
    | object members =>
      rw [parseValue, parseContextAttributeCompoundValue_first getDouble rfl]
      rfl
    | _ => cases ht

/-- The members of a rendered attribute. -/
def normalizedMembers (ca : ContextAttribute) : List (String × Json) :=
  [("type", .string (renderedType ca.type)), ("value", ca.jsonValue),
    ("metadata", .object ((ca.metadataVector.filter metadataRendered).map Metadata.member))]

theorem parseAttributeMembers_normalized {ca : ContextAttribute} (hn : ca.Numberless)
    (hplain : ∀ s ∈ ca.texts, PlainText s) :
    parseAttributeMembers getDouble { ({} : Attribute) with valueType := .none } (normalizedMembers ca) =
      some (.ok (readAttribute getDouble ca)) := by
  have htype : cString (renderedType ca.type) = renderedType ca.type :=
    cString_renderedType (hplain _ (by simp [ContextAttribute.texts]))
  have hvalue := parseValue_jsonValue getDouble hn fun s hs => hplain s (by simp [ContextAttribute.texts, hs])
  have hmetadata := @parseMetadataVector_members getDouble (ca.metadataVector.filter metadataRendered)
    (fun md hmd => hn.metadata md (List.mem_of_mem_filter hmd))
    fun md hmd s hs => hplain s (List.mem_append_right _ (List.mem_flatMap_of_mem (List.mem_of_mem_filter hmd) hs))
  have hnames : cString "type" = "type" ∧ cString "value" = "value" ∧ cString "metadata" = "metadata" := by decide
  have hfirst : parseMember getDouble { ({} : Attribute) with valueType := .none } "type" (.string (renderedType ca.type)) =
      some (.ok { type := renderedType ca.type, typeGiven := true, valueType := .none }) := by
    simp [parseMember, htype]
  have hsecond : parseMember getDouble { type := renderedType ca.type, typeGiven := true, valueType := .none } "value"
      ca.jsonValue = some (.ok { readAttribute getDouble ca with metadataVector := [] }) := by
    simp [parseMember, hvalue]
  have hthird : parseMember getDouble { readAttribute getDouble ca with metadataVector := [] } "metadata"
      (.object ((ca.metadataVector.filter metadataRendered).map Metadata.member)) =
        some (.ok (readAttribute getDouble ca)) := by
    unfold parseMember
    rw [if_neg (by decide), if_neg (by decide), if_pos rfl, hmetadata]
    rfl
  unfold normalizedMembers
  rw [parseAttributeMembers, hnames.1, hfirst]
  dsimp only
  rw [parseAttributeMembers, hnames.2.1, hsecond]
  dsimp only
  rw [parseAttributeMembers, hnames.2.2, hthird]
  rfl

/-- The value that is read is the one that was rendered. -/
theorem json_readAttribute {ca : ContextAttribute} (hn : ca.Numberless) (hplain : ∀ s ∈ ca.valueTexts, PlainText s)
    (name : String) : (named name (readAttribute getDouble ca)).json = ca.json := by
  rcases jsonValue_cases hn with ⟨hnone, hkind, hvalue⟩ | ⟨hnone, hkind, hvalue⟩ | ⟨hnone, hkind, hvalue⟩ |
    ⟨t, hsome, hvalue, ht⟩
  · simp [ContextAttribute.json, named, readAttribute, hvalue, hnone, hkind, isCompound, compoundType, Json.text,
      ContextAttribute.bsonAppendAttrValue]
  · simp [ContextAttribute.json, named, readAttribute, hvalue, hnone, hkind, isCompound, compoundType,
      ContextAttribute.bsonAppendAttrValue]
  · simp [ContextAttribute.json, named, readAttribute, hvalue, hnone, hkind, isCompound, compoundType,
      ContextAttribute.bsonAppendAttrValue]
  · have htexts : ca.valueTexts = t.stringLeaves ++ t.memberNames := by simp [ContextAttribute.valueTexts, hsome]
    rw [htexts] at hplain
    have hbson := bson_value getDouble (fun s hs => hplain s (List.mem_append_left _ hs))
      fun n hn => hplain n (List.mem_append_right _ hn)
    simp [ContextAttribute.json, named, readAttribute, hvalue, hsome, ht, builtTree_denote getDouble ht, hbson]

/-! ### The attributes that come back -/

/-- A number whose text is written instead of it. -/
def IsDate (ca : ContextAttribute) : Prop :=
  ca.compoundValueP = none ∧ ca.valueType = .number ∧ ca.type = OrionBroker.DATE_TYPE

instance (ca : ContextAttribute) : Decidable (IsDate ca) :=
  inferInstanceAs (Decidable (ca.compoundValueP = none ∧ ca.valueType = .number ∧ ca.type = OrionBroker.DATE_TYPE))

variable (isodate2str : Double → String) (parse8601Time : String → Int)

/-- The attribute with the value that is written. -/
def written (ca : ContextAttribute) : ContextAttribute :=
  if IsDate ca then { ca with valueType := .string, stringValue := isodate2str ca.numberValue } else ca

/-- The same name, type, value and metadata. -/
structure SameFields (ca a : ContextAttribute) : Prop where
  name : a.name = ca.name
  type : a.type = ca.type
  value : a.json = ca.json
  metadata : a.metadataVector.map Metadata.view = ca.metadataVector.map Metadata.view

/-- No type is empty, no metadata is left out, and the value of an attribute of the type of dates is one whose text is
read as it. -/
structure Rereadable (ca : ContextAttribute) : Prop where
  named : ca.name ≠ ""
  typed : ca.type ≠ ""
  metadata : ∀ md ∈ ca.metadataVector, metadataRendered md = true ∧ md.type ≠ ""
  date : ca.type = OrionBroker.DATE_TYPE → IsDate ca ∧ parse8601Time (isodate2str ca.numberValue) ≠ -1 ∧
    getDouble (parse8601Time (isodate2str ca.numberValue)) = ca.numberValue

theorem written_fields (ca : ContextAttribute) : (written isodate2str ca).name = ca.name ∧
    (written isodate2str ca).type = ca.type ∧ (written isodate2str ca).metadataVector = ca.metadataVector ∧
    (written isodate2str ca).compoundValueP = ca.compoundValueP := by
  unfold written
  split
  · exact ⟨rfl, rfl, rfl, rfl⟩
  · exact ⟨rfl, rfl, rfl, rfl⟩

theorem toJson_written (toString : Double → String) (isLastElement : Bool) (renderFormat : RenderFormat)
    (attributeResponse : Bool) (ca : ContextAttribute) :
    (written isodate2str ca).toJson toString isodate2str isLastElement renderFormat attributeResponse =
      ca.toJson toString isodate2str isLastElement renderFormat attributeResponse := by
  unfold written
  split
  · rename_i h
    obtain ⟨hnone, hnumber, htype⟩ := h
    have hvalue : ContextAttribute.valueToJson toString isodate2str
        { ca with valueType := .string, stringValue := isodate2str ca.numberValue } = ca.valueToJson toString isodate2str := by
      simp [ContextAttribute.valueToJson, hnone, hnumber, htype]
    have hmember : ContextAttribute.valueMemberToJson toString isodate2str
        { ca with valueType := .string, stringValue := isodate2str ca.numberValue } =
          ca.valueMemberToJson toString isodate2str := by
      simp [ContextAttribute.valueMemberToJson, hnone, hnumber, htype]
    unfold ContextAttribute.toJson
    rw [hvalue, hmember]
  · rfl

/-- The metadata that are read are those that were rendered. -/
theorem views_readAttribute_iff {mds : List Metadata} (hn : ∀ md ∈ mds, md.Numberless) :
    ((mds.filter metadataRendered).map readMetadata).map Metadata.view = mds.map Metadata.view ↔
      ∀ md ∈ mds, metadataRendered md = true ∧ md.type ≠ "" := by
  constructor
  · intro h
    have hlength := congrArg List.length h
    simp only [List.length_map] at hlength
    have hall : mds.filter metadataRendered = mds := List.filter_sublist.eq_of_length hlength
    have hrendered := List.filter_eq_self.1 hall
    rw [hall, List.map_map] at h
    intro md hmd
    have hview : (readMetadata md).view = md.view := List.map_inj_left.1 h md hmd
    rw [view_readMetadata (hn md hmd), Metadata.view, Prod.mk.injEq, Prod.mk.injEq] at hview
    exact ⟨hrendered md hmd, (renderedType_eq_iff md.type).1 hview.2.1⟩
  · intro h
    have hall : mds.filter metadataRendered = mds := List.filter_eq_self.2 fun md hmd => (h md hmd).1
    rw [hall, List.map_map]
    refine List.map_inj_left.2 fun md hmd => ?_
    have htype : renderedType md.type = md.type := (renderedType_eq_iff md.type).2 (h md hmd).2
    rw [Function.comp_apply, view_readMetadata (hn md hmd), htype, Metadata.view]

/-- What is read of a rendered attribute. -/
theorem parseContextAttribute_normalized {ca : ContextAttribute} (hn : ca.Numberless) (hplain : ∀ s ∈ ca.texts, PlainText s) :
    parseContextAttribute getDouble parse8601Time false .v2 ca.name (.object (normalizedMembers ca)) =
      some (parseDate getDouble parse8601Time (readAttribute getDouble ca) >>= finishAttribute ca.name) := by
  unfold parseContextAttribute
  rw [if_neg (by decide)]
  dsimp only
  rw [if_pos (Or.inr rfl), parseContextAttributeObject, parseAttributeMembers_normalized getDouble hn hplain]
  rfl

theorem finishAttribute_given {name : String} {caP : Attribute} (h : caP.typeGiven = true) :
    finishAttribute name caP = if name = "" then .error "no 'name' for ContextAttribute" else .ok (named name caP) := by
  unfold finishAttribute
  rw [if_pos h]

theorem exists_finished_iff {ca : ContextAttribute} {caP : Attribute} (h : caP.typeGiven = true) :
    (∃ a, some (Except.ok caP >>= finishAttribute ca.name) = some (Except.ok a) ∧ SameFields ca a) ↔
      ca.name ≠ "" ∧ SameFields ca (named ca.name caP) := by
  have hfinish : (Except.ok caP >>= finishAttribute ca.name) = finishAttribute ca.name caP := rfl
  rw [hfinish, finishAttribute_given h]
  by_cases hname : ca.name = ""
  · rw [if_pos hname]
    exact iff_of_false (fun ⟨_, ha, _⟩ => by cases ha) fun hne => hne.1 hname
  · rw [if_neg hname]
    constructor
    · rintro ⟨a, ha, hsame⟩
      cases ha
      exact ⟨hname, hsame⟩
    · exact fun hsame => ⟨_, rfl, hsame.2⟩

/-- An attribute that is not of the type of dates comes back if and only if its types are not empty and its metadata are
rendered. -/
theorem reread_plain_iff {ca : ContextAttribute} (hn : ca.Numberless) (hplain : ∀ s ∈ ca.texts, PlainText s)
    (htype : ca.type ≠ OrionBroker.DATE_TYPE) :
    (∃ a, some (parseDate getDouble parse8601Time (readAttribute getDouble ca) >>= finishAttribute ca.name) =
        some (Except.ok a) ∧ SameFields ca a) ↔
      ca.name ≠ "" ∧ ca.type ≠ "" ∧ ∀ md ∈ ca.metadataVector, metadataRendered md = true ∧ md.type ≠ "" := by
  have hnotDate : renderedType ca.type ≠ AttributeParser.DATE_TYPE := by
    unfold renderedType
    split
    · exact htype
    · decide
  have hdate : parseDate getDouble parse8601Time (readAttribute getDouble ca) = .ok (readAttribute getDouble ca) :=
    if_neg hnotDate
  have hjson := json_readAttribute getDouble hn (fun s hs => hplain s (by simp [ContextAttribute.texts, hs])) ca.name
  rw [hdate, exists_finished_iff rfl]
  refine and_congr_right fun _ => ?_
  rw [← renderedType_eq_iff, ← views_readAttribute_iff hn.metadata]
  exact ⟨fun hsame => ⟨hsame.type, hsame.metadata⟩, fun hsame => ⟨rfl, hsame.1, hjson, hsame.2⟩⟩

/-- What is read of a rendered attribute of the type of dates. -/
theorem parseDate_readAttribute {ca : ContextAttribute} (htype : ca.type = OrionBroker.DATE_TYPE) :
    parseDate getDouble parse8601Time (readAttribute getDouble ca) =
      if parse8601Time ca.jsonValue.text = -1 then .error "date has invalid format"
      else .ok { readAttribute getDouble ca with
        numberValue := getDouble (parse8601Time ca.jsonValue.text), stringValue := "", valueType := .number } := by
  have hrendered : (readAttribute getDouble ca).type = AttributeParser.DATE_TYPE := by
    show renderedType ca.type = _
    rw [htype]
    decide
  unfold parseDate
  rw [if_pos hrendered]
  rfl

theorem reread_date_iff {ca : ContextAttribute} (hdate : IsDate ca) (hn : (written isodate2str ca).Numberless) :
    (∃ a, some (parseDate getDouble parse8601Time (readAttribute getDouble (written isodate2str ca)) >>=
        finishAttribute ca.name) = some (Except.ok a) ∧ SameFields ca a) ↔
      ca.name ≠ "" ∧ (∀ md ∈ ca.metadataVector, metadataRendered md = true ∧ md.type ≠ "") ∧
        parse8601Time (isodate2str ca.numberValue) ≠ -1 ∧
          getDouble (parse8601Time (isodate2str ca.numberValue)) = ca.numberValue := by
  obtain ⟨-, htypes, hmetadatas, -⟩ := written_fields isodate2str ca
  have hvalue : (written isodate2str ca).jsonValue = .string (isodate2str ca.numberValue) := by
    rw [written, if_pos hdate, ContextAttribute.jsonValue]
    simp [hdate.1]
  have hviews := views_readAttribute_iff hn.metadata
  generalize written isodate2str ca = w at *
  obtain ⟨hnone, hnumber, htype⟩ := hdate
  rw [parseDate_readAttribute getDouble parse8601Time (htypes.trans htype), hvalue, Json.text]
  by_cases hread : parse8601Time (isodate2str ca.numberValue) = -1
  · rw [if_pos hread]
    exact iff_of_false (fun ⟨_, ha, _⟩ => by cases ha) fun h => h.2.2.1 hread
  · rw [if_neg hread, exists_finished_iff rfl]
    refine and_congr_right fun _ => ?_
    have hjson : ca.json = some (.double ca.numberValue) := by
      simp [ContextAttribute.json, hnone, hnumber, ContextAttribute.bsonAppendAttrValue]
    have hrendered : renderedType w.type = ca.type := by
      rw [htypes, htype]
      decide
    rw [hmetadatas] at hviews
    constructor
    · intro hsame
      have hnumbers := hsame.value
      rw [hjson] at hnumbers
      have hmetadata : ((w.metadataVector.filter metadataRendered).map readMetadata).map Metadata.view =
          ca.metadataVector.map Metadata.view := hsame.metadata
      rw [hmetadatas] at hmetadata
      refine ⟨hviews.1 hmetadata, hread, ?_⟩
      simpa [named, readAttribute, hvalue, isCompound, ContextAttribute.json, ContextAttribute.bsonAppendAttrValue]
        using hnumbers
    · rintro ⟨hmetadata, -, hnumbers⟩
      refine ⟨rfl, hrendered, ?_, ?_⟩
      · rw [hjson]
        simp [named, readAttribute, hvalue, isCompound, ContextAttribute.json, ContextAttribute.bsonAppendAttrValue,
          hnumbers]
      · show ((w.metadataVector.filter metadataRendered).map readMetadata).map Metadata.view = _
        rw [hmetadatas]
        exact hviews.2 hmetadata

theorem text_of_isCompound {v : Json} (h : isCompound v = true) : v.text = "" := by
  cases v with
  | string s => cases h
  | _ => rfl

/-- Another value of the type of dates does not come back. -/
theorem not_reread_of_type {ca : ContextAttribute} (hempty : parse8601Time "" = -1) (hn : ca.Numberless)
    (htype : ca.type = OrionBroker.DATE_TYPE) :
    ¬∃ a, some (parseDate getDouble parse8601Time (readAttribute getDouble ca) >>= finishAttribute ca.name) =
      some (Except.ok a) ∧ SameFields ca a := by
  rw [parseDate_readAttribute getDouble parse8601Time htype]
  by_cases hread : parse8601Time ca.jsonValue.text = -1
  · rw [if_pos hread]
    rintro ⟨a, ha, -⟩
    cases ha
  · rw [if_neg hread, exists_finished_iff rfl]
    rintro ⟨-, hsame⟩
    have hjson := hsame.value
    rcases jsonValue_cases hn with ⟨hnone, hkind, hvalue⟩ | ⟨-, -, hvalue⟩ | ⟨-, -, hvalue⟩ | ⟨t, -, hvalue, ht⟩
    · simp [named, readAttribute, hvalue, isCompound, ContextAttribute.json, ContextAttribute.bsonAppendAttrValue, hnone,
        hkind] at hjson
    · exact hread (by rw [hvalue]; exact hempty)
    · exact hread (by rw [hvalue]; exact hempty)
    · exact hread (by rw [hvalue, text_of_isCompound ht]; exact hempty)

/-- A rendered attribute comes back if and only if it can be read again. -/
theorem reread_attribute_iff {ca : ContextAttribute} (hempty : parse8601Time "" = -1)
    (hn : (written isodate2str ca).Numberless) (hplain : ∀ s ∈ (written isodate2str ca).texts, PlainText s) :
    (∃ a, parseContextAttribute getDouble parse8601Time false .v2 ca.name
        (.object (normalizedMembers (written isodate2str ca))) = some (.ok a) ∧ SameFields ca a) ↔
      Rereadable getDouble isodate2str parse8601Time ca := by
  obtain ⟨hname, -⟩ := written_fields isodate2str ca
  have hparse := parseContextAttribute_normalized getDouble parse8601Time hn hplain
  rw [hname] at hparse
  rw [hparse]
  by_cases hdate : IsDate ca
  · rw [reread_date_iff getDouble isodate2str parse8601Time hdate hn]
    have htyped : ca.type ≠ "" := by
      rw [hdate.2.2]
      decide
    exact ⟨fun ⟨hname, hmetadata, hvalid, hnumber⟩ => ⟨hname, htyped, hmetadata, fun _ => ⟨hdate, hvalid, hnumber⟩⟩,
      fun h => ⟨h.named, h.metadata, (h.date hdate.2.2).2⟩⟩
  · have hwritten : written isodate2str ca = ca := if_neg hdate
    rw [hwritten] at hn hplain ⊢
    by_cases htype : ca.type = OrionBroker.DATE_TYPE
    · exact iff_of_false (not_reread_of_type getDouble parse8601Time hempty hn htype) fun h => hdate (h.date htype).1
    · rw [reread_plain_iff getDouble parse8601Time hn hplain htype]
      exact ⟨fun ⟨hname, htyped, hmetadata⟩ => ⟨hname, htyped, hmetadata, fun h => absurd h htype⟩,
        fun h => ⟨h.named, h.typed, h.metadata⟩⟩

end Reread

end OrionBroker.EntityParser
