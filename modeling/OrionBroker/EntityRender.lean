import OrionBroker.ContextAttributeVector
import OrionBroker.ContextElement
import OrionBroker.NumberText
import OrionBroker.Separators
import OrionBroker.ServicePath
import OrionBroker.Tag

/-!
# Entities with their attributes (`Entity::render`, `ContextElement::toJson`)

`ContextAttributeVector::toJson` goes over the vector twice: the first pass counts what is to be shown, the second one
writes it, with a comma unless its own counter has reached the count.  Without a filter the counter of the second pass
also counts the repeated values that are left out, so the commas are right only if no repetition stands in front of an
attribute that is shown; with a filter the format of unique values does not leave anything out.  The comma behind the
type is written before it is known whether any attribute follows.
-/

namespace OrionBroker

open Bson Separators

section Rendering

variable (isodate2str : Double → String)

namespace ContextAttributeVector

def lookup (vec : List ContextAttribute) (attributeName : String) : Option ContextAttribute :=
  vec.find? fun ca => ca.name = attributeName

/-- Attributes named `id` or `type` are not rendered. -/
def idOrType (ca : ContextAttribute) : Bool := ca.name = "id" || ca.name = "type"

/-- The map of the unique values is used. -/
def uniqueString (renderFormat : RenderFormat) (ca : ContextAttribute) : Bool :=
  renderFormat = .NGSI_V2_UNIQUE_VALUES && ca.valueType = .string

/-- The map of the unique values behind an attribute. -/
def addUnique (renderFormat : RenderFormat) (uniqueMap : List String) (ca : ContextAttribute) : List String :=
  if uniqueString renderFormat ca then ca.stringValue :: uniqueMap else uniqueMap

/-- Pass 1 without a filter: the number of attributes valid for rendering. -/
def countPass (renderFormat : RenderFormat) : List String → List ContextAttribute → Nat
  | _, [] => 0
  | uniqueMap, ca :: vec =>
    if idOrType ca then countPass renderFormat uniqueMap vec
    else if uniqueString renderFormat ca && ca.stringValue ∈ uniqueMap then countPass renderFormat uniqueMap vec
    else countPass renderFormat (addUnique renderFormat uniqueMap ca) vec + 1

/-- Pass 2 without a filter. -/
def renderPass (renderFormat : RenderFormat) (validAttributes : Nat) : Nat → List String → List ContextAttribute → String
  | _, _, [] => ""
  | renderedAttributes, uniqueMap, ca :: vec =>
    if idOrType ca then renderPass renderFormat validAttributes renderedAttributes uniqueMap vec
    else if uniqueString renderFormat ca && ca.stringValue ∈ uniqueMap then
      renderPass renderFormat validAttributes (renderedAttributes + 1) uniqueMap vec
    else
      ca.toJson OStream.toString isodate2str (renderedAttributes + 1 = validAttributes) renderFormat false ++
        renderPass renderFormat validAttributes (renderedAttributes + 1) (addUnique renderFormat uniqueMap ca) vec

/-- Pass 2 with a filter. -/
def filterPass (renderFormat : RenderFormat) (validAttributes : Nat) (vec : List ContextAttribute) :
    Nat → List String → String
  | _, [] => ""
  | renderedAttributes, name :: attrsFilter =>
    match lookup vec name with
    | some ca =>
      ca.toJson OStream.toString isodate2str (renderedAttributes + 1 = validAttributes) renderFormat false ++
        filterPass renderFormat validAttributes vec (renderedAttributes + 1) attrsFilter
    | none => filterPass renderFormat validAttributes vec renderedAttributes attrsFilter

/-- `ContextAttributeVector::toJson`, which does not look at whether it is the last element. -/
def toJson (renderFormat : RenderFormat) (attrsFilter : List String) (vec : List ContextAttribute) : String :=
  if vec.length = 0 then ""
  else if attrsFilter.length = 0 then renderPass isodate2str renderFormat (countPass renderFormat [] vec) 0 [] vec
  else
    filterPass isodate2str renderFormat (attrsFilter.countP fun name => (lookup vec name).isSome) vec 0 attrsFilter

end ContextAttributeVector

/-- `ErrorCode` of `apiTypesV2`. -/
structure ErrorCode where
  error : String := ""
  description : String := ""

namespace ErrorCode

/-- The condition under which an entity is rendered, and an error is not. -/
def isEmpty (ec : ErrorCode) : Bool := ec.description = "" && (ec.error = "" || ec.error = "OK")

/-- The description with its double quotes escaped. -/
def quotedDescription (ec : ErrorCode) : String :=
  String.ofList (ec.description.toList.flatMap fun c => if c = '"' then ['\\', '"'] else [c])

def toJson (isLastElement : Bool) (ec : ErrorCode) : String :=
  if ec.isEmpty then ""
  else
    let comma := ec.error ≠ "" ∧ ec.error ≠ "OK"
    "\x7b" ++ (if comma then JSON_VALUE "error" ec.error else "") ++
      (if ec.quotedDescription ≠ "" then (if comma then "," else "") ++ JSON_VALUE "description" ec.quotedDescription
        else "") ++ "\x7d" ++ (if isLastElement then "" else ",")

end ErrorCode

/-- The options of the URI that choose a format. -/
structure UriParamOptions where
  keyValues : Bool := false
  values : Bool := false
  uniqueValues : Bool := false

def UriParamOptions.renderFormat (options : UriParamOptions) : RenderFormat :=
  if options.keyValues then .NGSI_V2_KEYVALUES
  else if options.values then .NGSI_V2_VALUES
  else if options.uniqueValues then .NGSI_V2_UNIQUE_VALUES
  else .NGSI_V2_NORMALIZED

/-- The formats without names. -/
def valuesOnly (renderFormat : RenderFormat) : Bool :=
  renderFormat = .NGSI_V2_VALUES || renderFormat = .NGSI_V2_UNIQUE_VALUES

structure Entity where
  id : String
  type : String := ""
  attributeVector : List ContextAttribute := []
  errorCode : ErrorCode := {}
  /-- Should id and type be rendered in JSON? -/
  renderId : Bool := true

namespace Entity

/-- The member `type`; entities of the first version of the API may have an empty one. -/
def typeMember (e : Entity) : String :=
  JSON_STR "type" ++ ":" ++ if e.type ≠ "" then JSON_STR e.type else JSON_STR DEFAULT_TYPE

/-- `Entity::render`; `attrs` is the filter as the parameter of the URI gives it. -/
def render (options : UriParamOptions) (attrs : String) (comma : Bool) (e : Entity) : String :=
  if e.errorCode.description = "" ∧ (e.errorCode.error = "OK" ∨ e.errorCode.error = "") then
    (if valuesOnly options.renderFormat then
      "[" ++ (if e.attributeVector.length ≠ 0 then
          ContextAttributeVector.toJson isodate2str options.renderFormat (stringSplit attrs ',') e.attributeVector
        else "") ++ "]"
    else
      "\x7b" ++ (if e.renderId then
          JSON_VALUE "id" e.id ++ "," ++ e.typeMember ++ (if e.attributeVector.length ≠ 0 then "," else "")
        else "") ++
        (if e.attributeVector.length ≠ 0 then
          ContextAttributeVector.toJson isodate2str options.renderFormat (stringSplit attrs ',') e.attributeVector
        else "") ++ "\x7d") ++
    (if comma then "," else "")
  else e.errorCode.toJson true

end Entity

def EntityId.toJson (eP : EntityId) : String :=
  JSON_VALUE "id" (htmlEscape eP.id) ++ "," ++ JSON_VALUE "type" (htmlEscape eP.type)

def ContextElement.toJson (renderFormat : RenderFormat) (attrsFilter : List String) (ce : ContextElement) : String :=
  (if renderFormat ≠ .NGSI_V2_VALUES then ce.entityId.toJson ++ "," else "") ++
    if ce.contextAttributeVector.length ≠ 0 then
      ContextAttributeVector.toJson isodate2str renderFormat attrsFilter ce.contextAttributeVector
    else ""

/-! ### What is meant -/

namespace ContextAttributeVector

/-- The attributes but for those whose string value has been seen before. -/
def withoutRepeated : List String → List ContextAttribute → List ContextAttribute
  | _, [] => []
  | seen, ca :: vec =>
    if ca.valueType = .string then
      if ca.stringValue ∈ seen then withoutRepeated seen vec else ca :: withoutRepeated (ca.stringValue :: seen) vec
    else ca :: withoutRepeated seen vec

/-- Those that the filter selects, or without one all but those named `id` or `type`. -/
def selected (attrsFilter : List String) (vec : List ContextAttribute) : List ContextAttribute :=
  if attrsFilter = [] then vec.filter fun ca => !idOrType ca else attrsFilter.filterMap (lookup vec)

/-- The attributes to be shown: with unique values, each string value once. -/
def shown (renderFormat : RenderFormat) (attrsFilter : List String) (vec : List ContextAttribute) : List ContextAttribute :=
  if renderFormat = .NGSI_V2_UNIQUE_VALUES then withoutRepeated [] (selected attrsFilter vec)
  else selected attrsFilter vec

/-- The rendering of an attribute, without a comma. -/
def piece (renderFormat : RenderFormat) (ca : ContextAttribute) : List Char :=
  (ca.toJson OStream.toString isodate2str true renderFormat false).toList

/-- The renderings of the attributes to be shown. -/
def pieces (renderFormat : RenderFormat) (attrsFilter : List String) (vec : List ContextAttribute) : List (List Char) :=
  (shown renderFormat attrsFilter vec).map (piece isodate2str renderFormat)

/-- The value is a compound one, or of a type that has a text. -/
def HasValue (ca : ContextAttribute) : Prop :=
  match ca.compoundValueP with
  | some compoundValue => compoundValue.isObject = true ∨ compoundValue.isVector = true
  | none => ca.valueType = .number ∨ ca.valueType = .string ∨ ca.valueType = .boolean ∨ ca.valueType = .none

/-- Without the names, all that is to be shown has a value; without a filter no repeated value stands in front of an attribute that is to be
shown, and with a filter no value is repeated. -/
structure WellSeparated (renderFormat : RenderFormat) (attrsFilter : List String) (vec : List ContextAttribute) : Prop where
  hasValue : valuesOnly renderFormat = true → ∀ ca ∈ shown renderFormat attrsFilter vec, HasValue ca
  repeatedLast : attrsFilter = [] → shown renderFormat attrsFilter vec <+: selected attrsFilter vec
  notRepeated : attrsFilter ≠ [] → shown renderFormat attrsFilter vec = selected attrsFilter vec

end ContextAttributeVector

open ContextAttributeVector

namespace Entity

/-- What stands between the brackets: the members of the error, or the identity and the attributes. -/
def members (options : UriParamOptions) (attrs : String) (e : Entity) : List (List Char) :=
  if e.errorCode.isEmpty then
    (if e.renderId && !valuesOnly options.renderFormat then [(JSON_VALUE "id" e.id).toList, e.typeMember.toList]
      else []) ++ pieces isodate2str options.renderFormat (stringSplit attrs ',') e.attributeVector
  else
    (if e.errorCode.error ≠ "" ∧ e.errorCode.error ≠ "OK" then [(JSON_VALUE "error" e.errorCode.error).toList] else []) ++
      (if e.errorCode.quotedDescription ≠ "" then [(JSON_VALUE "description" e.errorCode.quotedDescription).toList]
        else [])

/-- The brackets. -/
def brackets (options : UriParamOptions) (e : Entity) : String × String :=
  if e.errorCode.isEmpty && valuesOnly options.renderFormat then ("[", "]") else ("\x7b", "\x7d")

/-- The text between the brackets consists of the members, separated by commas. -/
def RenderedRight (options : UriParamOptions) (attrs : String) (comma : Bool) (e : Entity) : Prop :=
  ∃ body : String,
    e.render isodate2str options attrs comma = (e.brackets options).1 ++ body ++ (e.brackets options).2 ++
      (if e.errorCode.isEmpty && comma then "," else "") ∧
    IsSequence ',' body.toList (e.members isodate2str options attrs)

end Entity

/-- The identity, unless only the values are shown, and the attributes. -/
def ContextElement.members (renderFormat : RenderFormat) (attrsFilter : List String) (ce : ContextElement) :
    List (List Char) :=
  (if renderFormat ≠ .NGSI_V2_VALUES then
    [(JSON_VALUE "id" (htmlEscape ce.entityId.id)).toList, (JSON_VALUE "type" (htmlEscape ce.entityId.type)).toList]
    else []) ++ pieces isodate2str renderFormat attrsFilter ce.contextAttributeVector

/-! ### Pieces -/

/-- Brackets or quotes around a text. -/
theorem unbroken_enclosed {opening closing : Char} (hopening : opening ≠ ',') (hclosing : closing ≠ ',')
    (text : List Char) : Unbroken ',' (opening :: (text ++ [closing])) where
  nonempty := by simp
  head := by simpa using hopening
  last := by
    rw [← List.cons_append, List.getLast?_append_of_ne_nil _ (by simp)]
    simpa using hclosing

theorem unbroken_of_not_mem {text : List Char} (hne : text ≠ []) (hcomma : ',' ∉ text) : Unbroken ',' text where
  nonempty := hne
  head h := hcomma (List.mem_of_head? h)
  last h := hcomma (List.mem_of_getLast? h)

theorem unbroken_JSON_STR (s : String) : Unbroken ',' (JSON_STR s).toList := by
  rw [JSON_STR_toList]
  exact unbroken_enclosed (by decide) (by decide) s.toList

theorem unbroken_JSON_VALUE (name value : String) : Unbroken ',' (JSON_VALUE name value).toList := by
  have htext : (JSON_VALUE name value).toList = '"' :: ((name.toList ++ '"' :: ':' :: '"' :: value.toList) ++ ['"']) := by
    simp [JSON_VALUE, JSON_PROP, JSON_STR, String.toList_append]
  rw [htext]
  exact unbroken_enclosed (by decide) (by decide) _

namespace OStream

theorem comma_not_mem_positiveText {q : ℚ} (hq : 0 < q) : positiveText q ≠ [] ∧ ',' ∉ positiveText q := by
  obtain ⟨-, hlt, -⟩ := significand_spec hq
  have hdigits := digits_sixDigits hlt
  have hsix : (sixDigits (significand q).1).length = 6 := by simp [sixDigits]
  have hcomma {l : List Char} (h : Digits l) : ',' ∉ l := fun hmem => absurd (h _ hmem) (by decide)
  have hfraction {l : List Char} (h : Digits l) : ',' ∉ fraction l := by
    unfold fraction
    split
    · simp
    · simpa using hcomma (digits_withoutZeros h)
  have hexponent (e : ℤ) : ',' ∉ exponentText e := by
    have hnumber : ',' ∉ exponentDigits e.natAbs := by
      unfold exponentDigits
      split
      · simpa using hcomma (digits_toDigits _)
      · exact hcomma (digits_toDigits _)
    unfold exponentText
    split <;> simpa using hnumber
  have htake (n : ℕ) : Digits ((sixDigits (significand q).1).take n) := fun c hc => hdigits c (List.mem_of_mem_take hc)
  have hdrop (n : ℕ) : Digits ((sixDigits (significand q).1).drop n) := fun c hc => hdigits c (List.mem_of_mem_drop hc)
  have hfirst (n : ℕ) : (sixDigits (significand q).1).take (n + 1) ≠ [] := by
    intro h
    have hlength := congrArg List.length h
    rw [List.length_take, hsix, List.length_nil] at hlength
    omega
  unfold positiveText
  dsimp only
  split_ifs
  · refine ⟨List.append_ne_nil_of_left_ne_nil (List.append_ne_nil_of_left_ne_nil (hfirst 0) _) _, ?_⟩
    simp only [List.mem_append, not_or]
    exact ⟨⟨hcomma (htake 1), hfraction (hdrop 1)⟩, hexponent _⟩
  · refine ⟨List.append_ne_nil_of_left_ne_nil (hfirst _) _, ?_⟩
    simp only [List.mem_append, not_or]
    exact ⟨hcomma (htake _), hfraction (hdrop _)⟩
  · refine ⟨by simp, ?_⟩
    simpa using hfraction ((digits_replicate _).append hdigits)

theorem unbroken_toString (d : Double) : Unbroken ',' (toString d).toList := by
  cases d with
  | nan => exact unbroken_of_not_mem (by decide) (by decide)
  | inf negative => cases negative <;> exact unbroken_of_not_mem (by decide) (by decide)
  | fin q =>
    unfold toString
    dsimp only
    split_ifs with hzero hnegative
    · exact unbroken_of_not_mem (by decide) (by decide)
    · obtain ⟨hne, hcomma⟩ := comma_not_mem_positiveText (neg_pos.2 hnegative)
      rw [String.toList_ofList]
      exact unbroken_of_not_mem (by simp) (by simpa using hcomma)
    · obtain ⟨hne, hcomma⟩ := comma_not_mem_positiveText (lt_of_le_of_ne (not_lt.1 hnegative) (Ne.symm hzero))
      rw [String.toList_ofList]
      exact unbroken_of_not_mem hne hcomma

end OStream

namespace ContextAttributeVector

/-- The text of a value, or nothing if it has none. -/
theorem valueToJson_cases (ca : ContextAttribute) :
    (HasValue ca ∧ Unbroken ',' (ca.valueToJson OStream.toString isodate2str).toList) ∨
      (¬HasValue ca ∧ ca.valueToJson OStream.toString isodate2str = "") := by
  unfold HasValue ContextAttribute.valueToJson
  cases ca.compoundValueP with
  | some t =>
    dsimp only
    by_cases hobject : t.isObject = true
    · refine .inl ⟨.inl hobject, ?_⟩
      rw [if_pos hobject]
      simpa [String.toList_append] using unbroken_enclosed (by decide) (by decide) (t.rootToJson OStream.toString).toList
    · rw [if_neg hobject]
      by_cases hvector : t.isVector = true
      · refine .inl ⟨.inr hvector, ?_⟩
        rw [if_pos hvector]
        simpa [String.toList_append] using unbroken_enclosed (by decide) (by decide) (t.rootToJson OStream.toString).toList
      · rw [if_neg hvector]
        exact .inr ⟨by simp [hobject, hvector], rfl⟩
  | none =>
    cases ca.valueType with
    | number =>
      refine .inl ⟨.inl rfl, ?_⟩
      dsimp only
      split
      · exact unbroken_JSON_STR _
      · exact OStream.unbroken_toString _
    | string => exact .inl ⟨.inr (.inl rfl), unbroken_JSON_STR _⟩
    | boolean =>
      refine .inl ⟨.inr (.inr (.inl rfl)), ?_⟩
      dsimp only
      cases ca.boolValue with
      | true => exact @unbroken_of_not_mem "true".toList (by decide) (by decide)
      | false => exact @unbroken_of_not_mem "false".toList (by decide) (by decide)
    | none => exact .inl ⟨.inr (.inr (.inr rfl)), @unbroken_of_not_mem "null".toList (by decide) (by decide)⟩
    | _ => exact .inr ⟨by simp, rfl⟩

/-- The comma follows the text of an attribute. -/
theorem toJson_comma (ca : ContextAttribute) (isLastElement : Bool) (renderFormat : RenderFormat) :
    (ca.toJson OStream.toString isodate2str isLastElement renderFormat false).toList =
      piece isodate2str renderFormat ca ++ if isLastElement then [] else [','] := by
  unfold piece ContextAttribute.toJson
  cases isLastElement <;> simp [String.toList_append]

/-- The text of an attribute is a piece of its own, unless it is shown without its name and has no value. -/
theorem unbroken_piece_iff (ca : ContextAttribute) (renderFormat : RenderFormat) :
    Unbroken ',' (piece isodate2str renderFormat ca) ↔ (valuesOnly renderFormat = true → HasValue ca) := by
  unfold piece
  have hvalue := valueToJson_cases isodate2str ca
  by_cases hformat : valuesOnly renderFormat = true
  · have htext : (ca.toJson OStream.toString isodate2str true renderFormat false).toList =
        (ca.valueToJson OStream.toString isodate2str).toList := by
      cases renderFormat with
      | NGSI_V2_VALUES => simp [ContextAttribute.toJson]
      | NGSI_V2_UNIQUE_VALUES => simp [ContextAttribute.toJson]
      | _ => cases hformat
    rw [htext]
    rcases hvalue with ⟨hhas, hunbroken⟩ | ⟨hhas, hempty⟩
    · exact iff_of_true hunbroken fun _ => hhas
    · refine iff_of_false (fun hunbroken => hunbroken.nonempty ?_) fun h => hhas (h hformat)
      rw [hempty]
      rfl
  · refine iff_of_true ?_ fun h => absurd h hformat
    by_cases hkeyValues : renderFormat = .NGSI_V2_KEYVALUES
    · -- the name and a colon stand in front of the value, whether it has a text or not
      have htext : (ca.toJson OStream.toString isodate2str true renderFormat false).toList =
          '"' :: ((ca.name.toList ++ ['"']) ++ [':']) ++ (ca.valueToJson OStream.toString isodate2str).toList := by
        simp [ContextAttribute.toJson, hkeyValues, String.toList_append, JSON_STR]
      have hname := unbroken_enclosed (by decide : '"' ≠ ',') (by decide : ':' ≠ ',') (ca.name.toList ++ ['"'])
      rw [htext]
      rcases hvalue with ⟨-, hunbroken⟩ | ⟨-, hempty⟩
      · exact hname.append hunbroken
      · rw [hempty]
        simpa using hname
    · have hnormalized : ¬(renderFormat = .NGSI_V2_VALUES ∨ renderFormat = .NGSI_V2_KEYVALUES ∨
          renderFormat = .NGSI_V2_UNIQUE_VALUES) := by
        simp only [valuesOnly, Bool.or_eq_true, decide_eq_true_eq, not_or] at hformat
        simp [hformat, hkeyValues]
      have htext : ∃ inner : String, ca.toJson OStream.toString isodate2str true renderFormat false =
          JSON_STR ca.name ++ (":\x7b" ++ inner ++ "\x7d") := by
        unfold ContextAttribute.toJson
        rw [if_neg hnormalized]
        refine ⟨(if ca.type ≠ "" then JSON_VALUE "type" ca.type else JSON_VALUE "type" DEFAULT_TYPE) ++ "," ++
          ca.valueMemberToJson OStream.toString isodate2str ++ "," ++ JSON_STR "metadata" ++ ":" ++ "\x7b" ++
          metadataVectorToJson OStream.toString true ca.metadataVector ++ "\x7d", ?_⟩
        simp only [Bool.false_eq_true, if_false, if_true, String.append_empty, String.append_assoc]
      obtain ⟨inner, htext⟩ := htext
      rw [htext, String.toList_append]
      refine (unbroken_JSON_STR ca.name).append ?_
      simpa [String.toList_append] using unbroken_enclosed (by decide : ':' ≠ ',') (by decide : '}' ≠ ',') ('{' :: inner.toList)

/-! ### The passes -/

/-- The attributes that the second pass counts, with `none` in place of a repeated value. -/
def marks (renderFormat : RenderFormat) : List String → List ContextAttribute → List (Option ContextAttribute)
  | _, [] => []
  | uniqueMap, ca :: vec =>
    if uniqueString renderFormat ca && ca.stringValue ∈ uniqueMap then none :: marks renderFormat uniqueMap vec
    else some ca :: marks renderFormat (addUnique renderFormat uniqueMap ca) vec

theorem countPass_eq (renderFormat : RenderFormat) (uniqueMap : List String) (vec : List ContextAttribute) :
    countPass renderFormat uniqueMap vec =
      (marks renderFormat uniqueMap (vec.filter fun ca => !idOrType ca)).reduceOption.length := by
  induction vec generalizing uniqueMap with
  | nil => rfl
  | cons ca vec ih =>
    rw [countPass]
    by_cases hskip : idOrType ca = true
    · rw [if_pos hskip, List.filter_cons_of_neg (by simp [hskip]), ih]
    · rw [if_neg hskip, List.filter_cons_of_pos (by simp [hskip]), marks]
      split
      · rw [List.reduceOption_cons_of_none, ih]
      · rw [List.reduceOption_cons_of_some, List.length_cons, ih]

theorem renderPass_eq (renderFormat : RenderFormat) (validAttributes renderedAttributes : Nat) (uniqueMap : List String)
    (vec : List ContextAttribute) :
    (renderPass isodate2str renderFormat validAttributes renderedAttributes uniqueMap vec).toList =
      counted [','] validAttributes renderedAttributes
        ((marks renderFormat uniqueMap (vec.filter fun ca => !idOrType ca)).map
          (Option.map (piece isodate2str renderFormat))) := by
  induction vec generalizing renderedAttributes uniqueMap with
  | nil => rfl
  | cons ca vec ih =>
    rw [renderPass]
    by_cases hskip : idOrType ca = true
    · rw [if_pos hskip, List.filter_cons_of_neg (by simp [hskip]), ih]
    · rw [if_neg hskip, List.filter_cons_of_pos (by simp [hskip]), marks]
      split
      · rw [List.map_cons, Option.map_none, counted, ih]
      · rw [List.map_cons, Option.map_some, counted, String.toList_append, toJson_comma, ih]
        simp only [decide_eq_true_eq]

theorem filterPass_eq (renderFormat : RenderFormat) (validAttributes : Nat) (vec : List ContextAttribute)
    (renderedAttributes : Nat) (attrsFilter : List String) :
    (filterPass isodate2str renderFormat validAttributes vec renderedAttributes attrsFilter).toList =
      counted [','] validAttributes renderedAttributes
        (((attrsFilter.filterMap (lookup vec)).map (piece isodate2str renderFormat)).map some) := by
  induction attrsFilter generalizing renderedAttributes with
  | nil => rfl
  | cons name attrsFilter ih =>
    rw [filterPass]
    cases hlookup : lookup vec name with
    | none => rw [List.filterMap_cons_none hlookup, ih]
    | some ca =>
      rw [List.filterMap_cons_some hlookup, List.map_cons, List.map_cons, counted, String.toList_append, toJson_comma, ih]
      simp only [decide_eq_true_eq]

/-! ### Values seen before -/

theorem marks_of_named {renderFormat : RenderFormat} (h : renderFormat ≠ .NGSI_V2_UNIQUE_VALUES) (uniqueMap : List String)
    (vec : List ContextAttribute) : marks renderFormat uniqueMap vec = vec.map some := by
  induction vec generalizing uniqueMap with
  | nil => rfl
  | cons ca vec ih => simp [marks, uniqueString, h, ih]

theorem reduceOption_marks (seen : List String) (vec : List ContextAttribute) :
    (marks .NGSI_V2_UNIQUE_VALUES seen vec).reduceOption = withoutRepeated seen vec := by
  induction vec generalizing seen with
  | nil => rfl
  | cons ca vec ih =>
    rw [marks, withoutRepeated]
    by_cases hstring : ca.valueType = .string
    · by_cases hseen : ca.stringValue ∈ seen <;> simp [uniqueString, addUnique, hstring, hseen, ih]
    · simp [uniqueString, addUnique, hstring, ih]

theorem not_seen_of_mem {seen : List String} {vec : List ContextAttribute} {ca : ContextAttribute}
    (h : ca ∈ withoutRepeated seen vec) (hstring : ca.valueType = .string) : ca.stringValue ∉ seen := by
  induction vec generalizing seen with
  | nil => cases h
  | cons first vec ih =>
    rw [withoutRepeated] at h
    split_ifs at h with hfirst hseen
    · exact ih h
    · rcases List.mem_cons.1 h with rfl | h
      · exact hseen
      · exact fun hmem => ih h (List.mem_cons_of_mem _ hmem)
    · rcases List.mem_cons.1 h with rfl | h
      · exact absurd hstring hfirst
      · exact ih h

theorem withoutRepeated_sublist (seen : List String) (vec : List ContextAttribute) :
    (withoutRepeated seen vec).Sublist vec := by
  induction vec generalizing seen with
  | nil => exact .slnil
  | cons ca vec ih =>
    rw [withoutRepeated]
    split_ifs
    · exact (ih seen).cons _
    · exact (ih _).cons_cons _
    · exact (ih _).cons_cons _

/-- Nothing is written after a repeated value if and only if what is shown comes first. -/
theorem pairwise_marks_iff (seen : List String) (vec : List ContextAttribute) :
    ((marks .NGSI_V2_UNIQUE_VALUES seen vec).Pairwise fun p p' => p = none → p' = none) ↔
      withoutRepeated seen vec <+: vec := by
  induction vec generalizing seen with
  | nil => simp [marks, withoutRepeated]
  | cons ca vec ih =>
    have hkept (seen' : List String) : ((some ca :: marks .NGSI_V2_UNIQUE_VALUES seen' vec).Pairwise fun p p' =>
        p = none → p' = none) ↔ ca :: withoutRepeated seen' vec <+: ca :: vec := by
      rw [List.pairwise_cons, List.cons_prefix_cons, ih]
      simp
    rw [marks, withoutRepeated]
    by_cases hstring : ca.valueType = .string
    · by_cases hseen : ca.stringValue ∈ seen
      · simp only [uniqueString, hstring, hseen, decide_true, Bool.and_self, if_true, List.pairwise_cons, true_imp_iff]
        constructor
        · rintro ⟨hnone, -⟩
          rw [← reduceOption_marks, reduceOption_of_none hnone]
          exact List.nil_prefix
        · intro hprefix
          have hempty : withoutRepeated seen vec = [] := by
            cases hshown : withoutRepeated seen vec with
            | nil => rfl
            | cons first shown =>
              rw [hshown] at hprefix
              obtain ⟨rfl, -⟩ := List.cons_prefix_cons.1 hprefix
              exact absurd hseen (not_seen_of_mem (hshown ▸ List.mem_cons_self ..) hstring)
          have hnone : ∀ p ∈ marks .NGSI_V2_UNIQUE_VALUES seen vec, p = none := by
            intro p hp
            cases p with
            | none => rfl
            | some ca' =>
              have hmem : ca' ∈ withoutRepeated seen vec := by rwa [← reduceOption_marks, List.reduceOption_mem_iff]
              rw [hempty] at hmem
              cases hmem
          exact ⟨hnone, List.pairwise_of_forall_mem_list fun p _ p' hp' _ => hnone p' hp'⟩
      · simpa [uniqueString, addUnique, hstring, hseen] using hkept (ca.stringValue :: seen)
    · simpa [uniqueString, addUnique, hstring] using hkept seen

/-! ### The attributes -/

theorem shown_nil (renderFormat : RenderFormat) (attrsFilter : List String) : shown renderFormat attrsFilter [] = [] := by
  have hselected : selected attrsFilter [] = [] := by
    unfold selected
    split
    · rfl
    · exact List.filterMap_eq_nil_iff.2 fun _ _ => rfl
  unfold shown
  rw [hselected]
  split <;> rfl

theorem unbroken_pieces_iff (renderFormat : RenderFormat) (attrsFilter : List String) (vec : List ContextAttribute) :
    (∀ p ∈ pieces isodate2str renderFormat attrsFilter vec, Unbroken ',' p) ↔
      (valuesOnly renderFormat = true → ∀ ca ∈ shown renderFormat attrsFilter vec, HasValue ca) := by
  simp only [pieces, List.forall_mem_map, unbroken_piece_iff]
  exact ⟨fun h hformat ca hca => h ca hca hformat, fun h ca hca hformat => h hformat ca hca⟩

/-- Without a filter, the separators of pieces are right if and only if no repeated value stands in front of one of
them. -/
theorem toJson_eq_iff_of_no_filter {renderFormat : RenderFormat} {vec : List ContextAttribute}
    (h : ∀ p ∈ pieces isodate2str renderFormat [] vec, Unbroken ',' p) :
    (toJson isodate2str renderFormat [] vec).toList = separated [','] [] (pieces isodate2str renderFormat [] vec) ↔
      shown renderFormat [] vec <+: selected [] vec := by
  have htext : (toJson isodate2str renderFormat [] vec).toList =
      counted [','] (marks renderFormat [] (selected [] vec)).reduceOption.length 0
        ((marks renderFormat [] (selected [] vec)).map (Option.map (piece isodate2str renderFormat))) := by
    unfold toJson
    cases vec with
    | nil => rfl
    | cons ca vec =>
      rw [if_neg (by simp), if_pos List.length_nil, renderPass_eq, countPass_eq]
      rfl
  have hreduce : ((marks renderFormat [] (selected [] vec)).map
      (Option.map (piece isodate2str renderFormat))).reduceOption = pieces isodate2str renderFormat [] vec := by
    rw [List.reduceOption_map, pieces, shown]
    split
    · rename_i hunique
      rw [hunique, reduceOption_marks]
    · rename_i hnamed
      rw [marks_of_named hnamed]
      simp [List.reduceOption]
  have hcount : (marks renderFormat [] (selected [] vec)).reduceOption.length =
      ((marks renderFormat [] (selected [] vec)).map (Option.map (piece isodate2str renderFormat))).reduceOption.length := by
    rw [List.reduceOption_map, List.length_map]
  rw [← hreduce] at h
  rw [htext, hcount, ← hreduce, counted_iff h, List.pairwise_map]
  simp only [Option.map_eq_none_iff]
  unfold shown
  split
  · rename_i hunique
    rw [hunique, pairwise_marks_iff]
  · rename_i hnamed
    rw [marks_of_named hnamed, List.pairwise_map]
    exact iff_of_true (List.pairwise_of_forall fun _ _ h => absurd h (by simp)) List.prefix_rfl

/-- With a filter, all that it selects is written. -/
theorem toJson_of_filter (renderFormat : RenderFormat) {attrsFilter : List String} (hfilter : attrsFilter ≠ [])
    (vec : List ContextAttribute) :
    (toJson isodate2str renderFormat attrsFilter vec).toList =
      separated [','] [] ((selected attrsFilter vec).map (piece isodate2str renderFormat)) := by
  have hselected : selected attrsFilter vec = attrsFilter.filterMap (lookup vec) := if_neg hfilter
  rw [hselected]
  unfold toJson
  cases vec with
  | nil =>
    have hnone : attrsFilter.filterMap (lookup []) = [] := List.filterMap_eq_nil_iff.2 fun _ _ => rfl
    rw [hnone]
    rfl
  | cons ca vec =>
    have hcount : (attrsFilter.countP fun name => (lookup (ca :: vec) name).isSome) =
        0 + ((attrsFilter.filterMap (lookup (ca :: vec))).map (piece isodate2str renderFormat)).length := by
      rw [List.length_map, List.length_filterMap_eq_countP, Nat.zero_add]
    rw [if_neg (by simp), if_neg (by simpa using hfilter), filterPass_eq, hcount, counted_map_some]

/-- The first of the attributes is shown. -/
theorem shown_eq_nil_iff (renderFormat : RenderFormat) (attrsFilter : List String) (vec : List ContextAttribute) :
    shown renderFormat attrsFilter vec = [] ↔ selected attrsFilter vec = [] := by
  unfold shown
  split
  · cases selected attrsFilter vec with
    | nil => simp [withoutRepeated]
    | cons ca rest =>
      rw [withoutRepeated]
      split_ifs with _ hseen
      · cases hseen
      · simp
      · simp
  · rfl

theorem shown_sublist (renderFormat : RenderFormat) (attrsFilter : List String) (vec : List ContextAttribute) :
    (shown renderFormat attrsFilter vec).Sublist (selected attrsFilter vec) := by
  unfold shown
  split
  · exact withoutRepeated_sublist [] _
  · exact List.Sublist.refl _

theorem toJson_eq_iff_of_filter (renderFormat : RenderFormat) {attrsFilter : List String} (hfilter : attrsFilter ≠ [])
    (vec : List ContextAttribute) :
    (toJson isodate2str renderFormat attrsFilter vec).toList =
        separated [','] [] (pieces isodate2str renderFormat attrsFilter vec) ↔
      shown renderFormat attrsFilter vec = selected attrsFilter vec := by
  rw [toJson_of_filter isodate2str renderFormat hfilter, pieces]
  constructor
  · intro heq
    by_contra hne
    have hshown : shown renderFormat attrsFilter vec ≠ [] := by
      intro hempty
      exact hne (hempty.trans ((shown_eq_nil_iff ..).1 hempty).symm)
    have hsublist := shown_sublist renderFormat attrsFilter vec
    have hlength : (shown renderFormat attrsFilter vec).length ≠ (selected attrsFilter vec).length :=
      fun h => hne (hsublist.eq_of_length h)
    have hlt := length_separated_lt_of_sublist (by simp : [','] ≠ [])
      (hsublist.map (piece isodate2str renderFormat))
      (fun h => hlength (by simpa using congrArg List.length h)) (by simpa using hshown)
    rw [heq] at hlt
    exact lt_irrefl _ hlt
  · intro heq
    rw [heq]

/-- The text of the attributes consists of the renderings of those to be shown if and only if they are well separated. -/
theorem toJson_iff (renderFormat : RenderFormat) (attrsFilter : List String) (vec : List ContextAttribute) :
    IsSequence ',' (toJson isodate2str renderFormat attrsFilter vec).toList
        (pieces isodate2str renderFormat attrsFilter vec) ↔
      WellSeparated renderFormat attrsFilter vec := by
  constructor
  · rintro ⟨heq, hunbroken⟩
    refine ⟨(unbroken_pieces_iff ..).1 hunbroken, ?_, ?_⟩
    · rintro rfl
      exact (toJson_eq_iff_of_no_filter isodate2str hunbroken).1 heq
    · intro hfilter
      exact (toJson_eq_iff_of_filter isodate2str renderFormat hfilter vec).1 heq
  · rintro ⟨hvalue, hlast, hrepeated⟩
    have hunbroken := (unbroken_pieces_iff isodate2str ..).2 hvalue
    refine ⟨?_, hunbroken⟩
    by_cases hfilter : attrsFilter = []
    · subst hfilter
      exact (toJson_eq_iff_of_no_filter isodate2str hunbroken).2 (hlast rfl)
    · exact (toJson_eq_iff_of_filter isodate2str renderFormat hfilter vec).2 (hrepeated hfilter)

theorem toJson_of_shown_nil {renderFormat : RenderFormat} {attrsFilter : List String} {vec : List ContextAttribute}
    (h : shown renderFormat attrsFilter vec = []) : toJson isodate2str renderFormat attrsFilter vec = "" := by
  have hpieces : pieces isodate2str renderFormat attrsFilter vec = [] := by
    rw [pieces, h]
    rfl
  have hselected := (shown_eq_nil_iff ..).1 h
  have hwell : WellSeparated renderFormat attrsFilter vec := by
    refine ⟨fun _ ca hca => ?_, fun _ => ?_, fun _ => h.trans hselected.symm⟩
    · rw [h] at hca
      cases hca
    · rw [h]
      exact List.nil_prefix
  have htext := ((toJson_iff isodate2str renderFormat attrsFilter vec).2 hwell).eq
  rw [hpieces] at htext
  exact String.toList_eq_nil_iff.1 htext

end ContextAttributeVector

/-! ### The identity and the attributes -/

theorem toJson_of_nonempty (renderFormat : RenderFormat) (attrsFilter : List String) (vec : List ContextAttribute) :
    (if vec.length ≠ 0 then ContextAttributeVector.toJson isodate2str renderFormat attrsFilter vec else "") =
      ContextAttributeVector.toJson isodate2str renderFormat attrsFilter vec := by
  cases vec with
  | nil => rfl
  | cons ca vec => rw [if_pos (by simp)]

/-- After two members and a comma, the text is right if and only if it goes on with attributes that are well
separated. -/
theorem isSequence_identity_iff {idMember typeMember : List Char} (hid : Unbroken ',' idMember)
    (htype : Unbroken ',' typeMember) (renderFormat : RenderFormat) (attrsFilter : List String)
    (vec : List ContextAttribute) :
    IsSequence ',' (idMember ++ [','] ++ typeMember ++ [','] ++
        (ContextAttributeVector.toJson isodate2str renderFormat attrsFilter vec).toList)
      ([idMember, typeMember] ++ pieces isodate2str renderFormat attrsFilter vec) ↔
    WellSeparated renderFormat attrsFilter vec ∧ shown renderFormat attrsFilter vec ≠ [] := by
  by_cases hshown : shown renderFormat attrsFilter vec = []
  · refine iff_of_false (fun h => h.getLast? ?_) fun h => h.2 hshown
    rw [toJson_of_shown_nil isodate2str hshown, String.toList_empty, List.append_nil,
      List.getLast?_append_of_ne_nil _ (by simp)]
    rfl
  · have hmembers : ∀ p ∈ [idMember, typeMember], Unbroken ',' p := by
      intro p hp
      simp only [List.mem_cons, List.not_mem_nil, or_false] at hp
      rcases hp with rfl | rfl
      · exact hid
      · exact htype
    have hpieces : pieces isodate2str renderFormat attrsFilter vec ≠ [] := by simpa [pieces] using hshown
    have htext : separated [','] [] [idMember, typeMember] = idMember ++ [','] ++ typeMember := by simp [separated]
    rw [← htext, isSequence_append_iff hmembers (by simp) hpieces, toJson_iff, and_iff_left hshown]

namespace Entity

theorem unbroken_typeMember (e : Entity) : Unbroken ',' e.typeMember.toList := by
  have htype : ∃ type : String, e.typeMember = JSON_VALUE "type" type := by
    unfold typeMember
    split
    · exact ⟨e.type, rfl⟩
    · exact ⟨DEFAULT_TYPE, rfl⟩
  obtain ⟨type, htype⟩ := htype
  rw [htype]
  exact unbroken_JSON_VALUE "type" type

/-- The text between the brackets is the only one that can be right. -/
theorem renderedRight_iff_of_eq {options : UriParamOptions} {attrs : String} {comma : Bool} {e : Entity} {body : String}
    (h : e.render isodate2str options attrs comma = (e.brackets options).1 ++ body ++ (e.brackets options).2 ++
      (if e.errorCode.isEmpty && comma then "," else "")) :
    e.RenderedRight isodate2str options attrs comma ↔
      IsSequence ',' body.toList (e.members isodate2str options attrs) := by
  constructor
  · rintro ⟨body', heq, hsequence⟩
    rw [h] at heq
    have hlists := congrArg String.toList heq
    simp only [String.toList_append, List.append_assoc] at hlists
    rw [List.append_cancel_right (List.append_cancel_left hlists)]
    exact hsequence
  · exact fun hsequence => ⟨body, h, hsequence⟩

/-- An error is rendered right. -/
theorem renderedRight_of_error (options : UriParamOptions) (attrs : String) (comma : Bool) {e : Entity}
    (h : ¬e.errorCode.isEmpty = true) : e.RenderedRight isodate2str options attrs comma := by
  have hrender : ¬(e.errorCode.description = "" ∧ (e.errorCode.error = "OK" ∨ e.errorCode.error = "")) := by
    simpa [ErrorCode.isEmpty, or_comm] using h
  have hbrackets : e.brackets options = ("\x7b", "\x7d") := by simp [brackets, h]
  have htext : e.render isodate2str options attrs comma = (e.brackets options).1 ++
      ((if e.errorCode.error ≠ "" ∧ e.errorCode.error ≠ "OK" then JSON_VALUE "error" e.errorCode.error else "") ++
        (if e.errorCode.quotedDescription ≠ "" then
          (if e.errorCode.error ≠ "" ∧ e.errorCode.error ≠ "OK" then "," else "") ++
            JSON_VALUE "description" e.errorCode.quotedDescription
        else "")) ++ (e.brackets options).2 ++ (if e.errorCode.isEmpty && comma then "," else "") := by
    unfold render
    rw [if_neg hrender, hbrackets]
    unfold ErrorCode.toJson
    rw [if_neg h]
    simp [h, String.append_assoc]
  have herror := unbroken_JSON_VALUE "error" e.errorCode.error
  have hdescription := unbroken_JSON_VALUE "description" e.errorCode.quotedDescription
  rw [renderedRight_iff_of_eq isodate2str htext]
  unfold members
  rw [if_neg h]
  split_ifs
  · refine ⟨by simp [separated, String.toList_append], ?_⟩
    simpa using ⟨herror, hdescription⟩
  · exact ⟨by simp [separated], by simpa using herror⟩
  · exact ⟨by simp [separated], by simpa using hdescription⟩
  · exact ⟨rfl, by simp⟩

/-- The text between the brackets of an entity without an error. -/
def body (options : UriParamOptions) (attrs : String) (e : Entity) : String :=
  let attributes := ContextAttributeVector.toJson isodate2str options.renderFormat (stringSplit attrs ',') e.attributeVector
  if valuesOnly options.renderFormat = false ∧ e.renderId = true then
    JSON_VALUE "id" e.id ++ "," ++ e.typeMember ++ if e.attributeVector = [] then "" else "," ++ attributes
  else attributes

theorem render_of_isEmpty (options : UriParamOptions) (attrs : String) (comma : Bool) {e : Entity}
    (h : e.errorCode.isEmpty = true) :
    e.render isodate2str options attrs comma = (e.brackets options).1 ++ e.body isodate2str options attrs ++
      (e.brackets options).2 ++ (if e.errorCode.isEmpty && comma then "," else "") := by
  have hrender : e.errorCode.description = "" ∧ (e.errorCode.error = "OK" ∨ e.errorCode.error = "") := by
    simpa [ErrorCode.isEmpty, or_comm] using h
  unfold render body
  rw [if_pos hrender, toJson_of_nonempty]
  by_cases hvalues : valuesOnly options.renderFormat = true
  · simp [brackets, h, hvalues]
  · have hbrackets : e.brackets options = ("\x7b", "\x7d") := by simp [brackets, hvalues]
    rw [if_neg hvalues, hbrackets]
    by_cases hid : e.renderId = true
    · by_cases hvec : e.attributeVector = []
      · simp [h, hvalues, hid, hvec, toJson_of_shown_nil isodate2str (shown_nil _ _)]
      · simp [h, hvalues, hid, hvec, String.append_assoc]
    · simp [h, hid]

/-- The text of an entity without an error is right if and only if its attributes are well separated, and some of them
are shown behind the type unless there is none. -/
theorem renderedRight_iff_of_isEmpty (options : UriParamOptions) (attrs : String) (comma : Bool) {e : Entity}
    (h : e.errorCode.isEmpty = true) :
    e.RenderedRight isodate2str options attrs comma ↔
      WellSeparated options.renderFormat (stringSplit attrs ',') e.attributeVector ∧
        (e.renderId = true → valuesOnly options.renderFormat = false → e.attributeVector ≠ [] →
          shown options.renderFormat (stringSplit attrs ',') e.attributeVector ≠ []) := by
  rw [renderedRight_iff_of_eq isodate2str (render_of_isEmpty isodate2str options attrs comma h)]
  by_cases hidentity : valuesOnly options.renderFormat = false ∧ e.renderId = true
  · obtain ⟨hvalues, hid⟩ := hidentity
    have hmembers : e.members isodate2str options attrs = [(JSON_VALUE "id" e.id).toList, e.typeMember.toList] ++
        pieces isodate2str options.renderFormat (stringSplit attrs ',') e.attributeVector := by
      simp [members, h, hvalues, hid]
    rw [hmembers, body, if_pos ⟨hvalues, hid⟩]
    by_cases hvec : e.attributeVector = []
    · rw [if_pos hvec, String.append_empty, hvec]
      have hshown := shown_nil options.renderFormat (stringSplit attrs ',')
      have hwell : WellSeparated options.renderFormat (stringSplit attrs ',') [] := by
        rw [← toJson_iff (fun _ => "")]
        rw [toJson_of_shown_nil _ hshown, pieces, hshown]
        exact ⟨rfl, by simp⟩
      refine iff_of_true ⟨?_, ?_⟩ ⟨hwell, fun _ _ h => absurd rfl h⟩
      · simp [pieces, hshown, separated, String.toList_append]
      · simp only [pieces, hshown, List.map_nil, List.append_nil, List.forall_mem_cons, List.not_mem_nil, false_imp_iff,
          implies_true, and_true]
        exact ⟨unbroken_JSON_VALUE "id" e.id, e.unbroken_typeMember⟩
    · have hsequence := isSequence_identity_iff isodate2str (unbroken_JSON_VALUE "id" e.id) e.unbroken_typeMember
        options.renderFormat (stringSplit attrs ',') e.attributeVector
      rw [if_neg hvec, ← String.append_assoc]
      simp only [String.toList_append]
      refine hsequence.trans (and_congr_right fun _ => ?_)
      simp [hid, hvec, hvalues]
  · have hmembers : e.members isodate2str options attrs =
        pieces isodate2str options.renderFormat (stringSplit attrs ',') e.attributeVector := by
      rw [not_and_or, Bool.not_eq_false] at hidentity
      rcases hidentity with hvalues | hid
      · simp [members, h, hvalues]
      · simp [members, h, hid]
    rw [hmembers, body, if_neg hidentity, toJson_iff]
    refine (and_iff_left fun hid hvalues => ?_).symm
    exact absurd ⟨hvalues, hid⟩ hidentity

end Entity

/-- The text of a context element is right if and only if its attributes are well separated, and some of them are shown
unless only the values are. -/
theorem ContextElement.toJson_iff (renderFormat : RenderFormat) (attrsFilter : List String) (ce : ContextElement) :
    IsSequence ',' (ce.toJson isodate2str renderFormat attrsFilter).toList
        (ce.members isodate2str renderFormat attrsFilter) ↔
      WellSeparated renderFormat attrsFilter ce.contextAttributeVector ∧
        (renderFormat ≠ .NGSI_V2_VALUES → shown renderFormat attrsFilter ce.contextAttributeVector ≠ []) := by
  unfold ContextElement.toJson ContextElement.members
  rw [toJson_of_nonempty]
  by_cases hvalues : renderFormat = .NGSI_V2_VALUES
  · simp [hvalues, ContextAttributeVector.toJson_iff]
  · have hsequence := isSequence_identity_iff isodate2str (unbroken_JSON_VALUE "id" (htmlEscape ce.entityId.id))
      (unbroken_JSON_VALUE "type" (htmlEscape ce.entityId.type)) renderFormat attrsFilter ce.contextAttributeVector
    rw [if_pos hvalues, if_pos hvalues]
    simp only [EntityId.toJson, String.toList_append]
    refine hsequence.trans (and_congr_right fun _ => ?_)
    simp [hvalues]

/-- The texts of entities and of context elements are right if and only if the attributes are well separated, and some
of them are shown wherever a comma is written for them. -/
theorem rendered_separated_iff :
    (∀ (options : UriParamOptions) (attrs : String) (comma : Bool) (e : Entity),
      e.RenderedRight isodate2str options attrs comma ↔
        (e.errorCode.isEmpty = true →
          WellSeparated options.renderFormat (stringSplit attrs ',') e.attributeVector ∧
            (e.renderId = true → valuesOnly options.renderFormat = false → e.attributeVector ≠ [] →
              shown options.renderFormat (stringSplit attrs ',') e.attributeVector ≠ []))) ∧
    (∀ (renderFormat : RenderFormat) (attrsFilter : List String) (ce : ContextElement),
      IsSequence ',' (ce.toJson isodate2str renderFormat attrsFilter).toList
          (ce.members isodate2str renderFormat attrsFilter) ↔
        WellSeparated renderFormat attrsFilter ce.contextAttributeVector ∧
          (renderFormat ≠ .NGSI_V2_VALUES → shown renderFormat attrsFilter ce.contextAttributeVector ≠ [])) := by
  constructor
  · intro options attrs comma e
    by_cases h : e.errorCode.isEmpty = true
    · rw [Entity.renderedRight_iff_of_isEmpty isodate2str options attrs comma h]
      exact ⟨fun hwell _ => hwell, fun hwell => hwell h⟩
    · exact iff_of_true (e.renderedRight_of_error isodate2str options attrs comma h) fun hempty => absurd hempty h
  · exact ContextElement.toJson_iff isodate2str

end Rendering

/-- The values `x`, `x` and `y`, each of them once: a comma follows the last one. -/
theorem comma_after_unique_values :
    ¬∀ (isodate2str : Double → String) (options : UriParamOptions) (attrs : String) (comma : Bool) (e : Entity),
      e.RenderedRight isodate2str options attrs comma := by
  intro hall
  let valued (name value : String) : ContextAttribute := { name := name, type := "T", stringValue := value }
  let e : Entity := { id := "E", type := "T", attributeVector := [valued "A" "x", valued "B" "x", valued "C" "y"] }
  obtain ⟨body, hbody, hsequence⟩ := hall (fun _ => "") { uniqueValues := true } "" false e
  have htext : e.render (fun _ => "") { uniqueValues := true } "" false = "[" ++ "\"x\",\"y\"," ++ "]" ++ "" := by decide
  rw [htext] at hbody
  have hlists := congrArg String.toList hbody
  have hbrackets : e.brackets { uniqueValues := true } = ("[", "]") := by decide
  rw [hbrackets, if_neg (by decide)] at hlists
  simp only [String.toList_append, List.append_assoc] at hlists
  have heq := List.append_cancel_right (List.append_cancel_left hlists)
  exact hsequence.getLast? (heq ▸ by decide)

end OrionBroker
