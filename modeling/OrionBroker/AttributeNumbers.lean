import OrionBroker.AttributeText
import OrionBroker.NumberText

/-!
# The numbers of an attribute (`ContextAttribute.cpp`, `Metadata.cpp`, `CompoundValueNode.cpp`)

The value of an attribute, the value of a metadata and the leaves of a compound value are written to the stream of
`toString`, which keeps six significant digits.  Wherever an integer is rendered, its text denotes it if and only if it
has no more digits than that (`rendered_exactly_iff`).
-/

namespace OrionBroker

open Bson OStream

/-! ### Places of numbers -/

/-- A compound value with a place for a number. -/
inductive NumberLeaf where
  | here (name : String)
  | inVector (name : String) (before : List CompoundValueNode) (leaf : NumberLeaf) (after : List CompoundValueNode)
  | inObject (name path : String) (before : List CompoundValueNode) (leaf : NumberLeaf) (after : List CompoundValueNode)

/-- The compound value with the number at its place. -/
def NumberLeaf.fill (d : Double) : NumberLeaf → CompoundValueNode
  | .here name => .number name d
  | .inVector name before leaf after => .vector name (before ++ leaf.fill d :: after)
  | .inObject name path before leaf after => .object name path (before ++ leaf.fill d :: after)

/-- Where a number is rendered, with the arguments of `toJson`. -/
inductive NumberPlace where
  | attributeValue (ca : ContextAttribute) (simple : ca.compoundValueP = none) (number : ca.valueType = .number)
      (notDate : ca.type ≠ DATE_TYPE) (isLastElement : Bool) (renderFormat : RenderFormat) (attributeResponse : Bool)
  | metadataValue (md : Metadata) (number : md.valueType = .number) (isLastElement : Bool)
  | compoundLeaf (leaf : NumberLeaf)

/-- What `toJson` writes when the number is at the place. -/
def NumberPlace.toJson (isodate2str : Double → String) (d : Double) : NumberPlace → String
  | .attributeValue ca _ _ _ isLastElement renderFormat attributeResponse =>
    { ca with numberValue := d }.toJson OStream.toString isodate2str isLastElement renderFormat attributeResponse
  | .metadataValue md _ isLastElement => { md with numberValue := d }.toJson OStream.toString isLastElement
  | .compoundLeaf leaf => (leaf.fill d).rootToJson OStream.toString

/-! ### The text of a number in its place -/

/-- One text is written for the number, and the rest does not depend on it. -/
def Writes (render : Double → String) : Prop :=
  ∃ before after, ∀ d, render d = before ++ OStream.toString d ++ after

theorem writes_toString : Writes OStream.toString := ⟨"", "", fun d => by simp⟩

theorem Writes.append {render render' : Double → String} (h : Writes render) (left right : String)
    (heq : ∀ d, render' d = left ++ render d ++ right) : Writes render' := by
  obtain ⟨before, after, hrender⟩ := h
  refine ⟨left ++ before, after ++ right, fun d => ?_⟩
  rw [heq, hrender]
  simp only [String.append_assoc]

namespace CompoundValueNode

theorem childrenToJson_append (write : Double → String) (inVector : Bool) (siblings ix : Nat)
    (left right : List CompoundValueNode) :
    childrenToJson write inVector siblings ix (left ++ right) =
      childrenToJson write inVector siblings ix left ++
        childrenToJson write inVector siblings (ix + left.length) right := by
  induction left generalizing ix with
  | nil => simp [childrenToJson]
  | cons child left ih =>
    rw [List.cons_append, childrenToJson, childrenToJson, ih, List.length_cons, String.append_assoc]
    have hix : ix + 1 + left.length = ix + (left.length + 1) := by omega
    rw [hix]

end CompoundValueNode

open CompoundValueNode

/-- One of the children has a place for the number. -/
theorem writes_children {child : Double → CompoundValueNode} {inVector : Bool} (left right : List CompoundValueNode)
    (h : Writes fun d => (child d).toJson OStream.toString inVector (left.length + (right.length + 1)) left.length) :
    Writes fun d => childrenToJson OStream.toString inVector (left ++ child d :: right).length 0
      (left ++ child d :: right) := by
  refine h.append (childrenToJson OStream.toString inVector (left.length + (right.length + 1)) 0 left)
    (childrenToJson OStream.toString inVector (left.length + (right.length + 1)) (left.length + 1) right) fun d => ?_
  rw [List.length_append, List.length_cons, childrenToJson_append, childrenToJson, Nat.zero_add, String.append_assoc]

theorem NumberLeaf.writes_toJson (leaf : NumberLeaf) (inVector : Bool) (siblings siblingNo : Nat) :
    Writes fun d => (leaf.fill d).toJson OStream.toString inVector siblings siblingNo := by
  induction leaf generalizing inVector siblings siblingNo with
  | here name =>
    refine writes_toString.append (if inVector then "" else JSON_STR name ++ ":") (jsonComma siblings siblingNo)
      fun d => ?_
    cases inVector <;> simp [NumberLeaf.fill, CompoundValueNode.toJson]
  | inVector name left leaf right ih =>
    refine (writes_children left right (ih true _ _)).append (if inVector then "[" else JSON_STR name ++ ":[")
      ("]" ++ jsonComma siblings siblingNo) fun d => ?_
    rw [NumberLeaf.fill, CompoundValueNode.toJson]
    cases inVector <;> simp [String.append_assoc]
  | inObject name path left leaf right ih =>
    refine (writes_children left right (ih false _ _)).append (if inVector then "\x7b" else JSON_STR name ++ ":\x7b")
      ("\x7d" ++ jsonComma siblings siblingNo) fun d => ?_
    rw [NumberLeaf.fill, CompoundValueNode.toJson]
    cases inVector <;> simp [String.append_assoc]

theorem NumberLeaf.writes_rootToJson (leaf : NumberLeaf) :
    Writes fun d => (leaf.fill d).rootToJson OStream.toString := by
  cases leaf with
  | here name => exact (NumberLeaf.here name).writes_toJson false 1 0
  | inVector name left leaf right => exact writes_children left right (leaf.writes_toJson true _ _)
  | inObject name path left leaf right => exact writes_children left right (leaf.writes_toJson false _ _)

/-- At every place the number is written by `toString`. -/
theorem NumberPlace.writes (isodate2str : Double → String) (place : NumberPlace) :
    Writes fun d => place.toJson isodate2str d := by
  cases place with
  | attributeValue ca simple number notDate isLastElement renderFormat attributeResponse =>
    have hvalue (d : Double) :
        { ca with numberValue := d }.valueToJson OStream.toString isodate2str = OStream.toString d := by
      simp [ContextAttribute.valueToJson, simple, number, notDate]
    have hmember (d : Double) : { ca with numberValue := d }.valueMemberToJson OStream.toString isodate2str =
        JSON_PROP "value" ++ OStream.toString d := by
      simp [ContextAttribute.valueMemberToJson, simple, number, notDate, JSON_VALUE_NUMBER]
    simp only [NumberPlace.toJson, ContextAttribute.toJson, hvalue, hmember]
    split
    · refine writes_toString.append (if renderFormat = .NGSI_V2_KEYVALUES then JSON_STR ca.name ++ ":" else "")
        (if isLastElement then "" else ",") fun d => rfl
    · refine writes_toString.append
        ((if attributeResponse then "" else JSON_STR ca.name ++ ":\x7b") ++
          (if ca.type ≠ "" then JSON_VALUE "type" ca.type else JSON_VALUE "type" DEFAULT_TYPE) ++ "," ++
          JSON_PROP "value")
        ("," ++ JSON_STR "metadata" ++ ":" ++ "\x7b" ++
          metadataVectorToJson OStream.toString true ca.metadataVector ++ "\x7d" ++
          (if attributeResponse then "" else "\x7d") ++ if isLastElement then "" else ",") fun d => ?_
      simp only [String.append_assoc]
  | metadataValue md number isLastElement =>
    refine writes_toString.append
      (JSON_STR md.name ++ ":\x7b" ++
        (if md.type ≠ "" then JSON_VALUE "type" md.type else JSON_VALUE "type" DEFAULT_TYPE) ++ "," ++ JSON_PROP "value")
      ("\x7d" ++ if isLastElement then "" else ",") fun d => ?_
    simp only [NumberPlace.toJson, Metadata.toJson, Metadata.valueMemberToJson, number, JSON_VALUE_NUMBER,
      String.append_assoc]
  | compoundLeaf leaf => exact leaf.writes_rootToJson

/-! ### Integers -/

/-- The text that is written for the integer at its place denotes it. -/
def RenderedExactly (isodate2str : Double → String) (place : NumberPlace) (n : ℤ) : Prop :=
  ∃ before after, (∀ d, place.toJson isodate2str d = before ++ OStream.toString d ++ after) ∧
    DenotesNumber (OStream.toString (.fin n)).toList n

/-- An integer is rendered exactly if and only if it has no more than six significant digits. -/
theorem rendered_exactly_iff (isodate2str : Double → String) (place : NumberPlace) (n : ℤ) :
    RenderedExactly isodate2str place n ↔ SixDigits n := by
  rw [← denotes_toString_int_iff]
  constructor
  · rintro ⟨before, after, -, hdenotes⟩
    exact hdenotes
  · intro hdenotes
    obtain ⟨before, after, hwrites⟩ := place.writes isodate2str
    exact ⟨before, after, hwrites, hdenotes⟩

/-- `1234567` as the value of a metadata is rendered as `1.23457e+06`. -/
theorem counter_altered :
    ¬RenderedExactly (fun _ => "") (.metadataValue { name := "count", type := "Number", valueType := .number } rfl true)
      1234567 := by
  rintro ⟨before, after, -, hdenotes⟩
  obtain ⟨digits, zeros, hdigits, heq⟩ := (denotes_toString_int_iff 1234567).1 hdenotes
  have hnat : 1234567 = digits * 10 ^ zeros := heq
  cases zeros with
  | zero => omega
  | succ zeros =>
    rw [pow_succ, ← mul_assoc] at hnat
    omega

example : OStream.toString (.fin 1234567) = "1.23457e+06" := by decide +kernel

end OrionBroker
