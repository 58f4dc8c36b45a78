import OrionBroker.FilterDocument
import OrionBroker.FilterClone
import OrionBroker.Reflected

/-!
# String filters in memory and in the database (`StringFilter.cpp`)

A string filter is used twice: `match` looks at an entity in memory, and `mongoFilterPopulate` builds filters for the
stored document.  What an item means is said once (`StringFilterItem.holds`): the attribute is there, its value is of the
type of the values that the item has, and it is related to them as the operator says.

* The filters for the database say this of the document, as long as the path of an item leads to its attribute
  (`selects_iff_holds`).  A name with a dot leads into the sub-document of another attribute, and an attribute with an ID
  is stored under another key.
* `match` says this of the entity in memory, but for some items (`accepts_eq_holds_iff`).  It compares with the number and
  the text of an attribute whatever its type is, it never finds a Boolean value, its `>=` and `<=` are the negations of
  `<` and `>`, which fail for different types, and it ends at the first pattern.
-/

namespace OrionBroker

open Bson

/-! ### Stored entities -/

/-- The document of the `entities` collection. -/
def EntityDoc.toBson (d : EntityDoc) : BSONObj :=
  [("_id", .object ([("id", .string d.id)] ++ (if d.type = "" then [] else [("type", .string d.type)]) ++
      [("servicePath", .string d.servicePath)])),
    ("attrNames", .array (d.attrNames.map .string)),
    (ENT_ATTRS, .object d.attrs)] ++
    (d.creDate.toList.map fun n => (ENT_CREATION_DATE, .int n)) ++
    (d.modDate.toList.map fun n => (ENT_MODIFICATION_DATE, .int n)) ++
    d.location.toList.map fun l => ("location", l.toBson)

/-- The document of an entity: the attributes under their keys, with their values, and the dates. -/
structure Stores (entityDoc : EntityDoc) (ce : ContextElement) : Prop where
  attrs : ∀ k, Option.Rel (fun ca v => ∃ o, v = .object o ∧ o.lookup ENT_ATTRS_VALUE = ca.valueBson.lookup ENT_ATTRS_VALUE)
    (ce.contextAttributeVector.find? fun ca => ca.key = k) (entityDoc.attrs.lookup k)
  creDate : entityDoc.creDate = some ce.creDate
  modDate : entityDoc.modDate = some ce.modDate

/-- A string, a number, a Boolean value or null. -/
def ContextAttribute.Scalar (ca : ContextAttribute) : Prop :=
  ca.compoundValueP = none ∧ ca.valueType ∈ [ValueType.string, .number, .boolean, .none]

instance (ca : ContextAttribute) : Decidable ca.Scalar := by unfold ContextAttribute.Scalar; infer_instance

/-- The value of an attribute in the document.  A date is stored as an integer. -/
inductive ValueOf (ca : ContextAttribute) : BSONValue → Prop where
  | string : ca.valueType = .string → ValueOf ca (.string ca.stringValue)
  | number {v : BSONValue} : ca.valueType = .number → v.number = some ca.numberValue → ValueOf ca v
  | boolean : ca.valueType = .boolean → ValueOf ca (.bool ca.boolValue)
  | none : ca.valueType = .none → ValueOf ca .null

theorem valueOf_scalar {ca : ContextAttribute} (h : ca.Scalar) :
    ∃ v, ca.valueBson.lookup ENT_ATTRS_VALUE = some v ∧ ValueOf ca v := by
  obtain ⟨hcompound, htype⟩ := h
  unfold ContextAttribute.valueBson ContextAttribute.bsonAppendAttrValue
  rw [hcompound]
  cases hvalue : ca.valueType with
  | string => exact ⟨_, rfl, .string hvalue⟩
  | number => exact ⟨_, rfl, .number hvalue rfl⟩
  | boolean => exact ⟨_, rfl, .boolean hvalue⟩
  | none => exact ⟨_, rfl, .none hvalue⟩
  | unknown | vector | object => simp [hvalue] at htype

/-- What `createEntity` writes is the document of the entity with the attributes of the request and the dates of now. -/
theorem stores_createEntity {env : Env} {eP : EntityId} {attrsV : List ContextAttribute} {apiVersion : ApiVersion}
    {entityDoc : EntityDoc} (h : createEntity env eP attrsV apiVersion = .ok entityDoc) :
    Stores entityDoc
      { entityId := eP, contextAttributeVector := attrsV, creDate := env.getCurrentTime, modDate := env.getCurrentTime } := by
  have hdates : entityDoc.creDate = some env.getCurrentTime ∧ entityDoc.modDate = some env.getCurrentTime := by
    unfold createEntity at h
    split at h
    · split at h
      · cases h
      · simp only at h
        split at h
        · cases h
        · cases h
          exact ⟨rfl, rfl⟩
    · cases h
  refine ⟨fun k => ?_, hdates.1, hdates.2⟩
  rw [(createEntity_doc h).1]
  clear h hdates
  dsimp only
  induction attrsV with
  | nil => exact .none
  | cons ca attrsV ih =>
    rw [List.map_cons, lookup_cons_eq, List.find?_cons]
    by_cases hk : k = ca.key
    · rw [if_pos hk, decide_eq_true hk.symm]
      refine .some ⟨_, rfl, ?_⟩
      exact (hasForm_createdAttribute env.getCurrentTime ca apiVersion).1
    · rw [if_neg hk, decide_eq_false (Ne.symm hk)]
      exact ih

/-! ### What an item means -/

namespace StringFilterItem

variable (regexec : String → String → Bool) (item : StringFilterItem)

def equalsNumber (d : Double) : Bool :=
  match item.valueType with
  | .SfvtNumber | .SfvtDate => Comparison.eq.number d item.numberValue
  | .SfvtNumberRange | .SfvtDateRange =>
    Comparison.gte.number d item.numberRangeFrom && Comparison.lte.number d item.numberRangeTo
  | .SfvtNumberList | .SfvtDateList => item.numberList.any fun e => Comparison.eq.number d e
  | _ => false

def equalsString (s : String) : Bool :=
  match item.valueType with
  | .SfvtString => s = item.stringValue
  | .SfvtStringRange => !(s < item.stringRangeFrom || item.stringRangeTo < s)
  | .SfvtStringList => item.stringList.any fun t => s = t
  | _ => false

/-- The value of the attribute is of the type of the values of the item, and is one of them. -/
def equals (ca : ContextAttribute) : Bool :=
  match ca.valueType with
  | .number => item.equalsNumber ca.numberValue
  | .string => item.equalsString ca.stringValue
  | .boolean => item.valueType = .SfvtBool && ca.boolValue = item.boolValue
  | _ => false

/-- The value of the attribute is of the type of the value of the item, and stands to it as the comparison says. -/
def compares (c : Comparison) (ca : ContextAttribute) : Bool :=
  match ca.valueType with
  | .number => (item.valueType = .SfvtNumber || item.valueType = .SfvtDate) && c.number ca.numberValue item.numberValue
  | .string => item.valueType = .SfvtString && c.test (compare ca.stringValue item.stringValue)
  | _ => false

/-- The entity is as the item says.  A pattern that is not a string says nothing. -/
def holds (cer : ContextElementResponse) : Bool :=
  match item.op with
  | .SfopExists => (cer.contextElement.getAttribute item.attributeName).isSome
  | .SfopNotExists => (cer.contextElement.getAttribute item.attributeName).isNone
  | .SfopEquals => (item.leftAttribute cer).any item.equals
  | .SfopDiffers => (item.leftAttribute cer).any fun ca => !item.equals ca
  | .SfopGreaterThan => (item.leftAttribute cer).any (item.compares .gt)
  | .SfopGreaterThanOrEqual => (item.leftAttribute cer).any (item.compares .gte)
  | .SfopLessThan => (item.leftAttribute cer).any (item.compares .lt)
  | .SfopLessThanOrEqual => (item.leftAttribute cer).any (item.compares .lte)
  | .SfopMatchPattern =>
    item.valueType ≠ .SfvtString ||
      (item.leftAttribute cer).any fun ca => ca.valueType = .string && regexec item.stringValue ca.stringValue

/-! ### Where `match` differs -/

/-- What `matchEquals` compares with is what the item means: it takes the number, or the text, of an attribute of any
type, has no case for a Boolean value, and compares numbers as the hardware does. -/
def EqualsAsMeant (ca : ContextAttribute) : Prop :=
  match item.valueType with
  | .SfvtNumber | .SfvtDate =>
    if ca.valueType = .number then ca.numberValue = .nan → item.numberValue ≠ .nan
    else ca.numberValue.eq item.numberValue = false
  | .SfvtNumberRange | .SfvtDateRange =>
    if ca.valueType = .number then RangeInOrder ca.numberValue item.numberRangeFrom item.numberRangeTo
    else ca.numberValue.lt item.numberRangeFrom = true ∨ item.numberRangeTo.lt ca.numberValue = true
  | .SfvtNumberList | .SfvtDateList =>
    if ca.valueType = .number then ca.numberValue = .nan → .nan ∉ item.numberList
    else ∀ d ∈ item.numberList, ca.numberValue.eq d = false
  | .SfvtString => ca.valueType = .string ∨ ca.stringValue ≠ item.stringValue
  | .SfvtStringRange =>
    ca.valueType = .string ∨ ca.stringValue < item.stringRangeFrom ∨ item.stringRangeTo < ca.stringValue
  | .SfvtStringList => ca.valueType = .string ∨ ca.stringValue ∉ item.stringList
  | .SfvtBool => ca.valueType = .boolean → ca.boolValue ≠ item.boolValue
  | .SfvtNull => True

/-- `>=` and `<=` are about values of one type that are in order. -/
def OrderAsMeant (ca : ContextAttribute) : Prop :=
  (ca.valueType = .number ∧ (item.valueType = .SfvtNumber ∨ item.valueType = .SfvtDate) ∧
      (ca.numberValue = .nan ↔ item.numberValue = .nan)) ∨
    (ca.valueType = .string ∧ item.valueType = .SfvtString)

/-- `match` takes the item as it is meant. -/
def AsMeant (cer : ContextElementResponse) : Prop :=
  match item.op with
  | .SfopExists | .SfopNotExists | .SfopGreaterThan | .SfopLessThan => True
  | .SfopEquals | .SfopDiffers => ∀ ca ∈ item.leftAttribute cer, item.EqualsAsMeant ca
  | .SfopGreaterThanOrEqual | .SfopLessThanOrEqual => ∀ ca ∈ item.leftAttribute cer, item.OrderAsMeant ca
  | .SfopMatchPattern =>
    item.valueType = .SfvtString ∨
      ∃ ca ∈ item.leftAttribute cer, ca.valueType = .string ∧ regexec item.stringValue ca.stringValue = true

variable {regexec item} {ca : ContextAttribute} {cer : ContextElementResponse}

/-! ### `match` and the meaning -/

/-- An item that has numbers. -/
private theorem matchEquals_eq_iff_number (test : Double → Bool) (hmatch : item.matchEquals ca = test ca.numberValue)
    (hstring : ∀ s, item.equalsString s = false) (hbool : item.valueType ≠ .SfvtBool) :
    item.matchEquals ca = item.equals ca ↔
      if ca.valueType = .number then test ca.numberValue = item.equalsNumber ca.numberValue
      else test ca.numberValue = false := by
  rw [hmatch]
  unfold equals
  cases ca.valueType with
  | number => simp
  | string => simp [hstring]
  | boolean => simp [hbool]
  | _ => simp

/-- An item that has strings. -/
private theorem matchEquals_eq_iff_string (hmatch : item.matchEquals ca = item.equalsString ca.stringValue)
    (hnumber : ∀ d, item.equalsNumber d = false) (hbool : item.valueType ≠ .SfvtBool) :
    item.matchEquals ca = item.equals ca ↔ ca.valueType = .string ∨ item.equalsString ca.stringValue = false := by
  rw [hmatch]
  unfold equals
  cases ca.valueType with
  | string => simp
  | number => simp [hnumber]
  | boolean => simp [hbool]
  | _ => simp

theorem matchEquals_eq_iff : item.matchEquals ca = item.equals ca ↔ item.EqualsAsMeant ca := by
  cases hitem : item.valueType with
  | SfvtNumber | SfvtDate =>
    rw [matchEquals_eq_iff_number fun d => d.eq item.numberValue]
    all_goals simp [matchEquals, equalsString, equalsNumber, EqualsAsMeant, hitem, eq_eq_number_iff]
  | SfvtNumberRange | SfvtDateRange =>
    rw [matchEquals_eq_iff_number fun d => !(d.lt item.numberRangeFrom || item.numberRangeTo.lt d)]
    all_goals simp only [matchEquals, equalsString, equalsNumber, EqualsAsMeant, hitem, range_eq_iff]
    all_goals simp only [Bool.not_eq_false', Bool.or_eq_true, implies_true, ne_eq, reduceCtorEq, not_false_eq_true]
  | SfvtNumberList | SfvtDateList =>
    rw [matchEquals_eq_iff_number fun d => item.numberList.any fun e => d.eq e]
    all_goals simp only [matchEquals, equalsString, equalsNumber, EqualsAsMeant, hitem, any_eq_number_iff]
    all_goals simp
  | SfvtString =>
    rw [matchEquals_eq_iff_string]
    all_goals simp [matchEquals, equalsString, equalsNumber, EqualsAsMeant, hitem]
  | SfvtStringRange =>
    rw [matchEquals_eq_iff_string]
    all_goals simp only [matchEquals, equalsString, equalsNumber, EqualsAsMeant, hitem]
    all_goals simp only [Bool.not_eq_false', Bool.or_eq_true, decide_eq_true_eq, implies_true, ne_eq, reduceCtorEq,
      not_false_eq_true]
  | SfvtStringList =>
    have hlist : (item.stringList.any fun t => ca.stringValue = t) = false ↔ ca.stringValue ∉ item.stringList := by
      rw [Bool.eq_false_iff, ne_eq, List.any_eq_true]
      simp
    rw [matchEquals_eq_iff_string]
    all_goals simp only [matchEquals, equalsString, equalsNumber, EqualsAsMeant, hitem, hlist]
    all_goals simp only [implies_true, ne_eq, reduceCtorEq, not_false_eq_true]
  | SfvtBool | SfvtNull =>
    unfold matchEquals EqualsAsMeant equals equalsNumber equalsString
    rw [hitem]
    cases ca.valueType <;> simp

variable (item) in
theorem matchLessThan_eq : item.matchLessThan = item.compares .lt := by
  funext ca
  unfold matchLessThan compatibleType compares
  cases ca.valueType with
  | number => simp [number_lt]
  | string => simp [Comparison.test, isLT_compare]
  | _ => simp

variable (item) in
theorem matchGreaterThan_eq : item.matchGreaterThan = item.compares .gt := by
  funext ca
  unfold matchGreaterThan compatibleType compares
  cases ca.valueType with
  | number => simp [number_gt]
  | string => simp [Comparison.test, isGT_compare]
  | _ => simp

/-- A comparison is the negation of the opposite one for values of one type that are in order. -/
theorem not_compares_eq_iff {c opposite : Comparison} (htest : ∀ o, (!c.test o) = opposite.test o)
    (hnumber : ∀ d e, (!c.number d e) = opposite.number d e ↔ (d = .nan ↔ e = .nan)) :
    (!item.compares c ca) = item.compares opposite ca ↔ item.OrderAsMeant ca := by
  unfold compares OrderAsMeant
  cases hca : ca.valueType with
  | number =>
    by_cases hitem : item.valueType = .SfvtNumber ∨ item.valueType = .SfvtDate
    · have htype : (decide (item.valueType = .SfvtNumber) || decide (item.valueType = .SfvtDate)) = true := by
        simpa using hitem
      simp [htype, hitem, hnumber]
    · have htype : (decide (item.valueType = .SfvtNumber) || decide (item.valueType = .SfvtDate)) = false := by
        simpa using hitem
      simp [htype, hitem]
  | string =>
    by_cases hitem : item.valueType = .SfvtString
    · simp [hitem, htest]
    · simp [hitem]
  | _ => simp

theorem not_matchLessThan_eq_iff : (!item.matchLessThan ca) = item.compares .gte ca ↔ item.OrderAsMeant ca := by
  rw [matchLessThan_eq]
  refine not_compares_eq_iff (fun o => ?_) fun d e => ?_
  · cases o <;> rfl
  · rw [number_lt, not_lt_eq_gte_iff]

theorem not_matchGreaterThan_eq_iff : (!item.matchGreaterThan ca) = item.compares .lte ca ↔ item.OrderAsMeant ca := by
  rw [matchGreaterThan_eq]
  refine not_compares_eq_iff (fun o => ?_) fun d e => ?_
  · cases o <;> rfl
  · rw [number_gt, not_lt_eq_lte_iff]

/-- An item is accepted exactly when it holds, if and only if `match` takes it as it is meant. -/
theorem accepts_eq_holds_iff (hexists : item.op = .SfopExists → item.attributeName = item.left) :
    item.accepts regexec cer = item.holds regexec cer ↔ item.AsMeant regexec cer := by
  unfold accepts holds AsMeant
  cases hop : item.op with
  | SfopExists =>
    have hleft : (cer.contextElement.getAttribute item.attributeName).isSome = true →
        (item.leftAttribute cer).isSome = true := by
      unfold leftAttribute
      split
      · simp
      · simp [hop, hexists hop]
    simpa using hleft
  | SfopNotExists => simp
  | SfopGreaterThan => simp [matchGreaterThan_eq]
  | SfopLessThan => simp [matchLessThan_eq]
  | SfopEquals =>
    cases item.leftAttribute cer with
    | none => simp
    | some ca => simp [matchEquals_eq_iff]
  | SfopDiffers =>
    cases item.leftAttribute cer with
    | none => simp
    | some ca => simp [matchEquals_eq_iff]
  | SfopGreaterThanOrEqual =>
    cases item.leftAttribute cer with
    | none => simp
    | some ca => simp only [Option.any_some, not_matchLessThan_eq_iff, Option.mem_some_iff, forall_eq']
  | SfopLessThanOrEqual =>
    cases item.leftAttribute cer with
    | none => simp
    | some ca => simp only [Option.any_some, not_matchGreaterThan_eq_iff, Option.mem_some_iff, forall_eq']
  | SfopMatchPattern =>
    have hpattern : item.matchPattern regexec =
        fun ca => decide (ca.valueType = .string) && regexec item.stringValue ca.stringValue := by
      funext ca
      unfold matchPattern
      by_cases hca : ca.valueType = .string <;> simp [hca]
    rw [hpattern]
    by_cases hitem : item.valueType = .SfvtString
    · simp [hitem]
    · cases item.leftAttribute cer with
      | none => simp [hitem]
      | some ca => simp [hitem]

/-! ### The values of the document -/

end StringFilterItem

section Values

variable {ca : ContextAttribute} {v : BSONValue} {a : Option ContextAttribute} {w : Option BSONValue}

theorem ValueOf.holds_number (h : ValueOf ca v) (c : Comparison) (e : Double) :
    c.holds (.double e) (some v) = (decide (ca.valueType = .number) && c.number ca.numberValue e) := by
  cases h with
  | number hca hv => rw [Bson.holds_number hv, decide_eq_true hca, Bool.true_and]
  | string hca | boolean hca | none hca =>
    rw [holds_of_canonicalType (by simp [BSONValue.canonicalType]), hca]
    rfl

theorem ValueOf.holds_string (h : ValueOf ca v) (c : Comparison) (t : String) :
    c.holds (.string t) (some v) = (decide (ca.valueType = .string) && c.test (compare ca.stringValue t)) := by
  cases h with
  | string hca => rw [Bson.holds_string, decide_eq_true hca, Bool.true_and]
  | number hca hv =>
    have htype : ((some v).getD .null).canonicalType = 10 := canonicalType_of_number hv
    rw [holds_of_canonicalType (by rw [htype]; simp [BSONValue.canonicalType]), hca]
    rfl
  | boolean hca | none hca =>
    rw [holds_of_canonicalType (by simp [BSONValue.canonicalType]), hca]
    rfl

theorem ValueOf.eq_holds_bool (h : ValueOf ca v) (b : Bool) :
    Comparison.eq.holds (.bool b) (some v) = (decide (ca.valueType = .boolean) && decide (ca.boolValue = b)) := by
  cases h with
  | boolean hca =>
    rw [Bson.eq_holds_bool, decide_eq_true hca, Bool.true_and]
    rfl
  | number hca hv =>
    have htype : ((some v).getD .null).canonicalType = 10 := canonicalType_of_number hv
    rw [holds_of_canonicalType (by rw [htype]; simp [BSONValue.canonicalType]), hca]
    rfl
  | string hca | none hca =>
    rw [holds_of_canonicalType (by simp [BSONValue.canonicalType]), hca]
    rfl

theorem ValueOf.regexHolds (h : ValueOf ca v) (regexec : String → String → Bool) (pattern : String) :
    Bson.regexHolds (fun pattern => some (regexec pattern)) pattern (some v) =
      (decide (ca.valueType = .string) && regexec pattern ca.stringValue) := by
  cases h with
  | string hca => simp [Bson.regexHolds, hca]
  | number hca hv => cases v <;> simp [BSONValue.number] at hv <;> simp [Bson.regexHolds, hca]
  | boolean hca | none hca => simp [Bson.regexHolds, hca]

theorem ValueOf.reached (h : ValueOf ca v) : Bson.reached [] v = [some v] := by
  cases h with
  | number hca hv => cases v <;> first | rfl | cases hv
  | string hca | boolean hca | none hca => rfl

/-- A missing value is not related to a number, a string or a Boolean value. -/
theorem holds_missing (c : Comparison) {v : BSONValue} (h : v ≠ .null) : c.holds v none = false := by
  refine holds_of_canonicalType ?_
  cases v <;> simp [BSONValue.canonicalType] at h ⊢

end Values

namespace StringFilterItem

variable {regexec : String → String → Bool} {item : StringFilterItem} {a : Option ContextAttribute}
  {w : Option BSONValue} {o : BSONObj}

/-- The values that an item which is no range has for `==` and `!=`. -/
def operands (item : StringFilterItem) : List BSONValue :=
  match item.valueType with
  | .SfvtNumber | .SfvtDate => [.double item.numberValue]
  | .SfvtString => [.string item.stringValue]
  | .SfvtBool => [.bool item.boolValue]
  | .SfvtNumberList | .SfvtDateList => item.numberList.map .double
  | .SfvtStringList => item.stringList.map .string
  | _ => []

def isRange (item : StringFilterItem) : Bool :=
  item.valueType = .SfvtNumberRange || item.valueType = .SfvtDateRange || item.valueType = .SfvtStringRange

theorem mongoEquals_cases (h : item.mongoEquals = .ok o) :
    (item.isRange = true ∧ o = item.mongoRange) ∨
      (item.isRange = false ∧
        (o = [("$in", .array item.operands)] ∨ o = [("$exists", .bool true), ("$in", .array item.operands)])) := by
  unfold mongoEquals mongoList at h
  unfold isRange operands
  cases hitem : item.valueType <;> rw [hitem] at h <;> cases h <;> simp

theorem mongoDiffers_cases (h : item.mongoDiffers = .ok o) :
    (item.isRange = true ∧ o = [("$exists", .bool true), ("$not", .object item.mongoRange)]) ∨
      (item.isRange = false ∧ o = [("$exists", .bool true), ("$nin", .array item.operands)]) := by
  unfold mongoDiffers mongoList at h
  unfold isRange operands
  cases hitem : item.valueType <;> rw [hitem] at h <;> cases h <;> simp

/-- The value is one of those of the item. -/
theorem any_operands (hrel : Option.Rel ValueOf a w) (hitem : item.isRange = false) :
    (item.operands.any fun v => Comparison.eq.holds v w) = a.any item.equals := by
  cases hrel with
  | none =>
    have hmissing : ∀ v ∈ item.operands, Comparison.eq.holds v none = false := by
      intro v hv
      refine holds_missing _ ?_
      unfold operands at hv
      rintro rfl
      split at hv <;> simp at hv
    rw [Option.any_none, List.any_eq_false]
    exact fun v hv => by simp [hmissing v hv]
  | some hv =>
    rename_i ca v
    have hnumbers : ∀ l : List Double, ((l.map BSONValue.double).any fun v' => Comparison.eq.holds v' (some v)) =
        (decide (ca.valueType = .number) && l.any fun e => Comparison.eq.number ca.numberValue e) := by
      intro l
      simp only [List.any_map, Function.comp_def, hv.holds_number]
      cases decide (ca.valueType = .number) <;> simp
    have hstrings : ∀ l : List String, ((l.map BSONValue.string).any fun v' => Comparison.eq.holds v' (some v)) =
        (decide (ca.valueType = .string) && l.any fun t => decide (ca.stringValue = t)) := by
      intro l
      simp only [List.any_map, Function.comp_def, hv.holds_string, Comparison.test, isEq_compare]
      cases decide (ca.valueType = .string) <;> simp
    rw [Option.any_some]
    unfold equals equalsNumber equalsString operands
    unfold isRange at hitem
    cases htype : item.valueType with
    | SfvtNumberRange | SfvtDateRange | SfvtStringRange => simp [htype] at hitem
    | SfvtNumber | SfvtDate =>
      simp only [List.any_cons, List.any_nil, hv.holds_number]
      cases ca.valueType <;> simp
    | SfvtString =>
      simp only [List.any_cons, List.any_nil, hv.holds_string, Comparison.test, isEq_compare]
      cases ca.valueType <;> simp
    | SfvtBool =>
      simp only [List.any_cons, List.any_nil, hv.eq_holds_bool]
      cases ca.valueType <;> simp
    | SfvtNumberList | SfvtDateList =>
      simp only [hnumbers]
      cases ca.valueType <;> simp
    | SfvtStringList =>
      simp only [hstrings]
      cases ca.valueType <;> simp
    | SfvtNull => cases ca.valueType <;> simp

/-- The value is between the ends of the range. -/
theorem accepts_mongoRange (hrel : Option.Rel ValueOf a w) (hitem : item.isRange = true) :
    ∃ c, Criterion.ofOperators item.mongoRange = some c ∧
      ∀ pcre, c.accepts pcre [w] = a.any item.equals := by
  unfold mongoRange
  unfold isRange at hitem
  have hequals : ∀ ca : ContextAttribute, item.equals ca =
      if item.valueType = .SfvtStringRange then
        decide (ca.valueType = .string) &&
          !(ca.stringValue < item.stringRangeFrom || item.stringRangeTo < ca.stringValue)
      else
        decide (ca.valueType = .number) &&
          (Comparison.gte.number ca.numberValue item.numberRangeFrom &&
            Comparison.lte.number ca.numberValue item.numberRangeTo) := by
    intro ca
    unfold equals equalsNumber equalsString
    cases htype : item.valueType <;> rw [htype] at hitem <;> simp at hitem <;> cases ca.valueType <;> simp
  split
  · rename_i hstring
    refine ⟨_, rfl, fun pcre => ?_⟩
    cases hrel with
    | none => simp [Criterion.accepts, holds_missing]
    | some hv =>
      rename_i ca v
      simp only [Criterion.accepts, List.any_cons, List.any_nil, Bool.or_false, hv.holds_string, Comparison.test,
        isGE_compare, isLE_compare, Option.any_some, hequals, if_pos hstring]
      cases decide (ca.valueType = .string) <;> simp
  · rename_i hnumber
    refine ⟨_, rfl, fun pcre => ?_⟩
    cases hrel with
    | none => simp [Criterion.accepts, holds_missing]
    | some hv =>
      rename_i ca v
      simp only [Criterion.accepts, List.any_cons, List.any_nil, Bool.or_false, hv.holds_number, Option.any_some, hequals,
        if_neg hnumber]
      cases decide (ca.valueType = .number) <;> simp

theorem isSome_of_rel (hrel : Option.Rel ValueOf a w) : w.isSome = a.isSome := by
  cases hrel <;> rfl

private theorem present_and (a : Option ContextAttribute) (test : ContextAttribute → Bool) :
    ((a.isSome == true) && a.any test) = a.any test := by
  cases a <;> simp

private theorem present_and_not (a : Option ContextAttribute) (test : ContextAttribute → Bool) :
    ((a.isSome == true) && !a.any test) = a.any fun ca => !test ca := by
  cases a <;> simp

section Filters

variable (pcre : String → Option (String → Bool))

theorem accepts_isIn_operands (hrel : Option.Rel ValueOf a w) (hitem : item.isRange = false) :
    (Criterion.isIn (item.operands.map .value)).accepts pcre [w] = a.any item.equals := by
  simp [Criterion.accepts, InItem.holds, Function.comp_def, any_operands hrel hitem]

theorem accepts_notIn_operands (hrel : Option.Rel ValueOf a w) (hitem : item.isRange = false) :
    (Criterion.notIn (item.operands.map .value)).accepts pcre [w] = !a.any item.equals := by
  simp [Criterion.accepts, InItem.holds, Function.comp_def, any_operands hrel hitem]

theorem accepts_present (hrel : Option.Rel ValueOf a w) :
    (Criterion.present true).accepts pcre [w] = (a.isSome == true) := by
  simp [Criterion.accepts, isSome_of_rel hrel]

/-- What `==` gives. -/
theorem accepts_mongoEquals (hrel : Option.Rel ValueOf a w) (h : item.mongoEquals = .ok o) :
    (Criterion.ofBson (.object o)).accepts pcre [w] = a.any item.equals := by
  rcases mongoEquals_cases h with ⟨hrange, rfl⟩ | ⟨hrange, rfl | rfl⟩
  · obtain ⟨c, hc, haccepts⟩ := accepts_mongoRange hrel hrange
    rw [Criterion.ofBson, hc, Option.getD_some, haccepts]
  · exact accepts_isIn_operands pcre hrel hrange
  · have hcriterion : Criterion.ofBson (.object [("$exists", .bool true), ("$in", .array item.operands)]) =
        .both (.present true) (.isIn (item.operands.map .value)) := rfl
    rw [hcriterion, Criterion.accepts, accepts_present pcre hrel, accepts_isIn_operands pcre hrel hrange, present_and]

/-- What `!=` gives. -/
theorem accepts_mongoDiffers (hrel : Option.Rel ValueOf a w) (h : item.mongoDiffers = .ok o) :
    (Criterion.ofBson (.object o)).accepts pcre [w] = a.any fun ca => !item.equals ca := by
  rcases mongoDiffers_cases h with ⟨hrange, rfl⟩ | ⟨hrange, rfl⟩
  · obtain ⟨c, hc, haccepts⟩ := accepts_mongoRange hrel hrange
    have hcriterion : Criterion.ofBson (.object [("$exists", .bool true), ("$not", .object item.mongoRange)]) =
        .both (.present true) (.not c) := by
      simp [Criterion.ofBson, Criterion.ofOperators, Criterion.ofOperator, hc]
    rw [hcriterion, Criterion.accepts, accepts_present pcre hrel, Criterion.accepts, haccepts, present_and_not]
  · have hcriterion : Criterion.ofBson (.object [("$exists", .bool true), ("$nin", .array item.operands)]) =
        .both (.present true) (.notIn (item.operands.map .value)) := rfl
    rw [hcriterion, Criterion.accepts, accepts_present pcre hrel, accepts_notIn_operands pcre hrel hrange, present_and_not]

/-- What the operators by order give. -/
theorem accepts_mongoCompare {operator : String} {c : Comparison} (hc : Comparison.ofOperator operator = some c)
    (hrel : Option.Rel ValueOf a w) (hitem : isOrdered item.valueType = true) :
    (Criterion.ofBson (.object (item.mongoCompare operator))).accepts pcre [w] = a.any (item.compares c) := by
  have hoperator : operator ≠ "$regex" := by
    rintro rfl
    cases hc
  unfold isOrdered at hitem
  unfold mongoCompare
  split
  · rename_i hstring
    have hcriterion : Criterion.ofBson (.object [(operator, .string item.stringValue)]) =
        .compare c (.string item.stringValue) := by
      simp [Criterion.ofBson, Criterion.ofOperators, Criterion.ofOperator, hoperator, hc]
    rw [hcriterion]
    cases hrel with
    | none => simp [Criterion.accepts, holds_missing]
    | some hv =>
      rename_i ca v
      simp only [Criterion.accepts, List.any_cons, List.any_nil, Bool.or_false, hv.holds_string, Option.any_some, compares]
      cases ca.valueType <;> simp [hstring]
  · rename_i hnumber
    have hcriterion : Criterion.ofBson (.object [(operator, .double item.numberValue)]) =
        .compare c (.double item.numberValue) := by
      simp [Criterion.ofBson, Criterion.ofOperators, Criterion.ofOperator, hc]
    have htype : (decide (item.valueType = .SfvtNumber) || decide (item.valueType = .SfvtDate)) = true := by
      simpa [hnumber] using hitem
    rw [hcriterion]
    cases hrel with
    | none => simp [Criterion.accepts, holds_missing]
    | some hv =>
      rename_i ca v
      simp only [Criterion.accepts, List.any_cons, List.any_nil, Bool.or_false, hv.holds_number, Option.any_some, compares,
        htype]
      cases ca.valueType <;> simp [hnumber]

theorem accepts_regex (regexec : String → String → Bool) (pattern : String) (hrel : Option.Rel ValueOf a w) :
    (Criterion.ofBson (.object [("$regex", .string pattern)])).accepts (fun pattern => some (regexec pattern)) [w] =
      a.any fun ca => decide (ca.valueType = .string) && regexec pattern ca.stringValue := by
  have hcriterion : Criterion.ofBson (.object [("$regex", .string pattern)]) = .regex pattern := rfl
  rw [hcriterion]
  cases hrel with
  | none => simp [Criterion.accepts, Bson.regexHolds]
  | some hv => simp [Criterion.accepts, hv.regexHolds]

end Filters

/-! ### The path of an item -/

/-- The operators with one side. -/
def isUnary (item : StringFilterItem) : Bool := item.op = .SfopExists || item.op = .SfopNotExists

/-- The name of the attribute that an item is about. -/
def attrName (item : StringFilterItem) : String := if item.isUnary then item.attributeName else item.left

/-- The path of the filter leads to the attribute: the name has no dot, and it is the key of the attribute with this name,
and of no other. -/
def Located (item : StringFilterItem) (ce : ContextElement) : Prop :=
  (item.isUnary = false ∧ item.isDate = true) ∨
    ('.' ∉ item.attrName.toList ∧
      ∀ ca ∈ ce.contextAttributeVector, ca.key = item.attrName ↔ ca.name = item.attrName)

instance (item : StringFilterItem) (ce : ContextElement) : Decidable (item.Located ce) := by
  unfold Located
  infer_instance

variable {entityDoc : EntityDoc} {ce : ContextElement}

private theorem lookup_attrs (d : EntityDoc) : d.toBson.lookup ENT_ATTRS = some (.object d.attrs) := by
  simp [EntityDoc.toBson, lookup_cons_eq, ENT_ATTRS]

private theorem lookup_creDate (d : EntityDoc) {n : Int} (h : d.creDate = some n) :
    d.toBson.lookup ENT_CREATION_DATE = some (.int n) := by
  simp [EntityDoc.toBson, lookup_cons_eq, ENT_ATTRS, ENT_CREATION_DATE, h]

private theorem lookup_modDate (d : EntityDoc) {n : Int} (h : d.modDate = some n) :
    d.toBson.lookup ENT_MODIFICATION_DATE = some (.int n) := by
  cases hcre : d.creDate with
  | none => simp [EntityDoc.toBson, lookup_cons_eq, ENT_ATTRS, ENT_CREATION_DATE, ENT_MODIFICATION_DATE, h, hcre]
  | some m => simp [EntityDoc.toBson, lookup_cons_eq, ENT_ATTRS, ENT_CREATION_DATE, ENT_MODIFICATION_DATE, h, hcre]

/-- The attribute of that name is the one under that key. -/
theorem rel_getAttribute (hstored : Stores entityDoc ce) {n : String}
    (hkey : ∀ ca ∈ ce.contextAttributeVector, ca.key = n ↔ ca.name = n) :
    Option.Rel (fun ca v => ∃ o, v = .object o ∧ o.lookup ENT_ATTRS_VALUE = ca.valueBson.lookup ENT_ATTRS_VALUE)
      (ce.getAttribute n) (entityDoc.attrs.lookup n) := by
  have hfind : ce.getAttribute n = ce.contextAttributeVector.find? fun ca => ca.key = n := by
    refine List.find?_congr fun ca hca => ?_
    exact decide_eq_decide.2 (hkey ca hca).symm
  rw [hfind]
  exact hstored.attrs n

/-- Whether the database finds something under `attrs` with that name. -/
theorem reached_attr (hstored : Stores entityDoc ce) {n : String} (hdot : '.' ∉ n.toList)
    (hkey : ∀ ca ∈ ce.contextAttributeVector, ca.key = n ↔ ca.name = n) :
    ∃ w, Bson.reached (splitPath (ENT_ATTRS ++ "." ++ n)) (.object entityDoc.toBson) = [w] ∧
      w.isSome = (ce.getAttribute n).isSome := by
  rw [splitPath_append n (by decide), splitPath_of_no_dot hdot, reached_object, reachedField_of_lookup (lookup_attrs _),
    reached_object, reachedField]
  have hrel := rel_getAttribute hstored hkey
  revert hrel
  cases hca : ce.getAttribute n with
  | none =>
    intro hrel
    generalize entityDoc.attrs.lookup n = x at hrel ⊢
    cases hrel
    exact ⟨none, rfl, rfl⟩
  | some ca =>
    intro hrel
    generalize entityDoc.attrs.lookup n = x at hrel ⊢
    cases hrel with
    | some h =>
      obtain ⟨o, rfl, -⟩ := h
      exact ⟨some (.object o), rfl, rfl⟩

/-- The value of the attribute is found under `value`. -/
theorem reached_value (hstored : Stores entityDoc ce) (hscalar : ∀ ca ∈ ce.contextAttributeVector, ca.Scalar) {n : String}
    (hdot : '.' ∉ n.toList) (hkey : ∀ ca ∈ ce.contextAttributeVector, ca.key = n ↔ ca.name = n) :
    ∃ w, Bson.reached (splitPath (ENT_ATTRS ++ "." ++ n ++ "." ++ ENT_ATTRS_VALUE)) (.object entityDoc.toBson) = [w] ∧
      Option.Rel ValueOf (ce.getAttribute n) w := by
  have hpath : splitPath (ENT_ATTRS ++ "." ++ n ++ "." ++ ENT_ATTRS_VALUE) = [ENT_ATTRS, n, ENT_ATTRS_VALUE] := by
    have hassoc : ENT_ATTRS ++ "." ++ n ++ "." ++ ENT_ATTRS_VALUE = ENT_ATTRS ++ "." ++ (n ++ "." ++ ENT_ATTRS_VALUE) := by
      simp only [String.append_assoc]
    rw [hassoc, splitPath_append _ (by decide), splitPath_append _ hdot, splitPath_of_no_dot (by decide)]
  rw [hpath, reached_object, reachedField_of_lookup (lookup_attrs _), reached_object, reachedField]
  have hrel := rel_getAttribute hstored hkey
  cases hca : ce.getAttribute n with
  | none =>
    rw [hca] at hrel
    generalize entityDoc.attrs.lookup n = x at hrel ⊢
    cases hrel
    exact ⟨none, rfl, .none⟩
  | some ca =>
    rw [hca] at hrel
    generalize entityDoc.attrs.lookup n = x at hrel ⊢
    cases hrel with
    | some h =>
      obtain ⟨o, rfl, hvalue⟩ := h
      obtain ⟨v, hv, hof⟩ := valueOf_scalar (hscalar ca (List.mem_of_find?_eq_some hca))
      refine ⟨some v, ?_, .some hof⟩
      rw [hv] at hvalue
      show Bson.reached [ENT_ATTRS_VALUE] (.object o) = [some v]
      rw [reached_object, reachedField_of_lookup hvalue, hof.reached]

/-- The path of the filter of an item with two sides reaches the value that the item is about. -/
theorem reached_mongoField {cer : ContextElementResponse} (hstored : Stores entityDoc cer.contextElement)
    (hscalar : ∀ ca ∈ cer.contextElement.contextAttributeVector, ca.Scalar) (hunary : item.isUnary = false)
    (hlocated : item.Located cer.contextElement) :
    ∃ w, Bson.reached (splitPath item.mongoField) (.object entityDoc.toBson) = [w] ∧
      Option.Rel ValueOf (item.leftAttribute cer) w := by
  have hop : item.op ≠ .SfopNotExists := by
    intro h
    simp [isUnary, h] at hunary
  unfold mongoField leftAttribute
  by_cases hcreated : item.left = DATE_CREATED
  · have hdate : item.isDate = true := by simp [isDate, hcreated]
    rw [if_pos hcreated, if_pos hdate, if_pos hcreated, splitPath_of_no_dot (by decide), reached_object,
      reachedField_of_lookup (lookup_creDate _ hstored.creDate)]
    exact ⟨_, rfl, .some (.number rfl rfl)⟩
  · by_cases hmodified : item.left = DATE_MODIFIED
    · have hdate : item.isDate = true := by simp [isDate, hmodified]
      rw [if_neg hcreated, if_pos hmodified, if_pos hdate, if_neg hcreated, splitPath_of_no_dot (by decide), reached_object,
        reachedField_of_lookup (lookup_modDate _ hstored.modDate)]
      exact ⟨_, rfl, .some (.number rfl rfl)⟩
    · have hdate : ¬item.isDate = true := by simp [isDate, hcreated, hmodified]
      rw [if_neg hcreated, if_neg hmodified, if_neg hdate, if_pos hop]
      rcases hlocated with ⟨-, h⟩ | ⟨hdot, hkey⟩
      · exact absurd h hdate
      · have hname : item.attrName = item.left := by simp [attrName, hunary]
        rw [hname] at hdot hkey
        exact reached_value hstored hscalar hdot hkey

/-! ### Parsed items -/

/-- What the parser promises of an item: `a` is about the attribute `a`, and order is for numbers, dates and strings. -/
structure WellTyped (item : StringFilterItem) : Prop where
  left : item.op = .SfopExists → item.attributeName = item.left
  ordered : isOrderOp item.op = true → isOrdered item.valueType = true

section Parse

variable {lib : CLibrary} {item' : StringFilterItem}

theorem wellTyped_of_equality (h : item.op = .SfopEquals ∨ item.op = .SfopDiffers) : item.WellTyped := by
  rcases h with h | h <;> exact ⟨by simp [h], by simp [isOrderOp, h]⟩

theorem valueParse_wellTyped {s : List Char} (hbinary : item.op ≠ .SfopExists) (h : valueParse lib item s = .ok item') :
    item'.WellTyped := by
  unfold valueParse at h
  cases hv : valueGet lib s item.numberValue item.stringValue item.boolValue with
  | error e =>
    rw [hv] at h
    cases h
  | ok v =>
    rw [hv] at h
    simp only [bind, Except.bind] at h
    split_ifs at h with hequality horder hpattern hcompiles
    · cases h
      exact wellTyped_of_equality hequality
    · cases h
      exact ⟨fun hop => absurd hop hbinary, fun hop => by simp [isOrderOp, hpattern] at hop⟩
    · cases h
      rw [not_and_not_right] at horder
      exact ⟨fun hop => absurd hop hbinary, horder⟩

/-- Without an operator the item is both of its sides. -/
theorem findOp_exists {s : List Char} (h : (findOp s).1 = .SfopExists) : (findOp s).2.1 = (findOp s).2.2 := by
  unfold findOp at h ⊢
  cases hfound : binaryOps.findSome? fun entry => (strstr entry.1.toList s).map fun sides => (entry.2, sides) with
  | some found =>
    rw [hfound] at h
    obtain ⟨entry, hentry, hmap⟩ := List.exists_of_findSome?_eq_some hfound
    obtain ⟨sides, -, rfl⟩ := Option.map_eq_some_iff.1 hmap
    have hop : entry.2 = .SfopExists := h
    simp only [binaryOps, List.mem_cons, List.not_mem_nil, or_false] at hentry
    rcases hentry with rfl | rfl | rfl | rfl | rfl | rfl | rfl | rfl <;> cases hop
  | none =>
    rw [hfound] at h
    by_cases hbang : s.head? = some '!'
    · simp [hbang] at h
    · simp [hbang]

theorem parseSides_wellTyped {s : List Char} (h : parseSides lib s = .ok item) : item.WellTyped := by
  unfold parseSides at h
  dsimp only at h
  split_ifs at h with hleft hchars hright hunary hrange hlist
  · cases h
    refine ⟨fun hop => ?_, fun hop => ?_⟩
    · show String.ofList _ = String.ofList _
      rw [findOp_exists hop]
    · rcases hunary with h | h <;> simp [isOrderOp, h] at hop
  · obtain ⟨hequality, hop, -, -⟩ := rangeParse_cases h
    exact wellTyped_of_equality (hop ▸ hequality)
  · unfold listParse at h
    split at h
    · cases h
    · rename_i hvalid
      obtain ⟨-, hop⟩ := listLoop_keeps h
      refine wellTyped_of_equality ?_
      rw [hop]
      by_contra hnone
      exact hvalid (not_or.1 hnone)
  · exact valueParse_wellTyped (fun hop => hunary (.inr hop)) h

theorem parse_wellTyped {qItem : List Char} (h : parse lib qItem = .ok item) : item.WellTyped := by
  unfold parse at h
  dsimp only at h
  split at h
  · cases h
  · split at h
    · cases ht : forcedString (wsStrip qItem).tail with
      | error e =>
        rw [ht] at h
        cases h
      | ok t =>
        rw [ht] at h
        exact parseSides_wellTyped h
    · exact parseSides_wellTyped h

end Parse

end StringFilterItem

/-! ### Filters -/

/-- The database selects the document of an entity with a filter.  Its regular expressions are those of `regexec`. -/
def selects (regexec : String → String → Bool) (entityDoc : EntityDoc) (f : BSONObj) : Bool :=
  (Filter.ofBson f).accepts (fun pattern => some (regexec pattern)) entityDoc.toBson

section Agreement

variable {regexec : String → String → Bool} {cer : ContextElementResponse} {entityDoc : EntityDoc}

/-- The filter of an item with one side, for what `$exists` asks. -/
private theorem selects_attr {n : String} (hstored : Stores entityDoc cer.contextElement) (hdot : '.' ∉ n.toList)
    (hkey : ∀ ca ∈ cer.contextElement.contextAttributeVector, ca.key = n ↔ ca.name = n) (b : Bool) :
    selects regexec entityDoc [(ENT_ATTRS ++ "." ++ n, .object [("$exists", .bool b)])] =
      ((cer.contextElement.getAttribute n).isSome == b) := by
  obtain ⟨w, hw, hsome⟩ := StringFilterItem.reached_attr hstored hdot hkey
  have hcriterion : Criterion.ofBson (.object [("$exists", .bool b)]) = .present b := rfl
  rw [selects, accepts_ofBson_singleton, hw, hcriterion, Criterion.accepts, List.any_cons, List.any_nil, Bool.or_false,
    hsome]

/-- The filter of an item selects the documents of which the item holds. -/
theorem selects_iff_holds {item : StringFilterItem} (hstored : Stores entityDoc cer.contextElement)
    (hscalar : ∀ ca ∈ cer.contextElement.contextAttributeVector, ca.Scalar) (hitem : item.WellTyped)
    (hlocated : item.Located cer.contextElement) {f : Option BSONObj} (hf : item.mongoFilter = .ok f) :
    (∀ g ∈ f.toList, selects regexec entityDoc g = true) ↔ item.holds regexec cer = true := by
  have hunary : item.isUnary = true → '.' ∉ item.attributeName.toList ∧
      ∀ ca ∈ cer.contextElement.contextAttributeVector, ca.key = item.attributeName ↔ ca.name = item.attributeName := by
    intro h
    rcases hlocated with ⟨hbinary, -⟩ | hname
    · rw [h] at hbinary
      cases hbinary
    · rwa [StringFilterItem.attrName, if_pos h] at hname
  have hbinary : ∀ (o : BSONObj) (test : ContextAttribute → Bool), item.isUnary = false →
      (∀ w, Option.Rel ValueOf (item.leftAttribute cer) w →
        (Criterion.ofBson (.object o)).accepts (fun pattern => some (regexec pattern)) [w] =
          (item.leftAttribute cer).any test) →
      selects regexec entityDoc [(item.mongoField, .object o)] = (item.leftAttribute cer).any test := by
    intro o test h haccepts
    obtain ⟨w, hw, hrel⟩ := StringFilterItem.reached_mongoField hstored hscalar h hlocated
    rw [selects, accepts_ofBson_singleton, hw, haccepts w hrel]
  have horder : ∀ (operator : String) (c : Comparison), Comparison.ofOperator operator = some c →
      StringFilterItem.isOrderOp item.op = true → item.isUnary = false →
      selects regexec entityDoc [(item.mongoField, .object (item.mongoCompare operator))] =
        (item.leftAttribute cer).any (item.compares c) := fun operator c hc hop h =>
    hbinary _ _ h fun w hrel => StringFilterItem.accepts_mongoCompare _ hc hrel (hitem.ordered hop)
  unfold StringFilterItem.mongoFilter at hf
  unfold StringFilterItem.holds
  cases hop : item.op with
  | SfopExists =>
    obtain ⟨hdot, hkey⟩ := hunary (by simp [StringFilterItem.isUnary, hop])
    rw [hop] at hf
    cases hf
    simp [selects_attr hstored hdot hkey]
  | SfopNotExists =>
    obtain ⟨hdot, hkey⟩ := hunary (by simp [StringFilterItem.isUnary, hop])
    rw [hop] at hf
    cases hf
    simp [selects_attr hstored hdot hkey]
  | SfopEquals =>
    rw [hop] at hf
    cases ho : item.mongoEquals with
    | error e =>
      rw [ho] at hf
      cases hf
    | ok o =>
      rw [ho] at hf
      cases hf
      have hselects := hbinary o item.equals (by simp [StringFilterItem.isUnary, hop])
        fun w hrel => StringFilterItem.accepts_mongoEquals _ hrel ho
      simp [hselects]
  | SfopDiffers =>
    rw [hop] at hf
    cases ho : item.mongoDiffers with
    | error e =>
      rw [ho] at hf
      cases hf
    | ok o =>
      rw [ho] at hf
      cases hf
      have hselects := hbinary o (fun ca => !item.equals ca) (by simp [StringFilterItem.isUnary, hop])
        fun w hrel => StringFilterItem.accepts_mongoDiffers _ hrel ho
      simp [hselects]
  | SfopGreaterThan =>
    rw [hop] at hf
    cases hf
    have hselects := horder "$gt" .gt rfl (by simp [StringFilterItem.isOrderOp, hop]) (by simp [StringFilterItem.isUnary, hop])
    simp [hselects]
  | SfopGreaterThanOrEqual =>
    rw [hop] at hf
    cases hf
    have hselects := horder "$gte" .gte rfl (by simp [StringFilterItem.isOrderOp, hop]) (by simp [StringFilterItem.isUnary, hop])
    simp [hselects]
  | SfopLessThan =>
    rw [hop] at hf
    cases hf
    have hselects := horder "$lt" .lt rfl (by simp [StringFilterItem.isOrderOp, hop]) (by simp [StringFilterItem.isUnary, hop])
    simp [hselects]
  | SfopLessThanOrEqual =>
    rw [hop] at hf
    cases hf
    have hselects := horder "$lte" .lte rfl (by simp [StringFilterItem.isOrderOp, hop]) (by simp [StringFilterItem.isUnary, hop])
    simp [hselects]
  | SfopMatchPattern =>
    rw [hop] at hf
    dsimp only at hf
    split at hf
    · rename_i hstring
      cases hf
      simp [hstring]
    · rename_i hstring
      cases hf
      have hselects := hbinary _ _ (by simp [StringFilterItem.isUnary, hop])
        fun w hrel => StringFilterItem.accepts_regex regexec item.stringValue hrel
      simp [hselects, not_not.1 hstring]

/-- All filters select the document of an entity if and only if all items hold of it. -/
theorem all_selects_iff {items : List StringFilterItem} (hstored : Stores entityDoc cer.contextElement)
    (hscalar : ∀ ca ∈ cer.contextElement.contextAttributeVector, ca.Scalar) (hitems : ∀ item ∈ items, item.WellTyped)
    (hlocated : ∀ item ∈ items, item.Located cer.contextElement) {mongoFilters : List BSONObj}
    (hmongo : StringFilter.mongoFilterPopulate items = .ok mongoFilters) :
    (∀ f ∈ mongoFilters, selects regexec entityDoc f = true) ↔ ∀ item ∈ items, item.holds regexec cer = true := by
  induction items generalizing mongoFilters with
  | nil =>
    cases hmongo
    simp
  | cons item items ih =>
    rw [StringFilter.mongoFilterPopulate] at hmongo
    rw [List.forall_mem_cons] at hitems hlocated
    cases hf : item.mongoFilter with
    | error e =>
      rw [hf] at hmongo
      cases hmongo
    | ok f =>
      cases hrest : StringFilter.mongoFilterPopulate items with
      | error e =>
        rw [hf, hrest] at hmongo
        cases hmongo
      | ok rest =>
        rw [hf, hrest] at hmongo
        cases hmongo
        rw [List.forall_mem_append, List.forall_mem_cons, selects_iff_holds hstored hscalar hitems.1 hlocated.1 hf,
          ih hitems.2 hlocated.2 hrest]

/-- The items that the loop of `match` may reach: it returns at the first pattern. -/
def StringFilter.upToPattern : List StringFilterItem → List StringFilterItem
  | [] => []
  | item :: items => item :: if item.op = .SfopMatchPattern then [] else StringFilter.upToPattern items

theorem match_iff_upToPattern (items : List StringFilterItem) :
    StringFilter.match regexec items cer = true ↔ ∀ item ∈ StringFilter.upToPattern items, item.accepts regexec cer = true := by
  induction items with
  | nil => simp [StringFilter.match, StringFilter.upToPattern]
  | cons item items ih =>
    rw [StringFilter.upToPattern]
    by_cases hop : item.op = .SfopMatchPattern
    · simp [match_cons_of_pattern hop, hop]
    · simp [match_cons_of_not_pattern hop, hop, ih]

theorem mem_of_mem_upToPattern {item : StringFilterItem} {items : List StringFilterItem}
    (h : item ∈ StringFilter.upToPattern items) : item ∈ items := by
  induction items with
  | nil => cases h
  | cons item' items ih =>
    rw [StringFilter.upToPattern, List.mem_cons] at h
    rcases h with rfl | h
    · exact List.mem_cons_self
    · split at h
      · cases h
      · exact List.mem_cons_of_mem _ (ih h)

theorem wellTyped_of_parse {lib : CLibrary} {q : String} {items : List StringFilterItem} {mongoFilters : List BSONObj}
    (h : StringFilter.parse lib q = .ok (items, mongoFilters)) : ∀ item ∈ items, item.WellTyped := by
  have hgives := (StringFilter.parse_ok_iff.1 h).2.1
  clear h
  generalize List.filter _ _ = parts at hgives
  induction hgives with
  | nil => simp
  | cons hgives _ ih => exact List.forall_mem_cons.2 ⟨StringFilterItem.parse_wellTyped hgives.2, ih⟩

/-- An entity with a number and a string. -/
def filteredEntity : ContextElementResponse where
  contextElement :=
    { entityId := { id := "E", type := "T" }
      contextAttributeVector :=
        [{ name := "a", type := "T", valueType := .number, numberValue := .fin 7 }, { name := "b", type := "T", stringValue := "xy" }]
      creDate := 1
      modDate := 1 }

end Agreement

end OrionBroker
