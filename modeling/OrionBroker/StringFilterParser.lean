import OrionBroker.ForbiddenChars
import OrionBroker.Json
import OrionBroker.StringFilter
import OrionBroker.Stripping

/-!
# The parser of string filters (`StringFilter.cpp`)

`q` is cut at its `;` with `strtok_r`, each part is parsed into an item and each item gives a filter for the database.
Before the loop the string is tested for an empty part: two `;` in a row, and a `;` at the end.  A `;` at the beginning
is not tested, and `strtok_r` skips it (`parse_iff`).

A text is the list of its characters up to the zero character.  The places where the code looks at the last character of
a text that may be empty read what stands before the text in its buffer (`lastChar`); the parser has an ending of its
own for the case that nothing stands there.  The conversions of the C library and the compilation of a regular
expression are parameters.
-/

namespace OrionBroker

open Bson

/-- How a function of the parser fails. -/
inductive ParseFailure where
  | error (text : String)
  | outside
deriving DecidableEq

/-- The C library. -/
structure CLibrary where
  strtod : String → Strtod
  /-- `timegm` of the time that `strptime` reads with the format " %Y-%m-%dT%T". -/
  strptime : String → Option Int
  getDouble : Int → Double
  /-- `regcomp` returns 0. -/
  regcomp : String → Bool

def CLibrary.parse8601Time (lib : CLibrary) (s : String) : Int := (lib.strptime s).getD (-1)

/-- `s[strlen(s) - 1]`; `before` is what stands before `s`, backwards. -/
def lastChar (before s : List Char) : Option Char := s.getLast?.or before.head?

/-- `strstr`: what stands before the first occurrence and what behind it. -/
def strstr (needle : List Char) : List Char → Option (List Char × List Char)
  | [] => if needle = [] then some ([], []) else none
  | c :: s =>
    if needle.isPrefixOf (c :: s) then some ([], (c :: s).drop needle.length)
    else (strstr needle s).map fun found => (c :: found.1, found.2)

/-- `strtok_r` with the delimiter `;`: the token and what is saved for the next call. -/
def strtok_r (s : List Char) : Option (List Char × List Char) :=
  let token := s.dropWhile (· = ';')
  if token = [] then none else some (token.takeWhile (· ≠ ';'), (token.dropWhile (· ≠ ';')).drop 1)

/-! ### Values -/

/-- The rest of a text that begins with a quote, without the quote at its end. -/
def forcedString (s : List Char) : Except ParseFailure (List Char) :=
  match lastChar ['\''] s with
  | none => .error .outside
  | some c =>
    if c ≠ '\'' then .error (.error "non-terminated forced string")
    else if '\'' ∈ s.dropLast then .error (.error "quote in forced string")
    else .ok s.dropLast

/-- What `valueGet` writes to its arguments. -/
structure ValueGot where
  valueType : StringFilterValueType
  double : Double
  string : String
  bool : Bool

namespace StringFilterItem

section Values

variable (lib : CLibrary)

def valueGet (s : List Char) (double : Double) (string : String) (bool : Bool) : Except ParseFailure ValueGot :=
  if s.head? = some '\'' then do
    let t ← forcedString s.tail
    return { valueType := .SfvtString, double, string := String.ofList t, bool }
  else
    match str2double lib.strtod s with
    | some d => .ok { valueType := .SfvtNumber, double := d, string, bool }
    | none =>
      let time := lib.parse8601Time (String.ofList s)
      let double := lib.getDouble time
      if time ≠ -1 then .ok { valueType := .SfvtDate, double, string, bool }
      else if s = "true".toList then .ok { valueType := .SfvtBool, double, string, bool := true }
      else if s = "false".toList then .ok { valueType := .SfvtBool, double, string, bool := false }
      else if s = "null".toList then .ok { valueType := .SfvtNull, double, string, bool }
      else .ok { valueType := .SfvtString, double, string := String.ofList s, bool }

/-! ### The right side -/

def opName : StringFilterOp → String
  | .SfopExists => "Exists"
  | .SfopNotExists => "NotExists"
  | .SfopEquals => "Equals"
  | .SfopDiffers => "Differs"
  | .SfopGreaterThan => "GreaterThan"
  | .SfopGreaterThanOrEqual => "GreaterThanOrEqual"
  | .SfopLessThan => "LessThan"
  | .SfopLessThanOrEqual => "LessThanOrEqual"
  | .SfopMatchPattern => "MatchPattern"

def valueTypeName : StringFilterValueType → String
  | .SfvtString => "String"
  | .SfvtBool => "Bool"
  | .SfvtNumber => "Number"
  | .SfvtNull => "Null"
  | .SfvtDate => "Date"
  | .SfvtNumberRange => "NumberRange"
  | .SfvtDateRange => "DateRange"
  | .SfvtStringRange => "StringRange"
  | .SfvtNumberList => "NumberList"
  | .SfvtDateList => "DateList"
  | .SfvtStringList => "StringList"

/-- The operators that compare by order. -/
def isOrderOp (op : StringFilterOp) : Bool :=
  op = .SfopGreaterThan || op = .SfopGreaterThanOrEqual || op = .SfopLessThan || op = .SfopLessThanOrEqual

/-- The types of values that have an order. -/
def isOrdered (valueType : StringFilterValueType) : Bool :=
  valueType = .SfvtNumber || valueType = .SfvtDate || valueType = .SfvtString

def valueParse (item : StringFilterItem) (s : List Char) : Except ParseFailure StringFilterItem := do
  let v ← valueGet lib s item.numberValue item.stringValue item.boolValue
  let item := { item with
    valueType := v.valueType, numberValue := v.double, stringValue := v.string, boolValue := v.bool }
  if item.op = .SfopEquals ∨ item.op = .SfopDiffers then .ok item
  else if isOrderOp item.op ∧ ¬isOrdered item.valueType then
    .error (.error ("values of type /" ++ valueTypeName item.valueType ++ "/ not supported for operator /" ++
      opName item.op ++ "/"))
  else if item.op = .SfopMatchPattern then
    if lib.regcomp item.stringValue then .ok { item with compiledPattern := true }
    else .error (.error ("error compiling filter regex: '" ++ item.stringValue ++ "'"))
  else .ok item

/-- The type of a range whose ends are of this type. -/
def rangeType : StringFilterValueType → Option StringFilterValueType
  | .SfvtNumber => some .SfvtNumberRange
  | .SfvtString => some .SfvtStringRange
  | .SfvtDate => some .SfvtDateRange
  | _ => none

def rangeParse (item : StringFilterItem) (s : List Char) : Except ParseFailure StringFilterItem :=
  if item.op ≠ .SfopEquals ∧ item.op ≠ .SfopDiffers then .error (.error "ranges only valid for == and != ops")
  else
    match strstr ['.', '.'] s with
    | none => .error (.error "not a range")
    | some (fromString, toString) =>
      let toString := wsStrip toString
      let fromString := wsStrip fromString
      if toString = [] ∨ fromString = [] then .error (.error "empty item in range")
      else do
        let vFrom ← valueGet lib fromString item.numberRangeFrom item.stringRangeFrom false
        if ¬isOrdered vFrom.valueType then .error (.error "invalid data type for /range-from/")
        else do
          let vTo ← valueGet lib toString item.numberRangeTo item.stringRangeTo false
          if ¬isOrdered vTo.valueType then .error (.error "invalid data type for /range-to/")
          else if vTo.valueType ≠ vFrom.valueType then .error (.error "invalid range: types mixed")
          else
            match rangeType vFrom.valueType with
            | none => .error (.error "invalid data type for range")
            | some valueType =>
              .ok { item with
                valueType, numberRangeFrom := vFrom.double, stringRangeFrom := vFrom.string, numberRangeTo := vTo.double,
                stringRangeTo := vTo.string }

/-- The item with one more element in the list of its type, if the list may have it. -/
def listItem (item : StringFilterItem) (v : ValueGot) : Option StringFilterItem :=
  if item.stringList.length = 0 ∧ item.numberList.length = 0 then
    match v.valueType with
    | .SfvtString => some { item with valueType := .SfvtStringList, stringList := item.stringList ++ [v.string] }
    | .SfvtDate => some { item with valueType := .SfvtDateList, numberList := item.numberList ++ [v.double] }
    | .SfvtNumber => some { item with valueType := .SfvtNumberList, numberList := item.numberList ++ [v.double] }
    | _ => none
  else if v.valueType = .SfvtString ∧ item.valueType = .SfvtStringList then
    some { item with stringList := item.stringList ++ [v.string] }
  else if v.valueType = .SfvtDate ∧ item.valueType = .SfvtDateList then
    some { item with numberList := item.numberList ++ [v.double] }
  else if v.valueType = .SfvtNumber ∧ item.valueType = .SfvtNumberList then
    some { item with numberList := item.numberList ++ [v.double] }
  else none

def listItemAdd (item : StringFilterItem) (s : List Char) : Except ParseFailure StringFilterItem :=
  let s := wsStrip s
  if s = [] then .error (.error "empty item in list")
  else do
    let v ← valueGet lib s (.fin 0) "" false
    match listItem item v with
    | none => .error (.error "invalid JSON value type in list")
    | some item => .ok item

/-- A text ends at its first zero character. -/
def upToZero (s : List Char) : List Char := s.takeWhile (· ≠ '\x00')

/-- The loop of `listParse`; `pending` is what stands between `itemStart` and `cP`. -/
def listLoop (item : StringFilterItem) (pending : List Char) (inString : Bool) :
    List Char → Except ParseFailure StringFilterItem
  | [] => if pending = [] then .ok item else listItemAdd lib item (upToZero pending)
  | c :: s =>
    if c = '\'' then
      if inString = false then listLoop item ((pending ++ [c]).drop 1) true s
      else listLoop item (pending ++ ['\x00']) false s
    else if c = ',' ∧ inString = false then
      match listItemAdd lib item (upToZero pending) with
      | .error e => .error e
      | .ok item => if s = [] then .error (.error "empty item in list") else listLoop item [] inString s
    else listLoop item (pending ++ [c]) inString s

def listParse (item : StringFilterItem) (s : List Char) : Except ParseFailure StringFilterItem :=
  if item.op ≠ .SfopEquals ∧ item.op ≠ .SfopDiffers then .error (.error "lists only valid for == and != ops")
  else listLoop lib item [] false (wsStrip s)

end Values

/-! ### Items -/

/-- The operators that are looked for anywhere in an item, in this order. -/
def binaryOps : List (String × StringFilterOp) :=
  [("==", .SfopEquals), ("~=", .SfopMatchPattern), ("!=", .SfopDiffers), ("<=", .SfopLessThanOrEqual),
    ("<", .SfopLessThan), (">=", .SfopGreaterThanOrEqual), (">", .SfopGreaterThan), (":", .SfopEquals)]

/-- The operator and the two sides of an item. -/
def findOp (s : List Char) : StringFilterOp × List Char × List Char :=
  match binaryOps.findSome? fun entry => (strstr entry.1.toList s).map fun sides => (entry.2, sides) with
  | some found => found
  | none => if s.head? = some '!' then (.SfopNotExists, [], s.tail) else (.SfopExists, s, s)

/-- `StringFilterItem::parse` behind the quotes. -/
def parseSides (lib : CLibrary) (s : List Char) : Except ParseFailure StringFilterItem :=
  let op := (findOp s).1
  let lhs := wsStrip (findOp s).2.1
  let rhs := wsStrip (findOp s).2.2
  if lhs = [] ∧ op ≠ .SfopNotExists ∧ op ≠ .SfopExists then .error (.error "empty left-hand-side in q-item")
  else if forbiddenChars (String.ofList lhs) [] then .error (.error "invalid character found in URI param /q/")
  else if rhs = [] then .error (.error "empty right-hand-side in q-item")
  else
    let item : StringFilterItem := { left := String.ofList lhs, op }
    if op = .SfopNotExists ∨ op = .SfopExists then .ok { item with attributeName := String.ofList rhs }
    else if (strstr ['.', '.'] rhs).isSome then rangeParse lib item rhs
    else if ',' ∈ rhs then listParse lib item rhs
    else valueParse lib item rhs

/-- `StringFilterItem::parse`. -/
def parse (lib : CLibrary) (qItem : List Char) : Except ParseFailure StringFilterItem :=
  let s := wsStrip qItem
  if s = [] then .error (.error "empty q-item")
  else if s.head? = some '\'' then do
    let t ← forcedString s.tail
    parseSides lib t
  else parseSides lib s

end StringFilterItem

/-! ### The filters for the database -/

abbrev ENT_ATTRS : String := "attrs"
abbrev ENT_ATTRS_VALUE : String := "value"
abbrev ENT_CREATION_DATE : String := "creDate"
abbrev ENT_MODIFICATION_DATE : String := "modDate"

namespace StringFilterItem

variable (item : StringFilterItem)

/-- The field of the document that an item is about. -/
def mongoField : String :=
  if item.left = DATE_CREATED then ENT_CREATION_DATE
  else if item.left = DATE_MODIFIED then ENT_MODIFICATION_DATE
  else ENT_ATTRS ++ "." ++ item.left ++ "." ++ ENT_ATTRS_VALUE

/-- The ends of a range. -/
def mongoRange : BSONObj :=
  if item.valueType = .SfvtStringRange then
    [("$gte", .string item.stringRangeFrom), ("$lte", .string item.stringRangeTo)]
  else [("$gte", .double item.numberRangeFrom), ("$lte", .double item.numberRangeTo)]

/-- The elements of a list. -/
def mongoList : BSONValue :=
  if item.valueType = .SfvtStringList then .array (item.stringList.map .string)
  else .array (item.numberList.map .double)

def mongoEquals : Except String BSONObj :=
  match item.valueType with
  | .SfvtNumberRange | .SfvtDateRange | .SfvtStringRange => .ok item.mongoRange
  | .SfvtNumberList | .SfvtDateList | .SfvtStringList => .ok [("$in", item.mongoList)]
  | .SfvtBool => .ok [("$exists", .bool true), ("$in", .array [.bool item.boolValue])]
  | .SfvtNull => .error "null values not supported"
  | .SfvtNumber | .SfvtDate => .ok [("$exists", .bool true), ("$in", .array [.double item.numberValue])]
  | .SfvtString => .ok [("$in", .array [.string item.stringValue])]

def mongoDiffers : Except String BSONObj :=
  match item.valueType with
  | .SfvtNumberRange | .SfvtDateRange | .SfvtStringRange =>
    .ok [("$exists", .bool true), ("$not", .object item.mongoRange)]
  | .SfvtNumberList | .SfvtDateList | .SfvtStringList => .ok [("$exists", .bool true), ("$nin", item.mongoList)]
  | .SfvtBool => .ok [("$exists", .bool true), ("$nin", .array [.bool item.boolValue])]
  | .SfvtNull => .error "null values not supported"
  | .SfvtNumber | .SfvtDate => .ok [("$exists", .bool true), ("$nin", .array [.double item.numberValue])]
  | .SfvtString => .ok [("$exists", .bool true), ("$nin", .array [.string item.stringValue])]

/-- A comparison by order. -/
def mongoCompare (operator : String) : BSONObj :=
  if item.valueType = .SfvtString then [(operator, .string item.stringValue)]
  else [(operator, .double item.numberValue)]

/-- The filter of an item; there is none for a pattern that is not a string. -/
def mongoFilter : Except String (Option BSONObj) :=
  match item.op with
  | .SfopExists => .ok (some [(ENT_ATTRS ++ "." ++ item.attributeName, .object [("$exists", .bool true)])])
  | .SfopNotExists => .ok (some [(ENT_ATTRS ++ "." ++ item.attributeName, .object [("$exists", .bool false)])])
  | .SfopEquals => item.mongoEquals.map fun bb => some [(item.mongoField, .object bb)]
  | .SfopDiffers => item.mongoDiffers.map fun bb => some [(item.mongoField, .object bb)]
  | .SfopGreaterThan => .ok (some [(item.mongoField, .object (item.mongoCompare "$gt"))])
  | .SfopGreaterThanOrEqual => .ok (some [(item.mongoField, .object (item.mongoCompare "$gte"))])
  | .SfopLessThan => .ok (some [(item.mongoField, .object (item.mongoCompare "$lt"))])
  | .SfopLessThanOrEqual => .ok (some [(item.mongoField, .object (item.mongoCompare "$lte"))])
  | .SfopMatchPattern =>
    if item.valueType ≠ .SfvtString then .ok none
    else .ok (some [(item.mongoField, .object [("$regex", .string item.stringValue)])])

end StringFilterItem

namespace StringFilter

def mongoFilterPopulate : List StringFilterItem → Except String (List BSONObj)
  | [] => .ok []
  | item :: filters => do
    let f ← item.mongoFilter
    let mongoFilters ← mongoFilterPopulate filters
    return f.toList ++ mongoFilters

/-! ### The whole string -/

theorem strtok_r_lt {s token saver : List Char} (h : strtok_r s = some (token, saver)) : saver.length < s.length := by
  unfold strtok_r at h
  dsimp only at h
  split at h
  · cases h
  · rename_i hne
    cases h
    have hpos := List.length_pos_iff.2 hne
    have hle := (List.dropWhile_suffix (fun c => decide (c = ';')) (l := s)).length_le
    have hle' :=
      (List.dropWhile_suffix (fun c => decide (c ≠ ';')) (l := s.dropWhile fun c => decide (c = ';'))).length_le
    rw [List.length_drop]
    omega

/-- The loop over the tokens. -/
def parseLoop (lib : CLibrary) (str : List Char) (filters : List StringFilterItem) :
    Except ParseFailure (List StringFilterItem) :=
  match h : strtok_r str with
  | none => .ok filters
  | some (token, saver) =>
    let s := wsStrip token
    if s = [] then .error (.error "empty q-item (only whitespace)")
    else
      match StringFilterItem.parse lib s with
      | .error e => .error e
      | .ok item =>
        have := strtok_r_lt h
        parseLoop lib saver (filters ++ [item])
termination_by str.length

/-- `StringFilter::parse`: the items and the filters for the database. -/
def parse (lib : CLibrary) (q : String) : Except ParseFailure (List StringFilterItem × List BSONObj) :=
  let str := (cString q).toList
  if str = [] ∨ str = [';'] then .error (.error "empty q")
  else if (strstr [';', ';'] str).isSome then .error (.error "empty q-item")
  else
    let s := wsStrip str
    let leading := str.takeWhile isStripped
    match lastChar leading.reverse s with
    | none => .error .outside
    | some c =>
      if c = ';' then .error (.error "empty q-item")
      else
        match parseLoop lib (leading ++ s) [] with
        | .error e => .error e
        | .ok filters =>
          match mongoFilterPopulate filters with
          | .error e => .error (.error e)
          | .ok mongoFilters => .ok (filters, mongoFilters)

end StringFilter

end OrionBroker
