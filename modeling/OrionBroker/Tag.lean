import OrionBroker.AttributeText

/-!
# The tags of the first version of the API (`tag.cpp`)

A rendering is put together of lines, each with its indentation and its end: a member of a value, or the line that
begins or ends an object or a vector.  Whether a comma stands at the end of a line is decided by the caller.
-/

namespace OrionBroker

/-- What `htmlEscape` writes for a character. -/
def htmlEscapeChar : Char → List Char
  | '<' => ['&', 'l', 't', ';']
  | '>' => ['&', 'g', 't', ';']
  | '(' => ['&', '#', '4', '0', ';']
  | ')' => ['&', '#', '4', '1', ';']
  | '=' => ['&', '#', '6', '1', ';']
  | '\x27' => ['&', '#', '3', '9', ';']
  | '"' => ['&', 'q', 'u', 'o', 't', ';']
  | ';' => ['&', '#', '5', '9', ';']
  | c => [c]

/-- The text as far as `c_str` goes, escaped. -/
def htmlEscape (s : String) : String :=
  String.ofList ((s.toList.takeWhile (· ≠ '\x00')).flatMap htmlEscapeChar)

def intToHex (n : Nat) : Char :=
  ['0', '1', '2', '3', '4', '5', '6', '7', '8', '9', 'A', 'B', 'C', 'D', 'E', 'F'].getD n '0'

/-- What `jsonInvalidCharsTransformation` writes for a character. -/
def jsonInvalidChar (c : Char) : List Char :=
  if c = '\\' then ['\\', '\\']
  else if c = '"' then ['\\', '"']
  else if c = '\x08' then ['\\', 'b']
  else if c = '\x0c' then ['\\', 'f']
  else if c = '\n' then ['\\', 'n']
  else if c = '\r' then ['\\', 'r']
  else if c = '\t' then ['\\', 't']
  else if c.toNat ≤ 0x1F then ['\\', 'u', '0', '0', intToHex (c.toNat / 16), intToHex (c.toNat % 16)]
  else [c]

def jsonInvalidCharsTransformation (input : String) : String := String.ofList (input.toList.flatMap jsonInvalidChar)

/-- The line that begins an object or a vector. -/
def startTag2 (indent key : String) (isVector showKey : Bool) : String :=
  indent ++ (if showKey then "\"" ++ key ++ "\" : " else "") ++ (if isVector then "[\n" else "\x7b\n")

/-- The line that ends an object or a vector; `nl` is set and `isToplevel` not wherever an attribute is rendered. -/
def endTag (indent : String) (comma isVector : Bool) : String :=
  indent ++ (if isVector then "]" else "\x7d") ++ (if comma then "," else "") ++ "\n"

/-- The value of `valueTag1`, escaped twice. -/
def effectiveValue1 (unescapedValue : String) (withoutQuotes : Bool) : String :=
  let effectiveValue := jsonInvalidCharsTransformation (if unescapedValue = "" then "" else htmlEscape unescapedValue)
  if withoutQuotes then effectiveValue else "\"" ++ effectiveValue ++ "\""

def valueTag1 (indent key unescapedValue : String) (showComma isVectorElement withoutQuotes : Bool) : String :=
  let effectiveValue := effectiveValue1 unescapedValue withoutQuotes
  if showComma then
    if isVectorElement then indent ++ effectiveValue ++ ",\n" else indent ++ "\"" ++ key ++ "\" : " ++ effectiveValue ++ ",\n"
  else
    if isVectorElement then indent ++ effectiveValue ++ "\n" else indent ++ "\"" ++ key ++ "\" : " ++ effectiveValue ++ "\n"

/-- The value of `valueTag2`, escaped once. -/
def effectiveValue2 (value : String) (withoutQuotes : Bool) : String :=
  if withoutQuotes then jsonInvalidCharsTransformation value else JSON_STR (jsonInvalidCharsTransformation value)

def valueTag2 (indent key value : String) (showComma withoutQuotes : Bool) : String :=
  let eValue := effectiveValue2 value withoutQuotes
  if key = "" then
    if showComma then indent ++ eValue ++ ",\n" else indent ++ eValue ++ "\n"
  else
    if showComma then indent ++ "\"" ++ key ++ "\" : " ++ eValue ++ ",\n" else indent ++ "\"" ++ key ++ "\" : " ++ eValue ++ "\n"

end OrionBroker
