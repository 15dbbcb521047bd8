import LabelPress.Binary.Shortest
import LabelPress.Text.Quoted

/-!
What can be wrong with a JSON document, as causes, and how each is worded.
-/

namespace LabelPress.Json

inductive IntegerKind
  | signed32
  | unsigned32
  | unsigned8
deriving DecidableEq, Repr

namespace IntegerKind

def display : IntegerKind → String
  | signed32 => "i32"
  | unsigned32 => "u32"
  | unsigned8 => "u8"

def low : IntegerKind → Int
  | signed32 => -2147483648
  | unsigned32 => 0
  | unsigned8 => 0

def high : IntegerKind → Int
  | signed32 => 2147483647
  | unsigned32 => 4294967295
  | unsigned8 => 255

end IntegerKind

inductive Found
  | null
  | boolean (b : Bool)
  | integer (n : Int)
  | real (x : Binary.Double)
  | string (s : String)
  | sequence
  | map
deriving DecidableEq, Repr

def Found.display : Found → String
  | null => "null"
  | boolean b => "boolean `" ++ (if b then "true" else "false") ++ "`"
  | integer n => "integer `" ++ toString n ++ "`"
  | real x => "floating point `" ++ x.text ++ "`"
  | string s => "string " ++ Text.quoted s
  | sequence => "sequence"
  | map => "map"

inductive Expected
  | integer (kind : IntegerKind)
  | string
  | sequence
  | unit
  | record (name : String)
  | tagged (name : String)
  | variantName
  | variant
  | singleEntry
deriving DecidableEq, Repr

def Expected.display : Expected → String
  | integer kind => kind.display
  | string => "a string"
  | sequence => "a sequence"
  | unit => "unit"
  | record name => "struct " ++ name
  | tagged name => "internally tagged enum " ++ name
  | variantName => "variant identifier"
  | variant => "string or map"
  | singleEntry => "map with a single key"

inductive Fault
  | expectedValue
  | expectedWord
  | expectedColon
  | expectedCommaOrBrace
  | expectedCommaOrBracket
  | keyNotString
  | trailingComma
  | trailingText
  | badNumber
  | numberOutOfRange
  | badEscape
  | controlCharacter
  /-- A surrogate that cannot stand first, or a first one that none completes. -/
  | loneSurrogate
  /-- A first surrogate that no second escape follows. -/
  | unfinishedPair
  | tooDeep
  | endInValue
  | endInString
  | endInList
  | endInObject
  | wrongType (found : Found) (expected : Expected)
  | wrongValue (found : Found) (expected : Expected)
  | missingField (name : String)
  | duplicateField (name : String)
  | unknownVariant (name : String) (known : List String)
  | noMatchingForm (name : String)
deriving DecidableEq, Repr

namespace Fault

/-- Whether the text is no JSON, stops too early, or is JSON of the wrong shape. -/
inductive Category
  | notJson
  | cutShort
  | wrongShape
deriving DecidableEq, Repr

def category : Fault → Category
  | endInValue | endInString | endInList | endInObject => .cutShort
  | wrongType _ _ | wrongValue _ _ | missingField _ | duplicateField _ | unknownVariant _ _
  | noMatchingForm _ => .wrongShape
  | _ => .notJson

def backticked (s : String) : String := "`" ++ s ++ "`"

def choice : List String → String
  | [] => "nothing"
  | [a] => backticked a
  | [a, b] => backticked a ++ " or " ++ backticked b
  | names => "one of " ++ ", ".intercalate (names.map backticked)

def message : Fault → String
  | expectedValue => "expected value"
  | expectedWord => "expected ident"
  | expectedColon => "expected `:`"
  | expectedCommaOrBrace => "expected `,` or `\x7d`"
  | expectedCommaOrBracket => "expected `,` or `]`"
  | keyNotString => "key must be a string"
  | trailingComma => "trailing comma"
  | trailingText => "trailing characters"
  | badNumber => "invalid number"
  | numberOutOfRange => "number out of range"
  | badEscape => "invalid escape"
  | controlCharacter => "control character (\\u0000-\\u001F) found while parsing a string"
  | loneSurrogate => "lone leading surrogate in hex escape"
  | unfinishedPair => "unexpected end of hex escape"
  | tooDeep => "recursion limit exceeded"
  | endInValue => "EOF while parsing a value"
  | endInString => "EOF while parsing a string"
  | endInList => "EOF while parsing a list"
  | endInObject => "EOF while parsing an object"
  | wrongType found expected =>
    "invalid type: " ++ found.display ++ ", expected " ++ expected.display
  | wrongValue found expected =>
    "invalid value: " ++ found.display ++ ", expected " ++ expected.display
  | missingField name => "missing field " ++ backticked name
  | duplicateField name => "duplicate field " ++ backticked name
  | unknownVariant name known =>
    "unknown variant " ++ backticked name ++ ", expected " ++ choice known
  | noMatchingForm name => "data did not match any variant of untagged enum " ++ name

end Fault

end LabelPress.Json
