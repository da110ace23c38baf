import ModelCatalog.Json.Number
import ModelCatalog.Source
import ModelCatalog.Text.Literal

/-! # What can be wrong with a JSON text

    A text can fail to be JSON, and JSON can fail to have the shape that a record asks for.  Every
    way of failing is a `Fault`, and `Fault.message` words it. -/

namespace ModelCatalog.Json

/-- What stands where something else is expected. -/
inductive Found where
  | null
  | flag (value : Bool)
  | number (value : Number)
  | text (value : String)
  | list
  | object
  deriving Repr

inductive Fault where
  /-- The text ends where a value has to go on. -/
  | endOfValue
  /-- The text ends inside a list. -/
  | endOfList
  /-- The text ends inside an object. -/
  | endOfObject
  /-- The text ends inside a string. -/
  | endOfText
  /-- No value starts here. -/
  | noValue
  | unknownWord
  | noColon
  /-- Neither comma nor bracket behind an item. -/
  | noItemEnd
  /-- Neither comma nor brace behind a member. -/
  | noMemberEnd
  | keyNotText
  | invalidNumber
  | numberOutOfRange
  /-- An unknown escape. -/
  | invalidEscape
  /-- The first half of a pair of escapes without the second. -/
  | unfinishedEscape
  /-- Half of a pair of escapes where a whole character has to stand. -/
  | loneHalf
  | controlCharacter
  | trailingComma
  | trailingCharacters
  | tooDeep
  /-- A second member for one field. -/
  | duplicateField (name : String)
  /-- A value of another kind. -/
  | wrongKind (found : Found) (expected : Expected)
  /-- A choice written as an object that has not exactly one member. -/
  | notSingleChoice
  /-- A list that has more items than its record has fields. -/
  | tooLong (length : Nat)
  deriving Repr

def Found.message : Found → String
  | .null => "null"
  | .flag true => "boolean `true`"
  | .flag false => "boolean `false`"
  | .number (.integer n) => s!"integer `{n}`"
  | .number (.float f) => "floating point `" ++ String.ofList (floatText f) ++ "`"
  | .text s => "string " ++ Text.quote s
  | .list => "sequence"
  | .object => "map"

def Fault.message : Fault → String
  | .endOfValue => "EOF while parsing a value"
  | .endOfList => "EOF while parsing a list"
  | .endOfObject => "EOF while parsing an object"
  | .endOfText => "EOF while parsing a string"
  | .noValue => "expected value"
  | .unknownWord => "expected ident"
  | .noColon => "expected `:`"
  | .noItemEnd => "expected `,` or `]`"
  | .noMemberEnd => "expected `,` or `\x7d`"
  | .keyNotText => "key must be a string"
  | .invalidNumber => "invalid number"
  | .numberOutOfRange => "number out of range"
  | .invalidEscape => "invalid escape"
  | .unfinishedEscape => "unexpected end of hex escape"
  | .loneHalf => "lone leading surrogate in hex escape"
  | .controlCharacter => "control character (\\u0000-\\u001F) found while parsing a string"
  | .trailingComma => "trailing comma"
  | .trailingCharacters => "trailing characters"
  | .tooDeep => "recursion limit exceeded"
  | .duplicateField name => s!"duplicate field `{name}`"
  | .wrongKind found expected => "invalid type: " ++ found.message ++ ", expected " ++ expected.message
  | .notSingleChoice => "invalid value: map, expected map with a single key"
  | .tooLong length => s!"invalid length {length}, expected fewer elements in array"

end ModelCatalog.Json
