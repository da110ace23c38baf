/-! # Complaints about the way a TOML text is written

    A complaint names the part of the text that is not what it has to be, tells what could stand
    there, and may give a cause beyond the way it is written. -/

namespace ModelCatalog.Toml

/-- A part of a text that has a name. -/
inductive Part where
  | key
  | tableHeader
  | text
  | basicLine
  | basicBlock
  | literalLine
  | literalBlock
  | escape
  | shortCode
  | longCode
  | integer
  | hexadecimal
  | octal
  | binary
  | float
  | dateTime
  | time
  | offset
  | list
  | inlineTable
  deriving DecidableEq, Repr

def Part.name : Part → String
  | .key => "key"
  | .tableHeader => "table header"
  | .text => "string"
  | .basicLine => "basic string"
  | .basicBlock => "multiline basic string"
  | .literalLine => "literal string"
  | .literalBlock => "multiline literal string"
  | .escape => "escape sequence"
  | .shortCode => "unicode 4-digit hex code"
  | .longCode => "unicode 8-digit hex code"
  | .integer => "integer"
  | .hexadecimal => "hexadecimal integer"
  | .octal => "octal integer"
  | .binary => "binary integer"
  | .float => "floating-point number"
  | .dateTime => "date-time"
  | .time => "time"
  | .offset => "time offset"
  | .list => "array"
  | .inlineTable => "inline table"

/-- What could stand at a place. -/
inductive Wanted where
  | word (text : String)
  | newline
  | digit
  | leadingDigit
  deriving DecidableEq, Repr

def Wanted.message : Wanted → String
  | .word text => "`" ++ text ++ "`"
  | .newline => "newline"
  | .digit => "digit"
  | .leadingDigit => "leading digit"

/-- The kinds of values that are no tables of the document. -/
inductive Kind where
  | text
  | integer
  | float
  | flag
  | time
  | list
  | inlineTable
  deriving DecidableEq, Repr

def Kind.name : Kind → String
  | .text => "string"
  | .integer => "integer"
  | .float => "float"
  | .flag => "boolean"
  | .time => "datetime"
  | .list => "array"
  | .inlineTable => "inline table"

/-- Why something that is well written is refused. -/
inductive Cause where
  /-- A code point, or a part of a time, that there is not. -/
  | outOfRange
  /-- Too many brackets inside each other, or too many parts of a key. -/
  | tooDeep
  | tooLarge
  | tooSmall
  /-- A key that is taken, as it is written, and the path of the table that has it if it is told. -/
  | duplicateKey (key : String) (table : Option (List String))
  /-- A path that leads through a value of some kind. -/
  | notTable (path : List String) (kind : Kind)
  deriving DecidableEq, Repr

def Cause.message : Cause → String
  | .outOfRange => "value is out of range"
  | .tooDeep => "recursion limit exceeded"
  | .tooLarge => "number too large to fit in target type"
  | .tooSmall => "number too small to fit in target type"
  | .duplicateKey key none => s!"duplicate key `{key}`"
  | .duplicateKey key (some []) => s!"duplicate key `{key}` in document root"
  | .duplicateKey key (some table) =>
    s!"duplicate key `{key}` in table `" ++ ".".intercalate table ++ "`"
  | .notTable path kind =>
    "dotted key `" ++ ".".intercalate path ++ "` attempted to extend non-table type (" ++
      kind.name ++ ")"

/-- What is wrong with the way a text is written.  Nothing at all may be said. -/
structure Complaint where
  /-- The innermost part that has a name. -/
  part : Option Part := none
  wanted : List Wanted := []
  cause : Option Cause := none
  deriving DecidableEq, Repr

/-- The lines of a complaint. -/
def Complaint.lines (c : Complaint) : List String :=
  let part := c.part.toList.map fun part => "invalid " ++ part.name
  let wanted :=
    if c.wanted.isEmpty then []
    else ["expected " ++ ", ".intercalate (c.wanted.map Wanted.message)]
  part ++ wanted ++ c.cause.toList.map Cause.message

end ModelCatalog.Toml
