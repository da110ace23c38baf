import ModelCatalog.Toml.Place

/-! # TOML keys

    A key is a path of names.  A name of letters, digits, underscores and dashes stands bare, any
    other between quotes. -/

namespace ModelCatalog.Toml

structure Key where
  name : String
  span : Span
  deriving Repr

def names (keys : List Key) : List String := keys.map Key.name

/-- The characters of a key without quotes. -/
def isKeyChar (c : Char) : Bool := c.isAlphanum || c == '_' || c == '-'

/-- The control characters that only an escape can stand for. -/
def isEscapedControl (c : Char) : Bool := (c < ' ' && c != '\t') || c == '\x7f'

/-- A character between double quotes. -/
def quotedChar (c : Char) : List Char :=
  match c with
  | '\x08' => ['\\', 'b']
  | '\t' => ['\\', 't']
  | '\n' => ['\\', 'n']
  | '\x0c' => ['\\', 'f']
  | '\r' => ['\\', 'r']
  | '"' => ['\\', '"']
  | '\\' => ['\\', '\\']
  | c =>
    if isEscapedControl c then
      ['\\', 'u', '0', '0', Nat.digitChar (c.toNat / 16), (Nat.digitChar (c.toNat % 16)).toUpper]
    else [c]

/-- A name as a key: bare if it can be, between the quotes that need no escapes if there are any, and
    otherwise between double quotes. -/
def writtenKey (name : String) : String :=
  let s := name.toList
  let basic := String.ofList ('"' :: s.flatMap quotedChar ++ ['"'])
  if !s.isEmpty && s.all isKeyChar then name
  else if !s.any (fun c => isEscapedControl c || c == '\\' || c == '"') then basic
  else if !s.any (fun c => isEscapedControl c || c == '\'') then .ofList ('\'' :: s ++ ['\''])
  else basic

end ModelCatalog.Toml
