import ModelCatalog.Text.Visible
import ModelCatalog.Text.Extending

/-! # String literals

    Text inside double quotes, written so that the quotes, the line and the terminal stay intact:
    quotes and backslashes are escaped, and so is every character that has no visible form of its
    own.  Two spellings are in use.  They differ in the null character alone, which `quoteStrict`
    spells out before an octal digit, where its short form could be misread. -/

namespace ModelCatalog.Text

/-- Escape by code point, in hexadecimal between braces. -/
def escapeCode (c : Char) : List Char :=
  ['\\', 'u', '\x7b'] ++ Nat.toDigits 16 c.toNat ++ ['\x7d']

/-- How one character is written inside a literal. -/
def escapeChar (c : Char) : List Char :=
  if c == '\x00' then ['\\', '0']
  else if c == '\t' then ['\\', 't']
  else if c == '\r' then ['\\', 'r']
  else if c == '\n' then ['\\', 'n']
  else if c == '"' then ['\\', '"']
  else if c == '\\' then ['\\', '\\']
  else if isExtending c || !isVisible c then escapeCode c
  else [c]

/-- The inside of a literal, character by character. -/
def escape (s : List Char) : List Char := s.flatMap escapeChar

def isOctal (c : Char) : Bool := '0' ≤ c && c ≤ '7'

/-- The inside of a literal in which no null character seems to start an octal escape. -/
def escapeStrict : List Char → List Char
  | [] => []
  | c :: s =>
    if c == '\x00' && s.head?.any isOctal then ['\\', 'x', '0', '0'] ++ escapeStrict s
    else escapeChar c ++ escapeStrict s

/-- A string literal. -/
def quote (s : String) : String := .ofList ('"' :: escape s.toList ++ ['"'])

/-- A string literal in the strict spelling. -/
def quoteStrict (s : String) : String := .ofList ('"' :: escapeStrict s.toList ++ ['"'])

end ModelCatalog.Text
