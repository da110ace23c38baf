import ModelCatalog.Json.Text
import ModelCatalog.Json.Numeral

/-! # Reading and skipping JSON values

    `value` reads a value strictly, down to a bounded depth.  `skipValue` finds the end of a value
    that nobody asks for; it knows the same tokens but bounds neither depth nor numbers, does not
    join escapes, and words a misplaced comma differently. -/

namespace ModelCatalog.Json

-- ── Strict reading ──

/-- How many brackets may stand inside each other around a whole text. -/
def maxDepth : Nat := 127

/-- A member of an object, put behind those before it. -/
def member (value : Reader Json) (before : List (String × Json)) (name : String) :
    Reader (List (String × Json)) := do
  colon
  return (name, ← value) :: before

/-- A value in which at most `depth` brackets stand inside each other. -/
def value (depth : Nat) : Reader Json := do
  match ← token with
  | none => throw .endOfValue
  | some 'n' =>
    word ['n', 'u', 'l', 'l']
    return .null
  | some 't' =>
    word ['t', 'r', 'u', 'e']
    return .flag true
  | some 'f' =>
    word ['f', 'a', 'l', 's', 'e']
    return .flag false
  | some '"' => return .text (← takeText)
  | some '[' =>
    match depth with
    | 0 => throw .tooDeep
    | depth + 1 =>
      advance
      return .list (← items (value depth))
  | some '\x7b' =>
    match depth with
    | 0 => throw .tooDeep
    | depth + 1 =>
      advance
      return .object (← members takeText (member (value depth)) []).reverse
  | some c => if c == '-' || c.isDigit then return .number (← takeNumber) else throw .noValue

/-- The value that a whole text is. -/
def parse (text : String) : Except Fault Json := (value maxDepth).parse text

-- ── Skipping ──

/-- The two kinds of brackets. -/
inductive Bracket where
  | list
  | object
  deriving DecidableEq

def Bracket.close : Bracket → Char
  | .list => ']'
  | .object => '\x7d'

/-- The fault of a text that ends inside. -/
def Bracket.atEnd : Bracket → Fault
  | .list => .endOfList
  | .object => .endOfObject

/-- The fault of something else than a comma or the closing character. -/
def Bracket.noEnd : Bracket → Fault
  | .list => .noItemEnd
  | .object => .noMemberEnd

/-- Takes what closes the open brackets, the innermost first, up to the comma before the next value
    or to the end of the outermost.  The result are the brackets that stay open. -/
def skipClosing : List Bracket → Reader (List Bracket)
  | [] => return []
  | bracket :: outer => do
    match ← token with
    | none => throw bracket.atEnd
    | some c =>
      if c == ',' then
        advance
        return bracket :: outer
      else if c == bracket.close then
        advance
        skipClosing outer
      else throw bracket.noEnd

/-- Takes what follows an opening character: the content may be empty. -/
def skipOpening (bracket : Bracket) (outer : List Bracket) : Reader (List Bracket) := do
  advance
  match ← token with
  | none => throw bracket.atEnd
  | some c =>
    if c == bracket.close then
      advance
      skipClosing outer
    else return bracket :: outer

/-- Takes the key and the colon of a member. -/
def skipKey : Reader Unit := do
  match ← token with
  | none => throw .endOfObject
  | some '"' =>
    skipText
    colon
  | some _ => throw .keyNotText

/-- Takes the start of a value inside open brackets, and what closes behind it. -/
def skipStart (outer : List Bracket) : Reader (List Bracket) := do
  match ← token with
  | none => throw .endOfValue
  | some '[' => skipOpening .list outer
  | some '\x7b' => skipOpening .object outer
  | some c =>
    match c with
    | 'n' => word ['n', 'u', 'l', 'l']
    | 't' => word ['t', 'r', 'u', 'e']
    | 'f' => word ['f', 'a', 'l', 's', 'e']
    | '"' => skipText
    | c => if c == '-' || c.isDigit then discard (numeral .invalidNumber) else throw .noValue
    skipClosing outer

/-- Takes the values inside open brackets until all are closed.  Every round takes a character, so
    the text bounds their number. -/
def skipFrom : List Char → List Bracket → Reader Unit
  | [], _ => throw .endOfValue
  | _ :: bound, brackets => do
    match ← skipStart brackets with
    | [] => return
    | bracket :: outer =>
      if bracket = .object then skipKey
      skipFrom bound (bracket :: outer)

/-- Takes a value without reading it. -/
def skipValue : Reader Unit := do skipFrom (← get) []

end ModelCatalog.Json
