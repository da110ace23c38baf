import ModelCatalog.Json.Reader
import ModelCatalog.Text.Digits

/-! # JSON strings

    The characters between two double quotes.  A backslash starts an escape; `\u` and four
    hexadecimal digits name a UTF-16 unit, and a character beyond the first plane is written as two
    such escapes, a leading and a trailing half.

    `scan` reads a string and insists on whole characters.  `skip` only looks for its end and takes
    any unit. -/

namespace ModelCatalog.Json

/-- The unit that four hexadecimal digits name. -/
def unit (a b c d : Char) : Except Fault Nat :=
  match Text.hexadecimal? [a, b, c, d] with
  | some n => .ok n
  | none => .error .invalidEscape

/-- What is wrong with a unit of fewer than four characters: the text ends too early, unless wide
    characters fill the four bytes. -/
def shortUnit (s : List Char) : Fault :=
  if (String.ofList s).utf8ByteSize < 4 then .endOfText else .invalidEscape

def isLeading (unit : Nat) : Bool := 0xD800 ≤ unit && unit ≤ 0xDBFF

def isTrailing (unit : Nat) : Bool := 0xDC00 ≤ unit && unit ≤ 0xDFFF

/-- The character of two halves. -/
def joinHalves (leading trailing : Nat) : Char :=
  Char.ofNat ((leading - 0xD800) * 0x400 + (trailing - 0xDC00) + 0x10000)

/-- The character that a letter behind a backslash stands for. -/
def simpleEscape? : Char → Option Char
  | '"' => some '"'
  | '\\' => some '\\'
  | '/' => some '/'
  | 'b' => some '\x08'
  | 'f' => some '\x0c'
  | 'n' => some '\n'
  | 'r' => some '\r'
  | 't' => some '\t'
  | _ => none

/-- The trailing half behind a leading one, and the rest of the text. -/
def trailingHalf : List Char → Except Fault (Nat × List Char)
  | '\\' :: 'u' :: a :: b :: c :: d :: rest => do
    let n ← unit a b c d
    if isTrailing n then return (n, rest) else throw .loneHalf
  | '\\' :: 'u' :: rest => throw (shortUnit rest)
  | [] | ['\\'] => throw .endOfText
  | _ => throw .unfinishedEscape

/-- The character of an escape, from behind its backslash, and the rest of the text. -/
def escaped : List Char → Except Fault (Char × List Char)
  | 'u' :: a :: b :: c :: d :: rest => do
    let n ← unit a b c d
    if isTrailing n then throw .loneHalf
    else if isLeading n then
      let (m, rest) ← trailingHalf rest
      return (joinHalves n m, rest)
    else return (Char.ofNat n, rest)
  | 'u' :: rest => throw (shortUnit rest)
  | c :: rest =>
    match simpleEscape? c with
    | some e => return (e, rest)
    | none => throw .invalidEscape
  | [] => throw .endOfText

/-- The characters up to the closing quote, and the text behind it.  Every character takes at least
    one of the text, so the text bounds their number. -/
def scan : List Char → List Char → Except Fault (List Char × List Char)
  | _, [] | [], _ => throw .endOfText
  | _ :: bound, c :: rest =>
    if c == '"' then return ([], rest)
    else if c == '\\' then do
      let (e, rest) ← escaped rest
      let (content, rest) ← scan bound rest
      return (e :: content, rest)
    else if c.toNat < 0x20 then throw .controlCharacter
    else do
      let (content, rest) ← scan bound rest
      return (c :: content, rest)

/-- The text behind the closing quote of a string that is not looked into. -/
def skipScan : List Char → List Char → Except Fault (List Char)
  | _, [] | [], _ => throw .endOfText
  | _ :: bound, c :: rest =>
    if c == '"' then return rest
    else if c == '\\' then
      match rest with
      | 'u' :: a :: b :: c :: d :: rest => do
        let _ ← unit a b c d
        skipScan bound rest
      | 'u' :: rest => throw (shortUnit rest)
      | e :: rest => if (simpleEscape? e).isSome then skipScan bound rest else throw .invalidEscape
      | [] => throw .endOfText
    else if c.toNat < 0x20 then throw .controlCharacter
    else skipScan bound rest

/-- Takes a string, whose opening quote stands next. -/
def takeText : Reader String := do
  advance
  let remaining ← get
  let (content, rest) ← scan remaining remaining
  set rest
  return .ofList content

/-- Takes a string, whose opening quote stands next, without reading it. -/
def skipText : Reader Unit := do
  advance
  let remaining ← get
  set (← skipScan remaining remaining)

end ModelCatalog.Json
