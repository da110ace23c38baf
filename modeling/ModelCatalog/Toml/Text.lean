import ModelCatalog.Text.Digits
import ModelCatalog.Toml.Reader

/-! # TOML strings

    Four kinds: between double quotes, with escapes, or between apostrophes, without; and either on
    one line, or between three quotes on any number of lines. -/

namespace ModelCatalog.Toml

open Reader

-- ── Escapes ──

/-- The character of an escape by one letter. -/
def escapedBy? : Char → Option Char
  | 'b' => some '\x08'
  | 't' => some '\t'
  | 'n' => some '\n'
  | 'f' => some '\x0c'
  | 'r' => some '\r'
  | '"' => some '"'
  | '\\' => some '\\'
  | _ => none

/-- The letters of all escapes. -/
def escapeLetters : List Wanted :=
  ["b", "f", "n", "r", "t", "u", "U", "\\", "\""].map .word

/-- Takes the code point of a character in so many hexadecimal digits. -/
def codePoint (part : Part) (count : Nat) : Reader Char :=
  commit <| within part do
    let digits := (← get).rest.take count
    match digits.length == count, Text.hexadecimal? digits with
    | true, some n =>
      if n.isValidChar then
        discard (takeCount count)
        return .ofNat n
      else reject (some .outOfRange)
    | _, _ => reject

/-- Takes an escape.  An unknown letter is taken before it is refused if it has one byte. -/
def escape : Reader Char := do
  take '\\'
  match ← peek with
  | none => reject
  | some c =>
    if 1 < c.utf8Size then commit (within .escape (wanting escapeLetters reject))
    discard (takeCount 1)
    match c with
    | 'u' => codePoint .shortCode 4
    | 'U' => codePoint .longCode 8
    | c =>
      match escapedBy? c with
      | some e => return e
      | none => commit (within .escape (wanting escapeLetters reject))

-- ── One line ──

/-- The characters that stand for themselves between double quotes. -/
def isPlain (c : Char) : Bool := isContent c && c != '"' && c != '\\'

/-- The characters between apostrophes. -/
def isLiteral (c : Char) : Bool := isContent c && c != '\''

/-- Takes a string between double quotes. -/
def basicLine : Reader String := do
  take '"'
  let pieces ← many (either (takeSome isPlain) (List.singleton <$> escape))
  commit (within .basicLine (take '"'))
  return .ofList pieces.flatten

/-- Takes a string between apostrophes. -/
def literalLine : Reader String :=
  within .literalLine do
    take '\''
    let content ← takeWhile isLiteral
    commit (take '\'')
    return .ofList content

-- ── Several lines ──

/-- Takes one or two quotes inside a block, behind which another character stands. -/
def innerQuotes (quote : Char) : Reader (List Char) := do
  let quotes ← takeSome (· == quote)
  if 2 < quotes.length || (← peek).isNone then reject
  return quotes

/-- Takes the one or two quotes that can stand right before the closing ones. -/
def outerQuotes (quote : Char) : Reader (List Char) := do
  let quotes := (← get).rest.takeWhile (· == quote)
  takeCount (min 2 (quotes.length - 3))

/-- Takes a block of pieces between three quotes.  A newline right behind the opening ones does not
    belong to it. -/
def block (part : Part) (quote : Char) (piece : Reader (List Char)) : Reader String :=
  within part do
    takeWord [quote, quote, quote]
    discard (optional newline)
    let pieces ← commit (many piece)
    let quotes ← outerQuotes quote
    commit (takeWord [quote, quote, quote])
    return .ofList (pieces.flatten ++ quotes)

/-- Takes an end of line as content. -/
def newlineContent : Reader (List Char) := do
  newline
  return ['\n']

/-- Takes a backslash at the end of a line, and all blank space up to the next character. -/
def fold : Reader (List Char) := do
  take '\\'
  blanks
  newline
  discard (many (either newline (discard (takeSome isBlank))))
  return []

/-- Takes a piece of a block between double quotes. -/
def basicPiece : Reader (List Char) :=
  either (takeSome isPlain) <| either fold <| either (List.singleton <$> escape) <|
    either newlineContent (innerQuotes '"')

/-- Takes a block between double quotes. -/
def basicBlock : Reader String := block .basicBlock '"' basicPiece

/-- Takes a piece of a block between apostrophes.  Quotes only count with what follows them. -/
def literalPiece : Reader (List Char) :=
  let content := either (takeSome isLiteral) newlineContent
  either content do
    let quotes ← innerQuotes '\''
    return quotes ++ (← content)

/-- Takes a block between apostrophes. -/
def literalBlock : Reader String := block .literalBlock '\'' literalPiece

-- ── All kinds ──

/-- Takes a string of either kind, which starts with the given quote. -/
def takeText (quote : Char) : Reader String :=
  if quote == '"' then either basicBlock basicLine else either literalBlock literalLine

end ModelCatalog.Toml
