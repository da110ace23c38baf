/-! # Places in a text

    A `Span` counts bytes from the start of a text.  A `Place` is what a reader of a message needs
    instead: the line, and the columns in it, which `Place.lines` shows with a mark below. -/

namespace ModelCatalog.Toml

/-- A range of the bytes of a text. -/
structure Span where
  start : Nat
  stop : Nat
  deriving DecidableEq, Repr

/-- A range within a line, counted from zero. -/
structure Place where
  line : Nat
  column : Nat
  content : String
  /-- How many characters are marked. -/
  width : Nat
  deriving DecidableEq, Repr

/-- The number of bytes of characters. -/
def byteLength (s : List Char) : Nat := (String.ofList s).utf8ByteSize

/-- The characters in front of so many bytes, and those behind. -/
def splitBytes : Nat → List Char → List Char × List Char
  | 0, s => ([], s)
  | _, [] => ([], [])
  | n + 1, c :: rest =>
    let (before, behind) := splitBytes (n + 1 - c.utf8Size) rest
    (c :: before, behind)

/-- The place of a range in a text.  The column counts characters, but bytes if the range starts with
    a character that has several.  What starts at the end of the text is shown one column behind its
    last character. -/
def Place.ofSpan (text : List Char) (span : Span) : Place :=
  let (before, behind) := splitBytes span.start text
  let atEnd := behind.isEmpty && !before.isEmpty
  let before := if atEnd then before.dropLast else before
  let line := before.count '\n'
  let inLine := (before.reverse.takeWhile (· != '\n')).reverse
  let isWide := behind.head?.any (1 < ·.utf8Size)
  let column := (if isWide then byteLength inLine else inLine.length) + if atEnd then 1 else 0
  let content := (text.splitOn '\n').getD line []
  ⟨line, column, .ofList content, min (span.stop - span.start) (byteLength content - column)⟩

/-- The words for the first line of a failure. -/
def failureHeading : String := "TOML parse error"

/-- The lines that show a place. -/
def Place.lines (place : Place) : List String :=
  let blank (n : Nat) : String := .ofList (List.replicate n ' ')
  let number := toString (place.line + 1)
  let margin := blank (number.length + 1) ++ "|"
  [failureHeading ++ " at line " ++ number ++ s!", column {place.column + 1}",
    margin,
    number ++ " | " ++ place.content,
    margin ++ blank (place.column + 1) ++ .ofList (List.replicate (max 1 place.width) '^')]

end ModelCatalog.Toml
