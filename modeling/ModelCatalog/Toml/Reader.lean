import ModelCatalog.Toml.Complaint
import ModelCatalog.Toml.Place

/-! # Reading TOML from characters

    A `Reader` takes characters from the front of a text and keeps count of their bytes.  Where it
    fails, another one may be tried from the same start, unless the failure is final: once the first
    characters have told what has to follow, nothing else is tried.

    A line ends with a line feed, which a carriage return may precede; no other control character but
    the tabulator stands anywhere. -/

namespace ModelCatalog.Toml

/-- The rest of a text, and how many bytes of it have been taken. -/
structure Cursor where
  offset : Nat
  rest : List Char
  deriving Repr

/-- Where a reader failed, and why. -/
structure Failure where
  offset : Nat
  complaint : Complaint
  /-- Whether no other reader is tried. -/
  isFinal : Bool
  deriving Repr

/-- Takes characters from the front of a text, or fails. -/
abbrev Reader := StateT Cursor (Except Failure)

namespace Reader

variable {α β : Type}

-- ── Failures ──

/-- Fails here. -/
def reject (cause : Option Cause := none) : Reader α := fun cursor =>
  .error ⟨cursor.offset, { cause }, false⟩

/-- Changes the failure of a reader. -/
def mapFailure (change : Failure → Failure) (reader : Reader α) : Reader α := fun cursor =>
  (reader cursor).mapError change

/-- Makes every failure final. -/
def commit (reader : Reader α) : Reader α := reader.mapFailure fun f => { f with isFinal := true }

/-- Names the part that a reader takes.  Parts inside it keep their names. -/
def within (part : Part) (reader : Reader α) : Reader α :=
  reader.mapFailure fun f =>
    { f with complaint.part := f.complaint.part.or (some part) }

/-- Tells what a reader takes, behind what its own parts tell. -/
def wanting (wanted : List Wanted) (reader : Reader α) : Reader α :=
  reader.mapFailure fun f =>
    { f with complaint.wanted := f.complaint.wanted ++ wanted }

/-- Judges what a reader takes.  A bad verdict is a failure where it started. -/
def judge (reader : Reader α) (verdict : α → Except Cause β) : Reader β := fun cursor => do
  let (a, after) ← reader cursor
  match verdict a with
  | .ok b => return (b, after)
  | .error cause => reject (some cause) cursor

-- ── Choices ──

/-- Tries a second reader if the failure of the first is not final. -/
def either (first second : Reader α) : Reader α := fun cursor =>
  match first cursor with
  | .ok result => .ok result
  | .error failure => if failure.isFinal then .error failure else second cursor

/-- Takes something, or nothing. -/
def optional (reader : Reader α) : Reader (Option α) := either (some <$> reader) (return none)

/-- Takes items up to the first that is not there, behind those already taken.  Every item takes a
    character, so the text bounds their number. -/
def manyFrom (item : Reader α) : List Char → List α → Reader (List α)
  | [], taken => return taken.reverse
  | _ :: bound, taken => do
    match ← optional item with
    | some a => manyFrom item bound (a :: taken)
    | none => return taken.reverse

def many (item : Reader α) : Reader (List α) := do manyFrom item (← get).rest []

/-- What a reader takes, and its range. -/
def located (reader : Reader α) : Reader (Span × α) := do
  let start := (← get).offset
  let a ← reader
  return (⟨start, (← get).offset⟩, a)

end Reader

open Reader

-- ── Characters ──

/-- The next character, if any. -/
def peek : Reader (Option Char) := return (← get).rest.head?

/-- Takes so many characters, or all if there are fewer. -/
def takeCount (count : Nat) : Reader (List Char) := do
  let ⟨offset, rest⟩ ← get
  let taken := rest.take count
  set (Cursor.mk (offset + byteLength taken) (rest.drop count))
  return taken

/-- Takes characters as long as they are of a kind. -/
def takeWhile (p : Char → Bool) : Reader (List Char) := do
  let ⟨offset, rest⟩ ← get
  let (taken, rest) := rest.span p
  set (Cursor.mk (offset + byteLength taken) rest)
  return taken

/-- Takes characters as long as they are of a kind, at least one. -/
def takeSome (p : Char → Bool) : Reader (List Char) := do
  if (← peek).any p then takeWhile p else reject

/-- Takes one character of a kind. -/
def takeOne (p : Char → Bool) : Reader Char := do
  match ← get with
  | ⟨offset, c :: rest⟩ =>
    if p c then
      set (Cursor.mk (offset + c.utf8Size) rest)
      return c
    else reject
  | _ => reject

/-- Takes one character, which has to be the given one. -/
def take (c : Char) : Reader Unit := discard (takeOne (· == c))

/-- Takes the given characters. -/
def takeWord (word : List Char) : Reader Unit := do
  if word.isPrefixOf (← get).rest then discard (takeCount word.length) else reject

/-- Takes nothing at the end of the text. -/
def endOfText : Reader Unit := do if (← peek).isSome then reject

/-- Takes items with a mark between them, maybe none. -/
def separated {α : Type} (mark : Char) (item : Reader α) : Reader (List α) := do
  match ← optional item with
  | none => return []
  | some first =>
    let rest ← many do
      take mark
      item
    return first :: rest

-- ── Blanks and lines ──

/-- Spaces and tabulators. -/
def isBlank (c : Char) : Bool := c == ' ' || c == '\t'

/-- The characters that can stand in comments and strings. -/
def isContent (c : Char) : Bool := c == '\t' || (' ' ≤ c && c ≠ '\x7f')

def blanks : Reader Unit := discard (takeWhile isBlank)

/-- Takes an end of line.  It fails behind the first character that belongs to none. -/
def newline : Reader Unit := do
  match ← takeOne (fun _ => true) with
  | '\n' => return
  | '\r' => take '\n'
  | _ => reject

/-- Takes the end of a line, or nothing at the end of the text. -/
def endOfLine : Reader Unit := either newline endOfText

/-- Takes a comment up to the end of its line. -/
def comment : Reader Unit := do
  take '#'
  discard (takeWhile isContent)

/-- Takes the rest of a line: blanks, a comment, and its end. -/
def restOfLine : Reader Unit :=
  wanting [.newline, .word "#"] do
    blanks
    discard (optional comment)
    endOfLine

/-- Takes blanks, ends of lines, and comments with the ends of their lines.  The text bounds their
    number. -/
def gapFrom : List Char → Reader Unit
  | [] => return
  | _ :: bound => do
    blanks
    match ← peek with
    | some '#' =>
      comment
      newline
      gapFrom bound
    | some '\n' | some '\r' =>
      newline
      gapFrom bound
    | _ => return

def gap : Reader Unit := do gapFrom (← get).rest

end ModelCatalog.Toml
