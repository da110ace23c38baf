import ModelCatalog.Toml.Draft
import ModelCatalog.Toml.Fault
import ModelCatalog.Toml.Number
import ModelCatalog.Toml.Text
import ModelCatalog.Toml.Time

/-! # Reading TOML documents

    A document is a sequence of lines: headers, assignments, comments and empty lines.  Values may
    go on over several lines inside brackets. -/

namespace ModelCatalog.Toml

open Reader

/-- Keys and values are refused that nest this deep. -/
def depthLimit : Nat := 80

-- ── Keys ──

/-- Takes a part of a key, and blanks around it. -/
def keyPart : Reader Key := do
  blanks
  let (span, name) ← located do
    match ← peek with
    | some '"' => basicLine
    | some '\'' => literalLine
    | _ => String.ofList <$> takeSome isKeyChar
  blanks
  return ⟨name, span⟩

/-- Takes a key: parts with dots between them.  The last one is told from the path to it. -/
def key : Reader (List Key × Key) :=
  let parts : Reader (Key × List Key) := do
    let first ← keyPart
    let rest ← many do
      take '.'
      keyPart
    return (first, rest)
  judge (within .key parts) fun (first, rest) =>
    if depthLimit ≤ rest.length + 1 then .error .tooDeep
    else .ok ((first :: rest).dropLast, rest.getLast?.getD first)

/-- Takes what stands between a key and its value. -/
def equals : Reader Unit := do
  wanting [.word ".", .word "="] (take '=')
  blanks

-- ── Values ──

/-- Fails on a word that could be a string without its quotes. -/
def unquoted {α : Type} (reader : Reader α) : Reader α :=
  within .text (wanting [.word "\"", .word "'"] reader)

/-- Takes a value without parts. -/
def scalar : Reader Scalar := do
  match ← peek with
  | none => reject
  | some '"' => .text <$> takeText '"'
  | some '\'' => .text <$> takeText '\''
  | some '_' => .integer <$> wanting [.leadingDigit] integer
  | some '.' => .float <$> wanting [.leadingDigit] float
  | some 't' =>
    unquoted (commit (takeWord ['t', 'r', 'u', 'e']))
    return .flag true
  | some 'f' =>
    unquoted (commit (takeWord ['f', 'a', 'l', 's', 'e']))
    return .flag false
  | some c =>
    if c == '+' || c == '-' || c.isDigit then
      either ((fun _ => .time) <$> time) (either (.float <$> float) (.integer <$> integer))
    else if c == 'i' || c == 'n' then .float <$> unquoted specialFloat
    else unquoted reject

/-- Takes the items of a list and their brackets.  A comma may stand behind the last one. -/
def items (value : Reader Value) : Reader (List Value) := do
  take '['
  commit do
    let item : Reader Value := do
      gap
      let v ← value
      gap
      return v
    let items ← if (← peek) == some ']' then pure [] else separated ',' item
    if !items.isEmpty then discard (optional (take ','))
    gap
    within .list (wanting [.word "]"] (take ']'))
    return items

/-- Takes the members of a table in braces, and the braces.  No comma may stand behind the last one. -/
def bracedMembers (value : Reader Value) : Reader (List (Key × Value)) := do
  take '\x7b'
  commit do
    let assignment : Reader (List Key × Key × Value) := do
      let (path, name) ← key
      commit do
        equals
        let v ← value
        blanks
        return (path, name, v)
    let assignments : Reader (List (List Key × Key × Value)) := do
      let all ← separated ',' assignment
      blanks
      return all
    let members ← judge assignments Value.ofAssignments
    within .inlineTable (wanting [.word "\x7d"] (take '\x7d'))
    return members

/-- Takes a value in which at most `depth` brackets stand inside each other. -/
def value (depth : Nat) : Reader Value := do
  match ← peek, depth with
  | some '[', depth + 1 =>
    let (span, items) ← located (items (value depth))
    return .list span items
  | some '\x7b', depth + 1 =>
    let (span, members) ← located (bracedMembers (value depth))
    return .table (.braces span) members
  | some '[', 0 | some '\x7b', 0 => commit (reject (some .tooDeep))
  | _, _ =>
    let (span, content) ← located scalar
    return .scalar span content

-- ── Lines ──

/-- Takes an assignment and the rest of its line. -/
def assignment : Reader Expression := do
  let (path, name) ← key
  commit do
    equals
    let v ← value (depthLimit - 1)
    restOfLine
    return .assignment path name v

/-- Takes a key between brackets. -/
def bracketedKey (opening closing : List Char) : Reader (List Key × Key) := do
  takeWord opening
  commit do
    let name ← key
    wanting [.word ".", .word (.ofList closing)] (takeWord closing)
    return name

/-- Takes a header and the rest of its line.  A bracket at the end of the text starts none. -/
def header : Reader Expression := do
  let rest := (← get).rest
  if (rest.drop 1).isEmpty then reject
  if ['[', '['].isPrefixOf rest then
    let (span, path, name) ← located (bracketedKey ['[', '['] [']', ']'])
    commit restOfLine
    return .element span path name
  else
    let (span, path, name) ← located (bracketedKey ['['] [']'])
    commit restOfLine
    return .table span path name

/-- Takes the lines from the next one to the end of the text.  Every line takes a character, so the
    text bounds their number. -/
def linesFrom : List Char → Draft → Reader Draft
  | [], draft => do
    endOfText
    return draft
  | _ :: bound, draft => do
    blanks
    match ← peek with
    | none => return draft
    | some '#' =>
      comment
      endOfLine
      linesFrom bound draft
    | some '\n' | some '\r' =>
      either newline reject
      linesFrom bound draft
    | some '[' => linesFrom bound (← within .tableHeader (judge header draft.add))
    | some _ => linesFrom bound (← judge assignment draft.add)

/-- The range of one character, or of none at the end of a text. -/
def charSpan (text : List Char) (offset : Nat) : Span :=
  ⟨offset, offset + ((splitBytes offset text).2.head?.map Char.utf8Size).getD 0⟩

/-- The table that a document is.  A byte order mark may precede it. -/
def parse (text : String) : Except Fault Value :=
  let s := text.toList
  let document : Reader Draft := do
    discard (optional (take '\ufeff'))
    linesFrom s {}
  match document ⟨0, s⟩ with
  | .ok (draft, _) => .ok draft.root
  | .error failure =>
    .error ⟨.ofSpan s (charSpan s failure.offset), .malformed failure.complaint⟩

end ModelCatalog.Toml
