import ModelCatalog.Source
import ModelCatalog.Json.Value

/-! # Records from JSON

    Two ways from JSON to a record.  `Reader` takes the record straight from the text: a fault in a
    value comes before a fault in the text behind it, and members that belong to no field are
    skipped.  `Decoder` starts from a value, so all faults of the text have come before. -/

namespace ModelCatalog.Json

-- ── From text ──

/-- Fails on a value of the wrong kind.  A scalar is read first, for the message tells its value. -/
def mismatch {α : Type} (expected : Expected) : Reader α := do
  match ← token with
  | some '[' => throw (.wrongKind .list expected)
  | some '\x7b' => throw (.wrongKind .object expected)
  | none => throw .noValue
  | some _ => throw (.wrongKind (← value 0).found expected)

/-- Fails on a value of the wrong kind, or at the end of the text. -/
def mismatchOrEnd {α : Type} (expected : Expected) : Reader α := do
  if (← token).isNone then throw .endOfValue
  mismatch expected

def takeFlag : Reader Bool := do
  match ← token with
  | some 't' =>
    word ['t', 'r', 'u', 'e']
    return true
  | some 'f' =>
    word ['f', 'a', 'l', 's', 'e']
    return false
  | _ => mismatchOrEnd .flag

/-- Takes a string, and nothing else. -/
def expectText : Reader String := do
  match ← token with
  | some '"' => takeText
  | _ => mismatchOrEnd .text

/-- Takes `null`, or else a value. -/
def takeOptional {α : Type} (reader : Reader α) : Reader (Option α) := do
  match ← token with
  | some 'n' =>
    word ['n', 'u', 'l', 'l']
    return none
  | _ => some <$> reader

def takeList {α : Type} (element : Reader α) : Reader (List α) := do
  match ← token with
  | some '[' =>
    advance
    items element
  | _ => mismatchOrEnd .list

/-- Takes `null` as the empty content of a choice. -/
def takeNothing : Reader Unit := do
  match ← token with
  | some 'n' => word ['n', 'u', 'l', 'l']
  | _ => mismatchOrEnd .nothing

/-- Takes a choice: its name, or an object with its name as the only key and no content. -/
def takeChoice : Reader String := do
  match ← token with
  | none => throw .endOfValue
  | some '"' => takeText
  | some '\x7b' =>
    advance
    let name ← match ← token with
      | none => throw .endOfObject
      | some '"' => takeText
      | some '\x7d' => throw .noValue
      | some _ => throw .keyNotText
    colon
    takeNothing
    match ← token with
    | none => throw .endOfObject
    | some '\x7d' => advance
    | some _ => throw .noValue
    return name
  | some _ => throw .noValue

/-- Takes what follows the last field of a record that is written as a list. -/
def endFields : Reader Unit := do
  match ← token with
  | none => throw .endOfList
  | some ']' => advance
  | some ',' =>
    advance
    if (← token) == some ']' then throw .trailingComma else throw .trailingCharacters
  | some _ => throw .trailingCharacters

/-- Takes the fields behind the first from a list, and its end. -/
def takeFields {σ : Type} : List (Field Reader σ) → σ → Reader σ
  | [], state => do
    endFields
    return state
  | field :: fields, state => do
    match ← token with
    | none => throw .endOfList
    | some ']' =>
      advance
      return state
    | some ',' =>
      advance
      if (← token) == some ']' then throw .trailingComma
      takeFields fields ((← field.read) state)
    | some _ => throw .noItemEnd

/-- Takes the fields of a record from a list whose bracket was taken. -/
def takeFieldList {σ : Type} (fields : List (Field Reader σ)) (state : σ) : Reader σ := do
  match fields, ← token with
  | _, none => throw .endOfList
  | _, some ']' =>
    advance
    return state
  | [], some _ => do
    endFields
    return state
  | field :: fields, some _ => takeFields fields ((← field.read) state)

/-- Takes one member of a record.  A field must not come twice, which shows at its key. -/
def takeField {σ : Type} (fields : List (Field Reader σ)) (state : List String × σ)
    (name : String) : Reader (List String × σ) := do
  match Field.find? fields name with
  | none =>
    colon
    skipValue
    return state
  | some field =>
    if state.1.contains name then throw (.duplicateField name)
    colon
    return (name :: state.1, (← field.read) state.2)

def takeRecord {σ : Type} (name : String) (fields : List (Field Reader σ)) (init : σ) :
    Reader σ := do
  match ← token with
  | some '[' =>
    advance
    takeFieldList fields init
  | some '\x7b' =>
    advance
    return (← members takeText (takeField fields) ([], init)).2
  | _ => mismatchOrEnd (.record name)

instance : Source Reader where
  flag := takeFlag
  text := expectText
  optional := takeOptional
  list := takeList
  choice := takeChoice
  record := takeRecord

-- ── From values ──

/-- Looks at a value. -/
abbrev Decoder := ReaderT Json (Except Fault)

def Decoder.mismatch {α : Type} (expected : Expected) : Decoder α := do
  throw (.wrongKind (← read).found expected)

/-- The fields of a record from the items of a list, as far as they go. -/
def decodeItems {σ : Type} : List (Field Decoder σ) → List Json → σ → Except Fault σ
  | field :: fields, item :: rest, state => do
    decodeItems fields rest ((← field.read.run item) state)
  | _, _, state => return state

/-- The fields of a record from the members of an object.  A field must not come twice. -/
def decodeMembers {σ : Type} (fields : List (Field Decoder σ)) :
    List (String × Json) → List String → σ → Except Fault σ
  | [], _, state => return state
  | (name, value) :: rest, seen, state =>
    match Field.find? fields name with
    | none => decodeMembers fields rest seen state
    | some field => do
      if seen.contains name then throw (.duplicateField name)
      decodeMembers fields rest (name :: seen) ((← field.read.run value) state)

/-- The record that a value is. -/
def decodeRecord {σ : Type} (name : String) (fields : List (Field Decoder σ)) (init : σ) :
    Decoder σ := do
  match ← read with
  | .list items =>
    let state ← decodeItems fields items init
    if fields.length < items.length then throw (.tooLong items.length)
    return state
  | .object members => decodeMembers fields members [] init
  | _ => Decoder.mismatch (.record name)

instance : Source Decoder where
  flag := do
    match ← read with
    | .flag b => return b
    | _ => Decoder.mismatch .flag
  text := do
    match ← read with
    | .text s => return s
    | _ => Decoder.mismatch .text
  optional decoder := do
    match ← read with
    | .null => return none
    | _ => some <$> decoder
  list decoder := do
    match ← read with
    | .list items => items.mapM fun item => (decoder.run item : Except Fault _)
    | _ => Decoder.mismatch .list
  choice := do
    match ← read with
    | .text s => return s
    | .object [(name, .null)] => return name
    | .object [(_, value)] => throw (.wrongKind value.found .nothing)
    | .object _ => throw .notSingleChoice
    | _ => Decoder.mismatch .choice
  record := decodeRecord

end ModelCatalog.Json
