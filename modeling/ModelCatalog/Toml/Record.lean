import ModelCatalog.Toml.Document

/-! # Records from TOML

    A record is a table, or a list of its fields in order.  A field that may be absent is left out;
    there is no value for nothing.  A value of the wrong kind is marked where it stands, or at its
    key if it is a table that is only named. -/

namespace ModelCatalog.Toml

/-- A value of the wrong kind. -/
structure Mismatch where
  span? : Option Span
  found : Found
  expected : Expected
  deriving Repr

abbrev Decoder := ReaderT Value (Except Mismatch)

/-- What a value is in a message.  A time is shown as the table of its parts. -/
def Value.found : Value → Found
  | .scalar _ (.flag b) => .flag b
  | .scalar _ (.integer n) => .integer n
  | .scalar _ (.float f) => .float f
  | .scalar _ (.text s) => .text s
  | .scalar _ .time | .table _ _ => .table
  | .list _ _ | .tables _ => .list

def Decoder.mismatch {α : Type} (expected : Expected) : Decoder α := do
  let v ← read
  throw ⟨v.span?, v.found, expected⟩

/-- The fields of a record from the items of a list, as far as both go. -/
def decodeItems {σ : Type} : List (Field Decoder σ) → List Value → σ → Except Mismatch σ
  | field :: fields, item :: rest, state => do
    decodeItems fields rest ((← field.read.run item) state)
  | _, _, state => return state

/-- The fields of a record from the members of a table. -/
def decodeMembers {σ : Type} (fields : List (Field Decoder σ)) :
    List (Key × Value) → σ → Except Mismatch σ
  | [], state => return state
  | (key, v) :: rest, state =>
    match Field.find? fields key.name with
    | none => decodeMembers fields rest state
    | some field => do
      let store ← (field.read.run v).mapError fun mismatch =>
        { mismatch with span? := mismatch.span?.or (some key.span) }
      decodeMembers fields rest (store state)

/-- Whether a value is a list or a table without content. -/
def isEmptyContent : Value → Bool
  | .list _ items => items.isEmpty
  | .table _ members => members.isEmpty
  | .tables elements => elements.isEmpty
  | .scalar _ _ => false

instance : Source Decoder where
  flag := do
    match ← read with
    | .scalar _ (.flag b) => return b
    | _ => Decoder.mismatch .flag
  text := do
    match ← read with
    | .scalar _ (.text s) => return s
    | _ => Decoder.mismatch .text
  optional decoder := some <$> decoder
  list decoder := do
    match ← read with
    | .list _ items | .tables items => items.mapM fun item => (decoder.run item : Except Mismatch _)
    | _ => Decoder.mismatch .list
  choice := do
    match ← read with
    | .scalar _ (.text s) => return s
    | .table _ [(key, content)] =>
      if isEmptyContent content then return key.name else Decoder.mismatch .nothing
    | _ => Decoder.mismatch .choice
  record name fields init := do
    match ← read with
    | .table _ members => decodeMembers fields members init
    | .list _ items | .tables items => decodeItems fields items init
    | .scalar _ .time => return init
    | _ => Decoder.mismatch (.record name)

/-- The record that a document is. -/
def decode {α : Type} (decoder : Decoder α) (text : String) : Except Fault α := do
  let root ← parse text
  (decoder.run root).mapError fun mismatch =>
    let span := (mismatch.span?.or root.span?).getD ⟨0, 0⟩
    ⟨.ofSpan text.toList span, .wrongKind mismatch.found mismatch.expected⟩

end ModelCatalog.Toml
