import ModelCatalog.Toml.Value

/-! # TOML documents under construction

    A document is a table, and it is built one expression after another: headers open tables, and
    assignments put values into the table that is open. -/

namespace ModelCatalog.Toml

/-- A line of a document that means something.  Keys are split into the path and their last part. -/
inductive Expression where
  /-- `[key]` -/
  | table (span : Span) (path : List Key) (key : Key)
  /-- `[[key]]` -/
  | element (span : Span) (path : List Key) (key : Key)
  /-- `key = value` -/
  | assignment (path : List Key) (key : Key) (value : Value)

/-- A document under construction: its table, and the path to the table that is open. -/
structure Draft where
  root : Value := .table (.header ⟨0, 0⟩) []
  opened : List Key := []

namespace Draft

/-- Why a header is refused whose last name is taken. -/
def taken (path : List Key) (key : Key) : Cause :=
  .duplicateKey (writtenKey key.name) (some (names path))

/-- Adds an expression. -/
def add (draft : Draft) : Expression → Except Cause Draft
  | .table span path key => do
    let change := Value.openTable span (taken path key) key
    return ⟨← draft.root.atPath .header change [] path, path ++ [key]⟩
  | .element span path key => do
    let change := Value.openElement span (taken path key) key
    return ⟨← draft.root.atPath .header change [] path, path ++ [key]⟩
  | .assignment path key value => do
    let change (table : Value) : Except Cause Value :=
      Value.assign .line (some (names draft.opened)) path key value (value.extendTo table)
    return { draft with root := ← draft.root.atPath .header change [] draft.opened }

end Draft

end ModelCatalog.Toml
