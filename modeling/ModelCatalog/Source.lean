/-! # Sources of records

    Records come in several formats: as JSON text, as JSON values, as TOML.  What a record looks
    like is said once, in terms of a `Source`, and each format says what a flag, a text, a list or a
    record is there. -/

namespace ModelCatalog

-- ── Expectations ──

/-- What a source is asked for, where it holds something else. -/
inductive Expected where
  | flag
  | text
  | list
  | object
  /-- A record with a name. -/
  | record (name : String)
  /-- The empty content of a named choice. -/
  | nothing
  /-- A choice in either of its written forms. -/
  | choice
  deriving DecidableEq, Repr

def Expected.message : Expected → String
  | .flag => "a boolean"
  | .text => "a string"
  | .list => "a sequence"
  | .object => "a map"
  | .record name => "struct " ++ name
  | .nothing => "unit"
  | .choice => "string or map"

-- ── Sources ──

/-- A field of a record under construction: its name, and a reader for its value that stores it. -/
structure Field (m : Type → Type) (σ : Type) where
  name : String
  read : m (σ → σ)

/-- Readers for the shapes that records are made of. -/
class Source (m : Type → Type) extends Monad m where
  flag : m Bool
  text : m String
  /-- A value that may be absent. -/
  optional {α : Type} : m α → m (Option α)
  list {α : Type} : m α → m (List α)
  /-- The name of one of several choices. -/
  choice : m String
  /-- A record of some name, which starts out as given and takes over the fields that are present.
      It may be written as a list of its fields in order. -/
  record {σ : Type} (name : String) (fields : List (Field m σ)) (init : σ) : m σ

namespace Field

variable {m : Type → Type} {σ α : Type}

/-- A field whose value is stored by a setter. -/
def of [Monad m] (name : String) (read : m α) (store : α → σ → σ) : Field m σ :=
  ⟨name, do return store (← read)⟩

def find? (fields : List (Field m σ)) (name : String) : Option (Field m σ) :=
  fields.find? (·.name == name)

end Field

end ModelCatalog
