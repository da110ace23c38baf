import ModelCatalog.Source

/-! # Catalog entries

    What a catalog says about one model.  Every field may be absent, and what an entry holds beyond
    these fields (prices, limits, dates) is of no interest. -/

namespace ModelCatalog

/-- Where a model is in its life. -/
inductive Status where
  | active
  | deprecated
  | other
  deriving DecidableEq, Repr

/-- The kinds of content that go into a model and come out of it, by name. -/
structure Modalities where
  input : List String := []
  output : List String := []
  deriving DecidableEq, Repr

structure Entry where
  name : Option String := none
  /-- The id to send, where it differs from the one that the entry is filed under. -/
  modelName : Option String := none
  toolCall : Bool := false
  reasoning : Bool := false
  structuredOutput : Bool := false
  attachment : Bool := false
  modalities : Modalities := {}
  status : Option Status := none
  deriving DecidableEq, Repr

/-- The status of a name; an unknown one is as good as any other. -/
def Status.ofName : String → Status
  | "active" => .active
  | "deprecated" => .deprecated
  | _ => .other

/-- Whether a model is out of use. -/
def Entry.isDeprecated (e : Entry) : Bool := e.status = some .deprecated

section Reading

variable {m : Type → Type} [Source m]

open Source

def Modalities.read : m Modalities :=
  record "Modalities"
    [.of "input" (list text) fun v r => { r with input := v },
     .of "output" (list text) fun v r => { r with output := v }]
    {}

def Entry.read : m Entry :=
  record "CatalogEntry"
    [.of "name" (optional text) fun v r => { r with name := v },
     .of "model_name" (optional text) fun v r => { r with modelName := v },
     .of "tool_call" flag fun v r => { r with toolCall := v },
     .of "reasoning" flag fun v r => { r with reasoning := v },
     .of "structured_output" flag fun v r => { r with structuredOutput := v },
     .of "attachment" flag fun v r => { r with attachment := v },
     .of "modalities" Modalities.read fun v r => { r with modalities := v },
     .of "status" (optional choice) fun v r => { r with status := v.map Status.ofName }]
    {}

end Reading

end ModelCatalog
