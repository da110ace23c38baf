import ModelCatalog.Index
import ModelCatalog.Json.Fault

/-! # JSON values

    A value as a tree.  An object keeps its members as they were written; `canonical` sorts them by
    key and keeps the last of those that share one. -/

namespace ModelCatalog

inductive Json where
  | null
  | flag (value : Bool)
  | number (value : Json.Number)
  | text (value : String)
  | list (items : List Json)
  | object (members : List (String × Json))
  deriving Inhabited

namespace Json

/-- What a value is called where something else is expected. -/
def found : Json → Found
  | .null => .null
  | .flag b => .flag b
  | .number n => .number n
  | .text s => .text s
  | .list _ => .list
  | .object _ => .object

mutual

/-- The value with the members of all its objects sorted by key, the last one of each key. -/
def canonical : Json → Json
  | .list items => .list (canonicalItems items)
  | .object members =>
    .object (Index.ofList (canonicalMembers members) : Index Prod.fst).toList
  | .null => .null
  | .flag b => .flag b
  | .number n => .number n
  | .text s => .text s

def canonicalItems : List Json → List Json
  | [] => []
  | item :: rest => canonical item :: canonicalItems rest

def canonicalMembers : List (String × Json) → List (String × Json)
  | [] => []
  | (name, value) :: rest => (name, canonical value) :: canonicalMembers rest

end

end Json

end ModelCatalog
