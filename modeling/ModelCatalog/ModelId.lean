import ModelCatalog.Identifier

/-! # Model ids

    A model id is a base name, or a folder and a base name with a slash between them.  Deeper
    nesting is refused.  The generated type and constructor are named after both parts. -/

namespace ModelCatalog

structure ModelId where
  folder? : Option String
  base : String
  deriving DecidableEq, Repr

/-- Why no names can be made of an id. -/
inductive IdFault where
  /-- A slash with nothing before or behind it. -/
  | emptyPart
  /-- More than one slash. -/
  | nested (levels : Nat)
  /-- One of the names is no identifier. -/
  | invalidName (name : String)
  deriving DecidableEq, Repr

def IdFault.message : IdFault → String
  | .emptyPart => "folder prefix and base name must both be non-empty"
  | .nested levels => s!"{levels} levels of nesting; only one folder prefix is supported"
  | .invalidName name => s!"derives invalid identifier '{name}'"

/-- The identifiers of a model in generated code. -/
structure ModelNames where
  typeName : String
  constructorName : String
  deriving DecidableEq, Repr

namespace ModelId

/-- The id that a text names. -/
def parse (text : String) : Except IdFault ModelId :=
  match text.toList.splitOn '/' with
  | [base] => .ok ⟨none, .ofList base⟩
  | [folder, base] =>
    if folder.isEmpty || base.isEmpty then .error .emptyPart
    else .ok ⟨some (.ofList folder), .ofList base⟩
  | parts => .error (.nested (parts.length - 1))

def text (id : ModelId) : String :=
  match id.folder? with
  | none => id.base
  | some folder => folder ++ "/" ++ id.base

/-- The type name: those of the parts, run together. -/
def typeName (id : ModelId) : String :=
  match id.folder? with
  | none => Identifier.typeName id.base
  | some folder => Identifier.typeName folder ++ Identifier.typeName id.base

/-- The constructor name: those of the parts, joined by a separator. -/
def constructorName (id : ModelId) : String :=
  match id.folder? with
  | none => Identifier.constructorName id.base
  | some folder => Identifier.constructorName folder ++ "_" ++ Identifier.constructorName id.base

/-- Both names, as long as they are identifiers. -/
def names (id : ModelId) : Except IdFault ModelNames :=
  if !Identifier.isValid id.typeName then .error (.invalidName id.typeName)
  else if !Identifier.isValid id.constructorName then .error (.invalidName id.constructorName)
  else .ok ⟨id.typeName, id.constructorName⟩

end ModelId

end ModelCatalog
