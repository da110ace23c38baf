import ModelCatalog.ProviderNames

/-! # Generated files

    A generated file is known by its path and its text.  All files of a provider stand in the
    directory of its module, and each kind has a name of its own there. -/

namespace ModelCatalog

/-- The line on top of every generated file. -/
def generatedNotice : String :=
  "// This code was automatically generated by provider-gen. Do not edit manually."

inductive FileKind where
  | registry
  | scaffold
  deriving DecidableEq, Repr

def FileKind.fileName : FileKind → String
  | .registry => "capabilities.rs"
  | .scaffold => "mod.rs"

/-- A file that is ready to be written. -/
structure RenderedFile where
  path : Path
  kind : FileKind
  content : String
  deriving DecidableEq, Repr

/-- The file of a kind in the module of a provider. -/
def ProviderNames.file (names : ProviderNames) (providersPath : Path) (kind : FileKind)
    (content : String) : RenderedFile :=
  ⟨(names.modulePath providersPath).child kind.fileName, kind, content⟩

end ModelCatalog
