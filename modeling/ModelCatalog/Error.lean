import ModelCatalog.FileTree.Basic
import ModelCatalog.Json.Fault
import ModelCatalog.ModelId
import ModelCatalog.Path
import ModelCatalog.Toml.Fault

/-! # Errors

    What can go wrong while a catalog is loaded, code is rendered or files are written.  An `Error`
    ends what is being done; a `SkipReason` only leaves one model out. -/

namespace ModelCatalog

/-- What is wrong with the text of a catalog. -/
inductive CatalogFault where
  /-- The document is not the JSON that it has to be. -/
  | json (fault : Json.Fault)
  /-- The metadata file is not the TOML that it has to be. -/
  | toml (path : Path) (fault : Toml.Fault)
  deriving Repr

inductive Error where
  /-- A record lies deeper than one folder. -/
  | nestingTooDeep (path : Path)
  | invalidModelId (id : String) (fault : IdFault)
  | malformedCatalog (fault : CatalogFault)
  | noActiveModels (provider : String)
  /-- Two models of one type name, by their ids. -/
  | collision (provider first second typeName : String)
  | providerNotFound (name : String)
  | notCompatible (provider : String)
  /-- A provider is named by something that is no identifier. -/
  | invalidProviderName (provider name : String)
  /-- A model is named by something that is no identifier. -/
  | invalidModelName (model name : String)
  | notWritten (path : Path) (fault : FileFault)
  | notRead (path : Path) (fault : FileFault)
  /-- No directory above a path is the root of a project. -/
  | noProjectRoot (start : Path)
  /-- A catalog that lies elsewhere cannot be had. -/
  | notLocal (url : String)
  deriving Repr

/-- Why a model is left out. -/
inductive SkipReason where
  /-- The name of its file is no text. -/
  | nameNotText
  | json (fault : Json.Fault)
  | toml (fault : Toml.Fault)
  | unreadable (fault : FileFault)
  | invalidModelId (id : String) (fault : IdFault)
  deriving Repr

/-- The words for an id of which no names can be made. -/
def invalidIdMessage (id : String) (fault : IdFault) : String :=
  s!"Invalid model id '{id}': " ++ fault.message

def CatalogFault.message : CatalogFault → String
  | .json fault => fault.message
  | .toml path fault => path.text ++ ": " ++ fault.message

def Error.message : Error → String
  | .nestingTooDeep path =>
    "Nested folder depth exceeds 1 level at '" ++ path.text ++
      "'. Only 'models/*.toml' and 'models/folder/*.toml' are supported"
  | .invalidModelId id fault => invalidIdMessage id fault
  | .malformedCatalog fault => "Malformed catalog document: " ++ fault.message
  | .noActiveModels provider => s!"No active models found for provider '{provider}'"
  | .collision provider first second typeName =>
    s!"Identifier collision in provider '{provider}': '{first}' and '{second}' both map to type " ++
      s!"'{typeName}'"
  | .providerNotFound name => s!"Provider '{name}' not found in catalog"
  | .notCompatible provider =>
    s!"Provider '{provider}' is not OpenAI-compatible; use the 'capabilities' command instead"
  | .invalidProviderName provider name =>
    s!"Code generation failed: provider '{provider}' derives invalid identifier '{name}'"
  | .invalidModelName model name =>
    s!"Code generation failed: model '{model}' has invalid identifier '{name}'"
  | .notWritten path fault =>
    "Failed to write output file '" ++ path.text ++ "': " ++ fault.message
  | .notRead path fault => "IO error at '" ++ path.text ++ "': " ++ fault.message
  | .noProjectRoot start =>
    "Could not find project root (missing Cargo.toml) above '" ++ start.text ++ "'"
  | .notLocal url => s!"Failed to fetch catalog from {url}: only local catalogs are supported"

def SkipReason.message : SkipReason → String
  | .nameNotText => "file name is not UTF-8"
  | .json fault => fault.message
  | .toml fault => fault.message
  | .unreadable fault => fault.message
  | .invalidModelId id fault => invalidIdMessage id fault

end ModelCatalog
