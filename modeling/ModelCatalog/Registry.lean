import ModelCatalog.Models
import ModelCatalog.RenderedFile

/-! # The registry of models

    The registry is a file that declares every model of a provider, in the order of their type
    names.  Texts from the catalog appear in it as string literals only. -/

namespace ModelCatalog.Registry

def modelLines (m : Model) : List String :=
  ["        " ++ m.typeName ++ " \x7b",
   "            model_name: " ++ Text.quote m.id ++ ",",
   "            constructor_name: " ++ m.constructorName ++ ",",
   "            display_name: " ++ Text.quote m.displayName ++ ",",
   "            capabilities: [" ++
     ", ".intercalate (m.capabilities.toList.map Capability.name) ++ "]",
   "        \x7d,"]

/-- The lines before the models. -/
def headLines (names : ProviderNames) : List String :=
  [generatedNotice,
   "",
   "//! Capabilities for " ++ names.moduleName ++ " models.",
   "//!",
   "//! This module defines model types and their capabilities for " ++ names.moduleName ++
     " providers.",
   "//! Users can implement additional traits on custom models.",
   "",
   "use crate::core::capabilities::*;",
   "use crate::model_capabilities;",
   "use crate::providers::" ++ names.moduleName ++ "::" ++ names.typeName ++ ";",
   "",
   "model_capabilities! \x7b",
   "    provider: " ++ names.typeName ++ ",",
   "    models: \x7b"]

/-- The lines behind the models. -/
def footLines : List String := ["    \x7d", "\x7d"]

def lines (names : ProviderNames) (models : List Model) : List String :=
  headLines names ++ models.flatMap modelLines ++ footLines

def text (names : ProviderNames) (models : List Model) : String :=
  String.join ((lines names models).map (· ++ "\n"))

/-- The first model that is named by something that is no identifier. -/
def check (models : List Model) : Except Error Unit :=
  models.forM fun m =>
    match [m.typeName, m.constructorName].find? (!Identifier.isValid ·) with
    | some name => .error (.invalidModelName m.id name)
    | none => .ok ()

def render (names : ProviderNames) (p : ProviderModels) (providersPath : Path) :
    Except Error RenderedFile := do
  check p.models.toList
  return names.file providersPath .registry (text names p.models.toList)

end ModelCatalog.Registry
