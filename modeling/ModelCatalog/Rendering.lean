import ModelCatalog.Registry
import ModelCatalog.Scaffold.File

/-! # Rendering a provider

    A provider gives up to two files, the scaffold first. -/

namespace ModelCatalog

structure Rendering where
  names : ProviderNames
  info : ProviderInfo
  /-- The models of the registry, if there is to be one. -/
  models : Option ProviderModels
  /-- Whether there is to be a scaffold. -/
  hasScaffold : Bool

def Rendering.files (r : Rendering) (providersPath : Path) : Except Error (List RenderedFile) := do
  let scaffold := if r.hasScaffold then [Scaffold.render r.names r.info providersPath] else []
  match r.models with
  | none => return scaffold
  | some models => return scaffold ++ [← Registry.render r.names models providersPath]

end ModelCatalog
