import ModelCatalog.RenderedFile
import ModelCatalog.Scaffold.LanguageModel
import ModelCatalog.Scaffold.Settings

/-! # The scaffold of a provider

    The scaffold is a file that declares the settings of a provider, its type, a builder for it, and
    how it serves as a language model. -/

namespace ModelCatalog.Scaffold

variable (p : Parameters)

/-- The lines between the notice and the settings. -/
def opening : List Line :=
  [[.text ("//! This module provides the " ++ p.typeName ++
     " provider, wrapping OpenAI Chat Completions for " ++ p.typeName ++ " requests.")],
   ["pub mod capabilities;"]]

def closing : List Line := [["pub use capabilities::*;"]]

/-- All lines below the notice. -/
def lines : List Line :=
  opening p ++ settingsModule p :: uses p ++ providerType p ++ builderType p ++
    languageModelModule p :: closing

def text : String := generatedNotice ++ "\n\n" ++ Doc.render (lines p)

def render (names : ProviderNames) (info : ProviderInfo) (providersPath : Path) : RenderedFile :=
  names.file providersPath .scaffold (text (.of names info))

end ModelCatalog.Scaffold
