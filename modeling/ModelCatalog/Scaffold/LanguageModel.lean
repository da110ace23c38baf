import ModelCatalog.Scaffold.Provider

/-! # The provider as a language model

    A module that lets the provider's type answer requests by passing them on. -/

namespace ModelCatalog.Scaffold

variable (p : Parameters)

/-- A method that passes its options on. -/
def forward (name result : String) : Line :=
  block [.text ("async fn " ++ name), arguments ["&mut self", "options: LanguageModelOptions"],
      " -> Result", angles [.text result]]
    [[.text ("self.inner." ++ name ++ "(options).await")]]

/-- The module that makes the provider a language model. -/
def languageModelModule : Line :=
  block ["pub mod language_model"]
    [["//! Language model implementation for this provider."],
     ["use async_trait::async_trait;"],
     [.text ("use super::" ++ p.typeName ++ ";")],
     ["use crate::\x7b",
      .nest
        [.line, "Result,",
         .line, "core::\x7b",
         .nest
          [.line, "LanguageModel, capabilities::ModelName,",
           .line, "language_model::\x7bLanguageModelOptions, LanguageModelResponse, ProviderStream\x7d,"],
         .line, "\x7d,"],
      .line, "\x7d;"],
     ["#[async_trait]"],
     block [implementation [modelParameter, " LanguageModel"] (applied p.typeName "M")]
       [block ["fn name(&self) -> String"] [["self.inner.name()"]],
        documentation (" Generates text using the " ++ p.typeName ++ " provider."),
        forward "generate_text" "LanguageModelResponse",
        documentation (" Streams text using the " ++ p.typeName ++ " provider."),
        forward "stream_text" "ProviderStream"]]

end ModelCatalog.Scaffold
