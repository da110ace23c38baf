import ModelCatalog.Scaffold.Code
import ModelCatalog.Scaffold.Parameters

/-! # The type of a provider

    The declarations of the provider's type and of its builder.  The default model appears in a
    comment. -/

namespace ModelCatalog.Scaffold

variable (p : Parameters)

/-- The parameter of the provider's type where it is declared. -/
def modelParameter : Doc := angles ["M: ModelName"]

/-- The provider's type, or its builder's, with a parameter. -/
def applied (name parameter : String) : Line := [.text name, angles [.text parameter]]

/-- The value of a provider or a pattern for it. -/
def parts (limit : Option Nat) (name : String) : Doc := fields limit name ["settings", "inner"]

/-- The declarations that the provider uses. -/
def uses : List Line :=
  [["use crate::Error;"],
   ["use crate::core::DynamicModel;"],
   ["use crate::core::capabilities::ModelName;"],
   ["use crate::core::utils::validate_base_url;"],
   ["use crate::error::Result;"],
   ["use crate::providers::openai_chat_completions::OpenAIChatCompletions;"],
   [.text ("use settings::" ++ p.settingsName ++ ";")]]

/-- The type of the provider and how its values are made. -/
def providerType : List Line :=
  [documentation (" The " ++ p.typeName ++ " provider, wrapping OpenAI Chat Completions API."),
   ["#[derive(Debug, Clone)]"],
   block [.text ("pub struct " ++ p.typeName), modelParameter]
     [["/// Configuration settings for the provider."],
      [.text ("pub settings: " ++ p.settingsName ++ ",")],
      ["pub(crate) inner: OpenAIChatCompletions<M>,"]],
   block ("impl" :: modelParameter :: " " :: applied p.typeName "M")
     [["/// Provider settings builder."],
      block ("pub fn builder() -> " :: applied p.builderName "M")
        [[.text (p.builderName ++ "::default()")]]],
   block ("impl " :: applied p.typeName "DynamicModel")
     [documentation (" Creates a " ++ p.typeName ++
        " provider with a dynamic model name (e.g. \"" ++ p.defaultModel ++
        "\") using default settings."),
      block ["pub fn model_name(name: impl Into<String>) -> Self"]
        [[.text ("let settings = " ++ p.settingsName ++ "::default();")],
         ["let inner = OpenAIChatCompletions::<DynamicModel>::model_name(name);"],
         [parts (some recordWidth) p.typeName]]],
   block [implementation [modelParameter, " Default"] (applied p.typeName "M")]
     [documentation (" Creates a " ++ p.typeName ++ " provider with default settings."),
      block ["fn default() -> Self"]
        [["let ", parts none p.builderName, " = ", .pause,
          .text (p.builderName ++ "::default();")],
         [parts (some recordWidth) p.typeName]]]]

/-- A method of the builder that sets a field, with a local name for its value. -/
def setter (field name value setting inner : String) : Line :=
  block [.text (s!"pub fn {field}(mut self, {field}: impl Into<String>) -> Self")]
    [[.text (s!"let {name} = {value};")],
     [.text (s!"self.settings.{field} = {setting};")],
     [.text (s!"self.inner.settings.{field} = {inner};")],
     ["self"]]

/-- The builder and how it makes a provider. -/
def builderType : List Line :=
  [documentation (" " ++ p.typeName ++ " provider builder."),
   block [.text ("pub struct " ++ p.builderName), modelParameter]
     [[.text ("settings: " ++ p.settingsName ++ ",")],
      ["inner: OpenAIChatCompletions<M>,"]],
   block [implementation [modelParameter, " Default"] (applied p.builderName "M")]
     [block ["fn default() -> Self"]
       [[.text ("let settings = " ++ p.settingsName ++ "::default();")],
        ["let mut inner = OpenAIChatCompletions::default();"],
        ["inner.settings.provider_name = settings.provider_name.clone();"],
        ["inner.settings.base_url = settings.base_url.clone();"],
        ["inner.settings.api_key = settings.api_key.clone();"],
        ["inner.settings.path = settings.path.clone();"],
        ["Self \x7b settings, inner \x7d"]]],
   block ("impl" :: modelParameter :: " " :: applied p.builderName "M")
     [setter "provider_name" "name" "provider_name.into()" "name.clone()" "name",
      setter "base_url" "url" "base_url.into()" "url.clone()" "url",
      setter "api_key" "key" "api_key.into()" "key.clone()" "key",
      setter "path" "path" "Some(path.into())" "path.clone()" "path",
      documentation (" Builds the " ++ p.typeName ++
        " provider after validating the base URL and API key."),
      block ["pub fn build", arguments ["mut self"], " -> Result",
          angles (applied p.typeName "M")]
        [["let base_url = validate_base_url(&self.settings.base_url)?;"],
         block ["if self.settings.api_key.is_empty()"]
           [["return Err(Error::MissingField(\"api_key\".to_string()));"]],
         ["self.inner.settings.base_url = base_url.to_string();"],
         ["self.settings.base_url = base_url.to_string();"],
         ["Ok(",
          fields (some recordWidth) p.typeName ["settings: self.settings", "inner: self.inner"],
          ")"]]],
   block ("impl " :: applied p.builderName "DynamicModel")
     [["/// Sets the model name from a string. Capabilities are not validated."],
      block ["pub fn model_name(mut self, model_name: impl Into<String>) -> Self"]
        [["self.inner.options.model = model_name.into();"],
         ["self"]]]]

end ModelCatalog.Scaffold
