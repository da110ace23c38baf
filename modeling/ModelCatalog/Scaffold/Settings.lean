import ModelCatalog.Scaffold.Code
import ModelCatalog.Scaffold.Parameters

/-! # The settings of a provider

    A module that declares the settings, their defaults and a builder for them.  The address and the
    environment variable appear as literals in the defaults. -/

namespace ModelCatalog.Scaffold

variable (p : Parameters)

def settingsType : List Line :=
  [["/// Settings for this provider (delegates to OpenAI Chat Completions)."],
   ["#[derive(Debug, Clone)]"],
   block [.text ("pub struct " ++ p.settingsName)]
     [["/// The name of the provider."],
      ["pub provider_name: String,"],
      ["/// The base URL for the API."],
      ["pub base_url: String,"],
      ["/// The API key for authentication."],
      ["pub api_key: String,"],
      ["/// Custom API path override."],
      ["pub path: Option<String>,"]]]

def settingsDefault : Line :=
  block [implementation [" Default"] [.text p.settingsName]]
    [block ["fn default() -> Self"]
      [block ["Self"]
        [["provider_name: ", call [.text (Text.quoteStrict p.typeName)] ".to_string()", ","],
         ["base_url: ", call [.text (Text.quoteStrict p.endpoint)] ".to_string()", ","],
         ["api_key: ",
          call ["std::env::var", arguments [.text (Text.quoteStrict p.keyVariable)]]
            ".unwrap_or_default()", ","],
         ["path: None,"]]]]

/-- A method of the settings builder that sets a field. -/
def settingsSetter (field : String) : Line :=
  block [.text (s!"pub fn {field}(mut self, {field}: impl Into<String>) -> Self")]
    [[.text (s!"self.{field} = Some({field}.into());")],
     ["self"]]

/-- The builder of the settings. -/
def settingsBuilderType : List Line :=
  [["/// Builder for the provider settings."],
   ["#[derive(Debug, Clone, Default)]"],
   block [.text ("pub struct " ++ p.settingsBuilderName)]
     [["provider_name: Option<String>,"],
      ["base_url: Option<String>,"],
      ["api_key: Option<String>,"],
      ["path: Option<String>,"]],
   block [.text ("impl " ++ p.settingsBuilderName)]
     [settingsSetter "provider_name",
      settingsSetter "base_url",
      settingsSetter "api_key",
      settingsSetter "path",
      ["/// Builds the settings, using defaults for unset fields."],
      block ["pub fn build", arguments ["self"], .text (" -> " ++ p.settingsName)]
        [[.text ("let defaults = " ++ p.settingsName ++ "::default();")],
         [fields (some recordWidth) p.settingsName
           ["provider_name: self.provider_name.unwrap_or(defaults.provider_name)",
            "base_url: self.base_url.unwrap_or(defaults.base_url)",
            "api_key: self.api_key.unwrap_or(defaults.api_key)",
            "path: self.path.or(defaults.path)"]]]]]

/-- How the settings lead to their builder. -/
def settingsMethods : Line :=
  block [.text ("impl " ++ p.settingsName)]
    [["/// Creates a new builder for the settings."],
     block [.text ("pub fn builder() -> " ++ p.settingsBuilderName)]
       [[.text (p.settingsBuilderName ++ "::default()")]]]

def settingsModule : Line :=
  let rest : List Line := settingsDefault p :: settingsMethods p :: settingsBuilderType p
  block ["pub mod settings"]
    (["//! Defines the settings for this provider."] :: (settingsType p ++ rest))

end ModelCatalog.Scaffold
