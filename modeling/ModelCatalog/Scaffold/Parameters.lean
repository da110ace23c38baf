import ModelCatalog.Provider
import ModelCatalog.ProviderNames

/-! # What a scaffold is made of

    Four texts go into a scaffold: the name of the provider's type, the address, the environment
    variable of the key and the default model.  The names of all declared types come from the
    first. -/

namespace ModelCatalog.Scaffold

/-- What a scaffold is made of. -/
structure Parameters where
  typeName : String
  endpoint : String
  keyVariable : String
  defaultModel : String
  deriving DecidableEq, Repr

def Parameters.of (names : ProviderNames) (info : ProviderInfo) : Parameters where
  typeName := names.typeName
  endpoint := info.endpoint
  keyVariable := info.primaryVariable
  defaultModel := info.defaultModel names.providerId

variable (p : Parameters)

def Parameters.settingsName : String := p.typeName ++ "ProviderSettings"

def Parameters.settingsBuilderName : String := p.settingsName ++ "Builder"

def Parameters.builderName : String := p.typeName ++ "Builder"

end ModelCatalog.Scaffold
