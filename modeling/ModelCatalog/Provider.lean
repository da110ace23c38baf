import ModelCatalog.Source

/-! # Provider metadata

    What a catalog says about a provider: where it listens, which environment variable holds its
    key, and which client package speaks to it. -/

namespace ModelCatalog

structure ProviderInfo where
  name : Option String := none
  npm : Option String := none
  /-- The address of the interface. -/
  api : Option String := none
  /-- The environment variables that hold keys. -/
  env : List String := []
  /-- The model to use by default. -/
  model : Option String := none
  deriving DecidableEq, Repr, Inhabited

namespace ProviderInfo

/-- The client package of providers that speak the OpenAI protocol. -/
def compatiblePackage : String := "@ai-sdk/openai-compatible"

/-- Providers that have the package and are nevertheless left alone. -/
def excluded : List String := ["privatemode-ai"]

/-- Whether a provider gets a scaffold. -/
def isCompatible (info : ProviderInfo) (providerId : String) : Bool :=
  info.npm == some compatiblePackage && !excluded.contains providerId

/-- The address, or nothing. -/
def endpoint (info : ProviderInfo) : String := info.api.getD ""

/-- The first environment variable, or nothing. -/
def primaryVariable (info : ProviderInfo) : String := info.env.headD ""

/-- The model to use by default, which is named like the provider if none is given. -/
def defaultModel (info : ProviderInfo) (providerId : String) : String := info.model.getD providerId

section Reading

variable {m : Type → Type} [Source m]

open Source

def fields : List (Field m ProviderInfo) :=
  [.of "name" (optional text) fun v r => { r with name := v },
   .of "npm" (optional text) fun v r => { r with npm := v },
   .of "api" (optional text) fun v r => { r with api := v },
   .of "env" (list text) fun v r => { r with env := v },
   .of "model" (optional text) fun v r => { r with model := v }]

def read : m ProviderInfo := record "ProviderInfo" fields {}

end Reading

end ProviderInfo

end ModelCatalog
