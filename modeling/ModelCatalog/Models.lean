import ModelCatalog.Capability
import ModelCatalog.Error
import ModelCatalog.Index
import ModelCatalog.Provider

/-! # The models of a provider

    A model is an entry that is ready for rendering.  The models of one provider are held in the
    order of their type names, and no two of them share one: `ProviderModels.insert` refuses a
    second model of the same type name.

    Both kinds of catalog go through their records one by one and give a `Verdict` on each.
    `ProviderModels.gather` makes the models of the verdicts; the first one that is fatal, and the
    first collision, end it. -/

namespace ModelCatalog

/-- A model ready for rendering. -/
structure Model where
  /-- The id that is sent to the provider. -/
  id : String
  typeName : String
  constructorName : String
  displayName : String
  capabilities : CapabilitySet

structure Skipped where
  /-- The file or key of the record. -/
  identity : String
  reason : SkipReason
  deriving Repr

structure ProviderModels where
  providerId : String
  info : ProviderInfo
  models : Index Model.typeName := .empty
  skipped : List Skipped := []

/-- The model that an entry describes: it is named after `id`, and sent by its own name if the entry
    has one. -/
def Entry.model (e : Entry) (id : ModelId) : Except IdFault Model := do
  let names ← id.names
  let sent := e.modelName.getD id.text
  return {
    id := sent
    typeName := names.typeName
    constructorName := names.constructorName
    displayName := e.name.getD sent
    capabilities := e.capabilities }

/-- What becomes of a record. -/
inductive Verdict where
  /-- The whole provider fails. -/
  | fatal (error : Error)
  /-- The record is left out, and reported. -/
  | skipped (skipped : Skipped)
  /-- The record is left out. -/
  | deprecated
  /-- The record is a model. -/
  | active (model : Model)

namespace ProviderModels

/-- Adds a model, unless its type name is taken. -/
def insert (p : ProviderModels) (model : Model) : Except Error ProviderModels :=
  match p.models.get? model.typeName with
  | some first => .error (.collision p.providerId first.id model.id model.typeName)
  | none => .ok { p with models := p.models.insert model }

/-- Takes a verdict over. -/
def add (p : ProviderModels) : Verdict → Except Error ProviderModels
  | .fatal error => .error error
  | .skipped s => .ok { p with skipped := p.skipped ++ [s] }
  | .deprecated => .ok p
  | .active model => p.insert model

/-- The models of a provider by the verdicts on its records; there has to be one. -/
def gather (providerId : String) (info : ProviderInfo) (verdicts : List Verdict) :
    Except Error ProviderModels := do
  let p ← verdicts.foldlM add { providerId, info }
  if p.models.isEmpty then throw (.noActiveModels providerId)
  return p

end ProviderModels

/-- The verdict on an entry that was read: the record is named by `identity` in reports. -/
def Entry.verdict (e : Entry) (identity : String) (id : ModelId) : Verdict :=
  if e.isDeprecated then .deprecated
  else
    match e.model id with
    | .error fault => .skipped ⟨identity, .invalidModelId id.text fault⟩
    | .ok model => .active model

/-- The models of several providers in the order of their ids. -/
abbrev ProviderCatalog := Index ProviderModels.providerId

end ModelCatalog
