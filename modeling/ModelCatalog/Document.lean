import ModelCatalog.Json.Record
import ModelCatalog.Models

/-! # Catalog documents

    A catalog in one JSON text: an object of providers, each with its metadata and an object of
    models.  Models stay values until their provider is loaded, so that a bad one spoils no other. -/

namespace ModelCatalog

open Json (Reader Decoder)

/-- A provider of a document. -/
structure ProviderRecord where
  id : String
  info : ProviderInfo
  /-- The models by their keys. -/
  models : Index (Prod.fst : String × Json → String)

structure Document where
  providers : Index ProviderRecord.id

namespace ProviderRecord

/-- What was taken from a record so far: its members, the last one first, and its models. -/
structure Draft where
  members : List (String × Json) := []
  models : Option (List (String × Json)) := none

/-- How deep a value inside a record may nest. -/
def valueDepth : Nat := Json.maxDepth - 2

def takeModels : Reader (List (String × Json)) := do
  match ← Json.token with
  | some '\x7b' =>
    Json.advance
    return (← Json.members Json.takeText (Json.member (Json.value (valueDepth - 1))) []).reverse
  | _ => Json.mismatchOrEnd .object

def takeMember (draft : Draft) (name : String) : Reader Draft := do
  if name == "models" then
    if draft.models.isSome then throw (.duplicateField name)
    Json.colon
    return { draft with models := some (← takeModels) }
  else
    return { draft with members := ← Json.member (Json.value valueDepth) draft.members name }

/-- Takes a record.  Its metadata is looked at behind its last member. -/
def take (id : String) : Reader ProviderRecord := do
  match ← Json.token with
  | some '\x7b' =>
    Json.advance
    let draft ← Json.members Json.takeText takeMember {}
    let info ← (ProviderInfo.read : Decoder ProviderInfo).run (.object draft.members.reverse)
    let models := (draft.models.getD []).map fun (key, v) => (key, v.canonical)
    return { id, info, models := .ofList models }
  | _ => Json.mismatchOrEnd (.record "ProviderRecord")

end ProviderRecord

namespace Document

def take : Reader Document := do
  match ← Json.token with
  | some '\x7b' =>
    Json.advance
    let records ← Json.members Json.takeText
      (fun before id => do
        Json.colon
        return (← ProviderRecord.take id) :: before) []
    return ⟨.ofList records.reverse⟩
  | _ => Json.mismatchOrEnd .object

def parse (text : String) : Except Error Document :=
  match take.parse text with
  | .ok document => .ok document
  | .error fault => .error (.malformedCatalog (.json fault))

def provider (document : Document) (id : String) : Except Error ProviderRecord :=
  match document.providers.get? id with
  | some record => .ok record
  | none => .error (.providerNotFound id)

/-- The verdict on a model of a provider. -/
def verdict (providerId : String) (key : String) (value : Json) : Verdict :=
  let identity := providerId ++ "/models/" ++ key
  match (Entry.read : Decoder Entry).run value with
  | .error fault => .skipped ⟨identity, .json fault⟩
  | .ok entry =>
    if entry.isDeprecated then .deprecated
    else
      match ModelId.parse key with
      | .error fault => .fatal (.invalidModelId key fault)
      | .ok id => entry.verdict identity id

def load (document : Document) (id : String) : Except Error ProviderModels := do
  let record ← document.provider id
  ProviderModels.gather id record.info (record.models.toList.map fun (key, v) => verdict id key v)

end Document

end ModelCatalog
