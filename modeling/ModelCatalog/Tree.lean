import ModelCatalog.FileTree.Reading
import ModelCatalog.Json.Record
import ModelCatalog.Models
import ModelCatalog.Toml.Record

/-! # Catalog trees

    A catalog in a directory: `providers/<id>/` holds the metadata of a provider in `provider.toml`,
    which may be missing, and its models in `models/`, one record a file, in that directory or one
    folder below.

    The names in a tree need not be texts.  A provider is listed by its name as it is shown, so that
    two directories can be listed alike, and a name on the way to a record counts only if it is a
    text. -/

namespace ModelCatalog.Tree

/-- The directory of all providers. -/
def providersPath (root : Path) : Path := root.child "providers"

/-- The ids of all providers in order: the names of their directories as they are shown. -/
def providerIds (files : FileTree) (root : Path) : Except Error (List String) :=
  match files.directoryNames (providersPath root) with
  | .ok names => .ok ((names.map RawText.display).mergeSort fun a b => decide (a ≤ b))
  | .error fault => .error (.notRead (providersPath root) fault)

/-- The directory of a provider, which can lie in a folder that is not named like it. -/
def providerPath (files : FileTree) (root : Path) (id : String) (folder? : Option String) :
    Except Error Path :=
  let name := folder?.getD id
  let path := (providersPath root).child name
  if files.isDirectory path then .ok path else .error (.providerNotFound name)

/-- The metadata in the directory of a provider. -/
def readInfo (files : FileTree) (path : Path) : Except Error ProviderInfo :=
  let path := path.child "provider.toml"
  match files.find path with
  | .error _ => .ok {}
  | .ok _ =>
    match files.readText path with
    | .error fault => .error (.notRead path fault)
    | .ok text =>
      (Toml.decode ProviderInfo.read text).mapError fun fault => .malformedCatalog (.toml path fault)

def info (files : FileTree) (root : Path) (id : String) (folder? : Option String) :
    Except Error ProviderInfo := do
  readInfo files (← providerPath files root id folder?)

-- ── Records ──

inductive Format where
  | json
  | toml
  deriving DecidableEq, Repr

/-- The format of a file by its name; other files are no records. -/
def Format.ofName? (name : RawText) : Option Format :=
  match (FileName.extension? name).bind RawText.text? with
  | some "json" => some .json
  | some "toml" => some .toml
  | _ => none

/-- A text in a format as an entry. -/
def Format.entry (format : Format) (text : String) : Except SkipReason Entry :=
  match format with
  | .json => ((Entry.read : Json.Reader Entry).parse text).mapError .json
  | .toml => (Toml.decode Entry.read text).mapError .toml

/-- The texts among the names on a way from the directory of models. -/
def segments (way : Location) : List String := way.filterMap RawText.text?

/-- The folder of a record by the texts on the way to it: none stands for the directory of models.
    There is no answer if the record lies too deep. -/
def recordFolder? (way : Location) : Option (Option String) :=
  match segments way with
  | [_] => some none
  | [folder, _] => some (some folder)
  | _ => none

/-- The name of a record without its extension, if it is a text. -/
def recordBase? (way : Location) : Option String :=
  way.getLast?.bind fun name => (FileName.stem name).text?

/-- The path at the end of a way from the directory of models. -/
def recordPath (modelsPath : Path) (way : Location) : Path := modelsPath / .ofPieces way

/-- The entry in a file. -/
def readEntry (files : FileTree) (path : Path) (format : Format) : Except SkipReason Entry := do
  format.entry (← (files.readText path).mapError .unreadable)

/-- The verdict on a record by the id that it has. -/
def fileVerdict (files : FileTree) (path : Path) (format : Format) (id : ModelId) : Verdict :=
  match readEntry files path format with
  | .error reason => .skipped ⟨path.text, reason⟩
  | .ok entry => entry.verdict path.text id

/-- The verdict on a record. -/
def recordVerdict (files : FileTree) (modelsPath : Path) (way : Location) (format : Format) :
    Verdict :=
  match recordFolder? way with
  | none => .fatal (.nestingTooDeep (.ofPieces way))
  | some folder? =>
    match recordBase? way with
    | none => .skipped ⟨(recordPath modelsPath way).text, .nameNotText⟩
    | some base => fileVerdict files (recordPath modelsPath way) format ⟨folder?, base⟩

/-- The verdict on what stands below a directory of models.  Directories have none unless their path
    is too long to enter them, and files that are no records have none. -/
def verdict? (files : FileTree) (modelsPath : Path) : Location × Node → Option Verdict
  | (way, .file _) => do
    let format ← Format.ofName? (← way.getLast?)
    return recordVerdict files modelsPath way format
  | (way, .directory) =>
    match files.find (recordPath modelsPath way) with
    | .ok _ => none
    | .error fault => some (.fatal (.notRead (recordPath modelsPath way) fault))

/-- The verdicts below a directory of models, in the order of the walk. -/
def verdicts (files : FileTree) (modelsPath : Path) : List Verdict :=
  match files.locate modelsPath with
  | .ok base => (files.walk base).filterMap (verdict? files modelsPath)
  | .error _ => []

/-- The models of a provider. -/
def load (files : FileTree) (root : Path) (id : String) (folder? : Option String) :
    Except Error ProviderModels := do
  let path ← providerPath files root id folder?
  let info ← readInfo files path
  let modelsPath := path.child "models"
  if !files.isDirectory modelsPath then throw (.noActiveModels id)
  ProviderModels.gather id info (verdicts files modelsPath)

end ModelCatalog.Tree
