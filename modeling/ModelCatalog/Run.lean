import ModelCatalog.Catalog
import ModelCatalog.Commit
import ModelCatalog.Formatter
import ModelCatalog.Rendering

/-! # Generating code for providers

    For each selected provider its data is loaded, its files are rendered, and they are written as
    one batch.  If one provider is selected, its error is the error of the run; if all are, every
    error is recorded and the run goes on.  When all is written, it can be formatted. -/

namespace ModelCatalog

/-- What is generated. -/
inductive Mode where
  /-- The registry. -/
  | capabilities
  /-- The scaffold, for compatible providers only. -/
  | compatible
  deriving DecidableEq, Repr

/-- Which providers it is generated for. -/
inductive Selector where
  | one (id : String)
  | all
  deriving DecidableEq, Repr

/-- The directory of all generated modules, below the output root, if none is given. -/
def defaultProvidersPath : Path := ⟨"src/providers"⟩

/-- The settings of a run. -/
structure Options where
  outputRoot : Path
  /-- The directory of all modules, seen from the output root. -/
  providersDirectory : Path := defaultProvidersPath
  /-- Whether a registry goes with the scaffold. -/
  withCapabilities : Bool := false
  dryRun : Bool := false
  /-- Whether the files that were written are formatted. -/
  format : Bool := false
  /-- The name of the provider's type, if it is not named after the id. -/
  typeName : Option String := none
  /-- The folder of the provider, if it is not named like the id. -/
  folder : Option String := none

/-- The directory of all modules. -/
def Options.providersPath (o : Options) : Path := o.outputRoot / o.providersDirectory

/-- What came of a provider. -/
structure Outcome where
  providerId : String
  /-- The number of models in the registry, zero if there is none. -/
  modelCount : Nat
  paths : List Path
  deriving Repr

/-- What came of all providers. -/
structure Summary where
  succeeded : List Outcome := []
  skipped : List (String × Error) := []
  failed : List (String × Error) := []
  catalog : ProviderCatalog := .empty

namespace Summary

def hasFailures (s : Summary) : Bool := !s.failed.isEmpty

def paths (s : Summary) : List Path := s.succeeded.flatMap (·.paths)

/-- The lines of a heading and of what stands below it, if anything does. -/
def sectionLines {α : Type} (heading : List String) (line : α → String) (items : List α) :
    List String :=
  if items.isEmpty then [] else heading ++ items.map fun a => "  " ++ line a

/-- The lines that tell a user about the run. -/
def lines (s : Summary) : List String :=
  let outcome (o : Outcome) : String :=
    o.providerId ++ s!": {o.modelCount} models, " ++ s!"{o.paths.length} files"
  let reason (r : String × Error) : String := r.1 ++ ": " ++ r.2.message
  let succeeded := s.succeeded.length
  let skipped := s.skipped.length
  let failed := s.failed.length
  ["", "=== Generation Summary ===", ""] ++
    sectionLines ["Succeeded:"] outcome s.succeeded ++
    sectionLines ["", "Skipped:"] reason s.skipped ++
    sectionLines ["", "Failed:"] reason s.failed ++
    ["", s!"Total: {succeeded} succeeded, {skipped} skipped, {failed} failed"]

def text (s : Summary) : String := String.join (s.lines.map (· ++ "\n"))

end Summary

/-- Whether an error only means that there is nothing to generate. -/
def Error.isNothing : Error → Bool
  | .noActiveModels _ => true
  | _ => false

namespace Generation

/-- What came of a provider that succeeded, with the models that were rendered. -/
structure Generated where
  outcome : Outcome
  models : Option ProviderModels

/-- What is to be rendered for a provider. -/
def prepare (tree : FileTree) (catalog : Catalog) (mode : Mode) (o : Options) (id : String) :
    Except Error Rendering := do
  let names ← ProviderNames.ofId id o.typeName
  match mode with
  | .capabilities =>
    let models ← catalog.load tree id o.folder
    return { names, info := models.info, models := some models, hasScaffold := false }
  | .compatible =>
    let info ← catalog.info tree id o.folder
    if !info.isCompatible id then throw (.notCompatible id)
    if !o.withCapabilities then return { names, info, models := none, hasScaffold := true }
    match catalog.load tree id o.folder with
    | .ok models => return { names, info, models := some models, hasScaffold := true }
    | .error error =>
      if error.isNothing then return { names, info, models := none, hasScaffold := true }
      throw error

/-- The models and the files that are rendered for a provider. -/
def rendered (tree : FileTree) (catalog : Catalog) (mode : Mode) (o : Options) (id : String) :
    Except Error (Option ProviderModels × List RenderedFile) := do
  let rendering ← prepare tree catalog mode o id
  return (rendering.models, ← rendering.files o.providersPath)

def generate (catalog : Catalog) (mode : Mode) (o : Options) (id : String) (tree : FileTree)
    (disk : Disk := {}) : FileTree × Except Error Generated :=
  match rendered tree catalog mode o id with
  | .error error => (tree, .error error)
  | .ok (models, batch) =>
    match Commit.commit batch o.dryRun tree disk with
    | (tree, .error error) => (tree, .error error)
    | (tree, .ok paths) =>
      let modelCount := (models.map (·.models.size)).getD 0
      (tree, .ok ⟨⟨id, modelCount, paths⟩, models⟩)

/-- Records what came of a provider. -/
def record (s : Summary) (id : String) : Except Error Generated → Summary
  | .ok g =>
    { s with
      succeeded := s.succeeded ++ [g.outcome]
      catalog := (g.models.map s.catalog.insert).getD s.catalog }
  | .error error =>
    if error.isNothing then { s with skipped := s.skipped ++ [(id, error)] }
    else { s with failed := s.failed ++ [(id, error)] }

/-- The providers that a run over all of them visits.  In compatible mode these are the ones whose
    metadata can be read and is compatible. -/
def selected (tree : FileTree) (catalog : Catalog) (mode : Mode) : Except Error (List String) := do
  let ids ← catalog.providerIds tree
  match mode with
  | .capabilities => return ids
  | .compatible =>
    return ids.filter fun id =>
      match catalog.info tree id none with
      | .ok info => info.isCompatible id
      | .error _ => false

/-- Visits providers one after the other.  What the disk refuses may change from one to the next. -/
def visit (catalog : Catalog) (mode : Mode) (o : Options) (disk : String → Disk) :
    List String → FileTree → Summary → FileTree × Summary
  | [], tree, s => (tree, s)
  | id :: rest, tree, s =>
    let (tree, result) := generate catalog mode o id tree (disk id)
    visit catalog mode o disk rest tree (record s id result)

/-- Generates the files of all selected providers, as they are rendered. -/
def produce (catalog : Catalog) (selector : Selector) (mode : Mode) (o : Options) (tree : FileTree)
    (disk : String → Disk := fun _ => {}) : FileTree × Except Error Summary :=
  match selector with
  | .one id =>
    match generate catalog mode o id tree (disk id) with
    | (tree, .error error) =>
      (tree, if error.isNothing then .ok (record {} id (.error error)) else .error error)
    | (tree, .ok g) => (tree, .ok (record {} id (.ok g)))
  | .all =>
    match selected tree catalog mode with
    | .error error => (tree, .error error)
    | .ok ids =>
      let (tree, s) := visit catalog mode o disk ids tree {}
      (tree, .ok s)

/-- Generates the files of all selected providers, and formats those that were written if this is asked
    for.  An error ends the run before that. -/
def run (catalog : Catalog) (selector : Selector) (mode : Mode) (o : Options) (tree : FileTree)
    (disk : String → Disk := fun _ => {}) (formatter : Formatter := .missing) :
    FileTree × Except Error Summary :=
  match produce catalog selector mode o tree disk with
  | (tree, .error error) => (tree, .error error)
  | (tree, .ok s) =>
    (if o.format && !o.dryRun then formatter.run s.paths tree else tree, .ok s)

section Formatting

variable {catalog : Catalog} {selector : Selector} {mode : Mode} {o : Options} {tree : FileTree}
  {disk : String → Disk} {formatter : Formatter}

/-- Formatting has no part in what a run comes to. -/
theorem run_snd : (run catalog selector mode o tree disk formatter).2
    = (produce catalog selector mode o tree disk).2 := by
  rw [run]
  rcases produce catalog selector mode o tree disk with ⟨after, error | s⟩ <;> rfl

/-- Files are formatted only if this is asked for. -/
theorem run_of_not_format (h : o.format = false) :
    run catalog selector mode o tree disk formatter = produce catalog selector mode o tree disk := by
  rw [run, h]
  rcases produce catalog selector mode o tree disk with ⟨after, error | s⟩ <;> rfl

/-- In a dry run nothing is formatted. -/
theorem run_of_dryRun (h : o.dryRun = true) :
    run catalog selector mode o tree disk formatter = produce catalog selector mode o tree disk := by
  rw [run, h, Bool.not_true, Bool.and_false]
  rcases produce catalog selector mode o tree disk with ⟨after, error | s⟩ <;> rfl

end Formatting

end Generation

end ModelCatalog
