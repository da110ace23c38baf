import ModelCatalog.CommandLine.Arguments
import ModelCatalog.Run

/-! # Commands

    Options before the command say where the catalog is; the command says what to generate, and its
    own options refine that.  Some options are good in both places, and the later place wins. -/

namespace ModelCatalog.CommandLine

/-- Options that are good before the command and behind it. -/
def sharedSpecs : List Spec :=
  [{ long := "verbose", short := some 'v', isRepeatable := true },
   { long := "json-logs" },
   { long := "dry-run" },
   { long := "format" },
   { long := "output-root", arity := .value, allowsEmpty := false },
   { long := "providers-dir", arity := .value, allowsEmpty := false },
   { long := "help", short := some 'h' }]

/-- The repository to read if none is given. -/
def defaultRepository : String := "https://github.com/sst/models.dev.git"

/-- The document to read if no catalog is given. -/
def defaultDocument : String := "https://models.dev/api.json"

/-- Options before the command: where the catalog is. -/
def catalogSpecs : List Spec :=
  [{ long := "catalog-dir", arity := .value, allowsEmpty := false },
   { long := "catalog-git", arity := .optional defaultRepository },
   { long := "api-url", arity := .value }]

def outerSpecs : List Spec :=
  sharedSpecs ++ catalogSpecs ++ [{ long := "version", short := some 'V' }]

def commandSpecs : Mode → List Spec
  | .capabilities =>
    sharedSpecs ++
      [{ long := "all" },
       { long := "folder", arity := .value },
       { long := "struct-name", arity := .value }]
  | .compatible =>
    sharedSpecs ++
      [{ long := "all" },
       { long := "with-capabilities", short := some 'c' }]

def commandName : Mode → String
  | .capabilities => "capabilities"
  | .compatible => "openai-compatible"

def mode? (name : String) : Option Mode := [.capabilities, .compatible].find? (commandName · == name)

inductive CatalogSource where
  | local (path : Path)
  | repository (url : String)
  | remote (url : String)
  deriving Repr

structure Command where
  source : CatalogSource
  mode : Mode
  selector : Selector
  outputRoot : Option Path
  options : Options

/-- Where the options before the command say that the catalog is. -/
def catalogSource (outer : Arguments) : Except Refusal CatalogSource :=
  match outer.value? "catalog-dir", outer.value? "catalog-git", outer.value? "api-url" with
  | some path, none, none => .ok (.local ⟨path⟩)
  | none, some url, none => .ok (.repository url)
  | none, none, some url => .ok (.remote url)
  | none, none, none => .ok (.remote defaultDocument)
  | _, _, _ => .error .usage

/-- The providers that the arguments of a command select.  What refines one provider needs one, but
    not beside `--all`, which rules one out. -/
def selector (inner : Arguments) : Except Refusal Selector :=
  match inner.positional with
  | [] =>
    if (inner.has "folder" || inner.has "struct-name") && !inner.has "all" then .error .usage
    else .ok .all
  | [id] => if inner.has "all" then .error .usage else .ok (.one id)
  | _ => .error .usage

/-- The command that arguments give. -/
def parse (args : List String) : Except Refusal Command := do
  let (outer, rest) ← readArguments outerSpecs true {} args
  match rest with
  | [] => throw .usage
  | name :: rest =>
    match mode? name with
    | none =>
      let isTopic (name : String) : Bool := name == "help" || (mode? name).isSome
      if name == "help" && rest.all isTopic && rest.length ≤ 1 then throw .help
      throw .usage
    | some mode =>
      let (inner, _) ← readArguments (commandSpecs mode) false {} rest
      let source ← catalogSource outer
      let selector ← selector inner
      let has (long : String) : Bool := inner.has long || outer.has long
      let value? (long : String) : Option String := inner.value? long <|> outer.value? long
      let outputRoot := (value? "output-root").map Path.mk
      return {
        source, mode, selector, outputRoot
        options := {
          outputRoot := outputRoot.getD ⟨""⟩
          providersDirectory := ((value? "providers-dir").map Path.mk).getD defaultProvidersPath
          withCapabilities := inner.has "with-capabilities"
          dryRun := has "dry-run"
          format := has "format"
          typeName := inner.value? "struct-name"
          folder := inner.value? "folder" } }

end ModelCatalog.CommandLine
