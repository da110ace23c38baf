import ModelCatalog.CommandLine.Command
import ModelCatalog.ProjectRoot

/-! # Answering the command line

    The program turns arguments and a file tree into a new tree, a text and an exit code: `0` if all
    went well, `1` if something failed, `2` if the arguments are no command. -/

namespace ModelCatalog.CommandLine

/-- The catalog of a source.  Only local ones can be read. -/
def CatalogSource.catalog (tree : FileTree) : CatalogSource → Except Error Catalog
  | .local path => Catalog.openPath tree path
  | .repository url | .remote url => .error (.notLocal url)

def Command.run (c : Command) (directory : Path) (tree : FileTree)
    (formatter : Formatter := .missing) : FileTree × Except Error Summary :=
  let ready := do
    let outputRoot ← match c.outputRoot with
      | some root => pure root
      | none => findRoot tree directory
    return (outputRoot, ← c.source.catalog tree)
  match ready with
  | .error error => (tree, .error error)
  | .ok (outputRoot, catalog) =>
    Generation.run catalog c.selector c.mode { c.options with outputRoot } tree (fun _ => {})
      formatter

structure Answer where
  exitCode : Nat
  output : String := ""
  error : Option Error := none

/-- Runs the program on its arguments. -/
def run (args : List String) (directory : Path) (tree : FileTree)
    (formatter : Formatter := .missing) : FileTree × Answer :=
  match parse args with
  | .error .help => (tree, { exitCode := 0 })
  | .error .usage => (tree, { exitCode := 2 })
  | .ok command =>
    match command.run directory tree formatter with
    | (tree, .error error) => (tree, { exitCode := 1, error })
    | (tree, .ok s) => (tree, { exitCode := if s.hasFailures then 1 else 0, output := s.text })

end ModelCatalog.CommandLine
