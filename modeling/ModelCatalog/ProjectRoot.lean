import ModelCatalog.Error
import ModelCatalog.FileTree.Lookup

/-! # The root of a project

    The root is the nearest directory, from a starting point upwards, that holds the file which
    marks a project. -/

namespace ModelCatalog

/-- The file that marks a project. -/
def rootMarker : String := "Cargo.toml"

/-- The root of the project around a path. -/
def findRoot (tree : FileTree) (start : Path) : Except Error Path :=
  match start.ancestors.find? fun p => tree.isFile (p.child rootMarker) with
  | some root => .ok root
  | none => .error (.noProjectRoot start)

end ModelCatalog
