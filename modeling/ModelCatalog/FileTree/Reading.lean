import ModelCatalog.FileTree.Lookup

/-! # Reading files and directories

    `walk` lists everything below a location depth first, with the names in one directory in their
    order: this is the lexicographic order of the ways. -/

namespace ModelCatalog.FileTree

def read (tree : FileTree) (p : Path) : Except FileFault ByteArray := do
  match ← tree.find p with
  | .file content => return content
  | .directory => throw .isDirectory

def readText (tree : FileTree) (p : Path) : Except FileFault String := do
  match String.fromUTF8? (← tree.read p) with
  | some text => return text
  | none => throw .notText

/-- Everything below a location with the way to it: depth first, and the names in one directory in
    their order. -/
def walk (tree : FileTree) (base : Location) : List (Location × Node) :=
  let found := tree.nodes.filterMap fun (l, n) =>
    match below? base l with
    | some way => if way ≠ [] ∧ way.isDown then some (way, n) else none
    | none => none
  found.mergeSort fun a b => Location.precedes a.1 b.1

/-- The names of the directories inside a directory, in order.  A directory counts if a path leads to
    it. -/
def directoryNames (tree : FileTree) (p : Path) : Except FileFault (List RawText) := do
  let l ← tree.locate p
  tree.requireDirectory l
  return (tree.walk l).filterMap fun
    | ([name], .directory) => if tree.isDirectory (p.child name) then some name else none
    | _ => none

end ModelCatalog.FileTree
