import ModelCatalog.FileTree.Basic
import ModelCatalog.Path

/-! # Comparing file trees

    What a second tree has new, changed or lost. -/

namespace ModelCatalog.FileTree

/-- The nodes below the start that a second tree has new or changed, and the locations it has lost,
    each as they are shown and in order.  The path of a directory ends in a slash. -/
def changes (before after : FileTree) : List (String × Node) × List String :=
  let path (l : Location) (n : Node) : RawText :=
    (Path.ofPieces l).raw ++ (if n = .directory then "/" else "" : String)
  let shown (tree : FileTree) := (tree.nodes.filter (·.1.isDown)).map fun (l, n) => (path l n, n)
  let old := shown before
  let new := shown after
  let changed := new.filter fun (p, n) => decide (old.lookup p ≠ some n)
  let lost := old.filter fun (p, _) => (new.lookup p).isNone
  ((changed.map fun (p, n) => (p.display, n)).mergeSort fun a b => decide (a.1 ≤ b.1),
    (lost.map fun (p, _) => p.display).mergeSort fun a b => decide (a ≤ b))

end ModelCatalog.FileTree
