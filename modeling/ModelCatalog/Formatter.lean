import ModelCatalog.FileTree.Lookup

/-! # Formatting files of code

    Files of code can be given to a formatter when they are written.  It is a program of its own, and
    what it makes of a text is its own affair.  What is said of it is where it writes
    (`Formatter.IsLawful`): into files that are there, which are those that it is given, and those
    with the modules that are declared in one of them, and so on. -/

namespace ModelCatalog

/-- A formatter: what it does to a tree if it is given some paths, and where it looks for the modules
    that the file at a location declares, if they have files of their own. -/
structure Formatter where
  format : List Path → FileTree → FileTree
  moduleFiles : FileTree → Location → List Location

namespace Formatter

/-- Where there is no formatter, nothing is formatted. -/
def missing : Formatter := ⟨fun _ tree => tree, fun _ _ => []⟩

/-- Formats files, if there are any. -/
def run (formatter : Formatter) (paths : List Path) (tree : FileTree) : FileTree :=
  if paths.isEmpty then tree else formatter.format paths tree

/-- The files that a formatter comes to from a file: the file itself, and those with the modules that
    are declared in a file that it comes to. -/
inductive Reaches (formatter : Formatter) (tree : FileTree) (l : Location) : Location → Prop where
  | self : Reaches formatter tree l l
  | module {k j : Location} (h : Reaches formatter tree l k)
      (hj : j ∈ formatter.moduleFiles tree k) : Reaches formatter tree l j

/-- A formatter that only changes the content of files, and only of those that it comes to from the
    files that it is given. -/
structure IsLawful (formatter : Formatter) : Prop where
  reached : ∀ paths tree l, (formatter.format paths tree).node? l ≠ tree.node? l →
    ∃ p ∈ paths, formatter.Reaches tree (FileTree.location p) l
  rewrites : ∀ paths tree l, (formatter.format paths tree).node? l ≠ tree.node? l →
    ∃ before after, tree.node? l = some (.file before) ∧
      (formatter.format paths tree).node? l = some (.file after)

end Formatter

end ModelCatalog
