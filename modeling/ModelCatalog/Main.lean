import ModelCatalog.CommandLine.Answer
import ModelCatalog.FileTree.Changes

/-! # The program

    The outer layer: it reads the files whose paths come on standard input, one a line and a slash
    behind those of directories, runs the command line on the tree that they make, and carries the
    changes out. -/

namespace ModelCatalog.Main

partial def readLines (stream : IO.FS.Stream) (before : List String) : IO (List String) := do
  let line ← stream.getLine
  if line.isEmpty then return before.reverse
  readLines stream (line.trimAsciiEnd.toString :: before)

/-- A tree with the file or directory at a path of the system. -/
def load (tree : FileTree) (line : String) : IO FileTree := do
  let path : Path := ⟨line⟩
  if line.endsWith "/" then return (tree.makeDirectories path.ancestors).1
  let (tree, _) := Commit.makeParent tree path
  return (tree.write path (← IO.FS.readBinFile line)).toOption.getD tree

/-- Makes a node of a tree real. -/
def store (change : String × Node) : IO Unit :=
  match change.2 with
  | .directory => IO.FS.createDirAll change.1
  | .file content => IO.FS.writeBinFile change.1 content

end ModelCatalog.Main

open ModelCatalog in
/-- Runs the program in the current directory. -/
def main (args : List String) : IO UInt32 := do
  let paths ← Main.readLines (← IO.getStdin) []
  let before ← paths.foldlM Main.load .empty
  let (after, answer) := CommandLine.run args ⟨"."⟩ before
  let (written, removed) := FileTree.changes before after
  written.forM Main.store
  removed.forM fun path => IO.FS.removeFile path
  IO.print answer.output
  if let some error := answer.error then IO.eprintln ("Error: " ++ error.message)
  return answer.exitCode.toUInt32
