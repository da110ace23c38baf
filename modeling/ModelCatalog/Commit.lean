import ModelCatalog.FileTree.Writing
import ModelCatalog.RenderedFile

/-! # Writing files together

    A batch of files is written as a whole: if one of them cannot be written, those before it are
    taken back, and the files that were there before get their content again.  Directories that were
    made for the batch stay.  The disk may refuse any step up to a failure, but not taking back. -/

namespace ModelCatalog.Commit

open FileTree

/-- The content of a file before the batch. -/
structure Snapshot where
  path : Path
  content : ByteArray

/-- The content of all files that the batch is going to replace. -/
def snapshots (disk : Disk) (tree : FileTree) : List RenderedFile → Except Error (List Snapshot)
  | [] => .ok []
  | file :: rest =>
    match tree.find file.path with
    | .ok (.file content) =>
      match disk.refusesReading file.path with
      | some fault => .error (.notRead file.path fault)
      | none => (⟨file.path, content⟩ :: ·) <$> snapshots disk tree rest
    | _ => snapshots disk tree rest

/-- Makes the directory that a path lies in, if it is missing. -/
def makeParent (tree : FileTree) (path : Path) (disk : Disk := {}) :
    FileTree × Except Error Unit :=
  match path.parent? with
  | none => (tree, .ok ())
  | some parent =>
    if parent.raw == "" || tree.isDirectory parent then (tree, .ok ())
    else
      match tree.makeDirectories parent.ancestors disk with
      | (tree, .ok ()) => (tree, .ok ())
      | (tree, .error fault) => (tree, .error (.notWritten parent fault))

/-- Makes the directories that the files of a batch lie in. -/
def makeParents (disk : Disk) : List RenderedFile → FileTree → FileTree × Except Error Unit
  | [], tree => (tree, .ok ())
  | file :: rest, tree =>
    match makeParent tree file.path disk with
    | (tree, .ok ()) => makeParents disk rest tree
    | (tree, .error error) => (tree, .error error)

/-- The directory that a path lies in. -/
def directory (path : Path) : Path :=
  match path.parent? with
  | none => ⟨"."⟩
  | some parent => if parent.raw == "" then ⟨"."⟩ else parent

/-- Writes a text into a file whose directory exists, unless the disk refuses one of the steps.  The
    temporary file is removed if it cannot be filled or cannot take the place of the file. -/
def writeText (tree : FileTree) (path : Path) (text : String)
    (refused : WriteStep → Option FileFault := fun _ => none) : FileTree × Except Error Unit :=
  let failed (tree : FileTree) (fault : FileFault) : FileTree × Except Error Unit :=
    (tree, .error (.notWritten path fault))
  match unlessRefused (refused .make) (tree.makeTemporary (directory path)) with
  | .error fault => failed tree fault
  | .ok (temporary, made) =>
    match unlessRefused (refused .fill) (made.write temporary text.toUTF8) with
    | .error fault => failed (made.discard temporary) fault
    | .ok filled =>
      match unlessRefused (refused .move) (filled.move temporary path) with
      | .error fault => failed (filled.discard temporary) fault
      | .ok after => (after, .ok ())

/-- Takes one file back: it gets the content from before, or is removed if there was none.  What
    cannot be undone stays. -/
def undo (before : List Snapshot) (tree : FileTree) (path : Path) : FileTree :=
  match before.find? (·.path.same path) with
  | some snapshot => (tree.write path snapshot.content).toOption.getD tree
  | none => tree.discard path

/-- Takes files back, the last one first. -/
def rollBack (before : List Snapshot) (done : List Path) (tree : FileTree) : FileTree :=
  done.reverse.foldl (undo before) tree

/-- Writes the files of a batch behind those that are done, and gives the paths of all. -/
def writeAll (disk : Disk) (before : List Snapshot) (done : List Path) :
    List RenderedFile → FileTree → FileTree × Except Error (List Path)
  | [], tree => (tree, .ok done)
  | file :: rest, tree =>
    match writeText tree file.path file.content (disk.refusesFile done file.path) with
    | (tree, .ok ()) => writeAll disk before (done ++ [file.path]) rest tree
    | (tree, .error error) => (rollBack before done tree, .error error)

/-- Writes a batch and gives the paths of its files.  A dry run writes nothing. -/
def commit (batch : List RenderedFile) (dryRun : Bool) (tree : FileTree) (disk : Disk := {}) :
    FileTree × Except Error (List Path) :=
  match snapshots disk tree batch with
  | .error error => (tree, .error error)
  | .ok before =>
    if dryRun then (tree, .ok [])
    else
      match makeParents disk batch tree with
      | (tree, .ok ()) => writeAll disk before [] batch tree
      | (tree, .error error) => (tree, .error error)

end ModelCatalog.Commit
