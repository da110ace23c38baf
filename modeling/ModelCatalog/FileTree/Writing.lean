import ModelCatalog.FileTree.Lookup

/-! # Writing files and making directories

    Each operation fails without a change or changes the node at the location of its path
    (`write_eq_ok`, `remove_eq_ok`, `make_eq_ok`).  Only `makeDirectories` takes several steps, and
    keeps those that were done before one fails. -/

namespace ModelCatalog

/-- The steps in which a file gets its text: beside it a temporary file is made, which is filled and
    then takes its place. -/
inductive WriteStep where
  | make
  | fill
  | move
  deriving DecidableEq, Repr

/-- A disk can refuse what a tree allows, for want of rights or of room: to read a file, to make a
    directory in a tree, or a step for one more file of a batch when some are written. -/
structure Disk where
  refusesReading : Path → Option FileFault := fun _ => none
  refusesDirectory : FileTree → Path → Option FileFault := fun _ _ => none
  refusesFile : List Path → Path → WriteStep → Option FileFault := fun _ _ _ => none

/-- A result, unless there is a fault. -/
def unlessRefused {α : Type} (refused : Option FileFault) (result : Except FileFault α) :
    Except FileFault α :=
  match refused with
  | some fault => .error fault
  | none => result

theorem eq_ok_of_unlessRefused {α : Type} {refused : Option FileFault}
    {result : Except FileFault α} {a : α} (h : unlessRefused refused result = .ok a) :
    result = .ok a := by
  cases refused with
  | none => exact h
  | some fault => exact nomatch h

namespace FileTree

/-- Writes a file.  Its directory has to exist.  NUL in the name is a fault of the argument here, as
    the name is only looked at when a file with the content takes its place. -/
def write (tree : FileTree) (p : Path) (content : ByteArray) : Except FileFault FileTree :=
  if p.hasNul then .error .invalidArgument
  else
    match h : tree.locate p with
    | .error fault => .error fault
    | .ok l =>
      if hdir : tree.node? l = some .directory then .error .isDirectory
      else .ok (tree.put l (.file content) (isInside_of_locate h) hdir)

def remove (tree : FileTree) (p : Path) : Except FileFault FileTree :=
  match tree.locate p with
  | .error fault => .error fault
  | .ok l =>
    if tree.node? l = some .directory then .error .isDirectory
    else if tree.node? l = none then .error .notFound
    else .ok (tree.prune l)

/-- Removes a file if that is possible. -/
def discard (tree : FileTree) (p : Path) : FileTree := (tree.remove p).toOption.getD tree

/-- Makes a node where nothing stands, inside a directory that exists. -/
def make (tree : FileTree) (p : Path) (n : Node) : Except FileFault FileTree :=
  match h : tree.locate p with
  | .error fault => .error fault
  | .ok l =>
    if hnone : tree.node? l = none then
      .ok (tree.put l n (isInside_of_locate h) (by simp [hnone]))
    else .error .exists

/-- Moves a file to where a second path leads, in the place of no directory. -/
def move (tree : FileTree) (source target : Path) : Except FileFault FileTree :=
  match tree.find source with
  | .error fault => .error fault
  | .ok .directory => .error .isDirectory
  | .ok (.file content) =>
    match tree.write target content with
    | .error fault => .error fault
    | .ok written =>
      if location source = location target then .ok written else written.remove source

/-- How many names are tried for a temporary file. -/
def temporaryNames : Nat := 65536

/-- A name for a temporary file.  All of them have one length. -/
def temporaryName (n : Nat) : RawText :=
  let digits := (toString n).toList
  .ofString (".tmp" ++ .ofList (List.replicate (6 - digits.length) '0' ++ digits))

/-- The first path for a temporary file in a directory at which nothing is found. -/
def temporaryPath? (tree : FileTree) (directory : Path) : (names : Nat) → Option Path
  | 0 => none
  | names + 1 =>
    let p := directory.child (temporaryName names)
    if (tree.find p).isOk then temporaryPath? tree directory names else some p

/-- Makes an empty file in a directory, with a name that nothing has there. -/
def makeTemporary (tree : FileTree) (directory : Path) : Except FileFault (Path × FileTree) :=
  match tree.temporaryPath? directory temporaryNames with
  | none => .error .exists
  | some p => (p, ·) <$> tree.make p (.file .empty)

/-- Makes the first of the paths a directory; the others are those above it, which are made as far
    as they are missing.  After a fault the directories made so far stay. -/
def makeDirectories (paths : List Path) (tree : FileTree) (disk : Disk := {}) :
    FileTree × Except FileFault Unit :=
  match paths with
  | [] => (tree, .ok ())
  | p :: above =>
    let make (tree : FileTree) : Except FileFault FileTree :=
      unlessRefused (disk.refusesDirectory tree p) (tree.make p .directory)
    let settle (tree : FileTree) (fault : FileFault) : FileTree × Except FileFault Unit :=
      (tree, if tree.isDirectory p then .ok () else .error fault)
    if p.raw == "" then (tree, .ok ())
    else
      match make tree with
      | .ok tree => (tree, .ok ())
      | .error .notFound =>
        match makeDirectories above tree disk with
        | (tree, .error fault) => (tree, .error fault)
        | (tree, .ok ()) =>
          match make tree with
          | .ok tree => (tree, .ok ())
          | .error fault => settle tree fault
      | .error fault => settle tree fault

-- ── What each operation does ──

/-- A file is written where its path leads, in the place of no directory. -/
theorem write_eq_ok {tree after : FileTree} {p : Path} {content : ByteArray} :
    tree.write p content = .ok after ↔
      ∃ l hin hdir, tree.locate p = .ok l ∧ after = tree.put l (.file content) hin hdir := by
  rw [write]
  constructor
  · intro h
    split at h
    · exact nomatch h
    · split at h
      · exact nomatch h
      · next l hl =>
        split at h
        · exact nomatch h
        · next hdir => exact ⟨l, isInside_of_locate hl, hdir, hl, (Except.ok.inj h).symm⟩
  · rintro ⟨l, hin, hdir, hl, rfl⟩
    rw [if_neg (by simp [(locate_eq_ok.1 hl).1.noNul])]
    split
    · next fault herror => exact nomatch hl.symm.trans herror
    · next k hk =>
      obtain rfl : l = k := Except.ok.inj (hl.symm.trans hk)
      rw [dif_neg hdir]

/-- A file is removed from where its path leads. -/
theorem remove_eq_ok {tree after : FileTree} {p : Path} :
    tree.remove p = .ok after ↔
      ∃ l, tree.locate p = .ok l ∧ tree.node? l ≠ some .directory ∧ tree.node? l ≠ none ∧
        after = tree.prune l := by
  rw [remove]
  constructor
  · intro h
    split at h
    · exact nomatch h
    · next l hl =>
      split at h
      · exact nomatch h
      · next hdir =>
        split at h
        · exact nomatch h
        · next hnone => exact ⟨l, hl, hdir, hnone, (Except.ok.inj h).symm⟩
  · rintro ⟨l, hl, hdir, hnone, rfl⟩
    simp only [hl, if_neg hdir, if_neg hnone]

/-- A node is made where its path leads, if nothing stands there. -/
theorem make_eq_ok {tree after : FileTree} {p : Path} {n : Node} :
    tree.make p n = .ok after ↔
      ∃ l hin hdir, tree.locate p = .ok l ∧ tree.node? l = none ∧
        after = tree.put l n hin hdir := by
  rw [make]
  constructor
  · intro h
    split at h
    · exact nomatch h
    · next l hl =>
      split at h
      · next hnone =>
        exact ⟨l, isInside_of_locate hl, by simp [hnone], hl, hnone, (Except.ok.inj h).symm⟩
      · exact nomatch h
  · rintro ⟨l, hin, hdir, hl, hnone, rfl⟩
    split
    · next fault herror => exact nomatch hl.symm.trans herror
    · next k hk =>
      obtain rfl : l = k := Except.ok.inj (hl.symm.trans hk)
      rw [dif_pos hnone]

end FileTree

end ModelCatalog
