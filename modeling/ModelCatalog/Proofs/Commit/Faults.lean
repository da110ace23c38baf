import Mathlib.Data.Nat.Digits.Lemmas
import ModelCatalog.Commit
import ModelCatalog.Proofs.Commit.AllOrNothing
import ModelCatalog.Proofs.FileTree.MakingDirectories
import ModelCatalog.Proofs.Text.Decoding

/-! # Why a batch cannot be written

    Whether a text can be written into a directory that is there, and what the fault is otherwise, is
    read off the tree before anything is done: by the names that are taken, and by what stands where
    the path leads (`writeText_eq`).  A commit fails in reading or in writing (`isOfFile_of_commit`),
    and a batch that its dry run lets pass in writing only (`commit_foreseen`). -/

namespace ModelCatalog

/-- What went wrong, if anything did. -/
def fault? {ε α : Type} : Except ε α → Option ε
  | .error fault => some fault
  | .ok _ => none

/-- A file could not be read or written. -/
inductive Error.IsOfFile : Error → Prop
  | notRead (path : Path) (fault : FileFault) : IsOfFile (.notRead path fault)
  | notWritten (path : Path) (fault : FileFault) : IsOfFile (.notWritten path fault)

namespace FileTree

-- ── Names for temporary files ──

theorem temporaryName_eq (n : Nat) : ∃ digits : List Char,
    temporaryName n = .ofString (.ofList (['.', 't', 'm', 'p'] ++ digits)) ∧
      (∀ c ∈ digits, c.isDigit = true) ∧ (n < 10 ^ 6 → digits.length = 6) := by
  refine ⟨List.replicate (6 - (Nat.toDigits 10 n).length) '0' ++ Nat.toDigits 10 n, ?_, ?_, ?_⟩
  · rw [String.ofList_append]
    simp [temporaryName]
  · intro c hc
    rcases List.mem_append.1 hc with hc | hc
    · rw [(List.mem_replicate.1 hc).2]
      decide
    · exact Nat.isDigit_of_mem_toDigits (by decide) (by decide) hc
  · intro hn
    have hlength := (Nat.length_toDigits_le_iff (b := 10) (by decide) (by decide)).2 hn
    rw [List.length_append, List.length_replicate]
    omega

/-- A name for a temporary file is one, and no other name that is in use. -/
theorem temporaryName_spec (n : Nat) : RawText.slash ∉ (temporaryName n).bytes ∧
    Path.isIdle (temporaryName n) = false ∧ temporaryName n ≠ ".." ∧
    ∀ kind : FileKind, temporaryName n ≠ kind.fileName := by
  obtain ⟨digits, hname, hdigits, -⟩ := temporaryName_eq n
  have hne : ∀ s : String, ['.', 't'].isPrefixOf s.toList = false → temporaryName n ≠ s := by
    intro s hs heq
    rw [hname, RawText.ofString_inj] at heq
    rw [← heq, String.toList_ofList] at hs
    exact absurd hs (by simp)
  refine ⟨?_, ?_, hne _ (by decide), fun kind => hne _ (by cases kind <;> decide)⟩
  · rw [hname, RawText.slash_mem_ofString, String.toList_ofList]
    intro hmem
    rcases List.mem_append.1 hmem with hmem | hmem
    · exact absurd hmem (by decide)
    · exact absurd (hdigits _ hmem) (by decide)
  · rw [Path.isIdle, Bool.or_eq_false_iff]
    exact ⟨by simpa using hne "" (by decide), by simpa using hne "." (by decide)⟩

theorem utf8ByteSize_digits {digits : List Char} (h : ∀ c ∈ digits, c.isDigit = true) :
    (String.ofList digits).utf8ByteSize = digits.length := by
  induction digits with
  | nil => rfl
  | cons c digits ih =>
      obtain ⟨hc, hrest⟩ := List.forall_mem_cons.1 h
      have hsize : c.utf8Size = 1 := by
        rw [Char.utf8Size_eq_one_iff]
        simp only [Char.isDigit, Bool.and_eq_true, decide_eq_true_iff] at hc
        exact Nat.le_trans hc.2 (by decide)
      rw [String.ofList_cons, String.utf8ByteSize_append, String.utf8ByteSize_singleton, hsize,
        ih hrest, List.length_cons, Nat.add_comm]

/-- All names for temporary files have one size. -/
theorem size_temporaryName {n : Nat} (h : n < 10 ^ 6) : (temporaryName n).size = 10 := by
  obtain ⟨digits, hname, hdigits, hlength⟩ := temporaryName_eq n
  rw [hname, RawText.size_ofString, String.ofList_append, String.utf8ByteSize_append,
    utf8ByteSize_digits hdigits, hlength h]
  rfl

-- ── Faults of single steps ──

/-- Why no file can be written. -/
def writeFault? (tree : FileTree) (p : Path) : Option FileFault :=
  if p.hasNul then some .invalidArgument
  else
    match tree.locate p with
    | .error fault => some fault
    | .ok l => if tree.node? l = some .directory then some .isDirectory else none

theorem fault?_write (tree : FileTree) (p : Path) (content : ByteArray) :
    fault? (tree.write p content) = tree.writeFault? p := by
  rw [write, writeFault?]
  by_cases hnul : p.hasNul = true
  · rw [if_pos hnul, if_pos hnul]
    rfl
  · rw [if_neg hnul, if_neg hnul]
    split
    · next fault hlocate =>
      simp only [hlocate]
      rfl
    · next l hlocate =>
      simp only [hlocate]
      split <;> rfl

/-- What has been filled is moved, if a file can be written where the second path leads. -/
theorem fault?_move {tree filled : FileTree} {temporary target : Path} {content : ByteArray}
    (h : Filled tree filled temporary content) :
    fault? (filled.move temporary target) = filled.writeFault? target := by
  have htemporary : Writable filled temporary := h.sameDirectories.writable_iff.2 h.writable
  have hnode : filled.node? (location temporary) = some (.file content) := by
    rw [h.changes, if_pos rfl]
  have hfind : filled.find temporary = .ok (.file content) :=
    find_eq_ok.2 ⟨_, htemporary.locate, hnode⟩
  rw [← fault?_write filled target content, move, hfind]
  dsimp only
  cases hwrite : filled.write target content with
  | error fault => rfl
  | ok written =>
      dsimp only
      by_cases hsame : location temporary = location target
      · rw [if_pos hsame]
      · rw [if_neg hsame]
        obtain ⟨htarget, hchanges⟩ := writes_of_write hwrite
        have hkept : Writable written temporary :=
          (hchanges.sameDirectories htarget.notDirectory (by simp)).writable_iff.2 htemporary
        have hthere : written.node? (location temporary) ≠ none := by
          rw [hchanges, if_neg hsame, hnode]
          exact Option.some_ne_none _
        rw [remove_eq_ok.2 ⟨_, hkept.locate, hkept.notDirectory, hthere, rfl⟩]
        rfl

theorem writeFault?_eq_none {tree : FileTree} {p : Path} :
    tree.writeFault? p = none ↔ Writable tree p := by
  rw [writeFault?]
  constructor
  · intro h
    split at h
    · cases h
    · split at h
      · cases h
      · next l hlocate =>
        obtain rfl : location p = l := location_of_locate hlocate
        split at h
        · cases h
        · next hdir => exact ⟨hlocate, hdir⟩
  · intro h
    rw [if_neg (by simp [(locate_eq_ok.1 h.locate).1.noNul]), h.locate]
    exact if_neg h.notDirectory

/-- Into a directory that both have, two trees with the same directories take the same files. -/
theorem writeFault?_congr {tree other : FileTree} {dir : Path} {name : RawText}
    (hslash : RawText.slash ∉ name.bytes) (hdir : tree.isDirectory dir = true)
    (h : SameDirectories tree other) :
    other.writeFault? (dir.child name) = tree.writeFault? (dir.child name) := by
  have hdir' : other.isDirectory dir = true := by
    obtain ⟨hlocate, hl⟩ := isDirectory_eq_true.1 hdir
    exact isDirectory_eq_true.2 ⟨h.locate_eq_ok_iff.2 hlocate, (h _).2 hl⟩
  rw [writeFault?, writeFault?, locate_child_congr hslash hdir hdir']
  cases tree.locate (dir.child name) with
  | error fault => rfl
  | ok l => simp only [h l]

end FileTree

namespace Commit

open FileTree

/-- Why no temporary file can be made. -/
def temporaryFault? (tree : FileTree) (dir : Path) : Option FileFault :=
  match tree.temporaryPath? dir temporaryNames with
  | none => some .exists
  | some p => fault? (tree.locate p)

/-- Why a text cannot be written into a directory that is there. -/
def textFault? (tree : FileTree) (path : Path) (refused : WriteStep → Option FileFault) :
    Option FileFault :=
  (refused .make).or <| (temporaryFault? tree (directory path)).or <|
    (refused .fill).or <| (refused .move).or <| tree.writeFault? path

theorem fault?_unlessRefused {α : Type} (refused : Option FileFault) (result : Except FileFault α) :
    fault? (unlessRefused refused result) = refused.or (fault? result) := by
  cases refused <;> rfl

theorem find_of_temporaryPath? {tree : FileTree} {dir p : Path} {names : Nat}
    (h : tree.temporaryPath? dir names = some p) :
    (∃ n < names, p = dir.child (temporaryName n)) ∧ (tree.find p).isOk = false := by
  induction names with
  | zero => cases h
  | succ names ih =>
      rw [temporaryPath?] at h
      split at h
      · obtain ⟨⟨n, hn, hp⟩, hfind⟩ := ih h
        exact ⟨⟨n, by omega, hp⟩, hfind⟩
      · next hfree =>
        obtain rfl := Option.some.inj h
        exact ⟨⟨names, by omega, rfl⟩, by simpa using hfree⟩

theorem fault?_makeTemporary (tree : FileTree) (dir : Path) :
    fault? (tree.makeTemporary dir) = temporaryFault? tree dir := by
  rw [makeTemporary, temporaryFault?]
  cases hpath : tree.temporaryPath? dir temporaryNames with
  | none => rfl
  | some p =>
      dsimp only
      cases hmake : tree.make p (.file .empty) with
      | ok made =>
          obtain ⟨l, -, -, hlocate, -, -⟩ := make_eq_ok.1 hmake
          rw [hlocate]
          rfl
      | error fault =>
          rcases make_eq_error.1 hmake with hlocate | ⟨-, l, n, hlocate, hn⟩
          · rw [hlocate]
            rfl
          · have hfree := (find_of_temporaryPath? hpath).2
            rw [find_eq_ok.2 ⟨l, hlocate, hn⟩] at hfree
            cases hfree

/-- **Whether a text is written, and the fault if it is not**, can be told from the tree as it is. -/
theorem writeText_eq {tree : FileTree} {path : Path} {name : RawText} (text : String)
    (refused : WriteStep → Option FileFault) (hpath : path = (directory path).child name)
    (hslash : RawText.slash ∉ name.bytes) (hdir : tree.isDirectory (directory path) = true) :
    (writeText tree path text refused).2 =
      match textFault? tree path refused with
      | some fault => .error (.notWritten path fault)
      | none => .ok () := by
  rw [writeText, textFault?, ← Option.or_assoc, ← fault?_makeTemporary, ← fault?_unlessRefused]
  cases hmake : unlessRefused (refused .make) (tree.makeTemporary (directory path)) with
  | error fault => rfl
  | ok result =>
      obtain ⟨temporary, made⟩ := result
      have hmade : Filled tree made temporary .empty :=
        Filled.of_make (make_of_makeTemporary (eq_ok_of_unlessRefused hmake))
      dsimp only [fault?, Option.none_or]
      cases hfill : refused .fill with
      | some fault => rfl
      | none =>
          obtain ⟨filled, hwrite⟩ :=
            (hmade.sameDirectories.writable_iff.2 hmade.writable).write text.toUTF8
          have hfilled : Filled tree filled temporary text.toUTF8 := hmade.write hwrite
          have htarget : filled.writeFault? path = tree.writeFault? path := by
            rw [hpath]
            exact writeFault?_congr hslash hdir hfilled.sameDirectories
          have hnone : unlessRefused none (Except.ok filled : Except FileFault FileTree)
              = .ok filled := rfl
          rw [hwrite, hnone, Option.none_or, ← htarget, ← fault?_move hfilled,
            ← fault?_unlessRefused]
          dsimp only
          cases unlessRefused (refused .move) (filled.move temporary path) <;> rfl

theorem commit_dryRun (batch : List RenderedFile) (tree : FileTree) (disk : Disk) :
    (commit batch true tree disk).1 = tree := by
  rw [commit]
  cases snapshots disk tree batch <;> rfl

-- ── How a commit fails ──

/-- The first file of a batch that the disk refuses to read, if one is there to be read. -/
def refusal? (disk : Disk) (batch : List RenderedFile) : Option Error :=
  batch.findSome? fun file => (disk.refusesReading file.path).map (.notRead file.path)

/-- If what the disk refuses to read is there, the first refusal is all that can be wrong with
    snapshots. -/
theorem fault?_snapshots {disk : Disk} {tree : FileTree} {batch : List RenderedFile}
    (h : ∀ file ∈ batch, disk.refusesReading file.path ≠ none →
      ∃ content, tree.find file.path = .ok (.file content)) :
    fault? (snapshots disk tree batch) = refusal? disk batch := by
  induction batch with
  | nil => rfl
  | cons file rest ih =>
      replace ih := ih fun f hf => h f (List.mem_cons_of_mem _ hf)
      rw [snapshots, refusal?, List.findSome?_cons, ← refusal?]
      cases hrefuses : disk.refusesReading file.path with
      | some fault =>
          obtain ⟨content, hfind⟩ := h file List.mem_cons_self (by simp [hrefuses])
          rw [hfind]
          rfl
      | none =>
          dsimp only [Option.map_none]
          rw [← ih]
          split
          · cases snapshots disk tree rest <;> rfl
          · rfl

/-- Making directories fails in no other way than writing. -/
theorem notWritten_of_makeParents {disk : Disk} {batch : List RenderedFile} {tree : FileTree}
    {error : Error} (h : (makeParents disk batch tree).2 = .error error) :
    ∃ path fault, error = .notWritten path fault := by
  induction batch generalizing tree with
  | nil => cases h
  | cons file rest ih =>
      rw [makeParents] at h
      split at h
      · exact ih h
      · next made fault hmake =>
        obtain rfl := Except.error.inj h
        rw [makeParent] at hmake
        split at hmake
        · cases (Prod.mk.inj hmake).2
        · split at hmake
          · cases (Prod.mk.inj hmake).2
          · split at hmake
            · cases (Prod.mk.inj hmake).2
            · exact ⟨_, _, (Except.error.inj (Prod.mk.inj hmake).2).symm⟩

theorem notWritten_of_writeAll {disk : Disk} {before : List Snapshot} {done : List Path}
    {batch : List RenderedFile} {tree : FileTree} {error : Error}
    (h : (writeAll disk before done batch tree).2 = .error error) :
    ∃ path fault, error = .notWritten path fault := by
  induction batch generalizing tree done with
  | nil => cases h
  | cons file rest ih =>
      rw [writeAll] at h
      split at h
      · exact ih h
      · next made fault hwrite =>
        obtain rfl := Except.error.inj h
        rw [writeText] at hwrite
        dsimp only at hwrite
        split at hwrite
        · exact ⟨_, _, (Except.error.inj (Prod.mk.inj hwrite).2).symm⟩
        · split at hwrite
          · exact ⟨_, _, (Except.error.inj (Prod.mk.inj hwrite).2).symm⟩
          · split at hwrite
            · exact ⟨_, _, (Except.error.inj (Prod.mk.inj hwrite).2).symm⟩
            · cases (Prod.mk.inj hwrite).2

theorem notRead_of_snapshots {disk : Disk} {tree : FileTree} {batch : List RenderedFile}
    {error : Error} (h : snapshots disk tree batch = .error error) :
    ∃ path fault, error = .notRead path fault := by
  induction batch with
  | nil => cases h
  | cons file rest ih =>
      rw [snapshots] at h
      split at h
      · split at h
        · exact ⟨_, _, (Except.error.inj h).symm⟩
        · cases hrest : snapshots disk tree rest with
          | ok before =>
              rw [hrest] at h
              cases h
          | error fault =>
              rw [hrest] at h ih
              exact ih h
      · exact ih h

/-- When there are snapshots, a commit can only fail in writing. -/
theorem notWritten_of_commit {batch : List RenderedFile} {tree : FileTree} {disk : Disk}
    {before : List Snapshot} (hbefore : snapshots disk tree batch = .ok before) {error : Error}
    (h : (commit batch false tree disk).2 = .error error) :
    ∃ path fault, error = .notWritten path fault := by
  rcases commit_cases batch tree disk with
    ⟨fault, hnone, -⟩ | ⟨before, -, ⟨made, fault, hmade, hrun⟩ | ⟨made, -, hrun⟩⟩
  · rw [hbefore] at hnone
    cases hnone
  · rw [hrun] at h
    obtain rfl := Except.error.inj h
    exact notWritten_of_makeParents (congrArg Prod.snd hmade)
  · rw [hrun] at h
    exact notWritten_of_writeAll h

/-- **A commit fails in reading or in writing.** -/
theorem isOfFile_of_commit {batch : List RenderedFile} {dryRun : Bool} {tree : FileTree}
    {disk : Disk} {error : Error} (h : (commit batch dryRun tree disk).2 = .error error) :
    error.IsOfFile := by
  cases hbefore : snapshots disk tree batch with
  | error fault =>
      rw [commit, hbefore] at h
      obtain ⟨path, cause, rfl⟩ := notRead_of_snapshots hbefore
      rw [← Except.error.inj h]
      exact .notRead _ _
  | ok before =>
      cases dryRun with
      | true =>
          rw [commit, hbefore] at h
          cases h
      | false =>
          obtain ⟨path, cause, rfl⟩ := notWritten_of_commit hbefore h
          exact .notWritten _ _

/-- **A commit fails as its dry run does, or in writing**, if the same is wrong with the snapshots in
    both trees. -/
theorem commit_foreseen {disk : Disk} {tree other : FileTree} {batch : List RenderedFile}
    (h : fault? (snapshots disk other batch) = fault? (snapshots disk tree batch)) :
    (∃ error, (commit batch true tree disk).2 = .error error ∧
      (commit batch false other disk).2 = .error error) ∨
    (commit batch true tree disk).2 = .ok [] ∧
      ((∃ paths, (commit batch false other disk).2 = .ok paths) ∨
        ∃ path fault, (commit batch false other disk).2 = .error (.notWritten path fault)) := by
  cases hbefore : snapshots disk tree batch with
  | error error =>
      cases hother : snapshots disk other batch with
      | error error' =>
          rw [hbefore, hother] at h
          rw [commit, commit, hbefore, hother]
          exact Or.inl ⟨error, rfl, congrArg Except.error (Option.some.inj h)⟩
      | ok before =>
          rw [hbefore, hother] at h
          cases h
  | ok before =>
      cases hother : snapshots disk other batch with
      | error error =>
          rw [hbefore, hother] at h
          cases h
      | ok before' =>
          have hdry : (commit batch true tree disk).2 = .ok [] := by
            rw [commit, hbefore]
            rfl
          refine Or.inr ⟨hdry, ?_⟩
          cases hrun : (commit batch false other disk).2 with
          | ok paths => exact Or.inl ⟨paths, rfl⟩
          | error error =>
              obtain ⟨path, fault, rfl⟩ := notWritten_of_commit hother hrun
              exact Or.inr ⟨path, fault, rfl⟩

-- ── The directory of a batch ──

/-- A directory that is missing is made with all that is missing above it. -/
theorem makeParent_of_missing {tree : FileTree} {disk : Disk} {path dir : Path}
    (hparent : path.parent? = some dir) (hne : dir.raw ≠ "")
    (hdir : ¬ tree.isDirectory dir = true) :
    makeParent tree path disk =
      match tree.makeDirectories dir.ancestors disk with
      | (made, .ok ()) => (made, .ok ())
      | (made, .error fault) => (made, .error (.notWritten dir fault)) := by
  rw [makeParent, hparent]
  exact if_neg (by simp [hdir, hne])

/-- The files of a batch lie in one directory, each under a name. -/
structure InDirectory (dir : Path) (batch : List RenderedFile) : Prop where
  nonempty : dir.raw ≠ ""
  parent : ∀ file ∈ batch, file.path.parent? = some dir
  name : ∀ file ∈ batch, ∃ name : RawText, file.path = dir.child name ∧ RawText.slash ∉ name.bytes ∧
    Path.isIdle name = false ∧ name ≠ ".."

namespace InDirectory

variable {dir : Path} {file : RenderedFile} {batch : List RenderedFile} {disk : Disk}

theorem of_cons (h : InDirectory dir (file :: batch)) : InDirectory dir batch :=
  ⟨h.nonempty, fun f hf => h.parent f (List.mem_cons_of_mem _ hf),
    fun f hf => h.name f (List.mem_cons_of_mem _ hf)⟩

theorem directory_eq (h : InDirectory dir batch) (hfile : file ∈ batch) :
    directory file.path = dir := by
  rw [directory, h.parent file hfile]
  exact if_neg (by simpa using h.nonempty)

/-- A directory that is there is not made again. -/
theorem makeParents_of_isDirectory (h : InDirectory dir batch) {tree : FileTree}
    (hdir : tree.isDirectory dir = true) : makeParents disk batch tree = (tree, .ok ()) := by
  induction batch with
  | nil => rfl
  | cons file rest ih =>
      have hparent := h.parent file List.mem_cons_self
      have hmake : makeParent tree file.path disk = (tree, .ok ()) := by
        rw [makeParent, hparent]
        exact if_pos (by simp [hdir])
      rw [makeParents, hmake]
      exact ih h.of_cons

/-- **The directory of a batch is made if that is possible.** -/
theorem makeParents_spec (h : InDirectory dir batch) (hne : batch ≠ [])
    (hdisk : ∀ tree p, disk.refusesDirectory tree p = none) (tree : FileTree) :
    ((makeParents disk batch tree).2 = .ok () ↔ CanBeMade tree dir) ∧
      ((makeParents disk batch tree).2 = .ok () →
        (makeParents disk batch tree).1.isDirectory dir = true) ∧
      (tree.isDirectory dir = false → ∀ fault,
        (tree.makeDirectories dir.ancestors disk).2 = .error fault →
          (makeParents disk batch tree).2 = .error (.notWritten dir fault)) := by
  obtain ⟨file, rest, rfl⟩ := List.exists_cons_of_ne_nil hne
  have hparent := h.parent file List.mem_cons_self
  have hmakes := makesIfPossible_parent hdisk hparent h.nonempty tree
  by_cases hdir : tree.isDirectory dir = true
  · rw [h.makeParents_of_isDirectory hdir]
    exact ⟨iff_of_true rfl (canBeMade_of_isDirectory hdir), fun _ => hdir,
      fun hnot => absurd hdir (by simp [hnot])⟩
  · rw [makeParents, makeParent_of_missing hparent h.nonempty hdir]
    cases hrun : tree.makeDirectories dir.ancestors disk with
    | mk made result =>
        rw [hrun] at hmakes
        cases result with
        | error fault =>
            refine ⟨iff_of_false (fun h => by cases h) fun hcan => ?_, fun h => (by cases h), ?_⟩
            · cases hmakes.ok_iff.2 hcan
            · intro _ other hother
              rw [Except.error.inj hother]
        | ok =>
            have hmade : made.isDirectory dir = true := hmakes.isDirectory rfl
            dsimp only
            rw [h.of_cons.makeParents_of_isDirectory hmade]
            exact ⟨iff_of_true rfl (hmakes.ok_iff.1 rfl), fun _ => hmade, fun _ _ h => by cases h⟩

end InDirectory

end Commit

end ModelCatalog
