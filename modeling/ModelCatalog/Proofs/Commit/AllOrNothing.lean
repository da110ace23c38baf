import ModelCatalog.Proofs.Commit.Landing

/-! # A batch lands as a whole or not at all

    The headline is `commit_allOrNothing`: whatever stands in the tree and whatever the disk refuses,
    a batch either lands (`Landed`), or every file is as it was before (`Undone`).  Nothing is asked
    of the batch but that its paths never lead up: a file may be in it twice, and a path may lead
    through a file of the batch or name a directory.  Making the directories is growing
    (`growsBy_makeParents`).  How far a commit comes is said once (`commit_cases`), and with
    `writeAll_spec` for the writing there are only two ends, which `commit_spec` tells for any batch
    at all. -/

namespace ModelCatalog.Commit

open FileTree

-- ── The directories of a batch ──

/-- Where the directories are made that a file lies in. -/
def ParentPlaces (path : Path) (l : Location) : Prop :=
  ∃ parent, path.parent? = some parent ∧ placesOf parent.ancestors l

def BatchPlaces (batch : List RenderedFile) (l : Location) : Prop :=
  ∃ file ∈ batch, ParentPlaces file.path l

theorem growsBy_makeParent (disk : Disk) (path : Path) (tree : FileTree) :
    GrowsBy (ParentPlaces path) tree (makeParent tree path disk).1 := by
  rw [makeParent]
  cases hparent : path.parent? with
  | none => exact GrowsBy.refl _ tree
  | some parent =>
      have hgrows : GrowsBy (ParentPlaces path) tree
          (tree.makeDirectories parent.ancestors disk).1 :=
        (growsBy_makeDirectories disk parent.ancestors tree).mono fun l hl => ⟨parent, hparent, hl⟩
      dsimp only
      split
      · exact GrowsBy.refl _ tree
      · split
        · next after hmade => rwa [hmade] at hgrows
        · next after fault hmade => rwa [hmade] at hgrows

/-- **Making the directories of a batch only adds directories**, whether or not it succeeds. -/
theorem growsBy_makeParents (disk : Disk) (batch : List RenderedFile) (tree : FileTree) :
    GrowsBy (BatchPlaces batch) tree (makeParents disk batch tree).1 := by
  induction batch generalizing tree with
  | nil => exact GrowsBy.refl _ tree
  | cons file rest ih =>
      have hhead : GrowsBy (BatchPlaces (file :: rest)) tree (makeParent tree file.path disk).1 :=
        (growsBy_makeParent disk file.path tree).mono fun l hl => ⟨file, List.mem_cons_self, hl⟩
      have hrest : ∀ between, GrowsBy (BatchPlaces (file :: rest)) between
          (makeParents disk rest between).1 := fun between =>
        (ih between).mono fun l ⟨f, hf, hl⟩ => ⟨f, List.mem_cons_of_mem _ hf, hl⟩
      rw [makeParents]
      split
      · next between hmade =>
        rw [hmade] at hhead
        exact hhead.trans (hrest between)
      · next between error hmade => rwa [hmade] at hhead

-- ── The two ends ──

/-- **How far a commit comes**: to its snapshots, to its directories, or to the writing. -/
theorem commit_cases (batch : List RenderedFile) (tree : FileTree) (disk : Disk) :
    (∃ error, snapshots disk tree batch = .error error ∧
      commit batch false tree disk = (tree, .error error)) ∨
    ∃ before, snapshots disk tree batch = .ok before ∧
      ((∃ made error, makeParents disk batch tree = (made, .error error) ∧
        commit batch false tree disk = (made, .error error)) ∨
      ∃ made, makeParents disk batch tree = (made, .ok ()) ∧
        commit batch false tree disk = writeAll disk before [] batch made) := by
  rw [commit]
  cases hbefore : snapshots disk tree batch with
  | error error => exact Or.inl ⟨error, rfl, rfl⟩
  | ok before =>
      refine Or.inr ⟨before, rfl, ?_⟩
      dsimp only
      rw [if_neg Bool.false_ne_true]
      rcases hmade : makeParents disk batch tree with ⟨made, error | ⟨⟨⟩⟩⟩
      · exact Or.inl ⟨made, error, rfl, rfl⟩
      · exact Or.inr ⟨made, rfl, rfl⟩

/-- A batch has been taken back to the tree with its directories: these stay, and at each location
    stands what stood there, unless the batch has a path to it by which a file that stood there could
    not be found before. -/
structure TakenBack (batch : List RenderedFile) (tree made after : FileTree) : Prop where
  sameDirectories : SameDirectories made after
  node? : ∀ l, (∀ file ∈ batch, location file.path = l → Writable made file.path →
    ∀ content, tree.node? l = some (.file content) → tree.find file.path = .ok (.file content)) →
      after.node? l = made.node? l

theorem TakenBack.refl (batch : List RenderedFile) (tree made : FileTree) :
    TakenBack batch tree made made :=
  ⟨SameDirectories.refl made, fun _ _ => rfl⟩

/-- **What a commit does**, for any batch: over a tree that has only grown, either every file of the
    batch is laid, or the batch is taken back. -/
theorem commit_spec (batch : List RenderedFile) (tree : FileTree) (disk : Disk) :
    ∃ made, GrowsBy (BatchPlaces batch) tree made ∧
      ((∃ after, commit batch false tree disk = (after, .ok (batch.map (·.path))) ∧
        Overlay made batch after) ∨
      ∃ after error, commit batch false tree disk = (after, .error error) ∧
        TakenBack batch tree made after) := by
  have hgrows := growsBy_makeParents disk batch tree
  rcases commit_cases batch tree disk with
    ⟨error, -, hrun⟩ | ⟨before, hbefore, ⟨made, error, hmade, hrun⟩ | ⟨made, hmade, hrun⟩⟩
  · exact ⟨tree, GrowsBy.refl _ tree, Or.inr ⟨tree, error, hrun, TakenBack.refl batch tree tree⟩⟩
  · rw [hmade] at hgrows
    exact ⟨made, hgrows, Or.inr ⟨made, error, hrun, TakenBack.refl batch tree made⟩⟩
  · rw [hmade] at hgrows
    refine ⟨made, hgrows, ?_⟩
    rw [hrun]
    rcases writeAll_spec disk batch [] made (Overlay.nil made) with
      ⟨after, hwrite, hover⟩ | ⟨after, error, hwrite, hdirectories, hback⟩
    · exact Or.inl ⟨after, hwrite, hover⟩
    · refine Or.inr ⟨after, error, hwrite, hdirectories, fun l hfound => hback l ?_⟩
      intro file hfile hl hwritable
      refine recorded_of_snapshots hbefore hgrows hfile hwritable ?_
      rw [hl]
      exact hfound file hfile hl hwritable

-- ── Paths that never lead up ──

/-- New directories lie above the files of a batch. -/
def AddsDirectoriesAbove (batch : List RenderedFile) (before after : FileTree) : Prop :=
  ∀ l, after.node? l = some .directory → before.node? l = some .directory ∨
    before.node? l = none ∧ ∃ file ∈ batch, l.IsAbove (location file.path)

/-- A batch has landed: each path holds the content of the last file that leads there, and nothing
    else has changed but for new directories above those files. -/
structure Landed (batch : List RenderedFile) (before after : FileTree) : Prop where
  holds : ∀ file ∈ batch, ∃ last ∈ batch, lastAt batch (location file.path) = some last ∧
    after.find file.path = .ok (.file last.content.toUTF8)
  others : ∀ l, (∀ file ∈ batch, location file.path ≠ l) → after.file? l = before.file? l
  keepsDirectories : KeepsDirectories before after
  addsDirectories : AddsDirectoriesAbove batch before after

/-- A batch has left nothing but directories above its files: everywhere stands the same file, or
    none, as before. -/
structure Undone (batch : List RenderedFile) (before after : FileTree) : Prop where
  files : ∀ l, after.file? l = before.file? l
  keepsDirectories : KeepsDirectories before after
  addsDirectories : AddsDirectoriesAbove batch before after

section NeverUp

variable {batch : List RenderedFile} {tree made after : FileTree}

theorem addsDirectoriesAbove_of_growsBy (hup : ∀ file ∈ batch, file.path.NeverUp)
    (h : GrowsBy (BatchPlaces batch) tree after) : AddsDirectoriesAbove batch tree after := by
  intro l hl
  rcases h l with hsame | ⟨hnone, -, file, hfile, parent, hparent, q, hq, hne, rfl⟩
  · exact Or.inl (hsame.symm.trans hl)
  · exact Or.inr ⟨hnone, file, hfile,
      isAbove_of_mem_parent_ancestors (hup file hfile) hparent hq hne⟩

theorem undone_of_growsBy (hup : ∀ file ∈ batch, file.path.NeverUp)
    (h : GrowsBy (BatchPlaces batch) tree after) : Undone batch tree after :=
  ⟨h.file?_eq, h.keepsDirectories, addsDirectoriesAbove_of_growsBy hup h⟩

/-- If the paths of a batch never lead up, nothing has changed when it has been taken back. -/
theorem TakenBack.node?_eq (hup : ∀ file ∈ batch, file.path.NeverUp)
    (h : TakenBack batch tree made after) (l : Location) : after.node? l = made.node? l := by
  refine h.node? l fun file hfile hl hwritable content hnode => ?_
  rw [← hl] at hnode
  exact find_eq_ok.2 ⟨location file.path,
    locate_of_node? (hup file hfile) hwritable.locate hwritable.notDirectory hnode, hnode⟩

theorem landed_of_overlay (hup : ∀ file ∈ batch, file.path.NeverUp)
    (hgrows : GrowsBy (BatchPlaces batch) tree made) (hover : Overlay made batch after) :
    Landed batch tree after := by
  refine ⟨fun file hfile => ?_, fun l hl => ?_, ?_, fun l hl => ?_⟩
  · obtain ⟨last, hmem, hlast⟩ := exists_lastAt hfile
    refine ⟨last, hmem, hlast, find_eq_ok.2 ⟨location file.path, ?_, ?_⟩⟩
    · exact hover.sameDirectories.locate_eq_ok_iff.2 (hover.writable file hfile).locate
    · rw [hover.node? (location file.path), hlast]
  · rw [← hgrows.file?_eq l]
    refine file?_congr ?_
    rw [hover.node? l]
    cases hlast : lastAt batch l with
    | none => rfl
    | some last =>
        obtain ⟨hmem, hat⟩ := mem_of_lastAt hlast
        exact absurd hat (hl last hmem)
  · exact hgrows.keepsDirectories.trans hover.sameDirectories.keepsDirectories
  · exact addsDirectoriesAbove_of_growsBy hup hgrows l ((hover.sameDirectories l).1 hl)

/-- **ALL OR NOTHING.**  A batch whose paths never lead up is written with its paths in their order
    as the result, and lands; or it fails, and every file is as it was before. -/
theorem commit_allOrNothing (batch : List RenderedFile) (tree : FileTree) (disk : Disk)
    (hup : ∀ file ∈ batch, file.path.NeverUp) :
    (∃ after, commit batch false tree disk = (after, .ok (batch.map (·.path))) ∧
      Landed batch tree after) ∨
    ∃ after error, commit batch false tree disk = (after, .error error) ∧
      Undone batch tree after := by
  obtain ⟨made, hgrows, ⟨after, hrun, hover⟩ | ⟨after, error, hrun, hback⟩⟩ :=
    commit_spec batch tree disk
  · exact Or.inl ⟨after, hrun, landed_of_overlay hup hgrows hover⟩
  · exact Or.inr ⟨after, error, hrun, undone_of_growsBy hup (hgrows.congr (hback.node?_eq hup))⟩

/-- A file that is no text is written twice and taken back, as the last path of the batch names a
    directory. -/
theorem commit_allOrNothing_takesBack :
    let tree : FileTree := ⟨[(["a"], .file ⟨#[0xff]⟩), (["d"], .directory)], by decide⟩
    let batch : List RenderedFile := [⟨⟨"a"⟩, .registry, "1"⟩, ⟨⟨"./a"⟩, .registry, "2"⟩,
      ⟨⟨"e/f"⟩, .registry, "3"⟩, ⟨⟨"d"⟩, .scaffold, "4"⟩]
    (∀ file ∈ batch, file.path.NeverUp) ∧
      ∃ after error, commit batch false tree {} = (after, .error error) ∧
        Undone batch tree after := by
  intro tree batch
  have hup : ∀ file ∈ batch, file.path.NeverUp := by decide
  have hfails : (commit batch false tree {}).2.isOk = false := by decide +kernel
  refine ⟨hup, (commit_allOrNothing batch tree {} hup).resolve_left ?_⟩
  rintro ⟨after, hrun, -⟩
  rw [hrun] at hfails
  exact nomatch hfails

end NeverUp

end ModelCatalog.Commit
