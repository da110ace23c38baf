import ModelCatalog.Proofs.Commit.Faults
import ModelCatalog.Proofs.FileTree.Developing

/-! # Faults that last

    A batch that cannot be written now cannot be written later, either, as long as the tree only
    develops (`commit_of_develops`): a file on the way of its directory stays there, a directory in
    the place of one of its files does, too, and so do the files that have taken all names for
    temporary ones.  The disk refuses nothing here. -/

namespace ModelCatalog.Commit

open FileTree

-- ── One text ──

theorem exists_temporaryPath? {tree : FileTree} {dir : Path} {names n : Nat} (hn : n < names)
    (hfree : (tree.find (dir.child (temporaryName n))).isOk = false) :
    ∃ p, tree.temporaryPath? dir names = some p := by
  induction names with
  | zero => exact absurd hn (Nat.not_lt_zero n)
  | succ names ih =>
      rw [temporaryPath?]
      by_cases htaken : (tree.find (dir.child (temporaryName names))).isOk = true
      · rw [if_pos htaken]
        refine ih (Nat.lt_of_le_of_ne (Nat.le_of_lt_succ hn) fun heq => ?_)
        rw [heq, htaken] at hfree
        cases hfree
      · exact ⟨_, if_neg htaken⟩

theorem noNul_temporaryName (n : Nat) : RawText.nul ∉ (temporaryName n).bytes := by
  obtain ⟨digits, hname, hdigits, -⟩ := temporaryName_eq n
  rw [hname, RawText.nul_mem_ofString, String.toList_ofList, List.mem_append, not_or]
  exact ⟨by decide, fun hmem => absurd (hdigits _ hmem) (by decide)⟩

/-- All names for temporary files can be followed, if one of them can. -/
theorem locate_temporary {tree other : FileTree} {dir : Path} {n k : Nat} {l : Location}
    (hn : n < temporaryNames) (hk : k < temporaryNames) (hdir : tree.isDirectory dir = true)
    (h : other.locate (dir.child (temporaryName n)) = .ok l) :
    ∃ l', tree.locate (dir.child (temporaryName k)) = .ok l' := by
  have hsize : ∀ {m}, m < temporaryNames → (temporaryName m).size = 10 := fun hm =>
    size_temporaryName (Nat.lt_of_lt_of_le hm (by decide))
  have hslash : ∀ m, RawText.slash ∉ (temporaryName m).bytes := fun m => (temporaryName_spec m).1
  refine locate_child_of_isSound (hslash k) hdir ?_ (by rw [hsize hk]; decide)
  exact isSound_child_congr (hslash n) (hslash k) (noNul_temporaryName k)
    ((hsize hk).trans (hsize hn).symm) (locate_eq_ok.1 h).1

/-- Nothing that is in the way of a text in one tree is missing in the other, but for the generated
    files. -/
structure NoHarder (dir : Path) (tree later : FileTree) : Prop where
  isDirectory : tree.isDirectory dir = true
  isDirectory_later : later.isDirectory dir = true
  keepsDirectories : KeepsDirectories tree later
  temporary : ∀ n, tree.node? (location dir ++ [temporaryName n]) ≠ none →
    later.node? (location dir ++ [temporaryName n]) ≠ none

namespace NoHarder

variable {dir : Path} {tree later : FileTree}

theorem temporaryFault? (h : NoHarder dir tree later)
    (hnone : Commit.temporaryFault? later dir = none) : Commit.temporaryFault? tree dir = none := by
  rw [Commit.temporaryFault?] at hnone ⊢
  cases hlater : later.temporaryPath? dir temporaryNames with
  | none =>
      rw [hlater] at hnone
      cases hnone
  | some p =>
      rw [hlater] at hnone
      obtain ⟨⟨n, hn⟩, hfree⟩ := find_of_temporaryPath? hlater
      obtain ⟨hslash, hidle, hup, -⟩ := temporaryName_spec n
      have hchild := locate_child_congr hslash h.isDirectory h.isDirectory_later
      rw [hn.2] at hnone hfree
      cases hlocate : later.locate (dir.child (temporaryName n)) with
      | error fault =>
          dsimp only at hnone
          rw [hlocate] at hnone
          cases hnone
      | ok l =>
          -- the name is free in this tree, too
          have hl : location dir ++ [temporaryName n] = l := by
            rw [← location_child hslash hidle hup, location_of_locate hlocate]
          have hfree' : (tree.find (dir.child (temporaryName n))).isOk = false := by
            rw [find, ← hchild, hlocate, ok_bind]
            cases hnode : tree.node? l with
            | none => rfl
            | some m =>
                have hthere := h.temporary n
                rw [hl, hnode] at hthere
                obtain ⟨m', hm'⟩ := Option.ne_none_iff_exists'.1 (hthere (by simp))
                rw [find, hlocate, ok_bind, hm'] at hfree
                cases hfree
          obtain ⟨q, hq⟩ := exists_temporaryPath? hn.1 hfree'
          obtain ⟨⟨k, hk⟩, -⟩ := find_of_temporaryPath? hq
          obtain ⟨l', hl'⟩ := locate_temporary hn.1 hk.1 h.isDirectory hlocate
          rw [hq]
          dsimp only
          rw [hk.2, hl']
          rfl

theorem writeFault? {name : RawText} (h : NoHarder dir tree later) (hslash : RawText.slash ∉ name.bytes)
    (hnone : later.writeFault? (dir.child name) = none) :
    tree.writeFault? (dir.child name) = none := by
  rw [writeFault?_eq_none] at hnone ⊢
  refine ⟨?_, fun hdir => hnone.notDirectory (h.keepsDirectories _ hdir)⟩
  rw [← locate_child_congr hslash h.isDirectory h.isDirectory_later]
  exact hnone.locate

theorem textFault? {path : Path} {name : RawText} (h : NoHarder dir tree later)
    (hpath : path = dir.child name) (hdirectory : directory path = dir)
    (hslash : RawText.slash ∉ name.bytes) (hnone : Commit.textFault? later path (fun _ => none) = none) :
    Commit.textFault? tree path (fun _ => none) = none := by
  rw [Commit.textFault?, hdirectory] at hnone ⊢
  simp only [Option.none_or, Option.or_eq_none_iff] at hnone ⊢
  rw [hpath] at hnone ⊢
  exact ⟨h.temporaryFault? hnone.1, h.writeFault? hslash hnone.2⟩

/-- **The same text in both trees** leaves it so, as long as it goes into a generated file. -/
theorem changesAt {l : Location} {content : ByteArray} {after after' : FileTree}
    (h : NoHarder dir tree later) (hl : l.IsGenerated)
    (hdir : tree.node? l ≠ some .directory) (hdir' : later.node? l ≠ some .directory)
    (hchanges : ChangesAt l (some (.file content)) tree after)
    (hchanges' : ChangesAt l (some (.file content)) later after') : NoHarder dir after after' := by
  have hsame := hchanges.sameDirectories hdir (by simp)
  have hsame' := hchanges'.sameDirectories hdir' (by simp)
  refine ⟨isDirectory_of_keeps hsame.keepsDirectories h.isDirectory,
    isDirectory_of_keeps hsame'.keepsDirectories h.isDirectory_later,
    fun k hk => (hsame' k).2 (h.keepsDirectories k ((hsame k).1 hk)), fun n => ?_⟩
  have hne : location dir ++ [temporaryName n] ≠ l := by
    rintro rfl
    exact Location.not_isGenerated_concat (temporaryName_spec n).2.2.2 hl
  rw [hchanges, hchanges', if_neg hne, if_neg hne]
  exact h.temporary n

end NoHarder

-- ── A batch ──

/-- The files of a batch have the names of generated ones. -/
def AreGenerated (batch : List RenderedFile) : Prop :=
  ∀ file ∈ batch, (location file.path).IsGenerated

section Batch

variable {dir p : Path} {batch : List RenderedFile} {tree later : FileTree}

/-- The files of a batch are written if they can be written later. -/
theorem writeAll_of_noHarder (hbatch : InDirectory dir batch) (hnames : AreGenerated batch)
    (h : NoHarder dir tree later) (before before' : List Snapshot) (done done' : List Path)
    (hlater : (writeAll {} before' done' batch later).2.isOk = true) :
    (writeAll {} before done batch tree).2.isOk = true := by
  induction batch generalizing done done' tree later with
  | nil => rfl
  | cons file rest ih =>
      have hfile := hbatch.directory_eq List.mem_cons_self
      obtain ⟨name, hpath, hslash, -, -⟩ := hbatch.name file List.mem_cons_self
      have hchild : file.path = (directory file.path).child name := by rw [hfile, hpath]
      have hwrite := writeText_eq file.content (fun _ => none) hchild hslash (hfile ▸ h.isDirectory)
      have hwrite' := writeText_eq file.content (fun _ => none) hchild hslash
        (hfile ▸ h.isDirectory_later)
      rw [writeAll] at hlater ⊢
      rw [show ({} : Disk).refusesFile done' file.path = fun _ => none from rfl] at hlater
      rw [show ({} : Disk).refusesFile done file.path = fun _ => none from rfl]
      rcases writeText_spec later file.path file.content fun _ => none with
        ⟨after', hrun', hwritable', hchanges'⟩ | ⟨after', error', hrun', -⟩
      · have hnone' : Commit.textFault? later file.path (fun _ => none) = none := by
          rw [hrun'] at hwrite'
          cases hfault : Commit.textFault? later file.path fun _ => none with
          | none => rfl
          | some fault =>
              rw [hfault] at hwrite'
              cases hwrite'
        rw [h.textFault? hpath hfile hslash hnone'] at hwrite
        rcases writeText_spec tree file.path file.content fun _ => none with
          ⟨after, hrun, hwritable, hchanges⟩ | ⟨after, error, hrun, -⟩
        · rw [hrun'] at hlater
          rw [hrun]
          exact ih hbatch.of_cons (fun f hf => hnames f (List.mem_cons_of_mem _ hf))
            (h.changesAt (hnames file List.mem_cons_self) hwritable.notDirectory
              hwritable'.notDirectory hchanges hchanges') _ _ hlater
        · rw [hrun] at hwrite
          cases hwrite
      · rw [hrun'] at hlater
        cases hlater

/-- Where the directories of a batch are made is on the way of its directory. -/
theorem InDirectory.visited_of_batchPlaces (h : InDirectory dir batch) {l : Location}
    (hl : BatchPlaces batch l) : l ∈ visited (start dir) dir.pieces := by
  obtain ⟨file, hfile, parent, hparent, q, hq, hne, rfl⟩ := hl
  obtain rfl : dir = parent := Option.some.inj ((h.parent file hfile).symm.trans hparent)
  obtain ⟨first, reversed, hslash, rfl⟩ := exists_ofReversed hparent h.nonempty
  rw [ancestors_ofReversed hslash] at hq
  exact mem_visited_of_mem_chain hslash hne hq

/-- When its directory has been made in both, a batch meets no more in a tree than it does later. -/
theorem noHarder_of_develops {made made' : FileTree} (hbatch : InDirectory dir batch)
    (h : Develops p tree later) (hgrows : GrowsBy (BatchPlaces batch) tree made)
    (hgrows' : GrowsBy (BatchPlaces batch) later made') (hdir : made.isDirectory dir = true)
    (hdir' : made'.isDirectory dir = true) : NoHarder dir made made' := by
  have hway : ∀ v ∈ visited (start dir) dir.pieces, made'.node? v = some .directory := by
    obtain ⟨hlocate, hl⟩ := isDirectory_eq_true.1 hdir'
    exact (directories_of_follow (locate_eq_ok.1 hlocate).2 hl).1
  refine ⟨hdir, hdir', fun l hl => ?_, fun n hn => ?_⟩
  · rcases hgrows l with hsame | ⟨-, -, hplace⟩
    · exact hgrows'.keepsDirectories l (h.keepsDirectories l (hsame ▸ hl))
    · exact hway l (hbatch.visited_of_batchPlaces hplace)
  · rcases hgrows (location dir ++ [temporaryName n]) with hsame | ⟨-, -, hplace⟩
    · obtain ⟨m, hm⟩ := Option.ne_none_iff_exists'.1 (hsame ▸ hn)
      have hlater := h.node?_of_some
        (Location.not_isGenerated_concat (temporaryName_spec n).2.2.2) hm
      rw [hgrows'.node?_of_some hlater]
      exact Option.some_ne_none m
    · rw [hway _ (hbatch.visited_of_batchPlaces hplace)]
      exact Option.some_ne_none _

theorem exists_snapshots (batch : List RenderedFile) (tree : FileTree) :
    ∃ before, snapshots {} tree batch = .ok before := by
  induction batch with
  | nil => exact ⟨[], rfl⟩
  | cons file rest ih =>
      obtain ⟨before, hbefore⟩ := ih
      rw [snapshots]
      split
      · rw [hbefore]
        exact ⟨_, rfl⟩
      · exact ⟨before, hbefore⟩

/-- Whatever becomes of a batch, it adds its directories, and changes only files. -/
theorem commit_frame (hnames : AreGenerated batch) (tree : FileTree) :
    ∃ made, GrowsBy (BatchPlaces batch) tree made ∧
      SameDirectories made (commit batch false tree {}).1 ∧
      ∀ l, ¬ l.IsGenerated → (commit batch false tree {}).1.node? l = made.node? l := by
  obtain ⟨made, hgrows, hends⟩ := commit_spec batch tree {}
  refine ⟨made, hgrows, ?_⟩
  rcases hends with ⟨after, hrun, hover⟩ | ⟨after, error, hrun, hback⟩
  · rw [hrun]
    refine ⟨hover.sameDirectories, fun l hl => (hover.node?_or l).resolve_right ?_⟩
    rintro ⟨file, hfile, rfl⟩
    exact hl (hnames file hfile)
  · rw [hrun]
    refine ⟨hback.sameDirectories, fun l hl => hback.node? l ?_⟩
    rintro file hfile rfl
    exact absurd (hnames file hfile) hl

section Child

variable {name : RawText} (hslash : RawText.slash ∉ name.bytes)
include hslash

/-- What blocks the way to the modules blocks a batch, which then leaves nothing but directories. -/
theorem commit_of_blocked (hbatch : InDirectory (p.child name) batch) (hne : batch ≠ [])
    {v : Location} (hv : v ∈ visited (start p) p.pieces) (hfile : tree.file? v ≠ none) :
    GrowsBy (BatchPlaces batch) tree (commit batch false tree {}).1 := by
  have hgrows := growsBy_makeParents {} batch tree
  have hquiet : ∀ tree p, ({} : Disk).refusesDirectory tree p = none := fun _ _ => rfl
  have hmakes := (hbatch.makeParents_spec hne hquiet tree).1
  rcases commit_cases batch tree {} with
    ⟨error, -, hrun⟩ | ⟨before, -, ⟨made, error, hmade, hrun⟩ | ⟨made, hmade, -⟩⟩
  · rw [hrun]
    exact GrowsBy.refl _ tree
  · rw [hrun]
    rwa [hmade] at hgrows
  · rw [hmade] at hmakes
    exact absurd ((hmakes.1 rfl).clear v ((mem_visited_child hslash p).2 (Or.inl hv))) hfile

/-- **A batch lets a tree develop**, whether or not it lands. -/
theorem develops_commit (hbatch : InDirectory (p.child name) batch) (hne : batch ≠ [])
    (hnames : AreGenerated batch) (dryRun : Bool) (tree : FileTree) :
    Develops p tree (commit batch dryRun tree {}).1 := by
  cases dryRun with
  | true =>
      rw [commit_dryRun]
      exact Develops.refl p tree
  | false =>
      obtain ⟨made, hgrows, hdirectories, hsame⟩ := commit_frame hnames tree
      have hmade : Develops p tree made := .of_growsBy hgrows
      refine ⟨hgrows.keepsDirectories.trans hdirectories.keepsDirectories, fun l hl => ?_,
        fun v hv hfile => ?_⟩
      · rw [hsame l hl]
        exact hmade.elsewhere l hl
      · exact (Develops.of_growsBy (commit_of_blocked hslash hbatch hne hv hfile)).blocks v hv hfile

/-- What can be made a directory later can be made one now. -/
theorem canBeMade_of_develops (hname : ¬ (location (p.child name)).IsGenerated)
    (h : Develops p tree later) (hcan : CanBeMade later (p.child name)) :
    CanBeMade tree (p.child name) := by
  refine ⟨hcan.sound, hcan.short, fun v hv => ?_⟩
  have hclear := hcan.clear v hv
  cases hfile : tree.file? v with
  | none => rfl
  | some content =>
      rcases (mem_visited_child hslash p).1 hv with hway | rfl
      · exact absurd hclear (h.blocks v hway (by simp [hfile]))
      · have hthere := h.node?_of_some hname (file?_eq_some.1 hfile)
        rw [file?_eq_some.2 hthere] at hclear
        cases hclear

/-- **What can be written later can be written now.** -/
theorem commit_of_develops (hname : ¬ (location (p.child name)).IsGenerated)
    (hbatch : InDirectory (p.child name) batch) (hne : batch ≠ []) (hnames : AreGenerated batch)
    (dryRun : Bool) (h : Develops p tree later)
    (hlater : (commit batch dryRun later {}).2.isOk = true) :
    (commit batch dryRun tree {}).2.isOk = true := by
  obtain ⟨before, hbefore⟩ := exists_snapshots batch tree
  obtain ⟨before', hbefore'⟩ := exists_snapshots batch later
  rw [commit, hbefore]
  rw [commit, hbefore'] at hlater
  dsimp only at hlater ⊢
  cases dryRun with
  | true => rfl
  | false =>
      rw [if_neg Bool.false_ne_true] at hlater ⊢
      have hquiet : ∀ tree p, ({} : Disk).refusesDirectory tree p = none := fun _ _ => rfl
      have hmakes := hbatch.makeParents_spec hne hquiet
      obtain ⟨hiff, hmade, -⟩ := hmakes tree
      obtain ⟨hiff', hmade', -⟩ := hmakes later
      have hgrows := growsBy_makeParents {} batch tree
      have hgrows' := growsBy_makeParents {} batch later
      rcases hrun' : makeParents {} batch later with ⟨made', error | ⟨⟨⟩⟩⟩
      · rw [hrun'] at hlater
        cases hlater
      · rw [hrun'] at hlater hiff' hmade' hgrows'
        have hok := hiff.2 (canBeMade_of_develops hslash hname h (hiff'.1 rfl))
        rcases hrun : makeParents {} batch tree with ⟨made, error | ⟨⟨⟩⟩⟩
        · rw [hrun] at hok
          cases hok
        · rw [hrun] at hmade hgrows
          have hnoHarder := noHarder_of_develops hbatch h hgrows hgrows' (hmade rfl) (hmade' rfl)
          exact writeAll_of_noHarder hbatch hnames hnoHarder before before' [] [] hlater

end Child

end Batch

end ModelCatalog.Commit
