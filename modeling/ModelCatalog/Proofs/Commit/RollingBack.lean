import ModelCatalog.Commit
import ModelCatalog.Proofs.FileTree.Changing
import ModelCatalog.Proofs.FileTree.Locations

/-! # Taking a batch back

    A batch that fails is taken back path by path, the last one first.  Undoing a path leaves at its
    location what the snapshots have saved for it, or nothing if they have nothing (`changesAt_undo`),
    and touches no other location.  So the path that is undone last decides, which is the first that
    has been written to a location (`node?_rollBack_eq`).  What makes this right is one relation
    between the snapshots and the tree at the moment when the writing starts: for a path they hold the
    file that stands there, or nothing stands there (`Recorded`).  Then `rollBack` brings back what
    stood at each location to which only recorded paths lead (`node?_rollBack`). -/

namespace ModelCatalog.Commit

open FileTree

/-- The snapshots tell what stands where a path leads: a file with the content that they hold, or
    nothing. -/
def Recorded (before : List Snapshot) (tree : FileTree) (p : Path) : Prop :=
  match before.find? (·.path.same p) with
  | some snapshot => tree.node? (location p) = some (.file snapshot.content)
  | none => tree.node? (location p) = none

/-- The content that the snapshots have for a path. -/
def saved? (before : List Snapshot) (p : Path) : Option ByteArray :=
  (before.find? (·.path.same p)).map (·.content)

theorem recorded_iff {before : List Snapshot} {tree : FileTree} {p : Path} :
    Recorded before tree p ↔ tree.node? (location p) = (saved? before p).map .file := by
  rw [Recorded, saved?]
  cases before.find? (·.path.same p) <;> exact Iff.rfl

-- ── Snapshots ──

/-- The snapshot of a file, if it can be found. -/
def snapshot? (tree : FileTree) (file : RenderedFile) : Option Snapshot :=
  match tree.find file.path with
  | .ok (.file content) => some ⟨file.path, content⟩
  | _ => none

theorem snapshot?_eq_some {tree : FileTree} {file : RenderedFile} {s : Snapshot} :
    snapshot? tree file = some s ↔
      file.path = s.path ∧ tree.find s.path = .ok (.file s.content) := by
  rw [snapshot?]
  constructor
  · intro h
    split at h
    · next content hfind =>
      obtain rfl := Option.some.inj h
      exact ⟨rfl, hfind⟩
    · exact nomatch h
  · rintro ⟨hpath, hfind⟩
    rw [hpath, hfind]

/-- If there are snapshots, then of all files of the batch that can be found. -/
theorem snapshots_eq_filterMap {disk : Disk} {tree : FileTree} {batch : List RenderedFile}
    {before : List Snapshot} (h : snapshots disk tree batch = .ok before) :
    before = batch.filterMap (snapshot? tree) := by
  induction batch generalizing before with
  | nil => exact (Except.ok.inj h).symm
  | cons file rest ih =>
      rw [snapshots] at h
      split at h
      · next content hfind =>
        split at h
        · exact nomatch h
        · obtain ⟨others, hrest, rfl⟩ := map_eq_ok.1 h
          have hfile : snapshot? tree file = some ⟨file.path, content⟩ :=
            snapshot?_eq_some.2 ⟨rfl, hfind⟩
          rw [List.filterMap_cons_some hfile, ih hrest]
      · next hnone =>
        have hfile : snapshot? tree file = none := by
          refine Option.eq_none_iff_forall_ne_some.2 fun s hs => ?_
          obtain ⟨hpath, hfind⟩ := snapshot?_eq_some.1 hs
          exact hnone s.content (hpath ▸ hfind)
        rw [List.filterMap_cons_none hfile, ih h]

theorem mem_snapshots {disk : Disk} {tree : FileTree} {batch : List RenderedFile}
    {before : List Snapshot} (h : snapshots disk tree batch = .ok before) {s : Snapshot} :
    s ∈ before ↔
      (∃ file ∈ batch, file.path = s.path) ∧ tree.find s.path = .ok (.file s.content) := by
  rw [snapshots_eq_filterMap h, List.mem_filterMap]
  constructor
  · rintro ⟨file, hfile, hs⟩
    obtain ⟨hpath, hfind⟩ := snapshot?_eq_some.1 hs
    exact ⟨⟨file, hfile, hpath⟩, hfind⟩
  · rintro ⟨⟨file, hfile, hpath⟩, hfind⟩
    exact ⟨file, hfile, snapshot?_eq_some.2 ⟨hpath, hfind⟩⟩

theorem exists_of_saved {before : List Snapshot} {p : Path} {content : ByteArray}
    (h : saved? before p = some content) : ∃ s ∈ before, s.path.same p = true ∧ s.content = content := by
  obtain ⟨s, hs, rfl⟩ := Option.map_eq_some_iff.1 h
  exact ⟨s, List.mem_of_find?_eq_some hs, by simpa using List.find?_some hs, rfl⟩

section Saved

variable {disk : Disk} {tree : FileTree} {batch : List RenderedFile} {before : List Snapshot}
  (h : snapshots disk tree batch = .ok before)

include h

/-- What is saved for a path is what a path with its components has found. -/
theorem find_of_saved {p : Path} {content : ByteArray} (hsaved : saved? before p = some content) :
    ∃ q : Path, q.same p = true ∧ tree.find q = .ok (.file content) ∧
      tree.node? (location p) = some (.file content) := by
  obtain ⟨s, hmem, hsame, rfl⟩ := exists_of_saved hsaved
  have hfind := ((mem_snapshots h).1 hmem).2
  obtain ⟨l, hlocate, hl⟩ := find_eq_ok.1 hfind
  obtain rfl := location_of_locate hlocate
  exact ⟨s.path, hsame, hfind, location_of_same hsame ▸ hl⟩

/-- **A file that is found has its content saved.** -/
theorem saved_of_find {file : RenderedFile} (hfile : file ∈ batch) {content : ByteArray}
    (hfind : tree.find file.path = .ok (.file content)) :
    saved? before file.path = some content := by
  have hmem : ⟨file.path, content⟩ ∈ before := (mem_snapshots h).2 ⟨⟨file, hfile, rfl⟩, hfind⟩
  cases hsaved : saved? before file.path with
  | none =>
      rw [saved?, Option.map_eq_none_iff] at hsaved
      exact absurd (same_refl file.path) (List.find?_eq_none.1 hsaved _ hmem)
  | some other =>
      -- an earlier path with the same components leads to the same file
      obtain ⟨-, -, -, hother⟩ := find_of_saved h hsaved
      obtain ⟨l, hlocate, hl⟩ := find_eq_ok.1 hfind
      obtain rfl := location_of_locate hlocate
      rw [Node.file.inj (Option.some.inj (hother.symm.trans hl))]

/-- The snapshots record every path of the batch that can be written when the directories have been
    made, as long as a file that stands there could be found before. -/
theorem recorded_of_snapshots {made : FileTree} {places : Location → Prop}
    (hgrows : GrowsBy places tree made) {file : RenderedFile} (hfile : file ∈ batch)
    (hwritable : Writable made file.path)
    (hfound : ∀ content, tree.node? (location file.path) = some (.file content) →
      tree.find file.path = .ok (.file content)) :
    Recorded before made file.path := by
  rw [recorded_iff]
  cases hsaved : saved? before file.path with
  | some content =>
      obtain ⟨-, -, -, hnode⟩ := find_of_saved h hsaved
      exact hgrows.node?_of_some hnode
  | none =>
      cases hnode : made.node? (location file.path) with
      | none => rfl
      | some n =>
          cases n with
          | directory => exact absurd hnode hwritable.notDirectory
          | file content =>
              -- the file stood there before, so its content has been saved
              have hcontent : tree.file? (location file.path) = some content :=
                (hgrows.file?_eq _).symm.trans (file?_eq_some.2 hnode)
              rw [saved_of_find h hfile (hfound content (file?_eq_some.1 hcontent))] at hsaved
              cases hsaved

end Saved

-- ── Undoing ──

/-- **Undoing a path** leaves what is saved for it at its location, and changes nothing else. -/
theorem changesAt_undo (before : List Snapshot) {tree : FileTree} {p : Path}
    (hwritable : Writable tree p) :
    ChangesAt (location p) ((saved? before p).map .file) tree (undo before tree p) := by
  rw [undo, saved?]
  cases before.find? (·.path.same p) with
  | some s =>
      obtain ⟨after, hwrite⟩ := hwritable.write s.content
      simp only [hwrite, Except.toOption, Option.getD_some]
      exact (writes_of_write hwrite).2
  | none => exact changesAt_discard hwritable

theorem rollBack_cons (before : List Snapshot) (p : Path) (rest : List Path) (tree : FileTree) :
    rollBack before (p :: rest) tree = undo before (rollBack before rest tree) p := by
  rw [rollBack, List.reverse_cons, List.foldl_append]
  rfl

section Undoing

variable {before : List Snapshot} {made : FileTree}

theorem sameDirectories_undo {tree : FileTree} {p : Path} (hp : Writable made p)
    (h : SameDirectories made tree) : SameDirectories made (undo before tree p) := by
  have hnow : Writable tree p := h.writable_iff.2 hp
  exact h.trans ((changesAt_undo before hnow).sameDirectories hnow.notDirectory (by simp))

theorem sameDirectories_rollBack {tree : FileTree} {done : List Path}
    (hdone : ∀ p ∈ done, Writable made p) (h : SameDirectories made tree) :
    SameDirectories made (rollBack before done tree) := by
  induction done with
  | nil => exact h
  | cons p rest ih =>
      obtain ⟨hp, hrest⟩ := List.forall_mem_cons.1 hdone
      rw [rollBack_cons]
      exact sameDirectories_undo hp (ih hrest)

/-- **The first path decides** what stands at a location when all have been undone. -/
theorem node?_rollBack_eq {tree : FileTree} {done : List Path}
    (hdone : ∀ p ∈ done, Writable made p) (h : SameDirectories made tree) (l : Location) :
    (rollBack before done tree).node? l =
      match done.find? fun p => decide (location p = l) with
      | some first => (saved? before first).map .file
      | none => tree.node? l := by
  induction done with
  | nil => rfl
  | cons p rest ih =>
      obtain ⟨hp, hrest⟩ := List.forall_mem_cons.1 hdone
      have hnow : Writable (rollBack before rest tree) p :=
        (sameDirectories_rollBack hrest h).writable_iff.2 hp
      rw [rollBack_cons, changesAt_undo before hnow l]
      by_cases hl : location p = l
      · rw [if_pos hl.symm, List.find?_cons_of_pos (by simp [hl])]
      · rw [if_neg fun heq => hl heq.symm, List.find?_cons_of_neg (by simp [hl]), ih hrest]

end Undoing

/-- **Rolling back brings back what stood at a location**, if the paths that lead there are recorded;
    and the directories stay. -/
theorem node?_rollBack (before : List Snapshot) {made tree : FileTree} {done : List Path}
    (hdone : ∀ p ∈ done, Writable made p) (h : SameDirectories made tree)
    (hothers : ∀ l, tree.node? l = made.node? l ∨ ∃ p ∈ done, location p = l) :
    SameDirectories made (rollBack before done tree) ∧
      ∀ l, (∀ p ∈ done, location p = l → Recorded before made p) →
        (rollBack before done tree).node? l = made.node? l := by
  refine ⟨sameDirectories_rollBack hdone h, fun l hrecorded => ?_⟩
  rw [node?_rollBack_eq hdone h]
  cases hfirst : done.find? fun p => decide (location p = l) with
  | some first =>
      have hl : location first = l := by simpa using List.find?_some hfirst
      rw [← hl]
      exact (recorded_iff.1 (hrecorded first (List.mem_of_find?_eq_some hfirst) hl)).symm
  | none =>
      refine (hothers l).resolve_right ?_
      rintro ⟨p, hp, hl⟩
      exact absurd hl (by simpa using List.find?_eq_none.1 hfirst p hp)

end ModelCatalog.Commit
