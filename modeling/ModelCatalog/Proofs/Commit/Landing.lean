import ModelCatalog.Proofs.Commit.RollingBack

/-! # Writing a batch

    While a batch is written, the tree is at any moment the one whose directories were made, with
    the files that are done laid over it: at each location stands the last of them (`Overlay`).
    Writing one text lays one file over, or leaves no trace (`writeText_spec`, `Overlay.append`).
    `writeAll_spec` is the run: either every file of the batch is laid over, or the tree is taken
    back to what it was when the directories had been made. -/

namespace ModelCatalog.Commit

open FileTree

-- ── The last file of a batch ──

def lastAt (batch : List RenderedFile) (l : Location) : Option RenderedFile :=
  (batch.filter fun file => decide (location file.path = l)).getLast?

theorem lastAt_append (batch : List RenderedFile) (file : RenderedFile) (l : Location) :
    lastAt (batch ++ [file]) l =
      if l = location file.path then some file else lastAt batch l := by
  rw [lastAt, List.filter_append]
  by_cases h : l = location file.path
  · rw [if_pos h, List.filter_cons, if_pos (by simp [h]), List.filter_nil, List.getLast?_concat]
  · rw [if_neg h, List.filter_cons, if_neg (by simpa using fun heq => h heq.symm), List.filter_nil,
      List.append_nil]
    rfl

theorem exists_lastAt {batch : List RenderedFile} {file : RenderedFile} (h : file ∈ batch) :
    ∃ last ∈ batch, lastAt batch (location file.path) = some last := by
  have hmem : file ∈ batch.filter fun f => decide (location f.path = location file.path) :=
    List.mem_filter.2 ⟨h, by simp⟩
  have hlast := List.getLast?_eq_some_getLast (List.ne_nil_of_mem hmem)
  exact ⟨_, (List.mem_filter.1 (List.mem_of_getLast? hlast)).1, hlast⟩

/-- A file that is the last at some location is one of the batch, and leads there. -/
theorem mem_of_lastAt {batch : List RenderedFile} {l : Location} {file : RenderedFile}
    (h : lastAt batch l = some file) : file ∈ batch ∧ location file.path = l := by
  have hmem := List.mem_filter.1 (List.mem_of_getLast? h)
  exact ⟨hmem.1, by simpa using hmem.2⟩

-- ── Files over a tree ──

/-- A tree with files laid over it, each of which could be written. -/
structure Overlay (made : FileTree) (done : List RenderedFile) (tree : FileTree) : Prop where
  writable : ∀ file ∈ done, Writable made file.path
  node? : ∀ l, tree.node? l = match lastAt done l with
    | some file => some (.file file.content.toUTF8)
    | none => made.node? l

namespace Overlay

variable {made tree after : FileTree} {done : List RenderedFile}

theorem nil (tree : FileTree) : Overlay tree [] tree :=
  ⟨fun _ h => (List.not_mem_nil h).elim, fun _ => rfl⟩

theorem node?_or (h : Overlay made done tree) (l : Location) :
    tree.node? l = made.node? l ∨ ∃ file ∈ done, location file.path = l := by
  rw [h.node? l]
  cases hlast : lastAt done l with
  | none => exact Or.inl rfl
  | some file => exact Or.inr ⟨file, mem_of_lastAt hlast⟩

theorem sameDirectories (h : Overlay made done tree) : SameDirectories made tree := by
  intro l
  rw [h.node? l]
  cases hlast : lastAt done l with
  | none => rfl
  | some file =>
      obtain ⟨hmem, rfl⟩ := mem_of_lastAt hlast
      exact iff_of_false (by simp) (h.writable file hmem).notDirectory

/-- The files can also be laid over a tree that cannot be told from the one above. -/
theorem congr (h : Overlay made done tree) (hsame : ∀ l, after.node? l = tree.node? l) :
    Overlay made done after :=
  ⟨h.writable, fun l => (hsame l).trans (h.node? l)⟩

/-- **The step**: one more file is laid over. -/
theorem append {file : RenderedFile} (h : Overlay made done tree)
    (hwritable : Writable tree file.path)
    (hwrites : ChangesAt (location file.path) (some (.file file.content.toUTF8)) tree after) :
    Overlay made (done ++ [file]) after := by
  refine ⟨fun f hf => ?_, fun k => ?_⟩
  · rcases List.mem_append.1 hf with hf | hf
    · exact h.writable f hf
    · obtain rfl : f = file := List.mem_singleton.1 hf
      exact h.sameDirectories.writable_iff.1 hwritable
  · rw [hwrites k, lastAt_append]
    by_cases hk : k = location file.path
    · rw [if_pos hk, if_pos hk]
    · rw [if_neg hk, if_neg hk]
      exact h.node? k

end Overlay

-- ── The run ──

/-- What happens when a text is written: it stands where the path leads, or the tree cannot be told
    from what it was, at whichever step it failed. -/
theorem writeText_spec (tree : FileTree) (path : Path) (text : String)
    (refused : WriteStep → Option FileFault) :
    (∃ after, writeText tree path text refused = (after, .ok ()) ∧ Writable tree path ∧
      ChangesAt (location path) (some (.file text.toUTF8)) tree after) ∨
    ∃ after error, writeText tree path text refused = (after, .error error) ∧
      ∀ l, after.node? l = tree.node? l := by
  rw [writeText]
  cases hmake : unlessRefused (refused .make) (tree.makeTemporary (directory path)) with
  | error fault => exact Or.inr ⟨tree, _, rfl, fun _ => rfl⟩
  | ok result =>
      obtain ⟨temporary, made⟩ := result
      have hmade : Filled tree made temporary .empty :=
        Filled.of_make (make_of_makeTemporary (eq_ok_of_unlessRefused hmake))
      dsimp only
      cases hfill : unlessRefused (refused .fill) (made.write temporary text.toUTF8) with
      | error fault => exact Or.inr ⟨_, _, rfl, hmade.node?_discard⟩
      | ok filled =>
          have hfilled : Filled tree filled temporary text.toUTF8 :=
            hmade.write (eq_ok_of_unlessRefused hfill)
          dsimp only
          cases hmove : unlessRefused (refused .move) (filled.move temporary path) with
          | error fault => exact Or.inr ⟨_, _, rfl, hfilled.node?_discard⟩
          | ok after =>
              exact Or.inl ⟨after, rfl, hfilled.writes_of_move (eq_ok_of_unlessRefused hmove)⟩

/-- **The run**: from a tree with some files laid over, either the others are laid over, too, or all
    are taken back from where the snapshots tell what stood before. -/
theorem writeAll_spec (disk : Disk) {before : List Snapshot} {made : FileTree} :
    ∀ (batch done : List RenderedFile) (tree : FileTree), Overlay made done tree →
      (∃ after, writeAll disk before (done.map (·.path)) batch tree
          = (after, .ok ((done ++ batch).map (·.path))) ∧ Overlay made (done ++ batch) after) ∨
      ∃ after error, writeAll disk before (done.map (·.path)) batch tree = (after, .error error) ∧
        SameDirectories made after ∧
        ∀ l, (∀ file ∈ done ++ batch, location file.path = l → Writable made file.path →
          Recorded before made file.path) → after.node? l = made.node? l := by
  intro batch
  induction batch with
  | nil =>
      intro done tree h
      rw [List.append_nil]
      exact Or.inl ⟨tree, rfl, h⟩
  | cons file rest ih =>
      intro done tree h
      rw [writeAll]
      rcases writeText_spec tree file.path file.content
        (disk.refusesFile (done.map (·.path)) file.path) with
        ⟨after, hwrite, hwritable, hwrites⟩ | ⟨after, error, hwrite, hsame⟩
      · rw [hwrite]
        have hrun := ih (done ++ [file]) after (h.append hwritable hwrites)
        rw [List.append_assoc, List.map_append] at hrun
        exact hrun
      · rw [hwrite]
        have hafter : Overlay made done after := h.congr hsame
        have hdone : ∀ p ∈ done.map (·.path), Writable made p := by
          intro p hp
          obtain ⟨f, hf, rfl⟩ := List.mem_map.1 hp
          exact h.writable f hf
        obtain ⟨hdirectories, hback⟩ := node?_rollBack before hdone
          hafter.sameDirectories fun l => (hafter.node?_or l).imp_right fun ⟨f, hf, hl⟩ =>
            ⟨f.path, List.mem_map_of_mem hf, hl⟩
        refine Or.inr ⟨_, error, rfl, hdirectories, fun l hrecorded => hback l fun p hp hl => ?_⟩
        obtain ⟨f, hf, rfl⟩ := List.mem_map.1 hp
        exact hrecorded f (List.mem_append_left _ hf) hl (h.writable f hf)

end ModelCatalog.Commit
