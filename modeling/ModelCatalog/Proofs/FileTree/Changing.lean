import ModelCatalog.Proofs.FileTree.Growing

/-! # Changes at one location

    Writing, removing and making change what stands at one location (`ChangesAt`), and as long as no
    directory stood there or comes there, every path is followed as before (`SameDirectories`).
    `changesAt_discard` and `writes_of_write` are what taking back rests on.  `Filled` follows a
    temporary file from being made to being moved: at no step is there more to it than what stands
    under its name. -/

namespace ModelCatalog.FileTree

-- ── Directories that stay ──

/-- Two trees have the same directories. -/
def SameDirectories (before after : FileTree) : Prop :=
  ∀ l, after.node? l = some .directory ↔ before.node? l = some .directory

namespace SameDirectories

variable {before between after : FileTree}

theorem refl (tree : FileTree) : SameDirectories tree tree := fun _ => Iff.rfl

theorem trans (h : SameDirectories before between) (h' : SameDirectories between after) :
    SameDirectories before after :=
  fun l => (h' l).trans (h l)

theorem keepsDirectories (h : SameDirectories before after) : KeepsDirectories before after :=
  fun l hl => (h l).2 hl

theorem locate_eq_ok_iff (h : SameDirectories before after) {p : Path} {l : Location} :
    after.locate p = .ok l ↔ before.locate p = .ok l :=
  ⟨locate_of_keeps fun k hk => (h k).1 hk, locate_of_keeps h.keepsDirectories⟩

end SameDirectories

/-- A file can be written: the path can be followed, and it names no directory. -/
structure Writable (tree : FileTree) (p : Path) : Prop where
  locate : tree.locate p = .ok (location p)
  notDirectory : tree.node? (location p) ≠ some .directory

theorem SameDirectories.writable_iff {before after : FileTree} (h : SameDirectories before after)
    {p : Path} : Writable after p ↔ Writable before p := by
  constructor
  · intro hp
    exact ⟨h.locate_eq_ok_iff.1 hp.locate, fun hdir => hp.notDirectory ((h _).2 hdir)⟩
  · intro hp
    exact ⟨h.locate_eq_ok_iff.2 hp.locate, fun hdir => hp.notDirectory ((h _).1 hdir)⟩

-- ── One change ──

/-- A tree becomes another by what stands at one location. -/
def ChangesAt (l : Location) (n : Option Node) (before after : FileTree) : Prop :=
  ∀ k, after.node? k = if k = l then n else before.node? k

/-- Where no directory stood and none comes, a change leaves the directories as they are. -/
theorem ChangesAt.sameDirectories {l : Location} {n : Option Node} {before after : FileTree}
    (h : ChangesAt l n before after) (hbefore : before.node? l ≠ some .directory)
    (hn : n ≠ some .directory) : SameDirectories before after := by
  intro k
  rw [h k]
  by_cases hk : k = l
  · rw [if_pos hk, hk]
    exact iff_of_false hn hbefore
  · rw [if_neg hk]

theorem writes_of_write {tree after : FileTree} {p : Path} {content : ByteArray}
    (h : tree.write p content = .ok after) :
    Writable tree p ∧ ChangesAt (location p) (some (.file content)) tree after := by
  obtain ⟨l, hin, hdir, hlocate, rfl⟩ := write_eq_ok.1 h
  obtain rfl : location p = l := location_of_locate hlocate
  exact ⟨⟨hlocate, hdir⟩, node?_put hin hdir⟩

theorem Writable.write {tree : FileTree} {p : Path} (h : Writable tree p) (content : ByteArray) :
    ∃ after, tree.write p content = .ok after :=
  ⟨_, write_eq_ok.2 ⟨_, isInside_of_locate h.locate, h.notDirectory, h.locate, rfl⟩⟩

/-- Behind a path that can be written, nothing is left when it is removed. -/
theorem changesAt_discard {tree : FileTree} {p : Path} (h : Writable tree p) :
    ChangesAt (location p) none tree (tree.discard p) := by
  intro k
  by_cases hnone : tree.node? (location p) = none
  · -- nothing is there to remove: the removal fails, and nothing changes
    have hremove : (tree.remove p).toOption = none := by
      cases hr : tree.remove p with
      | error fault => rfl
      | ok after =>
          obtain ⟨l, hlocate, -, hsome, -⟩ := remove_eq_ok.1 hr
          rw [location_of_locate hlocate] at hnone
          exact absurd hnone hsome
    rw [discard, hremove, Option.getD_none]
    by_cases hk : k = location p
    · rw [if_pos hk, hk, hnone]
    · rw [if_neg hk]
  · have hremove : tree.remove p = .ok (tree.prune (location p)) :=
      remove_eq_ok.2 ⟨_, h.locate, h.notDirectory, hnone, rfl⟩
    rw [discard, hremove]
    exact node?_prune h.notDirectory k

theorem changesAt_of_make {tree after : FileTree} {p : Path} {n : Node}
    (h : tree.make p n = .ok after) :
    tree.locate p = .ok (location p) ∧ tree.node? (location p) = none ∧
      ChangesAt (location p) (some n) tree after := by
  obtain ⟨l, hin, hdir, hlocate, hnone, rfl⟩ := make_eq_ok.1 h
  obtain rfl : location p = l := location_of_locate hlocate
  exact ⟨hlocate, hnone, node?_put hin hdir⟩

-- ── Temporary files ──

theorem make_of_makeTemporary {tree made : FileTree} {directory p : Path}
    (h : tree.makeTemporary directory = .ok (p, made)) : tree.make p (.file .empty) = .ok made := by
  rw [makeTemporary] at h
  split at h
  · exact nomatch h
  · next q hq =>
    obtain ⟨made', hmake, hresult⟩ := map_eq_ok.1 h
    obtain ⟨rfl, rfl⟩ := Prod.mk.inj hresult
    exact hmake

/-- A file that is moved stands where the second path leads, and no longer where the first does. -/
theorem moves_of_move {tree after : FileTree} {source target : Path} {content : ByteArray}
    (hsource : Writable tree source) (hfile : tree.node? (location source) = some (.file content))
    (h : tree.move source target = .ok after) :
    Writable tree target ∧ ∀ k, after.node? k =
      if k = location target then some (.file content)
      else if k = location source then none else tree.node? k := by
  have hfind : tree.find source = .ok (.file content) :=
    find_eq_ok.2 ⟨_, hsource.locate, hfile⟩
  rw [move, hfind] at h
  dsimp only at h
  split at h
  · exact nomatch h
  · next written hwrite =>
    obtain ⟨htarget, hchanges⟩ := writes_of_write hwrite
    refine ⟨htarget, fun k => ?_⟩
    by_cases hsame : location source = location target
    · rw [if_pos hsame] at h
      rw [← Except.ok.inj h, hchanges k, hsame]
      by_cases hk : k = location target
      · rw [if_pos hk, if_pos hk]
      · rw [if_neg hk, if_neg hk, if_neg hk]
    · rw [if_neg hsame] at h
      obtain ⟨l, hlocate, hdir, -, rfl⟩ := remove_eq_ok.1 h
      obtain rfl : location source = l := location_of_locate hlocate
      rw [node?_prune hdir, hchanges k]
      by_cases hk : k = location source
      · rw [if_pos hk, if_neg (hk ▸ hsame), if_pos hk]
      · rw [if_neg hk, if_neg hk]

/-- What is filled under a temporary name: the tree has changed there only, and nothing stood there
    before. -/
structure Filled (tree filled : FileTree) (temporary : Path) (content : ByteArray) : Prop where
  fresh : tree.node? (location temporary) = none
  writable : Writable tree temporary
  changes : ChangesAt (location temporary) (some (.file content)) tree filled

namespace Filled

variable {tree made filled after : FileTree} {temporary target : Path} {content : ByteArray}

theorem sameDirectories (h : Filled tree filled temporary content) :
    SameDirectories tree filled :=
  h.changes.sameDirectories h.writable.notDirectory (by simp)

theorem of_make (h : tree.make temporary (.file .empty) = .ok made) :
    Filled tree made temporary .empty := by
  obtain ⟨hlocate, hnone, hchanges⟩ := changesAt_of_make h
  exact ⟨hnone, ⟨hlocate, by simp [hnone]⟩, hchanges⟩

theorem write {before : ByteArray} (h : Filled tree made temporary before)
    (hwrite : made.write temporary content = .ok filled) : Filled tree filled temporary content := by
  obtain ⟨-, hchanges⟩ := writes_of_write hwrite
  refine ⟨h.fresh, h.writable, fun k => ?_⟩
  rw [hchanges k, h.changes k]
  by_cases hk : k = location temporary
  · rw [if_pos hk, if_pos hk]
  · rw [if_neg hk, if_neg hk, if_neg hk]

/-- Without its temporary file a tree is what it was before. -/
theorem node?_discard (h : Filled tree filled temporary content) (k : Location) :
    (filled.discard temporary).node? k = tree.node? k := by
  rw [changesAt_discard (h.sameDirectories.writable_iff.2 h.writable) k, h.changes k]
  by_cases hk : k = location temporary
  · rw [if_pos hk, hk, h.fresh]
  · rw [if_neg hk, if_neg hk]

/-- **A temporary file that has been moved leaves nothing behind** but the file that it became. -/
theorem writes_of_move (h : Filled tree filled temporary content)
    (hmove : filled.move temporary target = .ok after) :
    Writable tree target ∧ ChangesAt (location target) (some (.file content)) tree after := by
  have htemporary : filled.node? (location temporary) = some (.file content) := by
    rw [h.changes, if_pos rfl]
  obtain ⟨htarget, hmoves⟩ :=
    moves_of_move (h.sameDirectories.writable_iff.2 h.writable) htemporary hmove
  refine ⟨h.sameDirectories.writable_iff.1 htarget, fun k => ?_⟩
  rw [hmoves k, h.changes k]
  by_cases hk : k = location target
  · rw [if_pos hk, if_pos hk]
  · rw [if_neg hk, if_neg hk]
    by_cases hsource : k = location temporary
    · rw [if_pos hsource, hsource, h.fresh]
    · rw [if_neg hsource, if_neg hsource]

end Filled

end ModelCatalog.FileTree
