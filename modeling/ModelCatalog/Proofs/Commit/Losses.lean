import ModelCatalog.Proofs.Commit.AllOrNothing
import ModelCatalog.Proofs.FileTree.Ways

/-! # What a failed batch can lose

    Snapshots are taken before the directories of a batch are made, so a path has one only if it can
    be followed already then.  A path that leads through a missing directory and up out of it again
    cannot, and once the directory has been made it can lead to a file that has been there all the
    time.  Nothing else keeps a snapshot away: for a file that is going to be replaced, either nothing
    is missing on the way of its path (`IsPassable`) and the snapshots have its content, or they have
    nothing for it (`saved_spec`).  When the batch is taken back, the first of its paths to a file
    decides, and the file is lost if that one has no snapshot (`node?_of_stuck`).  The headline is
    `commit_loses`. -/

namespace ModelCatalog

namespace FileTree

/-- Nothing is missing on the way of a path. -/
def IsPassable (tree : FileTree) (p : Path) : Prop :=
  ∀ v ∈ visited (start p) p.pieces, tree.node? v ≠ none

instance (tree : FileTree) (p : Path) : Decidable (tree.IsPassable p) :=
  inferInstanceAs (Decidable (∀ v ∈ visited (start p) p.pieces, tree.node? v ≠ none))

-- ── The way of paths with the same components ──

theorem mem_visited_filter {v l : Location} (pieces : List RawText) :
    v ∈ visited l (pieces.filter (!Path.isIdle ·)) ↔ v ∈ visited l pieces := by
  induction pieces generalizing l with
  | nil => exact Iff.rfl
  | cons piece rest ih =>
      rw [List.filter_cons]
      by_cases hidle : Path.isIdle piece = true
      · have hself := self_mem_visited l rest
        rw [if_neg (by simp [hidle]), ih, visited, step_of_idle hidle, List.mem_cons]
        exact ⟨Or.inr, fun h => h.elim (fun heq => heq ▸ hself) id⟩
      · rw [if_pos (by simp [hidle]), visited, visited, List.mem_cons, List.mem_cons, ih]

/-- The components of a path tell which places it visits. -/
theorem mem_visited_of_components (p : Path) (v : Location) :
    v ∈ visited (start p) p.pieces ↔ match p.components with
      | [] => v = []
      | first :: rest => v ∈ visited (if first = "" then .root else []) (first :: rest) := by
  obtain ⟨first, rest, hpieces⟩ := exists_pieces p
  by_cases htext : p.raw = ""
  · obtain ⟨text⟩ := p
    obtain rfl : text = "" := htext
    have hvisited : visited (start ⟨""⟩) (Path.pieces ⟨""⟩) = [[], []] := by decide
    have hcomponents : Path.components ⟨""⟩ = [] := by decide
    rw [hvisited, hcomponents]
    simp
  · have hcomponents : p.components = first :: rest.filter (!Path.isIdle ·) := by
      rw [Path.components, hpieces]
      simp [isAbsolute_eq hpieces htext]
    rw [hcomponents, hpieces, start, isAbsolute_eq hpieces htext]
    simp only [decide_eq_true_eq, visited, List.mem_cons, mem_visited_filter]

/-- **Paths with the same components** are passable in the same trees. -/
theorem isPassable_of_same {tree : FileTree} {p q : Path} (h : p.same q = true) :
    tree.IsPassable p ↔ tree.IsPassable q := by
  have hcomponents : p.components = q.components := by simpa [Path.same] using h
  have hvisited : ∀ v, v ∈ visited (start p) p.pieces ↔ v ∈ visited (start q) q.pieces := by
    intro v
    rw [mem_visited_of_components, mem_visited_of_components, hcomponents]
  simp only [IsPassable, hvisited]

-- ── Ways that are there already ──

/-- Where pieces lead to something, nothing is missing on the way. -/
theorem node?_of_follow {tree : FileTree} {l k : Location} {pieces : List RawText} {n : Node}
    (h : tree.follow l pieces = .ok k) (hk : tree.node? k = some n) :
    ∀ v ∈ visited l pieces, tree.node? v ≠ none := by
  induction pieces generalizing l with
  | nil =>
      obtain rfl : l = k := Except.ok.inj h
      intro v hv
      rw [List.mem_singleton.1 hv, hk]
      exact Option.some_ne_none n
  | cons piece rest ih =>
      obtain ⟨hdir, -, hrest⟩ := follow_cons_eq_ok.1 h
      refine List.forall_mem_cons.2 ⟨?_, ih hrest⟩
      rw [hdir]
      exact Option.some_ne_none _

/-- A way that can be followed when a tree has grown can be followed before if nothing is missing on
    it. -/
theorem follow_of_grown {places : Location → Prop} {tree made : FileTree} {l k : Location}
    {pieces : List RawText} (hgrows : GrowsBy places tree made)
    (h : made.follow l pieces = .ok k) (hthere : ∀ v ∈ visited l pieces, tree.node? v ≠ none) :
    tree.follow l pieces = .ok k := by
  induction pieces generalizing l with
  | nil => exact h
  | cons piece rest ih =>
      obtain ⟨hdir, hsize, hrest⟩ := follow_cons_eq_ok.1 h
      obtain ⟨hhere, hothers⟩ := List.forall_mem_cons.1 hthere
      refine follow_cons_eq_ok.2 ⟨?_, hsize, ih hrest hothers⟩
      rcases hgrows l with hsame | ⟨hnone, -, -⟩
      · exact hsame.symm.trans hdir
      · exact absurd hnone hhere

theorem isPassable_of_find {tree : FileTree} {p : Path} {n : Node} (h : tree.find p = .ok n) :
    tree.IsPassable p := by
  obtain ⟨l, hlocate, hl⟩ := find_eq_ok.1 h
  exact node?_of_follow (locate_eq_ok.1 hlocate).2 hl

/-- **What a path finds when a tree has grown** it finds before, too, if nothing is missing on its
    way. -/
theorem find_of_isPassable {places : Location → Prop} {tree made : FileTree} {p : Path} {n : Node}
    (hgrows : GrowsBy places tree made) (hlocate : made.locate p = .ok (location p))
    (hn : tree.node? (location p) = some n) (h : tree.IsPassable p) : tree.find p = .ok n := by
  obtain ⟨hsound, hfollow⟩ := locate_eq_ok.1 hlocate
  exact find_eq_ok.2 ⟨_, locate_eq_ok.2 ⟨hsound, follow_of_grown hgrows hfollow h⟩, hn⟩

/-- If a path never leads up, nothing is missing on its way to a file, as long as it leads to no
    directory later. -/
theorem isPassable_of_neverUp {tree later : FileTree} {p : Path} {n : Node}
    {content : ByteArray} (hup : p.NeverUp) (hlater : later.find p = .ok (.file content))
    (hn : tree.node? (location p) = some n) : tree.IsPassable p := by
  obtain ⟨l, hlocate, hl⟩ := find_eq_ok.1 hlater
  obtain rfl := location_of_locate hlocate
  have hlocate' := locate_of_node? hup hlocate (by simp [hl]) hn
  exact isPassable_of_find (find_eq_ok.2 ⟨_, hlocate', hn⟩)

end FileTree

namespace Commit

open FileTree

-- ── What is saved ──

/-- **The snapshots have the content of a file** if nothing is missing on the way of its path, and
    otherwise they have nothing for it. -/
theorem saved_spec {disk : Disk} {tree made : FileTree} {batch : List RenderedFile}
    {before : List Snapshot} {places : Location → Prop}
    (hbefore : snapshots disk tree batch = .ok before) (hgrows : GrowsBy places tree made)
    {file : RenderedFile} (hfile : file ∈ batch)
    (hlocate : made.locate file.path = .ok (location file.path)) {prior : ByteArray}
    (hprior : tree.node? (location file.path) = some (.file prior)) :
    (tree.IsPassable file.path → saved? before file.path = some prior) ∧
      (¬ tree.IsPassable file.path → saved? before file.path = none) := by
  refine ⟨fun hpass => ?_, fun hmissing => ?_⟩
  · exact saved_of_find hbefore hfile (find_of_isPassable hgrows hlocate hprior hpass)
  · refine Option.eq_none_iff_forall_ne_some.2 fun content hsaved => ?_
    obtain ⟨q, hsame, hfind, -⟩ := find_of_saved hbefore hsaved
    exact hmissing ((isPassable_of_same hsame).1 (isPassable_of_find hfind))

-- ── How far a batch comes ──

/-- **Where the writing ends** when it fails: at a file that cannot be written, and those in front of it
    are taken back. -/
theorem exists_stuck {disk : Disk} {before : List Snapshot} {done : List Path}
    {batch : List RenderedFile} {tree after : FileTree} {error : Error}
    (h : writeAll disk before done batch tree = (after, .error error)) :
    ∃ front file rest now stuck, batch = front ++ file :: rest ∧
      writeAll disk before done front tree = (now, .ok (done ++ front.map (·.path))) ∧
      writeText now file.path file.content
        (disk.refusesFile (done ++ front.map (·.path)) file.path) = (stuck, .error error) ∧
      after = rollBack before (done ++ front.map (·.path)) stuck := by
  induction batch generalizing done tree with
  | nil => cases (Prod.mk.inj h).2
  | cons file rest ih =>
      rw [writeAll] at h
      rcases hwrite : writeText tree file.path file.content (disk.refusesFile done file.path) with
        ⟨now, fault | ⟨⟨⟩⟩⟩
      · rw [hwrite] at h
        obtain ⟨hafter, herror⟩ := Prod.mk.inj h
        obtain rfl := Except.error.inj herror
        refine ⟨[], file, rest, tree, now, rfl, ?_, ?_, ?_⟩
        · rw [List.map_nil, List.append_nil]
          rfl
        · rw [List.map_nil, List.append_nil, hwrite]
        · rw [List.map_nil, List.append_nil, hafter]
      · rw [hwrite] at h
        obtain ⟨front, next, behind, later, stuck, rfl, hfront, hstuck, hafter⟩ := ih h
        rw [List.append_assoc] at hfront hstuck hafter
        refine ⟨file :: front, next, behind, later, stuck, rfl, ?_, hstuck, hafter⟩
        rw [writeAll, hwrite]
        exact hfront

/-- A commit has taken its snapshots, made the directories and written the files in front. -/
structure HasCome (disk : Disk) (tree : FileTree) (batch front : List RenderedFile)
    (before : List Snapshot) (now : FileTree) : Prop where
  snapshots : snapshots disk tree batch = .ok before
  written : ∃ made, makeParents disk batch tree = (made, .ok ()) ∧
    writeAll disk before [] front made = (now, .ok (front.map (·.path)))

theorem HasCome.exists_overlay {disk : Disk} {tree now : FileTree} {batch front : List RenderedFile}
    {before : List Snapshot} (h : HasCome disk tree batch front before now) :
    ∃ made, GrowsBy (BatchPlaces batch) tree made ∧ Overlay made front now := by
  obtain ⟨made, hmade, hfront⟩ := h.written
  have hgrows := growsBy_makeParents disk batch tree
  rw [hmade] at hgrows
  refine ⟨made, hgrows, ?_⟩
  rcases writeAll_spec disk front [] made (Overlay.nil made) with
    ⟨after, hrun, hover⟩ | ⟨after, error, hrun, -⟩
  · obtain rfl := (Prod.mk.inj (hfront.symm.trans hrun)).1
    exact hover
  · cases (Prod.mk.inj (hfront.symm.trans hrun)).2

-- ── What is lost ──

/-- The first file of a batch that leads to a location. -/
def firstAt (batch : List RenderedFile) (l : Location) : Option RenderedFile :=
  batch.find? fun file => decide (location file.path = l)

theorem mem_of_firstAt {batch : List RenderedFile} {l : Location} {file : RenderedFile}
    (h : firstAt batch l = some file) : file ∈ batch ∧ location file.path = l :=
  ⟨List.mem_of_find?_eq_some h, by simpa using List.find?_some h⟩

section Lost

variable {disk : Disk} {tree now : FileTree} {batch front rest : List RenderedFile}
  {file : RenderedFile} {before : List Snapshot}

/-- **When a file is replaced**, the snapshots have what stood there before the batch, unless something
    was missing on the way of its path. -/
theorem saved_of_hasCome (h : HasCome disk tree batch front before now) (hfile : file ∈ batch)
    {prior replaced : ByteArray} (hprior : tree.node? (location file.path) = some (.file prior))
    (hfind : now.find file.path = .ok (.file replaced)) :
    (tree.IsPassable file.path → saved? before file.path = some prior) ∧
      (¬ tree.IsPassable file.path → saved? before file.path = none) := by
  obtain ⟨made, hgrows, hover⟩ := h.exists_overlay
  obtain ⟨l, hlocate, -⟩ := find_eq_ok.1 hfind
  obtain rfl := location_of_locate hlocate
  exact saved_spec h.snapshots hgrows hfile (hover.sameDirectories.locate_eq_ok_iff.1 hlocate) hprior

/-- **When a batch is taken back**, a file stays as it was before unless something was missing on the
    way of the first path to it that has been written; then it is lost. -/
theorem node?_of_stuck (h : HasCome disk tree (front ++ file :: rest) front before now)
    {stuck : FileTree} {error : Error} {refused : WriteStep → Option FileFault}
    (hstuck : writeText now file.path file.content refused = (stuck, .error error)) {l : Location}
    {prior : ByteArray} (hprior : tree.node? l = some (.file prior)) :
    (rollBack before (front.map (·.path)) stuck).node? l =
      if (firstAt front l).all fun first => decide (tree.IsPassable first.path)
        then some (.file prior) else none := by
  obtain ⟨made, hgrows, hover⟩ := h.exists_overlay
  have hleft : Overlay made front stuck := by
    rcases writeText_spec now file.path file.content refused with
      ⟨after, hrun, -⟩ | ⟨after, fault, hrun, hsame⟩
    · cases (Prod.mk.inj (hstuck.symm.trans hrun)).2
    · obtain rfl := (Prod.mk.inj (hstuck.symm.trans hrun)).1
      exact hover.congr hsame
  have hwritable : ∀ p ∈ front.map (·.path), Writable made p := by
    intro p hp
    obtain ⟨f, hf, rfl⟩ := List.mem_map.1 hp
    exact hleft.writable f hf
  rw [node?_rollBack_eq hwritable hleft.sameDirectories, List.find?_map]
  cases hfirst : firstAt front l with
  | none =>
      rw [show front.find? ((fun p => decide (location p = l)) ∘ (·.path)) = none from hfirst]
      refine ((hleft.node?_or l).resolve_right ?_).trans (hgrows.node?_of_some hprior)
      rintro ⟨f, hf, hl⟩
      exact absurd hl (by simpa using List.find?_eq_none.1 hfirst f hf)
  | some first =>
      obtain ⟨hmem, rfl⟩ := mem_of_firstAt hfirst
      have hsaved := saved_spec h.snapshots hgrows (List.mem_append_left _ hmem)
        (hleft.writable first hmem).locate hprior
      rw [show front.find? ((fun p => decide (location p = location first.path)) ∘ (·.path))
        = some first from hfirst]
      by_cases hpass : tree.IsPassable first.path
      · simp [hsaved.1 hpass, hpass]
      · simp [hsaved.2 hpass, hpass]

end Lost

/-- **WHAT A FAILED BATCH LOSES.**  Whenever a file is going to be replaced that stood there before the
    batch, the snapshots have its content if nothing was missing on the way of the path, as it never is
    if the path never leads up, and otherwise they have nothing for it.  When a batch fails, either no
    file has changed, or the files in front of one that cannot be written are taken back.  Then each
    file that was there before is as it was, unless something was missing on the way of the first of
    those paths that leads to it: such a file is lost. -/
theorem commit_loses (disk : Disk) (tree : FileTree) (batch : List RenderedFile) :
    (∀ front file rest before now, batch = front ++ file :: rest →
      HasCome disk tree batch front before now → ∀ prior replaced,
        tree.node? (location file.path) = some (.file prior) →
        now.find file.path = .ok (.file replaced) →
          (tree.IsPassable file.path → saved? before file.path = some prior) ∧
          (¬ tree.IsPassable file.path → saved? before file.path = none) ∧
          (file.path.NeverUp → tree.IsPassable file.path)) ∧
    ∀ after error, commit batch false tree disk = (after, .error error) →
      (∀ l, after.file? l = tree.file? l) ∨
      ∃ front file rest before now, batch = front ++ file :: rest ∧
        HasCome disk tree batch front before now ∧
        (writeText now file.path file.content
          (disk.refusesFile (front.map (·.path)) file.path)).2 = .error error ∧
        ∀ l prior, tree.node? l = some (.file prior) → after.node? l =
          if (firstAt front l).all fun first => decide (tree.IsPassable first.path)
            then some (.file prior) else none := by
  refine ⟨fun front file rest before now hbatch h prior replaced hprior hfind => ?_,
    fun after error hrun => ?_⟩
  · have hfile : file ∈ batch := hbatch ▸ List.mem_append_right _ List.mem_cons_self
    obtain ⟨hsaved, hnone⟩ := saved_of_hasCome h hfile hprior hfind
    exact ⟨hsaved, hnone, fun hup => isPassable_of_neverUp hup hfind hprior⟩
  · have hgrows := growsBy_makeParents disk batch tree
    rcases commit_cases batch tree disk with
      ⟨fault, -, hcommit⟩ | ⟨before, hbefore, ⟨made, fault, hmade, hcommit⟩ | ⟨made, hmade, hcommit⟩⟩
    · obtain rfl := (Prod.mk.inj (hcommit.symm.trans hrun)).1
      exact Or.inl fun _ => rfl
    · rw [hmade] at hgrows
      obtain rfl := (Prod.mk.inj (hcommit.symm.trans hrun)).1
      exact Or.inl hgrows.file?_eq
    · obtain ⟨front, file, rest, now, stuck, rfl, hfront, hstuck, rfl⟩ :=
        exists_stuck (hcommit.symm.trans hrun)
      have hcome : HasCome disk tree (front ++ file :: rest) front before now :=
        ⟨hbefore, made, hmade, hfront⟩
      refine Or.inr ⟨front, file, rest, before, now, rfl, hcome, ?_, fun l prior hprior => ?_⟩
      · exact congrArg Prod.snd hstuck
      · exact node?_of_stuck hcome hstuck hprior

/-- Two files, and a directory that no file can replace. -/
def shelf : FileTree :=
  ⟨[(["a"], .file ⟨#[0xff]⟩), (["b"], .file ⟨#[0xfe]⟩), (["d"], .directory)], by decide⟩

/-- A path to one of them through a directory that is missing, then a path to the other, and one to the
    directory. -/
def roundabout : List RenderedFile :=
  [⟨⟨"new/../a"⟩, .registry, "1"⟩, ⟨⟨"./b"⟩, .registry, "2"⟩, ⟨⟨"d"⟩, .scaffold, "3"⟩]

/-- Only the file on the roundabout way is lost. -/
theorem commit_loses_roundabout :
    (∃ before made, HasCome {} shelf roundabout [] before made ∧
      made.find ⟨"new/../a"⟩ = .ok (.file ⟨#[0xff]⟩) ∧ saved? before ⟨"new/../a"⟩ = none) ∧
    ∃ after error, commit roundabout false shelf {} = (after, .error error) ∧
      (∃ front first, firstAt front ["a"] = some first ∧ ¬ shelf.IsPassable first.path) ∧
      after.node? ["b"] = some (.file ⟨#[0xfe]⟩) := by
  obtain ⟨hsaved, hlost⟩ := commit_loses {} shelf roundabout
  constructor
  · obtain ⟨made, hmade, hfind⟩ : ∃ made, makeParents {} roundabout shelf = (made, .ok ()) ∧
        made.find ⟨"new/../a"⟩ = .ok (.file ⟨#[0xff]⟩) := ⟨_, rfl, rfl⟩
    have hbefore : snapshots {} shelf roundabout = .ok [⟨⟨"./b"⟩, ⟨#[0xfe]⟩⟩] := rfl
    have hcome : HasCome {} shelf roundabout [] _ made := ⟨hbefore, made, hmade, rfl⟩
    refine ⟨_, made, hcome, hfind, ?_⟩
    exact (hsaved [] _ _ _ made rfl hcome ⟨#[0xff]⟩ _ (by decide) hfind).2.1 (by decide)
  · obtain ⟨after, error, hrun, hgone⟩ : ∃ after error,
        commit roundabout false shelf {} = (after, .error error) ∧ after.node? ["a"] = none :=
      ⟨_, _, rfl, rfl⟩
    refine ⟨after, error, hrun, ?_⟩
    rcases hlost after error hrun with hsame | ⟨front, file, rest, -, -, hbatch, -, -, hnodes⟩
    · have hnone : after.file? ["a"] = none := by rw [file?, hgone]
      rw [hsame] at hnone
      exact absurd hnone (by decide)
    · refine ⟨⟨front, ?_⟩, ?_⟩
      · have hfirst := hnodes ["a"] ⟨#[0xff]⟩ (by decide)
        rw [hgone] at hfirst
        split at hfirst
        · cases hfirst
        · next hnot =>
          rw [Option.all_eq_true] at hnot
          push Not at hnot
          obtain ⟨first, hmem, hpass⟩ := hnot
          exact ⟨first, hmem, fun hthere => hpass (decide_eq_true hthere)⟩
      · -- the only path to this file is passable
        have hway : ∀ f ∈ roundabout, location f.path = ["b"] → shelf.IsPassable f.path := by decide
        rw [hnodes ["b"] ⟨#[0xfe]⟩ (by decide), if_pos]
        refine (Option.all_eq_true _ _).2 fun first hfirst => decide_eq_true ?_
        obtain ⟨hmem, hl⟩ := mem_of_firstAt hfirst
        exact hway first (hbatch ▸ List.mem_append_left _ hmem) hl

/-- A commit that fails can delete a file that was there before. -/
theorem commit_deletes :
    let tree : FileTree := ⟨[(["a"], .file ⟨#[0xff]⟩), (["d"], .directory)], by decide⟩
    let batch : List RenderedFile := [⟨⟨"new/../a"⟩, .registry, "1"⟩, ⟨⟨"d"⟩, .scaffold, "2"⟩]
    (commit batch false tree {}).2.isOk = false ∧ tree.file? ["a"] = some ⟨#[0xff]⟩ ∧
      (commit batch false tree {}).1.node? ["a"] = none := by
  decide +kernel

end Commit

end ModelCatalog
