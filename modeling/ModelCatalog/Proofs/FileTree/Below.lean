import ModelCatalog.Proofs.FileTree.Walking

/-! # What stands below a path

    A path that is continued is followed on from where it led (`locate_join`), so whether it can be
    depends only on what stands below (`SameBelow.locate_join`).  Two trees with the same below a path
    cannot be told apart by anything that is looked up there (`SameBelow.find_join`) or found by a
    walk (`walk_congr`). -/

namespace ModelCatalog

/-- A name that leads one step down. -/
structure FileName.IsPiece (name : RawText) : Prop where
  slash : RawText.slash ∉ name.bytes
  idle : Path.isIdle name = false
  up : name ≠ ".."

/-- The name of a file is a piece. -/
theorem FileName.isPiece_of_isName {name : RawText} (h : isName name = true) : IsPiece name := by
  simp only [isName, Bool.and_eq_true] at h
  obtain ⟨⟨⟨⟨⟨hempty, hdot⟩, hup⟩, hslash⟩, -⟩, -⟩ := h
  refine ⟨by simpa using hslash, ?_, by simpa using hup⟩
  rw [Path.isIdle, Bool.or_eq_false_iff]
  exact ⟨by simpa using hempty, by simpa using hdot⟩

namespace FileTree

open ModelCatalog.Path (isIdle)
open RawText (slash)

theorem isDirectory_iff_find {tree : FileTree} {p : Path} :
    tree.isDirectory p = true ↔ tree.find p = .ok .directory := by
  rw [isDirectory]
  split
  · next h => simp [h]
  · next h => exact iff_of_false Bool.false_ne_true h

theorem isDirectory_eq_true {tree : FileTree} {p : Path} : tree.isDirectory p = true ↔
    tree.locate p = .ok (location p) ∧ tree.node? (location p) = some .directory := by
  rw [isDirectory_iff_find, find_eq_ok]
  constructor
  · rintro ⟨l, hlocate, hl⟩
    obtain rfl : location p = l := location_of_locate hlocate
    exact ⟨hlocate, hl⟩
  · intro h
    exact ⟨location p, h⟩

theorem precedes_singleton {a b : RawText} (h : Location.Before [a] [b]) : a < b := by
  obtain ⟨hprecedes, hne⟩ := h
  rw [Location.precedes, if_neg fun heq => hne (by rw [heq])] at hprecedes
  exact of_decide_eq_true hprecedes

/-- Of what a walk finds, only a directory one step down has its name listed. -/
theorem spec_of_directoryName {tree : FileTree} {p : Path} {x : Location × Node} {name : RawText}
    (h : (match x with
      | ([name], .directory) => if tree.isDirectory (p.child name) then some name else none
      | _ => none) = some name) : x.1 = [name] ∧ tree.isDirectory (p.child name) = true := by
  split at h
  · split at h
    · next hdir =>
      rw [← Option.some.inj h]
      exact ⟨rfl, hdir⟩
    · cases h
  · cases h

theorem directoryNames_of_walk {tree : FileTree} {p : Path} {l : Location}
    {found : List (Location × Node)} (hlocate : tree.locate p = .ok l)
    (hrequire : tree.requireDirectory l = .ok ()) (hwalk : tree.walk l = found) :
    tree.directoryNames p = .ok (found.filterMap fun
      | ([name], .directory) => if tree.isDirectory (p.child name) then some name else none
      | _ => none) := by
  rw [directoryNames, hlocate, ok_bind, hrequire, ok_bind, hwalk]
  rfl

theorem isDirectory_of_directoryNames {tree : FileTree} {p : Path} {names : List RawText}
    (h : tree.directoryNames p = .ok names) : tree.isDirectory p = true := by
  rw [directoryNames] at h
  obtain ⟨l, hlocate, hrest⟩ := bind_eq_ok.1 h
  obtain ⟨⟨⟩, hrequire, -⟩ := bind_eq_ok.1 hrest
  rw [requireDirectory] at hrequire
  split at hrequire
  · next hdir =>
    obtain rfl : location p = l := location_of_locate hlocate
    exact isDirectory_eq_true.2 ⟨hlocate, hdir⟩
  · cases hrequire
  · cases hrequire

/-- The directories in a directory come in the order of their names. -/
theorem directoryNames_spec {tree : FileTree} {p : Path} {names : List RawText}
    (h : tree.directoryNames p = .ok names) : names.Pairwise (· < ·) ∧
      ∀ name ∈ names, FileName.isName name = true ∧ tree.isDirectory (p.child name) = true := by
  rw [directoryNames] at h
  obtain ⟨l, -, hrest⟩ := bind_eq_ok.1 h
  obtain ⟨-, -, hnames⟩ := bind_eq_ok.1 hrest
  rw [← Except.ok.inj hnames]
  refine ⟨?_, fun name hname => ?_⟩
  · refine List.pairwise_filterMap.2 ((pairwise_walk tree l).imp fun {x y} hxy a ha b hb => ?_)
    rw [(spec_of_directoryName ha).1, (spec_of_directoryName hb).1] at hxy
    exact precedes_singleton hxy
  · obtain ⟨x, hfound, hx⟩ := List.mem_filterMap.1 hname
    obtain ⟨hx, hdir⟩ := spec_of_directoryName hx
    have hnames : ∀ r ∈ x.1, FileName.isName r = true := isName_of_mem_walk hfound
    rw [hx] at hnames
    exact ⟨hnames name (List.mem_singleton_self name), hdir⟩

-- ── Continued paths ──

theorem follow_cons (tree : FileTree) (l : Location) (piece : RawText) (rest : List RawText) :
    tree.follow l (piece :: rest) = (do
      tree.requireDirectory l
      if FileName.maxSize < piece.size then .error .nameTooLong
      else tree.follow (step l piece) rest) := by
  rw [follow]
  rfl

theorem follow_append (tree : FileTree) (l : Location) (front back : List RawText) :
    tree.follow l (front ++ back) = (do tree.follow (← tree.follow l front) back) := by
  induction front generalizing l with
  | nil => rfl
  | cons piece front ih =>
      rw [List.cons_append, follow_cons, follow_cons]
      cases tree.requireDirectory l with
      | error fault => rfl
      | ok u =>
          rw [ok_bind, ok_bind]
          by_cases hsize : FileName.maxSize < piece.size
          · rw [if_pos hsize, if_pos hsize]
            rfl
          · rw [if_neg hsize, if_neg hsize]
            exact ih (step l piece)

theorem locate_of_isSound {p : Path} (h : IsSound p) (tree : FileTree) :
    tree.locate p = tree.follow (start p) p.pieces := by
  have hshort := h.short
  rw [locate, if_neg (by simpa using h.nonempty), if_neg (by simp [h.noNul]), if_neg (by omega)]

/-- No tree can follow a path that is not sound, and all fail alike. -/
theorem locate_of_not_isSound {p : Path} (h : ¬ IsSound p) (tree other : FileTree) :
    other.locate p = tree.locate p := by
  rw [locate, locate]
  split
  · rfl
  · next hempty =>
    split
    · rfl
    · next hnul =>
      split
      · rfl
      · next hshort => exact absurd ⟨by simpa using hempty, by simpa using hnul, by omega⟩ h

/-- A path that can be followed can be continued: from where it leads, by the pieces behind it. -/
theorem locate_join {tree : FileTree} {p : Path} {r : RawText} {l : Location}
    (hrelative : Path.isAbsolute ⟨r⟩ = false) (hp : tree.locate p = .ok l)
    (hsound : IsSound (p / (⟨r⟩ : Path))) :
    tree.locate (p / (⟨r⟩ : Path)) = tree.follow l (Path.splitPieces r.bytes) := by
  obtain ⟨hsoundp, hfollow⟩ := locate_eq_ok.1 hp
  obtain ⟨front, hpieces, hstart, hfront⟩ := exists_front hrelative hsoundp.nonempty
  have hto : tree.follow (start p) front = .ok l := by
    rcases hfront with hfront | hfront
    · rw [← hfront, hfollow]
    · rw [hfront, follow_append] at hfollow
      obtain ⟨k, hk, hlast⟩ := bind_eq_ok.1 hfollow
      obtain ⟨-, -, hstep⟩ := follow_cons_eq_ok.1 hlast
      rw [hk]
      exact hstep
  rw [locate_of_isSound hsound, hpieces, hstart, follow_append, hto]
  rfl

/-- A name below a path stands behind something that is the same for all names. -/
theorem exists_raw_child (p : Path) : ∃ front : RawText, ∀ name : RawText, slash ∉ name.bytes →
    (p.child name).raw = front ++ name := by
  by_cases hslash : (p.raw == "" || p.raw.bytes.getLast? == some slash) = true
  · refine ⟨p.raw, fun name hname => ?_⟩
    show (Path.join p ⟨name⟩).raw = _
    rw [Path.join, isAbsolute_name hname, if_neg Bool.false_ne_true, if_pos hslash]
  · refine ⟨p.raw ++ "/", fun name hname => ?_⟩
    show (Path.join p ⟨name⟩).raw = _
    rw [Path.join, isAbsolute_name hname, if_neg Bool.false_ne_true, if_neg hslash]

/-- Whether a name below a path is sound depends on its size, as long as there is no NUL in it. -/
theorem isSound_child_congr {p : Path} {name other : RawText} (hname : slash ∉ name.bytes)
    (hother : slash ∉ other.bytes) (hnul : RawText.nul ∉ other.bytes)
    (hsize : other.size = name.size) (h : IsSound (p.child name)) : IsSound (p.child other) := by
  obtain ⟨front, hraw⟩ := exists_raw_child p
  obtain ⟨hnonempty, hnoNul, hshort⟩ := h
  rw [Path.hasNul, hraw name hname, RawText.bytes_append, List.contains_append,
    Bool.or_eq_false_iff] at hnoNul
  rw [hraw name hname, RawText.size_append, ← hsize, ← RawText.size_append,
    ← hraw other hother] at hshort
  refine ⟨fun hempty => hnonempty ?_, ?_, hshort⟩
  · rw [hraw other hother, RawText.append_eq_empty_iff] at hempty
    rw [hraw name hname, hempty.1, RawText.append_eq_empty_iff]
    exact ⟨rfl, RawText.eq_empty_of_size (hsize.symm.trans (hempty.2 ▸ rfl))⟩
  · rw [Path.hasNul, hraw other hother, RawText.bytes_append, List.contains_append, hnoNul.1]
    simpa using hnul

/-- A name in a directory is followed alike in all trees that have the directory. -/
theorem locate_child_congr {tree other : FileTree} {dir : Path} {name : RawText}
    (hslash : slash ∉ name.bytes) (h : tree.isDirectory dir = true)
    (h' : other.isDirectory dir = true) :
    other.locate (dir.child name) = tree.locate (dir.child name) := by
  obtain ⟨hlocate, hl⟩ := isDirectory_eq_true.1 h
  obtain ⟨hlocate', hl'⟩ := isDirectory_eq_true.1 h'
  by_cases hsound : IsSound (dir.child name)
  · have hrelative := isAbsolute_name hslash
    have hfollow := locate_join hrelative hlocate hsound
    have hfollow' := locate_join hrelative hlocate' hsound
    rw [splitPieces_name hslash, follow_cons, requireDirectory] at hfollow hfollow'
    rw [hl] at hfollow
    rw [hl'] at hfollow'
    exact hfollow'.trans hfollow.symm
  · exact locate_of_not_isSound hsound tree other

/-- A name in a directory can be followed if it is sound and not too long. -/
theorem locate_child_of_isSound {tree : FileTree} {dir : Path} {name : RawText}
    (hslash : slash ∉ name.bytes) (hdir : tree.isDirectory dir = true)
    (hsound : IsSound (dir.child name)) (hsize : name.size ≤ FileName.maxSize) :
    ∃ l, tree.locate (dir.child name) = .ok l := by
  obtain ⟨hlocate, hl⟩ := isDirectory_eq_true.1 hdir
  refine ⟨step (location dir) name, ?_⟩
  have hfollow := locate_join (isAbsolute_name hslash) hlocate hsound
  rw [splitPieces_name hslash] at hfollow
  exact hfollow.trans (follow_cons_eq_ok.2 ⟨hl, hsize, rfl⟩)

/-- Names are followed down to whatever stands there. -/
theorem follow_of_isName {tree : FileTree} {base way : Location} {n : Node}
    (hnames : ∀ name ∈ way, FileName.isName name = true) (hn : tree.node? (base ++ way) = some n) :
    tree.follow base way = .ok (base ++ way) := by
  induction way generalizing base with
  | nil => rw [follow, List.append_nil]
  | cons name rest ih =>
      obtain ⟨-, hidle, hup⟩ := FileName.isPiece_of_isName (hnames name List.mem_cons_self)
      have hsize : name.size ≤ FileName.maxSize := by
        have hname := hnames name List.mem_cons_self
        simp only [FileName.isName, Bool.and_eq_true, decide_eq_true_iff] at hname
        exact hname.2
      refine follow_cons_eq_ok.2 ⟨node?_of_isAbove ⟨name, rest, rfl⟩ hn, hsize, ?_⟩
      rw [List.append_cons] at hn
      rw [step_of_name hidle hup, ih (fun r hr => hnames r (List.mem_cons_of_mem _ hr)) hn,
        List.append_cons base name rest]

-- ── The same below a location ──

/-- Pieces that never lead up are followed by what stands below. -/
theorem follow_congr {tree other : FileTree} {l : Location} {pieces : List RawText}
    (hup : (".." : RawText) ∉ pieces) (hsame : ∀ way, other.node? (l ++ way) = tree.node? (l ++ way)) :
    other.follow l pieces = tree.follow l pieces := by
  induction pieces generalizing l with
  | nil => rfl
  | cons piece rest ih =>
      have hrest : (".." : RawText) ∉ rest := fun hmem => hup (List.mem_cons_of_mem _ hmem)
      have hhere : other.requireDirectory l = tree.requireDirectory l := by
        have hl := hsame []
        rw [List.append_nil] at hl
        rw [requireDirectory, requireDirectory, hl]
      have hnext : other.follow (step l piece) rest = tree.follow (step l piece) rest := by
        refine ih hrest fun way => ?_
        by_cases hidle : isIdle piece = true
        · rw [step_of_idle hidle]
          exact hsame way
        · rw [step_of_name (by simpa using hidle) fun heq => hup (heq ▸ List.mem_cons_self),
            List.append_assoc]
          exact hsame _
      rw [follow_cons, follow_cons, hhere, hnext]

/-- What is listed in the order of its ways is decided by what is in the list. -/
theorem eq_of_pairwise_before {α : Type} {xs ys : List (Location × α)}
    (hx : xs.Pairwise fun a b => a.1.Before b.1) (hy : ys.Pairwise fun a b => a.1.Before b.1)
    (h : ∀ a, a ∈ xs ↔ a ∈ ys) : xs = ys := by
  have hnodup : ∀ zs : List (Location × α), (zs.Pairwise fun a b => a.1.Before b.1) → zs.Nodup :=
    fun zs hz => hz.imp fun h heq => h.2 (congrArg Prod.fst heq)
  refine List.Perm.eq_of_pairwise (fun a b _ _ hab hba => ?_) hx hy
    ((List.perm_ext_iff_of_nodup (hnodup xs hx) (hnodup ys hy)).2 h)
  exact absurd (Location.precedes_antisymm hab.1 hba.1) hab.2

/-- **A walk tells what stands below its start, and nothing else.** -/
theorem walk_congr {tree other : FileTree} {base : Location}
    (hsame : ∀ way, other.node? (base ++ way) = tree.node? (base ++ way)) :
    other.walk base = tree.walk base := by
  refine eq_of_pairwise_before (pairwise_walk other base) (pairwise_walk tree base) ?_
  rintro ⟨way, n⟩
  rw [mem_walk_iff_node?, mem_walk_iff_node?, hsame]

/-- Two trees have the same below a path, which can be followed in both. -/
structure SameBelow (p : Path) (tree other : FileTree) : Prop where
  locate : tree.locate p = .ok (location p)
  locate_other : other.locate p = .ok (location p)
  node? : ∀ way, other.node? (location p ++ way) = tree.node? (location p ++ way)

namespace SameBelow

variable {p : Path} {r : RawText} {tree other : FileTree}

theorem locate_join (h : SameBelow p tree other) (hrelative : Path.isAbsolute ⟨r⟩ = false)
    (hup : (".." : RawText) ∉ Path.splitPieces r.bytes) :
    other.locate (p / (⟨r⟩ : Path)) = tree.locate (p / (⟨r⟩ : Path)) := by
  by_cases hsound : IsSound (p / (⟨r⟩ : Path))
  · rw [FileTree.locate_join hrelative h.locate hsound,
      FileTree.locate_join hrelative h.locate_other hsound, follow_congr hup h.node?]
  · exact locate_of_not_isSound hsound tree other

theorem find_join (h : SameBelow p tree other) (hrelative : Path.isAbsolute ⟨r⟩ = false)
    (hup : (".." : RawText) ∉ Path.splitPieces r.bytes) :
    other.find (p / (⟨r⟩ : Path)) = tree.find (p / (⟨r⟩ : Path)) := by
  rw [find, find, h.locate_join hrelative hup]
  cases hlocate : tree.locate (p / (⟨r⟩ : Path)) with
  | error fault => rfl
  | ok l =>
      have hraw : p.raw ≠ "" := (locate_eq_ok.1 h.locate).1.nonempty
      have hl : l = location p ++ (Path.splitPieces r.bytes).filter (!isIdle ·) := by
        rw [← location_of_locate hlocate, location_join hrelative hraw,
          foldl_step_of_neverUp hup]
      rw [ok_bind, ok_bind, hl, h.node?]

theorem locate_child {name : RawText} (h : SameBelow p tree other) (hslash : slash ∉ name.bytes)
    (hup : name ≠ "..") : other.locate (p.child name) = tree.locate (p.child name) :=
  h.locate_join (isAbsolute_name hslash) (up_notMem_name hslash hup)

theorem find_child {name : RawText} (h : SameBelow p tree other) (hslash : slash ∉ name.bytes)
    (hup : name ≠ "..") : other.find (p.child name) = tree.find (p.child name) :=
  h.find_join (isAbsolute_name hslash) (up_notMem_name hslash hup)

theorem isDirectory_child {name : RawText} (h : SameBelow p tree other)
    (hslash : slash ∉ name.bytes) (hup : name ≠ "..") :
    other.isDirectory (p.child name) = tree.isDirectory (p.child name) := by
  rw [isDirectory, isDirectory, h.find_child hslash hup]

theorem child {name : RawText} {l : Location} (h : SameBelow p tree other)
    (hslash : slash ∉ name.bytes) (hidle : isIdle name = false) (hup : name ≠ "..")
    (hlocate : tree.locate (p.child name) = .ok l) : SameBelow (p.child name) tree other := by
  obtain rfl : location (p.child name) = l := location_of_locate hlocate
  refine ⟨hlocate, (h.locate_child hslash hup).trans hlocate, fun way => ?_⟩
  rw [location_child hslash hidle hup, List.append_assoc]
  exact h.node? _

end SameBelow

end FileTree

end ModelCatalog
