import ModelCatalog.FileTree.Basic
import ModelCatalog.Path
import ModelCatalog.Results

/-! # Following paths

    Paths are followed piece by piece: every piece but the last has to lead to a directory that
    exists, also when the next one is `..`.  Where a path leads does not depend on the tree
    (`location_of_locate`), only whether it can be followed does. -/

namespace ModelCatalog.FileTree

/-- Fails unless a directory stands at a location. -/
def requireDirectory (tree : FileTree) (l : Location) : Except FileFault Unit :=
  match tree.node? l with
  | some .directory => .ok ()
  | some (.file _) => .error .notDirectory
  | none => .error .notFound

/-- The greatest number of bytes in a path. -/
def maxPathSize : Nat := 4095

/-- The location one piece further. -/
def step (l : Location) (piece : RawText) : Location :=
  if Path.isIdle piece then l else if piece == ".." then l.up else l ++ [piece]

/-- The location that pieces lead to from a location. -/
def follow (tree : FileTree) : Location → List RawText → Except FileFault Location
  | l, [] => .ok l
  | l, piece :: rest => do
    tree.requireDirectory l
    if FileName.maxSize < piece.size then throw .nameTooLong
    follow tree (step l piece) rest

def start (p : Path) : Location := if p.isAbsolute then .root else []

/-- The location of a path.  Nothing has to stand there yet. -/
def locate (tree : FileTree) (p : Path) : Except FileFault Location :=
  if p.raw == "" then .error .notFound
  else if p.hasNul then .error .nulInName
  else if maxPathSize < p.raw.size then .error .nameTooLong
  else tree.follow (start p) p.pieces

def find (tree : FileTree) (p : Path) : Except FileFault Node := do
  match tree.node? (← tree.locate p) with
  | some n => return n
  | none => throw .notFound

def isDirectory (tree : FileTree) (p : Path) : Bool :=
  match tree.find p with
  | .ok .directory => true
  | _ => false

def isFile (tree : FileTree) (p : Path) : Bool :=
  match tree.find p with
  | .ok (.file _) => true
  | _ => false

-- ── Where paths lead ──

/-- A path that no tree refuses: it is not empty, not too long, and without NUL. -/
structure IsSound (p : Path) : Prop where
  nonempty : p.raw ≠ ""
  noNul : p.hasNul = false
  short : p.raw.size ≤ maxPathSize

/-- The location that a path leads to, if it can be followed. -/
def location (p : Path) : Location := p.pieces.foldl step (start p)

theorem requireDirectory_eq_ok {tree : FileTree} {l : Location} {u : Unit} :
    tree.requireDirectory l = .ok u ↔ tree.node? l = some .directory := by
  rw [requireDirectory]
  cases tree.node? l with
  | none => simp
  | some n => cases n <;> simp

/-- A step is possible from a directory, by a piece that is not too long. -/
theorem follow_cons_eq_ok {tree : FileTree} {l k : Location} {piece : RawText} {rest : List RawText} :
    tree.follow l (piece :: rest) = .ok k ↔
      tree.node? l = some .directory ∧ piece.size ≤ FileName.maxSize ∧
        tree.follow (step l piece) rest = .ok k := by
  rw [follow, bind_eq_ok]
  constructor
  · rintro ⟨u, hdir, hrest⟩
    split at hrest
    · exact nomatch hrest
    · next hsize => exact ⟨requireDirectory_eq_ok.1 hdir, by omega, hrest⟩
  · rintro ⟨hdir, hsize, hrest⟩
    refine ⟨(), requireDirectory_eq_ok.2 hdir, ?_⟩
    rw [if_neg (by omega)]
    exact hrest

/-- A path is located by following its pieces, unless no tree can follow it. -/
theorem locate_eq_ok {tree : FileTree} {p : Path} {l : Location} :
    tree.locate p = .ok l ↔ IsSound p ∧ tree.follow (start p) p.pieces = .ok l := by
  rw [locate]
  constructor
  · intro h
    split at h
    · exact nomatch h
    · next hempty =>
      split at h
      · exact nomatch h
      · next hnul =>
        split at h
        · exact nomatch h
        · next hsize =>
          exact ⟨⟨by simpa using hempty, by simpa using hnul, by omega⟩, h⟩
  · rintro ⟨⟨hempty, hnul, hsize⟩, h⟩
    rw [if_neg (by simpa using hempty), if_neg (by simp [hnul]), if_neg (by omega)]
    exact h

theorem find_eq_ok {tree : FileTree} {p : Path} {n : Node} :
    tree.find p = .ok n ↔ ∃ l, tree.locate p = .ok l ∧ tree.node? l = some n := by
  rw [find, bind_eq_ok]
  constructor
  · rintro ⟨l, hlocate, hn⟩
    refine ⟨l, hlocate, ?_⟩
    split at hn
    · next m hm => rw [hm, Except.ok.inj hn]
    · exact nomatch hn
  · rintro ⟨l, hlocate, hn⟩
    refine ⟨l, hlocate, ?_⟩
    rw [hn]
    rfl

theorem eq_foldl_of_follow {tree : FileTree} {l k : Location} {pieces : List RawText}
    (h : tree.follow l pieces = .ok k) : k = pieces.foldl step l := by
  induction pieces generalizing l with
  | nil => exact (Except.ok.inj h).symm
  | cons piece rest ih => exact ih (follow_cons_eq_ok.1 h).2.2

/-- Where a path leads does not depend on the tree. -/
theorem location_of_locate {tree : FileTree} {p : Path} {l : Location}
    (h : tree.locate p = .ok l) : location p = l :=
  (eq_foldl_of_follow (locate_eq_ok.1 h).2).symm

/-- A step from a directory stays inside the tree. -/
theorem isInside_step {tree : FileTree} {l : Location} {piece : RawText}
    (hdir : tree.node? l = some .directory) (hslash : RawText.slash ∉ piece.bytes)
    (hnul : RawText.nul ∉ piece.bytes) (hsize : piece.size ≤ FileName.maxSize) :
    tree.IsInside (step l piece) := by
  rw [step]
  by_cases hidle : Path.isIdle piece = true
  · rw [if_pos hidle]
    exact isInside_of_node? hdir
  · rw [if_neg hidle]
    by_cases hup : piece = ".."
    · rw [if_pos (by simp [hup]), Location.up]
      by_cases hroot : l = Location.root
      · rw [if_pos hroot]
        exact Or.inl (by decide)
      · rw [if_neg hroot]
        by_cases hground : l.isGround = true
        · rw [if_pos hground]
          have hall : l.all (· == "..") = true := by simpa [Location.isGround, hroot] using hground
          exact Or.inl (by rw [Location.isGround, List.all_append, hall]; simp)
        · rw [if_neg hground]
          exact isInside_of_node? ((isInside_of_node? hdir).resolve_left hground).2
    · rw [if_neg (by simp [hup])]
      refine Or.inr ⟨?_, by rw [List.dropLast_concat]; exact hdir⟩
      rw [Path.isIdle, Bool.or_eq_true, not_or] at hidle
      simp only [beq_iff_eq] at hidle
      simp [FileName.isName, hidle, hup, hslash, hnul, hsize]

theorem isInside_of_follow {tree : FileTree} {l k : Location} {pieces : List RawText}
    (hpieces : ∀ piece ∈ pieces, RawText.slash ∉ piece.bytes ∧ RawText.nul ∉ piece.bytes)
    (hl : tree.IsInside l) (h : tree.follow l pieces = .ok k) : tree.IsInside k := by
  induction pieces generalizing l with
  | nil => exact Except.ok.inj h ▸ hl
  | cons piece rest ih =>
    obtain ⟨hdir, hsize, hrest⟩ := follow_cons_eq_ok.1 h
    obtain ⟨hslash, hnul⟩ := hpieces piece List.mem_cons_self
    exact ih (fun q hq => hpieces q (List.mem_cons_of_mem _ hq))
      (isInside_step hdir hslash hnul hsize) hrest

theorem isInside_of_locate {tree : FileTree} {p : Path} {l : Location}
    (h : tree.locate p = .ok l) : tree.IsInside l := by
  obtain ⟨hsound, hfollow⟩ := locate_eq_ok.1 h
  refine isInside_of_follow (fun piece hpiece => ?_) (Or.inl ?_) hfollow
  · obtain ⟨hslash, hmem⟩ := Path.mem_pieces hpiece
    refine ⟨hslash, fun hc => ?_⟩
    have hnul := hsound.noNul
    simp [Path.hasNul, hmem _ hc] at hnul
  · rw [start]
    split <;> decide

end ModelCatalog.FileTree
