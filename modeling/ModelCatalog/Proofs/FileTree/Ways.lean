import ModelCatalog.Proofs.FileTree.Below
import ModelCatalog.Proofs.FileTree.Growing

/-! # The way of a path

    A path visits one place after the other (`visited`), and can become a directory if it is sound,
    none of its pieces is too long, and no file stands at any of those places (`CanBeMade`).  The
    path above a path is the same without its last name: it visits the same places but for the last
    (`mem_visited_ofReversed_cons`), and has to lead to a directory for the path to be followed
    (`locate_ofReversed_cons`). -/

namespace ModelCatalog.FileTree

open ModelCatalog.Path (isIdle)
open RawText (slash)

-- ── The way of a path ──

/-- The places on the way that pieces lead, both ends included. -/
def visited : Location → List RawText → List Location
  | l, [] => [l]
  | l, piece :: rest => l :: visited (step l piece) rest

theorem self_mem_visited (l : Location) (pieces : List RawText) : l ∈ visited l pieces := by
  cases pieces with
  | nil => exact List.mem_singleton_self l
  | cons piece rest => exact List.mem_cons_self

theorem mem_visited_append {l v : Location} {front back : List RawText} :
    v ∈ visited l (front ++ back) ↔ v ∈ visited l front ∨ v ∈ visited (front.foldl step l) back := by
  induction front generalizing l with
  | nil =>
      have hself := self_mem_visited l back
      simp only [List.nil_append, visited, List.foldl_nil, List.mem_singleton]
      exact ⟨Or.inr, fun h => h.elim (fun heq => heq ▸ hself) id⟩
  | cons piece front ih =>
      simp only [List.cons_append, visited, List.mem_cons, List.foldl_cons, ih, or_assoc]

theorem foldl_mem_visited (l : Location) (pieces : List RawText) :
    pieces.foldl step l ∈ visited l pieces := by
  induction pieces generalizing l with
  | nil => exact List.mem_singleton_self l
  | cons piece rest ih => exact List.mem_cons_of_mem l (ih (step l piece))

/-- Where a directory is reached, directories stand all the way, and no piece is too long. -/
theorem directories_of_follow {tree : FileTree} {l k : Location} {pieces : List RawText}
    (h : tree.follow l pieces = .ok k) (hk : tree.node? k = some .directory) :
    (∀ v ∈ visited l pieces, tree.node? v = some .directory) ∧
      ∀ piece ∈ pieces, piece.size ≤ FileName.maxSize := by
  induction pieces generalizing l with
  | nil =>
      obtain rfl : l = k := Except.ok.inj h
      exact ⟨fun v hv => (List.mem_singleton.1 hv) ▸ hk, fun _ hpiece => by cases hpiece⟩
  | cons piece rest ih =>
      obtain ⟨hdir, hsize, hrest⟩ := follow_cons_eq_ok.1 h
      obtain ⟨hdirs, hsizes⟩ := ih hrest
      exact ⟨List.forall_mem_cons.2 ⟨hdir, hdirs⟩, List.forall_mem_cons.2 ⟨hsize, hsizes⟩⟩

/-- Where no file stands on the way, pieces lead to its end, unless a directory is missing or a piece
    is too long. -/
theorem follow_of_clear {tree : FileTree} {l : Location} {pieces : List RawText}
    (hclear : ∀ v ∈ visited l pieces, tree.file? v = none) :
    tree.follow l pieces = .ok (pieces.foldl step l) ∨ tree.follow l pieces = .error .notFound ∨
      tree.follow l pieces = .error .nameTooLong ∧
        ∃ piece ∈ pieces, FileName.maxSize < piece.size := by
  induction pieces generalizing l with
  | nil => exact Or.inl rfl
  | cons piece rest ih =>
      obtain ⟨hhere, hrest⟩ := List.forall_mem_cons.1 hclear
      rw [follow_cons, requireDirectory]
      rw [file?] at hhere
      cases hl : tree.node? l with
      | none => exact Or.inr (Or.inl rfl)
      | some n =>
          rw [hl] at hhere
          cases n with
          | file content => cases hhere
          | directory =>
              rw [ok_bind]
              by_cases hsize : FileName.maxSize < piece.size
              · rw [if_pos hsize]
                exact Or.inr (Or.inr ⟨rfl, piece, List.mem_cons_self, hsize⟩)
              · rw [if_neg hsize, List.foldl_cons]
                rcases ih hrest with hok | hmissing | ⟨hlong, longer, hmem, hlonger⟩
                · exact Or.inl hok
                · exact Or.inr (Or.inl hmissing)
                · exact Or.inr (Or.inr ⟨hlong, longer, List.mem_cons_of_mem piece hmem, hlonger⟩)

/-- A path can become a directory: it is sound, none of its pieces is too long, and no file stands
    on its way. -/
structure CanBeMade (tree : FileTree) (p : Path) : Prop where
  sound : IsSound p
  short : ∀ piece ∈ p.pieces, piece.size ≤ FileName.maxSize
  clear : ∀ v ∈ visited (start p) p.pieces, tree.file? v = none

/-- Only the files of a tree decide what can become a directory. -/
theorem CanBeMade.congr {tree other : FileTree} {p : Path} (h : CanBeMade tree p)
    (hfiles : ∀ l, other.file? l = tree.file? l) : CanBeMade other p :=
  ⟨h.sound, h.short, fun v hv => (hfiles v).trans (h.clear v hv)⟩

theorem canBeMade_of_isDirectory {tree : FileTree} {p : Path} (h : tree.isDirectory p = true) :
    CanBeMade tree p := by
  obtain ⟨hlocate, hl⟩ := isDirectory_eq_true.1 h
  obtain ⟨hsound, hfollow⟩ := locate_eq_ok.1 hlocate
  obtain ⟨hdirs, hsizes⟩ := directories_of_follow hfollow hl
  exact ⟨hsound, hsizes, fun v hv => by rw [file?, hdirs v hv]⟩

theorem isDirectory_of_keeps {before after : FileTree} (hkeeps : KeepsDirectories before after)
    {p : Path} (h : before.isDirectory p = true) : after.isDirectory p = true := by
  obtain ⟨hlocate, hl⟩ := isDirectory_eq_true.1 h
  exact isDirectory_eq_true.2 ⟨locate_of_keeps hkeeps hlocate, hkeeps _ hl⟩

/-- A path that leads through what is missing is sound. -/
theorem isSound_of_missing {tree : FileTree} {p : Path} (hraw : p.raw ≠ "")
    (h : tree.locate p = .error .notFound) : IsSound p := by
  rw [locate, if_neg (by simpa using hraw)] at h
  split at h
  · cases h
  · next hnul =>
    split at h
    · cases h
    · next hshort => exact ⟨hraw, by simpa using hnul, by omega⟩

theorem follow_singleton_ne_notFound {tree : FileTree} {l : Location}
    (hl : tree.node? l = some .directory) (piece : RawText) :
    tree.follow l [piece] ≠ .error .notFound := by
  rw [follow_cons, requireDirectory, hl, ok_bind]
  split
  · intro h
    cases h
  · intro h
    cases h

theorem CanBeMade.locate {tree : FileTree} {p : Path} (h : CanBeMade tree p) :
    tree.locate p = .ok (location p) ∨ tree.locate p = .error .notFound := by
  rw [locate_of_isSound h.sound]
  rcases follow_of_clear h.clear with hok | hmissing | ⟨-, piece, hpiece, hsize⟩
  · exact Or.inl hok
  · exact Or.inr hmissing
  · have hshort := h.short piece hpiece
    omega

-- ── One name less ──

section Chain

variable {first piece : RawText} {rest : List RawText}

theorem ofReversed_cons (hidle : isIdle piece = false) :
    Path.ofReversed first (piece :: rest)
      = .ofPieces (first :: (rest.reverse ++ [piece])) := by
  rw [Path.ofReversed, List.dropWhile_cons, if_neg (by simp [hidle])]
  dsimp only
  rw [List.reverse_cons]

theorem pieces_ofReversed_cons (hidle : isIdle piece = false)
    (hslash : ∀ r ∈ first :: piece :: rest, slash ∉ r.bytes) :
    (Path.ofReversed first (piece :: rest)).pieces = first :: (rest.reverse ++ [piece]) := by
  rw [ofReversed_cons hidle]
  refine pieces_ofPieces fun r hr => hslash r ?_
  simp only [List.mem_cons, List.mem_append, List.mem_reverse, List.not_mem_nil, or_false] at hr ⊢
  tauto

/-- The idle pieces at the end of some others, and what stands before them. -/
theorem exists_idle (pieces : List RawText) : ∃ idle : List RawText,
    (∀ r ∈ idle, isIdle r = true) ∧
      pieces.reverse = (pieces.dropWhile isIdle).reverse ++ idle := by
  refine ⟨(pieces.takeWhile isIdle).reverse, fun r hr => ?_, ?_⟩
  · exact List.all_eq_true.1 List.all_takeWhile r (List.mem_reverse.1 hr)
  · rw [← List.reverse_append, List.takeWhile_append_dropWhile]

/-- A path goes on from the one above it. -/
theorem exists_raw (first : RawText) (rest : List RawText) (hidle : isIdle piece = false) : ∃ more,
    (Path.ofReversed first (piece :: rest)).raw = (Path.ofReversed first rest).raw ++ more := by
  obtain ⟨idle, hidles, hreverse⟩ := exists_idle rest
  rw [ofReversed_cons hidle, hreverse, Path.ofReversed, List.append_assoc, ← List.cons_append,
    Path.ofPieces_append (List.cons_ne_nil _ _) (by simp)]
  cases hdrop : rest.dropWhile isIdle with
  | nil =>
      rw [List.reverse_nil, Path.ofPieces_singleton]
      by_cases hfirst : first = ""
      · rw [if_pos (by simp [hfirst]), hfirst]
        exact ⟨_, rfl⟩
      · rw [if_neg (by simp [hfirst])]
        exact ⟨_, rfl⟩
  | cons r rs => exact ⟨_, rfl⟩

theorem isSound_of_cons (hidle : isIdle piece = false)
    (hslash : ∀ r ∈ first :: rest, slash ∉ r.bytes)
    (h : IsSound (Path.ofReversed first (piece :: rest))) :
    IsSound (Path.ofReversed first rest) := by
  obtain ⟨more, hraw⟩ := exists_raw first rest hidle
  refine ⟨(pieces_ofReversed hslash).1, ?_, ?_⟩
  · have hnul := h.noNul
    rw [Path.hasNul, hraw, RawText.bytes_append] at hnul
    rw [Path.hasNul]
    simp only [List.contains_append, Bool.or_eq_false_iff] at hnul
    exact hnul.1
  · have hshort := h.short
    rw [hraw, RawText.size_append] at hshort
    omega

theorem short_of_idle {r : RawText} (h : isIdle r = true) : r.size ≤ FileName.maxSize := by
  rw [isIdle, Bool.or_eq_true] at h
  rcases h with h | h <;> rw [eq_of_beq h] <;> decide

/-- Idle pieces in front of another one visit no other places, -/
theorem mem_visited_idle_append {l v : Location} {idle : List RawText}
    (hidles : ∀ r ∈ idle, isIdle r = true) :
    v ∈ visited l (idle ++ [piece]) ↔ v = l ∨ v = step l piece := by
  induction idle with
  | nil => simp [visited]
  | cons r idle ih =>
      obtain ⟨hr, hrest⟩ := List.forall_mem_cons.1 hidles
      rw [List.cons_append, visited, List.mem_cons, step_of_idle hr, ih hrest]
      tauto

/-- and are followed from wherever the other one is. -/
theorem follow_idle_append (tree : FileTree) (l : Location) {idle : List RawText}
    (hidles : ∀ r ∈ idle, isIdle r = true) :
    tree.follow l (idle ++ [piece]) = tree.follow l [piece] := by
  induction idle with
  | nil => rfl
  | cons r idle ih =>
      obtain ⟨hr, hrest⟩ := List.forall_mem_cons.1 hidles
      have hsize := short_of_idle hr
      rw [List.cons_append, follow_cons, if_neg (by omega), step_of_idle hr, ih hrest, follow_cons]
      cases tree.requireDirectory l <;> rfl

theorem start_ofReversed (hslash : ∀ r ∈ first :: rest, slash ∉ r.bytes) :
    start (Path.ofReversed first rest) = if first = "" then Location.root else [] := by
  obtain ⟨hraw, hpieces | ⟨hfirst, -, hpieces⟩⟩ := pieces_ofReversed hslash
  · simp [start, isAbsolute_eq hpieces hraw]
  · rw [start, isAbsolute_eq hpieces hraw, hfirst]
    rfl

theorem follow_ground (tree : FileTree) {l : Location} (hl : l.isGround = true) {r : RawText}
    (hr : isIdle r = true) : tree.follow l [r] = .ok l :=
  follow_cons_eq_ok.2 ⟨node?_ground hl, short_of_idle hr, by rw [step_of_idle hr]; rfl⟩

/-- What the pieces of a path come to that is made of pieces: the places visited, where they lead in
    a tree, and which of them are too long.  Idle pieces at the end are left out, and only the root
    has one that is not given. -/
theorem ofReversed_spec (hslash : ∀ r ∈ first :: rest, slash ∉ r.bytes) :
    let q := Path.ofReversed first rest
    let pieces := first :: (rest.dropWhile isIdle).reverse
    let l := if first = "" then Location.root else []
    (∀ v, v ∈ visited (start q) q.pieces ↔ v ∈ visited l pieces) ∧
      (∀ tree : FileTree, tree.follow (start q) q.pieces = tree.follow l pieces) ∧
      ((∀ r ∈ q.pieces, r.size ≤ FileName.maxSize) ↔
        ∀ r ∈ pieces, r.size ≤ FileName.maxSize) := by
  dsimp only
  rw [start_ofReversed hslash]
  obtain ⟨-, hpieces | ⟨hfirst, hnone, hpieces⟩⟩ := pieces_ofReversed hslash
  · rw [hpieces]
    exact ⟨fun v => Iff.rfl, fun tree => rfl, Iff.rfl⟩
  · have hempty : isIdle "" = true := by decide
    rw [hpieces, hfirst, hnone, List.reverse_nil, if_pos rfl]
    refine ⟨fun v => ?_, fun tree => ?_, ?_⟩
    · simp [visited, step_of_idle hempty]
    · have hroot : Location.isGround .root = true := by decide
      rw [follow_ground tree hroot hempty]
      exact follow_cons_eq_ok.2 ⟨node?_ground hroot, short_of_idle hempty, by
        rw [step_of_idle hempty, follow_ground tree hroot hempty]⟩
    · simp

/-- Nothing is missing on the way of a single piece. -/
theorem locate_first_ne_notFound (hslash : slash ∉ first.bytes) (tree : FileTree) :
    tree.locate (Path.ofReversed first []) ≠ .error .notFound := by
  have hslash' : ∀ r ∈ [first], slash ∉ r.bytes := fun r hr => List.mem_singleton.1 hr ▸ hslash
  intro hmissing
  have hsound := isSound_of_missing (pieces_ofReversed hslash').1 hmissing
  obtain ⟨-, hfollow, -⟩ := ofReversed_spec hslash'
  rw [locate_of_isSound hsound, hfollow] at hmissing
  refine follow_singleton_ne_notFound (node?_ground ?_) first hmissing
  split <;> decide

section Cons

variable (hidle : isIdle piece = false) (hslash : ∀ r ∈ first :: piece :: rest, slash ∉ r.bytes)
include hidle hslash

omit hidle in
theorem slash_of_cons : ∀ r ∈ first :: rest, slash ∉ r.bytes := by
  intro r hr
  refine hslash r ?_
  simp only [List.mem_cons] at hr ⊢
  tauto

theorem pieces_cons_spec : ∃ idle : List RawText, (∀ r ∈ idle, isIdle r = true) ∧
    (Path.ofReversed first (piece :: rest)).pieces =
      (first :: (rest.dropWhile isIdle).reverse) ++ (idle ++ [piece]) ∧
    start (Path.ofReversed first (piece :: rest)) = if first = "" then Location.root else [] := by
  obtain ⟨idle, hidles, hreverse⟩ := exists_idle rest
  refine ⟨idle, hidles, ?_, start_ofReversed hslash⟩
  rw [pieces_ofReversed_cons hidle hslash, hreverse]
  simp

/-- **One name less**: a path can be followed if the path above it leads to a directory, and its name
    is not too long. -/
theorem locate_ofReversed_cons (tree : FileTree)
    (hsound : IsSound (Path.ofReversed first (piece :: rest))) :
    tree.locate (Path.ofReversed first (piece :: rest)) = (do
      tree.follow (← tree.locate (Path.ofReversed first rest)) [piece]) := by
  have hslash' := slash_of_cons hslash
  obtain ⟨idle, hidles, hpieces, hstart⟩ := pieces_cons_spec hidle hslash
  obtain ⟨-, hfollow, -⟩ := ofReversed_spec hslash'
  rw [locate_of_isSound hsound, locate_of_isSound (isSound_of_cons hidle hslash' hsound), hfollow,
    hpieces, hstart, follow_append]
  simp only [follow_idle_append tree _ hidles]

omit hidle in
theorem location_ofReversed_cons : location (Path.ofReversed first (piece :: rest))
    = step (location (Path.ofReversed first rest)) piece := by
  rw [location_ofReversed hslash, location_ofReversed (slash_of_cons hslash), leadsTo,
    leadsTo, List.reverse_cons, List.foldl_append]
  rfl

/-- The places that a path visits are those of the path above, and its own. -/
theorem mem_visited_ofReversed_cons {v : Location} :
    v ∈ visited (start (Path.ofReversed first (piece :: rest)))
        (Path.ofReversed first (piece :: rest)).pieces ↔
      v ∈ visited (start (Path.ofReversed first rest)) (Path.ofReversed first rest).pieces ∨
        v = location (Path.ofReversed first (piece :: rest)) := by
  have hslash' := slash_of_cons hslash
  obtain ⟨idle, hidles, hpieces, hstart⟩ := pieces_cons_spec hidle hslash
  obtain ⟨hvisited, -, -⟩ := ofReversed_spec hslash'
  have hend : (first :: (rest.dropWhile isIdle).reverse).foldl step
      (if first = "" then Location.root else []) = location (Path.ofReversed first rest) := by
    have hempty : isIdle "" = true := by decide
    rw [location_ofReversed hslash', ← leadsTo_dropWhile, leadsTo, List.foldl_cons]
    by_cases hfirst : first = ""
    · rw [if_pos hfirst, if_pos hfirst, hfirst, step_of_idle hempty]
    · rw [if_neg hfirst, if_neg hfirst]
  have hself : location (Path.ofReversed first rest) ∈
      visited (start (Path.ofReversed first rest)) (Path.ofReversed first rest).pieces :=
    foldl_mem_visited _ _
  rw [hpieces, hstart, mem_visited_append, mem_visited_idle_append hidles, hend, ← hvisited v,
    ← location_ofReversed_cons hslash]
  constructor
  · rintro (hv | rfl | hv)
    · exact Or.inl hv
    · exact Or.inl hself
    · exact Or.inr hv
  · rintro (hv | hv)
    · exact Or.inl hv
    · exact Or.inr (Or.inr hv)

/-- What can become a directory, seen from the path above. -/
theorem canBeMade_of_cons {tree : FileTree}
    (h : CanBeMade tree (Path.ofReversed first (piece :: rest))) :
    CanBeMade tree (Path.ofReversed first rest) := by
  have hslash' := slash_of_cons hslash
  obtain ⟨idle, -, hpieces, -⟩ := pieces_cons_spec hidle hslash
  obtain ⟨-, -, hshort⟩ := ofReversed_spec hslash'
  refine ⟨isSound_of_cons hidle hslash' h.sound, hshort.2 fun r hr => h.short r ?_, fun v hv =>
    h.clear v ((mem_visited_ofReversed_cons hidle hslash).2 (Or.inl hv))⟩
  rw [hpieces]
  exact List.mem_append_left _ hr

/-- Nothing is missing on the way of a path below a directory. -/
theorem locate_ne_notFound {tree : FileTree}
    (h : tree.isDirectory (Path.ofReversed first rest) = true) :
    tree.locate (Path.ofReversed first (piece :: rest)) ≠ .error .notFound := by
  intro hmissing
  have hsound := isSound_of_missing (pieces_ofReversed hslash).1 hmissing
  obtain ⟨hlocate, hl⟩ := isDirectory_eq_true.1 h
  rw [locate_ofReversed_cons hidle hslash tree hsound, hlocate, ok_bind] at hmissing
  exact follow_singleton_ne_notFound hl piece hmissing

end Cons

end Chain

/-- The path above another one is made of pieces. -/
theorem exists_ofReversed {p parent : Path} (hparent : p.parent? = some parent)
    (hne : parent.raw ≠ "") : ∃ first reversed,
      (∀ r ∈ first :: reversed, slash ∉ r.bytes) ∧ parent = Path.ofReversed first reversed := by
  obtain ⟨first, rest, hpieces⟩ := exists_pieces p
  rw [Path.parent?, ancestors_eq hpieces] at hparent
  obtain ⟨behind, piece, front, hrest, -, hof⟩ :=
    (mem_above (List.mem_of_getElem? hparent)).resolve_left hne
  refine ⟨first, front, fun r hr => (Path.mem_pieces (p := p) ?_).1, hof⟩
  rw [hpieces]
  rcases List.mem_cons.1 hr with rfl | hr
  · exact List.mem_cons_self
  · refine List.mem_cons_of_mem _ (List.mem_reverse.1 ?_)
    rw [hrest]
    exact List.mem_append_right _ (List.mem_cons_of_mem _ hr)

theorem above_dropWhile (first : RawText) (reversed : List RawText) :
    Path.above first (reversed.dropWhile isIdle) = Path.above first reversed := by
  induction reversed with
  | nil => rfl
  | cons piece rest ih =>
      rw [List.dropWhile_cons, Path.above]
      by_cases hidle : isIdle piece = true
      · rw [if_pos hidle, if_pos hidle, ih]
      · rw [if_neg hidle, if_neg hidle, Path.above, if_neg hidle]

theorem ancestors_ofReversed {first : RawText} {reversed : List RawText}
    (hslash : ∀ r ∈ first :: reversed, slash ∉ r.bytes) :
    (Path.ofReversed first reversed).ancestors
      = Path.ofReversed first reversed :: Path.above first reversed := by
  obtain ⟨-, hpieces | ⟨hfirst, hnone, hpieces⟩⟩ := pieces_ofReversed hslash
  · rw [ancestors_eq hpieces, List.reverse_reverse, above_dropWhile]
  · rw [ancestors_eq hpieces, ← above_dropWhile first reversed, hnone, hfirst]
    rfl

/-- The paths that are made for a path are on its way. -/
theorem mem_visited_of_mem_chain {first : RawText} {reversed : List RawText}
    (hslash : ∀ r ∈ first :: reversed, slash ∉ r.bytes) {q : Path} (hne : q.raw ≠ "")
    (hq : q ∈ Path.ofReversed first reversed :: Path.above first reversed) :
    location q ∈ visited (start (Path.ofReversed first reversed))
      (Path.ofReversed first reversed).pieces := by
  have hself : ∀ p : Path, location p ∈ visited (start p) p.pieces :=
    fun p => foldl_mem_visited _ _
  induction reversed with
  | nil =>
      rcases List.mem_cons.1 hq with rfl | hq
      · exact hself _
      · rw [Path.above] at hq
        split at hq
        · cases hq
        · exact absurd (by rw [List.mem_singleton.1 hq]) hne
  | cons piece rest ih =>
      have hslash' := slash_of_cons hslash
      rcases List.mem_cons.1 hq with rfl | hq
      · exact hself _
      · by_cases hidle : isIdle piece = true
        · have hsame : Path.ofReversed first (piece :: rest) = Path.ofReversed first rest := by
            rw [Path.ofReversed, Path.ofReversed, List.dropWhile_cons, if_pos hidle]
          rw [Path.above, if_pos hidle] at hq
          rw [hsame]
          exact ih hslash' (List.mem_cons_of_mem _ hq)
        · rw [Path.above, if_neg hidle] at hq
          exact (mem_visited_ofReversed_cons (by simpa using hidle) hslash).2 (Or.inl (ih hslash' hq))

-- ── Two names below a path ──

theorem exists_pieces_child {name : RawText} (hslash : slash ∉ name.bytes) (p : Path) :
    ∃ front, (p.child name).pieces = front ++ [name] := by
  by_cases hraw : p.raw = ""
  · refine ⟨[], ?_⟩
    rw [child_of_empty hraw]
    exact splitPieces_name hslash
  · obtain ⟨front, hpieces, -, -⟩ := exists_front (isAbsolute_name hslash) hraw
    exact ⟨front, hpieces.trans (by rw [splitPieces_name hslash])⟩

/-- A name below a path visits the places of the path, and its own. -/
theorem mem_visited_child {name : RawText} (hslash : slash ∉ name.bytes) (p : Path) {v : Location} :
    v ∈ visited (start (p.child name)) (p.child name).pieces ↔
      v ∈ visited (start p) p.pieces ∨ v = location (p.child name) := by
  have hempty : isIdle "" = true := by decide
  by_cases hraw : p.raw = ""
  · have hp : p = ⟨""⟩ := by
      rw [← hraw]
    have hpieces : Path.pieces ⟨name⟩ = [name] := splitPieces_name hslash
    have hstart : start ⟨name⟩ = [] := by
      rw [start, isAbsolute_name hslash]
      rfl
    have hnone : Path.pieces ⟨""⟩ = [("" : RawText)] := by decide
    have hground : start ⟨""⟩ = [] := by decide
    rw [child_of_empty hraw, hp, location, hpieces, hstart, hnone, hground]
    simp [visited, step_of_idle hempty]
  · obtain ⟨front, hpieces, hstart, hfront⟩ := exists_front (isAbsolute_name hslash) hraw
    have hmem : v ∈ visited (start p) p.pieces ↔ v ∈ visited (start p) front := by
      rcases hfront with hfront | hfront
      · rw [hfront]
      · rw [hfront, mem_visited_append]
        have hend := foldl_mem_visited (start p) front
        simp only [visited, step_of_idle hempty, List.mem_cons, List.not_mem_nil, or_false, or_self]
        exact ⟨fun h => h.elim id fun heq => heq ▸ hend, Or.inl⟩
    have hend := foldl_mem_visited (start p) front
    rw [Path.child, location, hpieces, hstart, splitPieces_name hslash, mem_visited_append, hmem,
      List.foldl_append]
    simp only [visited, List.foldl_cons, List.foldl_nil, List.mem_cons, List.not_mem_nil, or_false]
    exact ⟨fun h => h.elim Or.inl fun h => h.elim (fun heq => Or.inl (heq ▸ hend)) Or.inr,
      fun h => h.elim Or.inl fun heq => Or.inr (Or.inr heq)⟩

theorem raw_child_ne {name : RawText} (hslash : slash ∉ name.bytes) (hidle : isIdle name = false)
    (p : Path) : (p.child name).raw ≠ "" := by
  intro hempty
  obtain ⟨front, hfront⟩ := exists_pieces_child hslash p
  have hpieces : (p.child name).pieces = [("" : RawText)] := by
    rw [Path.pieces, hempty]
    rfl
  rw [hpieces] at hfront
  have hlast := congrArg List.getLast? hfront
  rw [List.getLast?_concat] at hlast
  obtain rfl : "" = name := Option.some.inj hlast
  exact absurd hidle (by decide)

/-- The path above a name below a name is the one without the last name, just as it is given. -/
theorem parent?_child_child {first second : RawText} (hslash : slash ∉ first.bytes)
    (hidle : isIdle first = false) (hslash' : slash ∉ second.bytes) (hidle' : isIdle second = false)
    (p : Path) : ((p.child first).child second).parent? = some (p.child first) := by
  have hne : first ≠ "" := fun h => by rw [h] at hidle; exact absurd hidle (by decide)
  have hraw := raw_child_ne hslash hidle p
  obtain ⟨before, hbefore⟩ := exists_pieces_child hslash p
  generalize hq : p.child first = q at hbefore hraw ⊢
  obtain ⟨front, hpieces, -, hfront⟩ := exists_front (isAbsolute_name hslash') hraw
  have hsame : q.pieces = front := by
    refine hfront.resolve_right fun h => ?_
    rw [hbefore] at h
    have hlast := congrArg List.getLast? h
    rw [List.getLast?_concat, List.getLast?_concat] at hlast
    exact hne (Option.some.inj hlast)
  obtain ⟨head, rest, hrest⟩ := exists_pieces q
  have hchild : (q.child second).pieces = head :: (rest ++ [second]) := by
    rw [Path.child, hpieces, ← hsame, hrest, splitPieces_name hslash', List.cons_append]
  have hof : Path.ofReversed head rest.reverse = q := by
    have hjoined := Path.ofPieces_pieces q
    rw [hrest] at hjoined hbefore
    have hlast := congrArg List.getLast? hbefore
    rw [List.getLast?_concat] at hlast
    rcases List.eq_nil_or_concat' rest with rfl | ⟨others, last, rfl⟩
    · obtain rfl : head = first := by simpa using hlast
      rw [List.reverse_nil, Path.ofReversed, List.dropWhile_nil]
      simp only [beq_iff_eq, if_neg hne]
      rw [← Path.ofPieces_singleton, hjoined]
    · obtain rfl : last = first := by
        rw [← List.cons_append, List.getLast?_concat] at hlast
        exact Option.some.inj hlast
      rw [List.reverse_append, List.reverse_singleton, List.singleton_append,
        ofReversed_cons hidle, List.reverse_reverse, hjoined]
  rw [Path.parent?, ancestors_eq hchild, List.reverse_append, List.reverse_singleton,
    List.singleton_append, Path.above, if_neg (by simp [hidle']), hof]
  rfl

end ModelCatalog.FileTree
