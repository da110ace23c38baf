import ModelCatalog.FileTree.Lookup

/-! # Where paths lead

    The location of a path is read off its pieces: idle ones do not count, and without `..` each of
    the others adds one name (`foldl_step_of_neverUp`).  Two things follow that the texts of paths do
    not show at once: paths with the same components lead to one location (`location_of_same`), and
    the paths above a path lead to the directories above its location
    (`isAbove_of_mem_parent_ancestors`).  A path that is continued leads on from there
    (`location_join`). -/

namespace ModelCatalog

def Path.NeverUp (p : Path) : Prop := (".." : RawText) ∉ p.pieces

instance (p : Path) : Decidable p.NeverUp := inferInstanceAs (Decidable ((".." : RawText) ∉ p.pieces))

namespace Location

theorem IsAbove.trans {l k j : Location} (h : IsAbove l k) (h' : IsAbove k j) : IsAbove l j := by
  obtain ⟨name, rest, rfl⟩ := h
  obtain ⟨name', rest', rfl⟩ := h'
  exact ⟨name, rest ++ name' :: rest', by simp⟩

end Location

namespace FileTree

open ModelCatalog.Path (isIdle)
open RawText (slash)

-- ── Steps ──

theorem step_of_idle {l : Location} {piece : RawText} (h : isIdle piece = true) :
    step l piece = l := by
  rw [step, if_pos h]

theorem step_of_name {l : Location} {piece : RawText} (hidle : isIdle piece = false)
    (hup : piece ≠ "..") : step l piece = l ++ [piece] := by
  rw [step, if_neg (by simp [hidle]), if_neg (by simpa using hup)]

theorem foldl_step_filter (pieces : List RawText) (l : Location) :
    (pieces.filter (!isIdle ·)).foldl step l = pieces.foldl step l := by
  induction pieces generalizing l with
  | nil => rfl
  | cons piece rest ih =>
      rw [List.filter_cons]
      by_cases h : isIdle piece = true
      · rw [if_neg (by simp [h]), ih, List.foldl_cons, step_of_idle h]
      · rw [if_pos (by simp [h]), List.foldl_cons, ih, List.foldl_cons]

/-- Without `..`, the pieces that count are the names on the way. -/
theorem foldl_step_of_neverUp {pieces : List RawText} (h : (".." : RawText) ∉ pieces) (l : Location) :
    pieces.foldl step l = l ++ pieces.filter (!isIdle ·) := by
  induction pieces generalizing l with
  | nil => simp
  | cons piece rest ih =>
      have hup : piece ≠ ".." := fun heq => h (heq ▸ List.mem_cons_self)
      have hrest : (".." : RawText) ∉ rest := fun hmem => h (List.mem_cons_of_mem _ hmem)
      rw [List.foldl_cons, ih hrest, List.filter_cons]
      by_cases hidle : isIdle piece = true
      · rw [step_of_idle hidle, if_neg (by simp [hidle])]
      · rw [step_of_name (by simpa using hidle) hup, if_pos (by simp [hidle])]
        simp

-- ── Paths of pieces ──

/-- The location by a first piece and the others: an empty first piece means the root. -/
def leadsTo (first : RawText) (rest : List RawText) : Location :=
  rest.foldl step (if first = "" then .root else step [] first)

theorem pieces_ofPieces {first : RawText} {rest : List RawText}
    (h : ∀ piece ∈ first :: rest, slash ∉ piece.bytes) :
    (Path.ofPieces (first :: rest)).pieces = first :: rest := by
  rw [Path.pieces, Path.splitPieces, Path.ofPieces, List.splitOn_intercalate slash _ (by simp)]
  · rw [List.map_map]
    exact List.map_id _
  · intro part hpart
    obtain ⟨piece, hpiece, rfl⟩ := List.mem_map.1 hpart
    exact h piece hpiece

/-- A path is absolute if its first piece is empty, unless there is nothing in it at all. -/
theorem isAbsolute_eq {p : Path} {first : RawText} {rest : List RawText}
    (hpieces : p.pieces = first :: rest) (hne : p.raw ≠ "") :
    p.isAbsolute = decide (first = "") := by
  rw [Path.isAbsolute]
  rw [Path.pieces, Path.splitPieces] at hpieces
  cases hbytes : p.raw.bytes with
  | nil => exact absurd (RawText.eq_empty_iff.2 hbytes) hne
  | cons c cs =>
      rw [hbytes, List.splitOn_cons_eq_if_modifyHead] at hpieces
      by_cases hc : c = slash
      · rw [if_pos (by simp [hc])] at hpieces
        obtain rfl : "" = first := (List.cons.inj hpieces).1
        simp [hc]
      · rw [if_neg (by simp [hc])] at hpieces
        obtain ⟨part, parts, hsplit⟩ := List.exists_cons_of_ne_nil (List.splitOn_ne_nil slash cs)
        rw [hsplit] at hpieces
        obtain rfl : RawText.mk (c :: part) = first := (List.cons.inj hpieces).1
        simp [hc, RawText.eq_empty_iff]

theorem location_eq_leadsTo {p : Path} {first : RawText} {rest : List RawText}
    (hpieces : p.pieces = first :: rest) (hne : p.raw ≠ "") :
    location p = leadsTo first rest := by
  rw [location, start, leadsTo, isAbsolute_eq hpieces hne, hpieces, List.foldl_cons]
  by_cases hfirst : first = ""
  · rw [hfirst, step_of_idle (by decide)]
    rfl
  · rw [if_neg hfirst, if_neg (by simpa using hfirst)]

-- ── The paths above a path ──

theorem leadsTo_dropWhile (first : RawText) (reversed : List RawText) :
    leadsTo first (reversed.dropWhile isIdle).reverse = leadsTo first reversed.reverse := by
  induction reversed with
  | nil => rfl
  | cons piece rest ih =>
      rw [List.dropWhile_cons]
      by_cases h : isIdle piece = true
      · rw [if_pos h, ih, leadsTo, leadsTo, List.reverse_cons, List.foldl_append]
        exact (step_of_idle h).symm
      · rw [if_neg h]

theorem pieces_ofReversed {first : RawText} {reversed : List RawText}
    (h : ∀ piece ∈ first :: reversed, slash ∉ piece.bytes) :
    (Path.ofReversed first reversed).raw ≠ "" ∧
      ((Path.ofReversed first reversed).pieces = first :: (reversed.dropWhile isIdle).reverse ∨
        first = "" ∧ (reversed.dropWhile isIdle) = [] ∧
          (Path.ofReversed first reversed).pieces = (["", ""] : List RawText)) := by
  rw [Path.ofReversed]
  cases hrest : reversed.dropWhile isIdle with
  | nil =>
      by_cases hfirst : first = ""
      · rw [hfirst]
        exact ⟨by decide, Or.inr ⟨rfl, rfl, by decide⟩⟩
      · simp only [beq_iff_eq, if_neg hfirst]
        refine ⟨hfirst, Or.inl ?_⟩
        have hone : (Path.ofPieces [first]).pieces = [first] := by
          refine pieces_ofPieces fun piece hpiece => h piece ?_
          rw [List.mem_singleton.1 hpiece]
          exact List.mem_cons_self
        rwa [Path.ofPieces_singleton] at hone
  | cons piece rest =>
      have hsub : ∀ q ∈ piece :: rest, q ∈ reversed := fun q hq =>
        (List.dropWhile_suffix isIdle).subset (hrest ▸ hq)
      refine ⟨?_, Or.inl (pieces_ofPieces fun q hq => ?_)⟩
      · obtain ⟨a, as, hrev⟩ := List.exists_cons_of_ne_nil
          (show (piece :: rest).reverse ≠ [] by simp)
        dsimp only
        rw [hrev, Ne, RawText.eq_empty_iff, Path.ofPieces]
        simp
      · rcases List.mem_cons.1 hq with rfl | hq
        · exact h _ List.mem_cons_self
        · exact h q (List.mem_cons_of_mem _ (hsub q (List.mem_reverse.1 hq)))

/-- A path that is made of pieces leads where they lead. -/
theorem location_ofReversed {first : RawText} {reversed : List RawText}
    (h : ∀ piece ∈ first :: reversed, slash ∉ piece.bytes) :
    location (Path.ofReversed first reversed) = leadsTo first reversed.reverse := by
  rw [← leadsTo_dropWhile]
  obtain ⟨hne, hpieces | ⟨hfirst, hnone, hpieces⟩⟩ := pieces_ofReversed h
  · exact location_eq_leadsTo hpieces hne
  · rw [location_eq_leadsTo hpieces hne, hfirst, hnone]
    rfl

/-- A path above one with some pieces is empty or is made of those before a name. -/
theorem mem_above {first : RawText} {reversed : List RawText} {q : Path}
    (h : q ∈ Path.above first reversed) :
    q.raw = "" ∨ ∃ behind piece rest, reversed = behind ++ piece :: rest ∧
      isIdle piece = false ∧ q = Path.ofReversed first rest := by
  induction reversed with
  | nil =>
      rw [Path.above] at h
      split at h
      · exact nomatch h
      · exact Or.inl (by rw [List.mem_singleton.1 h])
  | cons piece rest ih =>
      have hbehind : q ∈ Path.above first rest → q.raw = "" ∨ ∃ behind name others,
          piece :: rest = behind ++ name :: others ∧ isIdle name = false ∧
            q = Path.ofReversed first others := by
        intro hq
        rcases ih hq with hempty | ⟨behind, name, others, heq, hname, hof⟩
        · exact Or.inl hempty
        · exact Or.inr ⟨piece :: behind, name, others, by rw [heq]; rfl, hname, hof⟩
      rw [Path.above] at h
      by_cases hidle : isIdle piece = true
      · rw [if_pos hidle] at h
        exact hbehind h
      · rw [if_neg hidle] at h
        rcases List.mem_cons.1 h with h | h
        · exact Or.inr ⟨[], piece, rest, rfl, by simpa using hidle, h⟩
        · exact hbehind h

/-- Above a path that never leads up are only such paths, and they lead to the directories above. -/
theorem isAbove_of_mem_above {p q : Path} {first : RawText} {rest : List RawText}
    (hp : p.NeverUp) (hraw : p.raw ≠ "") (hpieces : p.pieces = first :: rest)
    (hq : q ∈ Path.above first rest.reverse) (hne : q.raw ≠ "") :
    q.NeverUp ∧ Location.IsAbove (location q) (location p) := by
  obtain ⟨behind, piece, front, hrest, hidle, rfl⟩ := (mem_above hq).resolve_left hne
  have hrest' : rest = front.reverse ++ piece :: behind.reverse := by
    rw [← List.reverse_reverse rest, hrest]
    simp
  have hslash : ∀ r ∈ first :: front, slash ∉ r.bytes := by
    intro r hr
    refine (Path.mem_pieces (p := p) ?_).1
    rw [hpieces, hrest']
    rcases List.mem_cons.1 hr with rfl | hr
    · exact List.mem_cons_self
    · exact List.mem_cons_of_mem _ (List.mem_append_left _ (List.mem_reverse.2 hr))
  have hups : (".." : RawText) ∉ first :: rest := hpieces ▸ hp
  have hup : piece ≠ ".." := by
    intro heq
    exact hups (List.mem_cons_of_mem _ (hrest' ▸ heq ▸ List.mem_append_right _ List.mem_cons_self))
  constructor
  · intro hmem
    obtain ⟨-, hq' | ⟨-, -, hq'⟩⟩ := pieces_ofReversed hslash
    · rw [hq'] at hmem
      rcases List.mem_cons.1 hmem with heq | hmem
      · exact hups (heq ▸ List.mem_cons_self)
      · have hfront := (List.dropWhile_suffix isIdle).subset (List.mem_reverse.1 hmem)
        exact hups (List.mem_cons_of_mem _
          (hrest' ▸ List.mem_append_left _ (List.mem_reverse.2 hfront)))
    · rw [hq'] at hmem
      simp at hmem
  · rw [location_ofReversed hslash, location_eq_leadsTo hpieces hraw, hrest', leadsTo, leadsTo,
      List.foldl_append, List.foldl_cons, step_of_name hidle hup]
    refine ⟨piece, behind.reverse.filter (!isIdle ·), ?_⟩
    have hbehind : (".." : RawText) ∉ behind.reverse := fun hmem =>
      hups (List.mem_cons_of_mem _
        (hrest' ▸ List.mem_append_right _ (List.mem_cons_of_mem _ hmem)))
    rw [foldl_step_of_neverUp hbehind]
    simp

theorem ancestors_of_empty {p : Path} (h : p.raw = "") : p.ancestors = [p] := by
  obtain ⟨raw⟩ := p
  obtain rfl : raw = "" := h
  decide

theorem ancestors_eq {p : Path} {first : RawText} {rest : List RawText}
    (hpieces : p.pieces = first :: rest) : p.ancestors = p :: Path.above first rest.reverse := by
  rw [Path.ancestors, hpieces]

theorem exists_pieces (p : Path) : ∃ first rest, p.pieces = first :: rest := by
  refine List.exists_cons_of_ne_nil ?_
  simp [Path.pieces, Path.splitPieces]

/-- **The directories that are made for a path lie above its location**, if it never leads up. -/
theorem isAbove_of_mem_parent_ancestors {p parent q : Path} (hp : p.NeverUp)
    (hparent : p.parent? = some parent) (hq : q ∈ parent.ancestors) (hne : q.raw ≠ "") :
    Location.IsAbove (location q) (location p) := by
  obtain ⟨first, rest, hpieces⟩ := exists_pieces p
  rw [Path.parent?, ancestors_eq hpieces] at hparent
  have hmem : parent ∈ Path.above first rest.reverse := List.mem_of_getElem? hparent
  have hraw : p.raw ≠ "" := by
    intro hempty
    have hnone := ancestors_of_empty hempty
    rw [ancestors_eq hpieces] at hnone
    rw [(List.cons.inj hnone).2] at hmem
    exact nomatch hmem
  by_cases hempty : parent.raw = ""
  · rw [ancestors_of_empty hempty, List.mem_singleton] at hq
    exact absurd (hq ▸ hempty) hne
  · obtain ⟨hup, habove⟩ := isAbove_of_mem_above hp hraw hpieces hmem hempty
    obtain ⟨first', rest', hpieces'⟩ := exists_pieces parent
    rw [ancestors_eq hpieces'] at hq
    rcases List.mem_cons.1 hq with rfl | hq
    · exact habove
    · exact (isAbove_of_mem_above hup hempty hpieces' hq hne).2.trans habove

-- ── Paths with the same components ──

/-- The components of a path tell where it leads. -/
theorem location_eq_of_components (p : Path) :
    location p = match p.components with
      | [] => []
      | first :: rest => leadsTo first rest := by
  obtain ⟨first, rest, hpieces⟩ := exists_pieces p
  by_cases hne : p.raw = ""
  · obtain ⟨raw⟩ := p
    obtain rfl : raw = "" := hne
    decide
  · have hcomponents : p.components = first :: rest.filter (!isIdle ·) := by
      rw [Path.components, hpieces]
      simp [isAbsolute_eq hpieces hne]
    rw [hcomponents, location_eq_leadsTo hpieces hne]
    exact (foldl_step_filter rest _).symm

/-- **Paths with the same components lead to one location.** -/
theorem location_of_same {p q : Path} (h : p.same q = true) : location p = location q := by
  have hcomponents : p.components = q.components := by simpa [Path.same] using h
  rw [location_eq_of_components, location_eq_of_components, hcomponents]

theorem same_refl (p : Path) : p.same p = true := by simp [Path.same]

-- ── Continued paths ──

theorem splitPieces_append (before behind : List UInt8) :
    Path.splitPieces (before ++ slash :: behind)
      = Path.splitPieces before ++ Path.splitPieces behind := by
  rw [Path.splitPieces, List.splitOn_append_cons_self, List.map_append]
  rfl

theorem splitPieces_name {name : RawText} (h : slash ∉ name.bytes) :
    Path.splitPieces name.bytes = [name] := by
  rw [Path.splitPieces, List.splitOn_eq_singleton h, List.map_singleton]

theorem up_notMem_name {name : RawText} (hslash : slash ∉ name.bytes) (hup : name ≠ "..") :
    (".." : RawText) ∉ Path.splitPieces name.bytes := by
  rw [splitPieces_name hslash, List.mem_singleton]
  exact hup.symm

theorem isAbsolute_name {name : RawText} (h : slash ∉ name.bytes) :
    Path.isAbsolute ⟨name⟩ = false := by
  rw [Path.isAbsolute]
  cases hname : name.bytes with
  | nil => rfl
  | cons c cs =>
      have hc : c ≠ slash := fun heq => h (hname ▸ heq ▸ List.mem_cons_self)
      simpa using hc

/-- The pieces of a path that is continued: a slash at its end counts for nothing. -/
theorem exists_front {p : Path} {r : RawText} (hrelative : Path.isAbsolute ⟨r⟩ = false)
    (hne : p.raw ≠ "") :
    ∃ front, (p / (⟨r⟩ : Path)).pieces = front ++ Path.splitPieces r.bytes ∧
      start (p / (⟨r⟩ : Path)) = start p ∧
        (p.pieces = front ∨ p.pieces = front ++ [("" : RawText)]) := by
  have hnil : p.raw.bytes ≠ [] := fun h => hne (RawText.eq_empty_iff.2 h)
  have hjoin : (p / (⟨r⟩ : Path)).raw.bytes =
      if p.raw.bytes.getLast? = some slash then p.raw.bytes ++ r.bytes
      else p.raw.bytes ++ slash :: r.bytes := by
    show (Path.join p ⟨r⟩).raw.bytes = _
    rw [Path.join, hrelative, if_neg Bool.false_ne_true]
    by_cases hlast : p.raw.bytes.getLast? = some slash
    · rw [if_pos (by simp [hlast]), if_pos hlast, RawText.bytes_append]
    · rw [if_neg (by simp [hlast, hne]), if_neg hlast, RawText.bytes_append, RawText.bytes_append,
        List.append_assoc]
      rfl
  have hstart : start (p / (⟨r⟩ : Path)) = start p := by
    have hhead : (p / (⟨r⟩ : Path)).raw.bytes.head? = p.raw.bytes.head? := by
      obtain ⟨c, cs, hbytes⟩ := List.exists_cons_of_ne_nil hnil
      rw [hjoin, hbytes]
      split <;> rfl
    rw [start, start, Path.isAbsolute, Path.isAbsolute, hhead]
  by_cases hlast : p.raw.bytes.getLast? = some slash
  · rw [if_pos hlast] at hjoin
    obtain ⟨before, hbefore⟩ := List.getLast?_eq_some_iff.1 hlast
    refine ⟨Path.splitPieces before, ?_, hstart, Or.inr ?_⟩
    · rw [Path.pieces, hjoin, hbefore, List.append_assoc, List.singleton_append, splitPieces_append]
    · rw [Path.pieces, hbefore, splitPieces_append]
      rfl
  · rw [if_neg hlast] at hjoin
    refine ⟨p.pieces, ?_, hstart, Or.inl rfl⟩
    rw [Path.pieces, hjoin, splitPieces_append]
    rfl

/-- Whatever continues a path leads on from where it leads. -/
theorem location_join {p : Path} {r : RawText} (hrelative : Path.isAbsolute ⟨r⟩ = false)
    (hne : p.raw ≠ "") :
    location (p / (⟨r⟩ : Path)) = (Path.splitPieces r.bytes).foldl step (location p) := by
  obtain ⟨front, hpieces, hstart, hfront⟩ := exists_front hrelative hne
  have hto : front.foldl step (start p) = location p := by
    rcases hfront with hfront | hfront
    · rw [location, hfront]
    · have hempty : isIdle "" = true := by decide
      rw [location, hfront, List.foldl_append]
      exact (step_of_idle hempty).symm
  rw [location, hpieces, hstart, List.foldl_append, hto]

theorem child_of_empty {p : Path} (hne : p.raw = "") (name : RawText) : p.child name = ⟨name⟩ := by
  show Path.join p ⟨name⟩ = _
  rw [Path.join]
  split
  · rfl
  · rw [if_pos (by simp [hne]), hne, RawText.empty_append]

/-- **A name leads one step further**, however the text of the path ends. -/
theorem location_child {p : Path} {name : RawText} (hslash : slash ∉ name.bytes)
    (hidle : isIdle name = false) (hup : name ≠ "..") :
    location (p.child name) = location p ++ [name] := by
  have hrelative := isAbsolute_name hslash
  by_cases hne : p.raw = ""
  · have hp : location p = [] := by
      obtain ⟨raw⟩ := p
      obtain rfl : raw = "" := hne
      decide
    have hstart : start ⟨name⟩ = [] := by
      rw [start, hrelative, if_neg Bool.false_ne_true]
    rw [child_of_empty hne, hp, location, hstart, Path.pieces, splitPieces_name hslash,
      List.foldl_cons, step_of_name hidle hup]
    rfl
  · rw [Path.child, location_join hrelative hne, splitPieces_name hslash, List.foldl_cons,
      step_of_name hidle hup]
    rfl

-- ── Following in another tree ──

/-- Pieces that lead to something in a tree can be followed there, if they can be in another tree
    where they lead to no directory. -/
theorem follow_of_node? {tree other : FileTree} {l k : Location} {pieces : List RawText} {n : Node}
    (hup : (".." : RawText) ∉ pieces) (hother : other.follow l pieces = .ok k)
    (hfile : other.node? k ≠ some .directory) (hn : tree.node? k = some n) :
    tree.follow l pieces = .ok k := by
  induction pieces generalizing l with
  | nil => exact hother
  | cons piece rest ih =>
      obtain ⟨hdir, hsize, hrest⟩ := follow_cons_eq_ok.1 hother
      have hk : k = l ++ (piece :: rest).filter (!isIdle ·) :=
        (eq_foldl_of_follow hother).trans (foldl_step_of_neverUp hup l)
      have habove : l.IsAbove k := by
        cases hnames : (piece :: rest).filter (!isIdle ·) with
        | nil =>
            rw [hnames, List.append_nil] at hk
            exact absurd (hk ▸ hdir) hfile
        | cons name names => exact ⟨name, names, by rw [hk, hnames]⟩
      exact follow_cons_eq_ok.2 ⟨node?_of_isAbove habove hn, hsize,
        ih (fun hmem => hup (List.mem_cons_of_mem _ hmem)) hrest⟩

theorem locate_of_node? {tree other : FileTree} {p : Path} {l : Location} {n : Node}
    (hup : p.NeverUp) (hother : other.locate p = .ok l) (hfile : other.node? l ≠ some .directory)
    (hn : tree.node? l = some n) : tree.locate p = .ok l := by
  obtain ⟨hsound, hfollow⟩ := locate_eq_ok.1 hother
  exact locate_eq_ok.2 ⟨hsound, follow_of_node? hup hfollow hfile hn⟩

end FileTree

end ModelCatalog
