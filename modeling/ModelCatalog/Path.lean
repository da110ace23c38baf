import ModelCatalog.Text.Parts
import ModelCatalog.Text.Raw

/-! # Paths

    A path is the raw text that names a file, with `/` between its pieces.  It is kept as it was
    given: two raw texts can name the same place, and what is shown is always the one that was given.
    Empty pieces and `.` are of no importance, except that an empty first piece means the root and a
    `.` at the very start is kept. -/

namespace ModelCatalog

structure Path where ofRaw ::
  raw : RawText
  deriving DecidableEq, Inhabited, Repr

namespace Path

open RawText (slash nul)

/-- The path that a text is. -/
def mk (text : String) : Path := ⟨text⟩

/-- A path as it is shown. -/
def text (p : Path) : String := p.raw.display

/-- The pieces between the slashes of a raw text. -/
def splitPieces (bytes : List UInt8) : List RawText := (bytes.splitOn slash).map .mk

/-- The pieces of a path, the unimportant ones included. -/
def pieces (p : Path) : List RawText := splitPieces p.raw.bytes

/-- No slash is in a piece, and what is in it was in the path. -/
theorem mem_pieces {p : Path} {piece : RawText} (h : piece ∈ p.pieces) :
    slash ∉ piece.bytes ∧ ∀ c ∈ piece.bytes, c ∈ p.raw.bytes := by
  obtain ⟨part, hpart, rfl⟩ := List.mem_map.1 h
  exact mem_splitOn hpart

/-- The path of these pieces, with slashes between them. -/
def ofPieces (pieces : List RawText) : Path := ⟨⟨[slash].intercalate (pieces.map (·.bytes))⟩⟩

theorem ofPieces_singleton (piece : RawText) : ofPieces [piece] = ⟨piece⟩ :=
  congrArg ofRaw (RawText.ext (by simp))

/-- Pieces behind others are behind their path and a slash. -/
theorem ofPieces_append {front back : List RawText} (hfront : front ≠ []) (hback : back ≠ []) :
    (ofPieces (front ++ back)).raw = (ofPieces front).raw ++ ("/" ++ (ofPieces back).raw) := by
  have hcons : ∀ (piece : RawText) (rest : List RawText), rest ≠ [] →
      (ofPieces (piece :: rest)).raw = piece ++ ("/" ++ (ofPieces rest).raw) := by
    intro piece rest hrest
    obtain ⟨next, others, rfl⟩ := List.exists_cons_of_ne_nil hrest
    refine RawText.ext ?_
    rw [ofPieces, List.map_cons, List.map_cons, List.intercalate_cons_cons, ← List.map_cons]
    exact List.append_assoc ..
  induction front with
  | nil => exact absurd rfl hfront
  | cons piece rest ih =>
    by_cases hrest : rest = []
    · rw [hrest, List.singleton_append, hcons piece back hback, ofPieces_singleton]
    · rw [List.cons_append, hcons piece _ (by simp [hrest]), ih hrest, hcons piece rest hrest]
      exact RawText.ext (by simp)

/-- A path is made of its pieces. -/
theorem ofPieces_pieces (p : Path) : ofPieces p.pieces = p := by
  refine congrArg ofRaw (RawText.ext ?_)
  rw [pieces, splitPieces, List.map_map]
  exact (congrArg _ (List.map_id _)).trans (List.intercalate_splitOn slash)

/-- A piece that leads nowhere else. -/
def isIdle (piece : RawText) : Bool := piece == "" || piece == "."

def isAbsolute (p : Path) : Bool := p.raw.bytes.head? == some slash

/-- Whether NUL is in the path, which no file can have in its name. -/
def hasNul (p : Path) : Bool := p.raw.bytes.contains nul

/-- The path `q` seen from `p`: an absolute path stays what it is. -/
def join (p q : Path) : Path :=
  if q.isAbsolute then q
  else if p.raw == "" || p.raw.bytes.getLast? == some slash then ⟨p.raw ++ q.raw⟩
  else ⟨p.raw ++ "/" ++ q.raw⟩

instance : Div Path := ⟨join⟩

/-- One name below a path. -/
def child (p : Path) (name : RawText) : Path := p / ⟨name⟩

/-- A first piece and the others, the last one first, without idle pieces at the end. -/
def ofReversed (first : RawText) (reversed : List RawText) : Path :=
  match reversed.dropWhile isIdle with
  | [] => if first == "" then ⟨"/"⟩ else ⟨first⟩
  | rest => ofPieces (first :: rest.reverse)

/-- The paths above the one with these pieces, the nearest first. -/
def above (first : RawText) : List RawText → List Path
  | [] => if first == "" then [] else [⟨""⟩]
  | piece :: rest =>
    if isIdle piece then above first rest else ofReversed first rest :: above first rest

/-- A path and all above it, the nearest first. -/
def ancestors (p : Path) : List Path :=
  match p.pieces with
  | [] => [p]
  | first :: rest => p :: above first rest.reverse

def parent? (p : Path) : Option Path := p.ancestors[1]?

/-- The pieces that tell paths apart. -/
def components (p : Path) : List RawText :=
  match p.pieces with
  | [] => []
  | first :: rest =>
    if first == "" && !p.isAbsolute then [] else first :: rest.filter (!isIdle ·)

/-- Whether two paths have the same components.  This does not look at any file. -/
def same (p q : Path) : Bool := p.components == q.components

end Path

-- ── File names ──

namespace FileName

/-- The parts of a name before and behind its last dot.  A name without a dot, or with its only dot
    in front, has no second part. -/
def split (name : RawText) : RawText × Option RawText :=
  let reversed := name.bytes.reverse
  let extension := reversed.takeWhile (· != RawText.dot)
  match reversed.dropWhile (· != RawText.dot) with
  | [] | [_] => (name, none)
  | _ :: stem => (⟨stem.reverse⟩, some ⟨extension.reverse⟩)

def stem (name : RawText) : RawText := (split name).1

/-- What stands behind the last dot. -/
def extension? (name : RawText) : Option RawText := (split name).2

end FileName

end ModelCatalog
