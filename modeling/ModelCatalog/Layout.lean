/-! # Layout of code

    Code is laid out in lines of bounded width.  A `Doc` says where a line may be broken: the breaks
    of a group are either all taken or none of them, and they are taken if the group, together with
    what follows it up to the next place where the line can end, is too wide.  Groups are decided
    from the outside in, so that of two nested groups the outer one breaks first. -/

namespace ModelCatalog

/-- Text with places where lines may end. -/
inductive Doc where
  /-- Text that is kept together. -/
  | text (s : String)
  | line
  /-- A break of the group around it: `flat` if it is not taken, otherwise `closing` and the end of
      the line. -/
  | soft (flat closing : String)
  /-- A place that ends the measure of what stands before it, though the line goes on. -/
  | pause
  /-- Lines that start inside are indented by one more step. -/
  | nest (parts : List Doc)
  /-- Breaks that are taken together.  The group itself may have to be narrower than the line. -/
  | group (limit : Option Nat) (parts : List Doc)

namespace Doc

/-- The greatest width of a line, in bytes. -/
def lineWidth : Nat := 89

/-- The width of one step of indentation. -/
def step : Nat := 4

mutual

/-- The width of a document without its breaks. -/
def width : Doc → Nat
  | .text s => s.utf8ByteSize
  | .line => 0
  | .soft flat _ => flat.utf8ByteSize
  | .pause => 0
  | .nest parts => widthAll parts
  | .group _ parts => widthAll parts

def widthAll : List Doc → Nat
  | [] => 0
  | d :: rest => width d + widthAll rest

end

mutual

/-- The width up to the first break outside of inner groups, and whether there is one. -/
def lead : Doc → Nat × Bool
  | .text s => (s.utf8ByteSize, false)
  | .line | .soft _ _ | .pause => (0, true)
  | .nest parts => leadAll parts
  | .group _ parts => (widthAll parts, false)

def leadAll : List Doc → Nat × Bool
  | [] => (0, false)
  | d :: rest =>
    match lead d with
    | (n, true) => (n, true)
    | (n, false) =>
      let (m, ended) := leadAll rest
      (n + m, ended)

end

/-- The width of what follows, where `tail` is the width of what comes after that. -/
def follow (rest : List Doc) (tail : Nat) : Nat :=
  match leadAll rest with
  | (n, true) => n
  | (n, false) => n + tail

/-- The end of a line and the indentation of the next one. -/
def newline (indent : Nat) : List Char := '\n' :: List.replicate indent ' '

mutual

/-- Lays a document out, and gives the column behind it.  `broken` tells whether the breaks of the
    group around it are taken, `tail` is the width of what follows it. -/
def layout (indent : Nat) (broken : Bool) (tail column : Nat) : Doc → List Char × Nat
  | .text s => (s.toList, column + s.utf8ByteSize)
  | .line => (newline indent, indent)
  | .soft flat closing =>
    if broken then (closing.toList ++ newline indent, indent)
    else (flat.toList, column + flat.utf8ByteSize)
  | .pause => ([], column)
  | .nest parts => layoutAll (indent + step) broken tail column parts
  | .group limit parts =>
    let fits := column + widthAll parts + tail ≤ lineWidth ∧ limit.all (widthAll parts ≤ ·)
    layoutAll indent (!decide fits) tail column parts

def layoutAll (indent : Nat) (broken : Bool) (tail column : Nat) : List Doc → List Char × Nat
  | [] => ([], column)
  | d :: rest =>
    let (s, column) := layout indent broken (follow rest tail) column d
    let (t, column) := layoutAll indent broken tail column rest
    (s ++ t, column)

end

/-- The text of lines, each of them a row of documents. -/
def render (lines : List (List Doc)) : String :=
  .ofList (layoutAll 0 true 0 0 (lines.flatMap (· ++ [.line]))).1

-- ── Shapes of code ──

/-- Items between two brackets with commas between them, one a line if the brackets are broken, in
    which case a comma follows the last one, too.  `gap` stands inside the brackets otherwise. -/
def brackets (limit : Option Nat) (opening gap closing : String) (items : List Doc) : Doc :=
  .group limit
    [.text opening,
     .nest (.soft gap "" :: (items.flatMap fun d => [.text ",", .soft " " "", d]).drop 2),
     .soft gap ",",
     .text closing]

end Doc

end ModelCatalog
