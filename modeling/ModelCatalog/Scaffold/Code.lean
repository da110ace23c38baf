import ModelCatalog.Layout
import ModelCatalog.Text.Literal

/-! # Pieces of code

    The shapes that declarations are built of: blocks, lists in brackets, calls, comments. -/

namespace ModelCatalog.Scaffold

instance : Coe String Doc := ⟨.text⟩

/-- Documents in a row that stand on a line. -/
abbrev Line := List Doc

/-- A block: a line that opens it, its lines, and what closes it. -/
def block (head : Line) (body : List Line) : Line :=
  head ++ ([" \x7b", .nest (body.flatMap (.line :: ·)), .line, "\x7d"] : Line)

/-- A list in angle brackets. -/
def angles (item : Line) : Doc :=
  .group none ["<", .nest (.soft "" "" :: item), .soft "" ",", ">"]

def arguments (items : List Doc) : Doc := Doc.brackets none "(" "" ")" items

/-- A record with fields; it may not be wide. -/
def fields (limit : Option Nat) (name : String) (items : List Doc) : Doc :=
  Doc.brackets limit (name ++ " \x7b") " " "\x7d" items

/-- The greatest width of a record value on one line. -/
def recordWidth : Nat := 35

/-- A value with a call on it, which may go to a line of its own. -/
def call (value : Line) (method : String) : Doc :=
  .group none [.nest (value ++ ([.soft "" "", .text method] : Line))]

/-- Whether the marks that open and close comments are balanced in a text, when so many comments
    are open before it. -/
def isBalanced : Nat → List Char → Bool
  | depth, '/' :: '*' :: rest => isBalanced (depth + 1) rest
  | 0, '*' :: '/' :: _ => false
  | depth + 1, '*' :: '/' :: rest => isBalanced depth rest
  | depth, _ :: rest => isBalanced depth rest
  | depth, [] => depth == 0

/-- Whether a text can stand between the marks of a comment.  Its ends must not make other marks of
    them. -/
def fitsComment (text : List Char) : Bool :=
  isBalanced 0 text && text.getLast? != some '/' && text.head? != some '*' && text.head? != some '/'

/-- A text without the spaces at its end. -/
def trimEnd (text : List Char) : List Char := (text.reverse.dropWhile (· == ' ')).reverse

/-- A text in which no line but the last ends in spaces. -/
def trimLines (text : List Char) : List Char :=
  let lines := text.splitOn '\n'
  List.intercalate ['\n'] (lines.dropLast.map trimEnd ++ lines.drop (lines.length - 1))

/-- A comment that documents what follows it: one line, or several lines between marks, or an
    attribute where the text would break these.  Spaces at the ends of lines are left out, except
    before the closing mark. -/
def documentation (text : String) : Line :=
  let inside := text.toList
  if !inside.contains '\n' && inside.head? != some '/' then
    [.text ("///" ++ .ofList (trimEnd inside))]
  else if fitsComment inside then [.text ("/**" ++ .ofList (trimLines inside) ++ "*/")]
  else [.text ("#[doc = " ++ Text.quoteStrict text ++ "]")]

/-- A head that implements a trait for a type.  The type may go to a line of its own. -/
def implementation (trait : Line) (type : Line) : Doc :=
  let subject : Line := .soft " " "" :: "for " :: type
  .group none (.text "impl" :: (trait ++ subject))

end ModelCatalog.Scaffold
