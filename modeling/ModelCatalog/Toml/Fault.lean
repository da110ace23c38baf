import ModelCatalog.Decimal.Positional
import ModelCatalog.Source
import ModelCatalog.Text.Literal
import ModelCatalog.Toml.Complaint
import ModelCatalog.Toml.Place

/-! # What can be wrong with a TOML text

    A text can fail to be TOML, and TOML can fail to have the shape that a record asks for.  Either
    way a `Fault` tells what is wrong at which place of the text, and `Fault.message` shows the line
    with a mark below the place. -/

namespace ModelCatalog.Toml

/-- What stands where something else is expected. -/
inductive Found where
  | flag (value : Bool)
  | integer (value : Int)
  | float (value : Float)
  | text (value : String)
  | list
  | table
  deriving Repr

/-- The text of a double: it has a point, but no exponent. -/
def floatText (f : Float) : List Char :=
  if f.isNaN then ['N', 'a', 'N']
  else
    (if Binary.isNegative f then ['-'] else []) ++
      if f.isInf then ['i', 'n', 'f']
      else
        match Binary.ofFloat? f with
        | none => ['0', '.', '0']
        | some b => b.shortest.positional

def Found.message : Found → String
  | .flag true => "boolean `true`"
  | .flag false => "boolean `false`"
  | .integer n => s!"integer `{n}`"
  | .float f => "floating point `" ++ String.ofList (floatText f) ++ "`"
  | .text s => "string " ++ Text.quote s
  | .list => "sequence"
  | .table => "map"

/-- A reason to reject a TOML text. -/
inductive Reason where
  | malformed (complaint : Complaint)
  /-- A value is of another kind. -/
  | wrongKind (found : Found) (expected : Expected)
  deriving Repr

/-- The lines of a reason, at least one. -/
def Reason.text : Reason → String
  | .malformed complaint => "\n".intercalate complaint.lines
  | .wrongKind found expected =>
    "invalid type: " ++ found.message ++ ", expected " ++ expected.message

/-- A reason to reject a TOML text, and where it shows. -/
structure Fault where
  place : Place
  reason : Reason
  deriving Repr

/-- The words for a fault.  The last line is ended, too. -/
def Fault.message (fault : Fault) : String :=
  "\n".intercalate (fault.place.lines ++ [fault.reason.text, ""])

end ModelCatalog.Toml
