import ModelCatalog.Decimal.Positional

/-! # JSON numbers

    A number is an integer as long as it is written like one and fits 64 bits; every other number
    is a double.  The text of a double has the fewest digits that read back as the same double. -/

namespace ModelCatalog.Json

/-- A number as it was read. -/
inductive Number where
  /-- Written without fraction and exponent, and small enough. -/
  | integer (value : Int)
  /-- Every other number. -/
  | float (value : Float)
  deriving Repr

/-- The text of a positive decimal: positional while its leading digit stands between `10 ^ -5` and
    `10 ^ 15`, and with an exponent beyond. -/
def decimalText (d : Decimal) : List Char :=
  let digits := Nat.toDigits 10 d.digits
  let leading : Int := digits.length - 1 + d.exponent
  if leading < -5 || 15 < leading then
    let fraction := digits.drop 1
    digits.take 1 ++ (if fraction.isEmpty then [] else '.' :: fraction) ++
      ['e', if leading < 0 then '-' else '+'] ++ Nat.toDigits 10 leading.natAbs
  else d.positional

def floatText (f : Float) : List Char :=
  (if Binary.isNegative f then ['-'] else []) ++
    match Binary.ofFloat? f with
    | none => ['0', '.', '0']
    | some b => decimalText b.shortest

end ModelCatalog.Json
