import ModelCatalog.Decimal.Shortest

/-! # Decimals without an exponent

    A decimal is written with all zeros between its digits and the point, and with a digit on either
    side of the point. -/

namespace ModelCatalog.Decimal

/-- The text of a positive decimal: a whole number ends in `.0`. -/
def positional (d : Decimal) : List Char :=
  let digits := Nat.toDigits 10 d.digits
  let leading : Int := digits.length - 1 + d.exponent
  if leading < 0 then
    ['0', '.'] ++ List.replicate (leading.natAbs - 1) '0' ++ digits
  else if 0 ≤ d.exponent then
    digits ++ List.replicate d.exponent.toNat '0' ++ ['.', '0']
  else
    digits.take (leading.toNat + 1) ++ '.' :: digits.drop (leading.toNat + 1)

end ModelCatalog.Decimal
