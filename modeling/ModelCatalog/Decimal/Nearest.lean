import ModelCatalog.Decimal.Shortest

/-! # The double nearest to a decimal

    Every positive decimal has a nearest double; of two that are equally near it is the one with the
    even mantissa.  The mantissa has 53 bits, or fewer where the exponent is the least one, and what
    would need a greater exponent than there is becomes infinite. -/

namespace ModelCatalog.Decimal

/-- The quotient of two numbers, rounded to the nearest whole number, and to the even one of two. -/
def roundedQuotient (num den : Nat) : Nat :=
  let below := num / den
  let rest := 2 * (num % den)
  if den < rest || (rest == den && below % 2 == 1) then below + 1 else below

def leastExponent : Int := -1074

/-- The exponent with which the mantissa of a positive fraction has 53 bits, or the least one. -/
def binaryExponent (num den : Nat) : Int :=
  let guess : Int := (num.log2 : Int) - den.log2 - 53
  let (twoNum, twoDen) := Binary.twoTo (guess + 53)
  max leastExponent (if den * twoNum ≤ num * twoDen then guess + 1 else guess)

def infinityBits : Nat := 2047 * Nat.pow 2 52

/-- The bits of the double nearest to a positive fraction.  The leading bit of a mantissa of 53 bits
    counts into the exponent, and one that is rounded up to one bit more makes it greater by one. -/
def nearestBits (num den : Nat) : Nat :=
  let e := binaryExponent num den
  let (twoNum, twoDen) := Binary.twoTo e
  min infinityBits
    ((e - leastExponent).toNat * Nat.pow 2 52 + roundedQuotient (num * twoDen) (den * twoNum))

/-- The double nearest to a decimal.  Far out, the exponent alone decides. -/
def nearest (d : Decimal) : Float :=
  let bits :=
    if d.digits == 0 then 0
    else if 400 < d.exponent then infinityBits
    else if d.digits.log2 + 3 * d.exponent < leastExponent - 10 then 0
    else
      let (tenNum, tenDen) := Binary.tenTo d.exponent
      nearestBits (d.digits * tenNum) tenDen
  Float.ofBits bits.toUInt64

end ModelCatalog.Decimal
