/-! # The shortest decimal of a binary number

    A binary floating point number stands for every real that rounds to it.  Among the decimals in
    that interval `shortest` picks one with the fewest digits, and of those the nearest to the
    number.  All of it is exact arithmetic on natural numbers. -/

namespace ModelCatalog

/-- The decimal `digits · 10 ^ exponent`. -/
structure Decimal where
  digits : Nat
  exponent : Int
  deriving DecidableEq, Repr

/-- The same decimal without zeros at the end of its digits. -/
def Decimal.normalize (d : Decimal) : Decimal :=
  if h : d.digits % 10 = 0 ∧ d.digits ≠ 0 then normalize ⟨d.digits / 10, d.exponent + 1⟩ else d
  termination_by d.digits
  decreasing_by omega

/-- A positive binary number `mantissa · 2 ^ exponent` with the interval that rounds to it.  The
    number below is half as far away as the one above when the mantissa is the least of its
    binade. -/
structure Binary where
  mantissa : Nat
  exponent : Int
  closeBelow : Bool
  deriving DecidableEq, Repr

namespace Binary

def twoTo (e : Int) : Nat × Nat :=
  if e < 0 then (1, Nat.pow 2 (-e).toNat) else (Nat.pow 2 e.toNat, 1)

def tenTo (e : Int) : Nat × Nat :=
  if e < 0 then (1, Nat.pow 10 (-e).toNat) else (Nat.pow 10 e.toNat, 1)

/-- The least number of decimal shifts, up to a bound, that brings `num / den` to at least one. -/
def shiftsToUnit (num den : Nat) : Nat → Nat
  | 0 => 0
  | bound + 1 => if num ≥ den then 0 else shiftsToUnit (num * 10) den bound + 1

/-- The exponent of the leading decimal digit of a positive fraction above `10 ^ -400`. -/
def leadingExponent (num den : Nat) : Int :=
  if num < den then -(shiftsToUnit num den 400 : Int)
  else (Nat.toDigits 10 (num / den)).length - 1

/-- Whether the decimal `d · 10 ^ e` rounds to the binary number: it lies between the midpoints to
    its neighbours, which belong to it when its mantissa is even.  All are compared in quarters of
    the unit of the mantissa. -/
def holds (b : Binary) (d : Nat) (e : Int) : Bool :=
  let (tenNum, tenDen) := tenTo e
  let (twoNum, twoDen) := twoTo (b.exponent - 2)
  let value := d * tenNum * twoDen
  let low := (4 * b.mantissa - (if b.closeBelow then 1 else 2)) * twoNum * tenDen
  let high := (4 * b.mantissa + 2) * twoNum * tenDen
  if b.mantissa % 2 == 0 then low ≤ value && value ≤ high else low < value && value < high

/-- The decimals next to `num / den` on the grid of `10 ^ e`, the nearer one first. -/
def neighbours (num den : Nat) (e : Int) : List Nat :=
  let (tenNum, tenDen) := tenTo e
  let n := num * tenDen
  let d := den * tenNum
  let below := n / d
  if 2 * (n % d) < d || (2 * (n % d) == d && below % 2 == 0) then [below, below + 1]
  else [below + 1, below]

/-- The first hit on grids of more and more digits, at most as many as the bound allows. -/
def search (b : Binary) (num den : Nat) (e : Int) : Nat → Decimal
  | 0 => ⟨(neighbours num den e).headD 0, e⟩
  | bound + 1 =>
    match (neighbours num den e).find? (fun d => b.holds d e) with
    | some d => ⟨d, e⟩
    | none => search b num den (e - 1) bound

/-- The shortest decimal that rounds to a positive binary number.  Seventeen digits always
    suffice, and a zero at their end is one digit too many. -/
def shortest (b : Binary) : Decimal :=
  let (twoNum, twoDen) := twoTo b.exponent
  let num := b.mantissa * twoNum
  (search b num twoDen (leadingExponent num twoDen) 16).normalize

/-- The parts of a finite double: none for zero, otherwise its absolute value. -/
def ofFloat? (f : Float) : Option Binary :=
  let bits := f.toBits.toNat % Nat.pow 2 63
  let fraction := bits % Nat.pow 2 52
  let biased : Nat := bits / Nat.pow 2 52
  if bits == 0 then none
  else if biased == 0 then some ⟨fraction, -1074, false⟩
  else some ⟨fraction + Nat.pow 2 52, Int.ofNat biased - 1075, fraction == 0 && biased > 1⟩

def isNegative (f : Float) : Bool := f.toBits.toNat ≥ Nat.pow 2 63

end Binary

end ModelCatalog
