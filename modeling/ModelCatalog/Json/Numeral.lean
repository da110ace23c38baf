import ModelCatalog.Json.Reader
import ModelCatalog.Text.Digits

/-! # JSON numerals

    A numeral has a sign, a whole part, a fraction and an exponent.  `numeral` reads its characters,
    and `Numeral.value` finds the number: integers are exact as long as they fit, and the double of
    any other numeral comes from its first digits, as many as fit 64 bits, scaled by a power of
    ten.  The scaled double is not always the nearest one. -/

namespace ModelCatalog.Json

/-- The written form of a number. -/
structure Numeral where
  isNegative : Bool
  /-- The digits before the point. -/
  whole : List Char
  /-- The digits behind the point, if there is one. -/
  fraction : Option (List Char)
  /-- The sign and the digits of the exponent, if there is one. -/
  exponent : Option (Bool × List Char)

-- ── Reading ──

/-- At least one digit.  `atEnd` is the fault of a text that ends instead. -/
def digits (atEnd : Fault) : Reader (List Char) := do
  let remaining ← get
  let run := remaining.takeWhile Char.isDigit
  if run.isEmpty then throw (if remaining.isEmpty then atEnd else .invalidNumber)
  set (remaining.dropWhile Char.isDigit)
  return run

/-- Whether the character stood next, in which case it is taken. -/
def took (c : Char) : Reader Bool := do
  if (← get).head? == some c then
    advance
    return true
  else return false

/-- A numeral.  No zero leads another digit. -/
def numeral (atEnd : Fault) : Reader Numeral := do
  let isNegative ← took '-'
  let whole ← digits atEnd
  if whole.head? == some '0' && whole.length ≠ 1 then throw .invalidNumber
  let fraction ← if ← took '.' then some <$> digits atEnd else pure none
  let exponent ←
    if ← took 'e' <||> took 'E' then do
      let isBelow ← took '-'
      if !isBelow then discard (took '+')
      pure (some (isBelow, ← digits atEnd))
    else pure none
  return { isNegative, whole, fraction, exponent }

-- ── The number ──

/-- The number of digits that can be appended to a number before it leaves 64 bits. -/
def fitting : Nat → List Char → Nat
  | _, [] => 0
  | n, c :: rest =>
    let n := Text.decimalFrom n [c]
    if n < Nat.pow 2 64 then fitting n rest + 1 else 0

/-- A double times a power of ten, in steps of at most `10 ^ 308`; none beyond all doubles. -/
def scale (f : Float) (e : Int) : Option Float :=
  if 308 < e then (if f == 0.0 then some f else none)
  else if 0 ≤ e then
    let product := f * Float.ofScientific 1 false e.toNat
    if product.isInf then none else some product
  else if -308 ≤ e then some (f / Float.ofScientific 1 false e.natAbs)
  else if f == 0.0 then some f
  else scale (f / Float.ofScientific 1 false 308) (e + 308)
  termination_by e.natAbs
  decreasing_by omega

/-- The largest exponent that is looked at: the greatest of 32 bits. -/
def maxExponent : Nat := Nat.pow 2 31 - 1

/-- The double of a numeral without its sign; none beyond all doubles. -/
def Numeral.magnitude (s : Numeral) : Option Float :=
  let fraction := s.fraction.getD []
  let wholeKept := fitting 0 s.whole
  let wholePart := Text.decimal (s.whole.take wholeKept)
  let fractionKept := fitting wholePart fraction
  let significand := Text.decimalFrom wholePart (fraction.take fractionKept)
  let shift : Int := (s.whole.length - wholeKept : Nat) - (fractionKept : Int)
  let f := significand.toUInt64.toFloat
  match s.exponent with
  | none => scale f shift
  | some (isBelow, digits) =>
    let e := Text.decimal digits
    if maxExponent < e then (if isBelow || significand == 0 then some 0.0 else none)
    else scale f (if isBelow then shift - e else shift + e)

/-- The number of a numeral.  A negative zero is a double. -/
def Numeral.value (s : Numeral) : Except Fault Number :=
  let n := Text.decimal s.whole
  if s.fraction.isNone && s.exponent.isNone && n < Nat.pow 2 64 &&
      (!s.isNegative || (0 < n && n ≤ Nat.pow 2 63)) then
    .ok (.integer (if s.isNegative then -n else n))
  else
    match s.magnitude with
    | none => .error .numberOutOfRange
    | some f => .ok (.float (if s.isNegative then -f else f))

def takeNumber : Reader Number := do (← numeral .endOfValue).value

end ModelCatalog.Json
