import ModelCatalog.Decimal.Nearest
import ModelCatalog.Text.Digits
import ModelCatalog.Toml.Reader

/-! # TOML numbers

    Integers of 64 bits, decimal ones with a sign and others without, and doubles.  Single
    underscores may stand between digits. -/

namespace ModelCatalog.Toml

open Reader

-- ── Digits ──

/-- Takes further digits, and single underscores before some of them. -/
def moreDigits (isDigit : Char → Bool) : Reader (List Char) := do
  let pieces ← many <| either (takeSome isDigit) do
    take '_'
    return [← commit (wanting [.digit] (takeOne isDigit))]
  return pieces.flatten

def digits (isDigit : Char → Bool) : Reader (List Char) := do
  let first ← takeOne isDigit
  return first :: (← moreDigits isDigit)

/-- Takes decimal digits without a zero that leads others. -/
def wholeDigits : Reader (List Char) := do
  if (← peek) == some '0' then return [← takeOne Char.isDigit]
  digits Char.isDigit

/-- Takes a sign, if there is one, and tells whether it is a minus. -/
def sign : Reader Bool := do
  match ← peek with
  | some '-' =>
    take '-'
    return true
  | some '+' =>
    take '+'
    return false
  | _ => return false

/-- A natural number behind a sign. -/
def signed (isNegative : Bool) (n : Nat) : Int := if isNegative then -n else n

/-- Takes a sign and decimal digits. -/
def signedDigits : Reader (Bool × List Char) :=
  within .integer do
    let isNegative ← sign
    return (isNegative, ← wholeDigits)

-- ── Integers ──

/-- An integer, if it has at most 64 bits. -/
def fitting (n : Int) : Except Cause Int :=
  if n < -Nat.pow 2 63 then .error .tooSmall
  else if Nat.pow 2 63 ≤ n then .error .tooLarge
  else .ok n

/-- Whether a character is a digit of a base. -/
def isDigitOf (base : Nat) (c : Char) : Bool := (Text.hexDigit? c).any (· < base)

/-- Takes an integer in a base, behind a zero and a letter. -/
def integerIn (part : Part) (base : Nat) : Reader Int :=
  commit <| judge
    (within part do
      discard (takeCount 2)
      digits (isDigitOf base))
    fun digits => fitting ((Text.inBase? base digits).getD 0)

def decimalInteger : Reader Int := fun cursor => do
  let ((isNegative, digits), after) ← signedDigits cursor
  match fitting (signed isNegative (Text.decimal digits)) with
  | .ok n => return (n, after)
  | .error cause => commit (reject (some cause)) cursor

def integer : Reader Int := do
  match (← get).rest with
  | '0' :: 'x' :: _ => integerIn .hexadecimal 16
  | '0' :: 'o' :: _ => integerIn .octal 8
  | '0' :: 'b' :: _ => integerIn .binary 2
  | _ => decimalInteger

-- ── Doubles ──

/-- Takes a point and the digits behind it. -/
def fraction : Reader (List Char) := do
  take '.'
  commit (wanting [.digit] (digits Char.isDigit))

/-- Takes an exponent. -/
def exponent : Reader Int := do
  discard (takeOne fun c => c == 'e' || c == 'E')
  let isNegative ← sign
  return signed isNegative (Text.decimal (← commit (digits Char.isDigit)))

/-- Takes a number with a fraction or an exponent, as its sign and a decimal. -/
def decimal : Reader (Bool × Decimal) := do
  let (isNegative, whole) ← signedDigits
  match ← optional exponent with
  | some e => return (isNegative, ⟨Text.decimal whole, e⟩)
  | none =>
    let fraction ← fraction
    let e := (← optional exponent).getD 0
    return (isNegative, ⟨Text.decimal (whole ++ fraction), e - fraction.length⟩)

/-- Takes a number with a fraction or an exponent.  One that is too great is refused, but not one that
    is too small. -/
def decimalFloat : Reader Float := fun cursor => do
  let ((isNegative, d), after) ← decimal cursor
  let f := d.nearest
  if isNegative then return (-f, after)
  else if f.isInf then commit reject cursor
  else return (f, after)

/-- Takes infinity, or no number at all. -/
def specialFloat : Reader Float := do
  let isNegative ← sign
  either
    (do takeWord ['i', 'n', 'f']
        return if isNegative then -1 / 0 else 1 / 0)
    (do takeWord ['n', 'a', 'n']
        return 0 / 0)

def float : Reader Float := within .float (either decimalFloat specialFloat)

end ModelCatalog.Toml
