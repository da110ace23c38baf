/-! # Numbers by their digits

    Digits are read from the left; in hexadecimal numbers the letters may be of either case. -/

namespace ModelCatalog.Text

/-- The number that decimal digits make behind the digits of another one. -/
def decimalFrom (n : Nat) (digits : List Char) : Nat :=
  digits.foldl (fun n c => 10 * n + (c.toNat - '0'.toNat)) n

/-- The number that decimal digits make. -/
def decimal (digits : List Char) : Nat := decimalFrom 0 digits

/-- The value of a hexadecimal digit. -/
def hexDigit? (c : Char) : Option Nat :=
  if '0' ≤ c ∧ c ≤ '9' then some (c.toNat - '0'.toNat)
  else if 'a' ≤ c ∧ c ≤ 'f' then some (c.toNat - 'a'.toNat + 10)
  else if 'A' ≤ c ∧ c ≤ 'F' then some (c.toNat - 'A'.toNat + 10)
  else none

/-- The number that digits make in a base of at most sixteen, if all of them are digits of it. -/
def inBase? (base : Nat) (digits : List Char) : Option Nat :=
  digits.foldlM (fun n c => do
    let d ← hexDigit? c
    if d < base then some (base * n + d) else none) 0

def hexadecimal? (digits : List Char) : Option Nat := inBase? 16 digits

end ModelCatalog.Text
