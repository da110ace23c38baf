/-! # Sets of code points as ranges

    A property of characters is given by the increasing list of the ranges it covers. -/

namespace ModelCatalog.Text

/-- Inclusive ranges of code points, in increasing order. -/
abbrev Ranges := List (Nat × Nat)

/-- Whether a code point lies in one of the ranges.  The search ends at the first range that
    starts beyond it. -/
def Ranges.covers : Ranges → Nat → Bool
  | [], _ => false
  | (low, high) :: rest, n => if n < low then false else n ≤ high || covers rest n

end ModelCatalog.Text
