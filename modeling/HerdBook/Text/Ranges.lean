/-!
# Ranges of characters

A class of characters is given by a table of the ranges of its code points, in increasing order. A
character is looked up by halving the table.
-/

namespace HerdBook

/-- Inclusive ranges of code points, in increasing order. -/
abbrev Ranges := Array (Nat × Nat)

namespace Ranges

/-- Whether one of the ranges at positions `lo` to `hi` (excluded) holds `c`, found by halving the
stretch at most `steps` times. -/
def holdsWithin (ranges : Ranges) (c : Nat) : Nat → Nat → Nat → Bool
  | 0, _, _ => false
  | steps + 1, lo, hi =>
    if hi ≤ lo then false
    else
      let mid := (lo + hi) / 2
      match ranges[mid]? with
      | none => false
      | some (first, last) =>
        if c < first then holdsWithin ranges c steps lo mid
        else if last < c then holdsWithin ranges c steps (mid + 1) hi
        else true

/-- Whether one of the ranges holds the character. -/
def holds (ranges : Ranges) (c : Char) : Bool := ranges.holdsWithin c.toNat 16 0 ranges.size

end Ranges

end HerdBook
