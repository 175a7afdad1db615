/-!
# Character properties as change points

A property of characters is stored as the increasing list of the code points at which it changes,
starting from "absent" at zero: a character has the property when an odd number of change points
lie at or below its code point. The tables of this project are taken from Unicode 17.
-/

namespace BraceScript

/-- A property of characters, given by the code points at which it changes. -/
structure Property where
  /-- The change points, in increasing order. -/
  changes : Array Nat

namespace Property

/-- How many of the change points from `lo` up to (not including) `hi` lie at or below `n`, counted
from zero; halves the interval while `fuel` lasts, so `fuel` halvings suffice for `2 ^ fuel`
change points. -/
def rank (changes : Array Nat) (n : Nat) : (fuel lo hi : Nat) → Nat
  | 0, lo, _ => lo
  | fuel + 1, lo, hi =>
    if lo < hi then
      let mid := (lo + hi) / 2
      if changes.getD mid 0 ≤ n then rank changes n fuel (mid + 1) hi
      else rank changes n fuel lo mid
    else lo

/-- Does the character have the property? -/
def holds (p : Property) (c : Char) : Bool :=
  rank p.changes c.toNat (p.changes.size.log2 + 1) 0 p.changes.size % 2 = 1

end Property
end BraceScript
