import BraceScript.Value

/-!
# Equality of values

Scalars are equal by what they hold, floats as numbers are: a float that is not a number differs
from itself. Lists are equal item by item. Blocks, tasks and host objects are equal only to
themselves. Maps are equal when they are one and the same, or when they hold the same keys with
equal values, in whatever order. Values of different kinds are never equal.
-/

namespace BraceScript.Value

mutual

/-- Equality of values. -/
def same : Value → Value → Bool
  | null, null => true
  | boolean a, boolean b => a == b
  | integer a, integer b => a == b
  | float a, float b => a.eq b
  | text a, text b => a == b
  | map i as, map j bs => i == j || (as.length == bs.length && sameEntries as bs)
  | list as, list bs => sameItems as bs
  | block a, block b => a == b
  | task a, task b => a == b
  | host a, host b => a.id == b.id
  | _, _ => false

/-- Equality of lists of values, item by item. -/
def sameItems : List Value → List Value → Bool
  | [], [] => true
  | a :: as, b :: bs => same a b && sameItems as bs
  | _, _ => false

/-- Is every entry of the first list found in the second under its key with an equal value? -/
def sameEntries : List (String × Value) → List (String × Value) → Bool
  | [], _ => true
  | (k, a) :: as, bs =>
    (match Table.value? k bs with
      | some b => same a b
      | none => false) && sameEntries as bs

end

end BraceScript.Value
