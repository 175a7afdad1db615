import BraceScript.Number.Format

/-!
# Double-precision numbers

A `Double` is 64 bits: a sign and a code of `Format.double`. Every operation is exact arithmetic on
units followed by one rounding, so it can be reasoned about with naturals and integers alone. The
codes above infinity are all alike: they are not a number, equal to nothing and ordered with
nothing.

* `Double.key` turns a number into an integer with the same order, both zeros going to zero.
* `Double.toInt64` cuts toward zero and stays within the 64-bit range; what is not a number gives 0.
-/

namespace BraceScript

/-- A double-precision number, by its bits. -/
structure Double where
  bits : UInt64
deriving DecidableEq, Repr, Inhabited

namespace Double

/-- The double with a sign and a code. -/
def ofCode (negative : Bool) (code : Nat) : Double :=
  ⟨.ofNat (if negative then twoTo 63 + code else code)⟩

/-- Does the sign bit stand? -/
def isNegative (x : Double) : Bool :=
  twoTo 63 ≤ x.bits.toNat

/-- The bits below the sign. -/
def code (x : Double) : Nat :=
  x.bits.toNat % twoTo 63

/-- Not a number. -/
def isNaN (x : Double) : Bool :=
  Format.double.infinity < x.code

/-- Plus or minus infinity. -/
def isInfinite (x : Double) : Bool :=
  x.code = Format.double.infinity

/-- A number that is not infinite. -/
def isFinite (x : Double) : Bool :=
  x.code < Format.double.infinity

/-- Plus or minus zero. -/
def isZero (x : Double) : Bool :=
  x.code = 0

/-- Not a number. -/
def nan : Double := ofCode false (Format.double.infinity + twoTo 51)

/-- Infinity with a sign. -/
def infinity (negative : Bool) : Double := ofCode negative Format.double.infinity

/-- The magnitude in units, for a finite number. -/
def units (x : Double) : Nat :=
  Format.double.units x.code

/-- The number in units, for a finite number. -/
def signedUnits (x : Double) : Int :=
  if x.isNegative then -x.units else x.units

/-- The double nearest to `n / d` units with a sign. -/
def round (negative : Bool) (n d : Nat) : Double :=
  ofCode negative (Format.double.encode n d)

/-- The double nearest to an integer. -/
def ofInt (i : Int) : Double :=
  round (i < 0) (i.natAbs * Format.double.one) 1

/-- The double nearest to a 64-bit integer. -/
def ofInt64 (n : Int64) : Double :=
  ofInt n.toInt

/-! ### Comparison -/

/-- The place of a number in the order of all numbers. -/
def key (x : Double) : Int :=
  if x.isNegative then -x.code else x.code

/-- Equality of numbers: the two zeros are equal, and what is not a number equals nothing. -/
def eq (x y : Double) : Bool :=
  !x.isNaN && !y.isNaN && x.key = y.key

/-- Strict order of numbers. -/
def lt (x y : Double) : Bool :=
  !x.isNaN && !y.isNaN && x.key < y.key

/-- Order of numbers. -/
def le (x y : Double) : Bool :=
  !x.isNaN && !y.isNaN && x.key ≤ y.key

/-! ### Arithmetic -/

/-- The negated number. -/
def neg (x : Double) : Double :=
  ofCode (!x.isNegative) x.code

/-- The sum. An exact zero is negative only when both terms are. -/
def add (x y : Double) : Double :=
  if x.isNaN || y.isNaN then nan
  else if x.isInfinite then
    if y.isInfinite && x.isNegative != y.isNegative then nan else x
  else if y.isInfinite then y
  else
    let sum := x.signedUnits + y.signedUnits
    if sum = 0 then ofCode (x.isNegative && y.isNegative) 0
    else round (sum < 0) sum.natAbs 1

/-- The difference. -/
def sub (x y : Double) : Double :=
  if y.isNaN then nan else x.add y.neg

/-- The product. -/
def mul (x y : Double) : Double :=
  let negative := x.isNegative != y.isNegative
  if x.isNaN || y.isNaN then nan
  else if x.isInfinite || y.isInfinite then
    if x.isZero || y.isZero then nan else infinity negative
  else round negative (x.units * y.units) Format.double.one

/-- The quotient. -/
def div (x y : Double) : Double :=
  let negative := x.isNegative != y.isNegative
  if x.isNaN || y.isNaN then nan
  else if x.isInfinite then
    if y.isInfinite then nan else infinity negative
  else if y.isInfinite then ofCode negative 0
  else if y.isZero then
    if x.isZero then nan else infinity negative
  else round negative (x.units * Format.double.one) y.units

/-- The remainder of the division toward zero, with the sign of `x`. -/
def rem (x y : Double) : Double :=
  if x.isNaN || y.isNaN || x.isInfinite || y.isZero then nan
  else if y.isInfinite then x
  else round x.isNegative (x.units % y.units) 1

/-! ### Integers -/

/-- Is it a finite number without a fraction? -/
def isIntegral (x : Double) : Bool :=
  x.isFinite && x.units % Format.double.one = 0

/-- The integer that a finite number is cut to, toward zero. -/
def truncate (x : Double) : Int :=
  let whole : Int := (x.units / Format.double.one : Nat)
  if x.isNegative then -whole else whole

/-- The nearest 64-bit integer toward zero. -/
def toInt64 (x : Double) : Int64 :=
  if x.isNaN then 0
  else if x.isFinite then .ofInt (max Int64.minValue.toInt (min Int64.maxValue.toInt x.truncate))
  else if x.isNegative then Int64.minValue
  else Int64.maxValue

end Double
end BraceScript
