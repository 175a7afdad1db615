import BraceScript.Number.Double

/-!
# Single-precision numbers

The 32-bit numbers that a host method may take. They come from doubles by one rounding and go back
to doubles unchanged.
-/

namespace BraceScript

/-- A single-precision number, by its bits. -/
structure Single where
  bits : UInt32
deriving DecidableEq, Repr, Inhabited

namespace Single

/-- The single with a sign and a code. -/
def ofCode (negative : Bool) (code : Nat) : Single :=
  ⟨.ofNat (if negative then twoTo 31 + code else code)⟩

/-- Does the sign bit stand? -/
def isNegative (x : Single) : Bool :=
  twoTo 31 ≤ x.bits.toNat

/-- The bits below the sign. -/
def code (x : Single) : Nat :=
  x.bits.toNat % twoTo 31

/-- Not a number. -/
def isNaN (x : Single) : Bool :=
  Format.single.infinity < x.code

/-- The single nearest to a double. -/
def ofDouble (x : Double) : Single :=
  if x.isNaN then ofCode false (Format.single.infinity + twoTo 22)
  else if x.isInfinite then ofCode x.isNegative Format.single.infinity
  else ofCode x.isNegative (Format.single.encode (x.units * Format.single.one) Format.double.one)

/-- The double that equals a single. -/
def toDouble (x : Single) : Double :=
  if x.isNaN then .nan
  else if x.code = Format.single.infinity then .infinity x.isNegative
  else .round x.isNegative (Format.single.units x.code * Format.double.one) Format.single.one

end Single
end BraceScript
