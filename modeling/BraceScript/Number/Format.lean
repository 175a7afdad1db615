import BraceScript.Number.Power

/-!
# Binary floating-point formats

A format with `fractionBits` and `exponentBits` counts magnitudes in *units*, a unit being its least
positive number, `2 ^ -unitScale`. Its finite numbers are naturals in units, so that all arithmetic
on them is arithmetic of naturals. A magnitude is stored as a *code*, the bits below the sign:
codes follow the order of the magnitudes they stand for, and `infinity` comes after the finite ones.

* `Format.units code` is the magnitude that a finite code stands for.
* `Format.encode n d` is the code of the number nearest to `n / d` units; of two equally near ones
  the even code is taken, and what lies beyond the finite numbers becomes `infinity`.
-/

namespace BraceScript

/-- The natural number nearest to `n / d`, the even one of two equally near. -/
def nearestEven (n d : Nat) : Nat :=
  let q := n / d
  let r := n % d
  if 2 * r < d then q
  else if d < 2 * r then q + 1
  else if q % 2 = 0 then q
  else q + 1

/-- A binary floating-point format, by the widths of its two fields. -/
structure Format where
  fractionBits : Nat
  exponentBits : Nat

namespace Format

/-- The format with 64 bits. -/
def double : Format := ⟨52, 11⟩

/-- The format with 32 bits. -/
def single : Format := ⟨23, 8⟩

/-- A unit of the format is `2 ^ -unitScale`. -/
def unitScale (f : Format) : Nat :=
  twoTo (f.exponentBits - 1) - 2 + f.fractionBits

/-- The number one, in units. -/
def one (f : Format) : Nat :=
  twoTo f.unitScale

/-- The code that stands for infinity; the codes above it are not numbers. -/
def infinity (f : Format) : Nat :=
  (twoTo f.exponentBits - 1) * twoTo f.fractionBits

/-- How far a finite code is scaled up: the distance to the next code is `2 ^ shift` units. -/
def shift (f : Format) (code : Nat) : Nat :=
  code / twoTo f.fractionBits - 1

/-- The scaled-down magnitude of a finite code, a natural below `2 ^ (fractionBits + 1)`. -/
def significand (f : Format) (code : Nat) : Nat :=
  code - f.shift code * twoTo f.fractionBits

/-- The magnitude of a finite code, in units. -/
def units (f : Format) (code : Nat) : Nat :=
  f.significand code * twoTo (f.shift code)

/-- The code of the number nearest to `n / d` units. -/
def encode (f : Format) (n d : Nat) : Nat :=
  let shift := (n / d).log2 - f.fractionBits
  min f.infinity (shift * twoTo f.fractionBits + nearestEven n (d * twoTo shift))

example : Format.double.unitScale = 1074 := by decide
example : Format.single.unitScale = 149 := by decide

end Format
end BraceScript
