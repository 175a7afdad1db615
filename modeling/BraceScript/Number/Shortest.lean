import BraceScript.Number.Double

/-!
# Shortest decimal texts of doubles

A finite double is written with the fewest decimal digits that still read back as it, and of several
decimals with that many digits the nearest; of two equally near the greater is taken. A decimal
reads back as a double when it lies in the interval of numbers that round to it, whose ends belong
to it when the significand is even.

The search runs over `1, 2, … 17` digits. All quantities are naturals: magnitudes are scaled by
`4 · 10 ^ 340`, which makes the ends of the interval and all decimals in question whole.
-/

namespace BraceScript

/-- The decimal `digits · 10 ^ exponent`, not negative. -/
structure Decimal where
  digits : Nat
  exponent : Int
deriving DecidableEq, Repr, Inhabited

namespace Decimal

/-- Decimals are looked for among the multiples of `10 ^ -340`. -/
def finest : Nat := 340

/-- The decimals with `count` digits that enclose a magnitude: `below` is the one at or under it and
`below + 1` the next, both times `10 ^ (place - finest)`. -/
structure Grid where
  place : Nat
  below : Nat

/-- The grid of `count` digits around `n / d`, where `size` is the number of digits of
`n · 10 ^ finest / d`. -/
def grid (n d size count : Nat) : Grid :=
  let place := size - count
  ⟨place, n * tenTo finest / (d * tenTo place)⟩

/-- The interval of numbers that round to a double, in quarters of a unit. -/
structure Rounding where
  low : Nat
  high : Nat
  closed : Bool

/-- The interval of numbers that round to the double with a finite, non-zero code. -/
def Rounding.ofCode (code : Nat) : Rounding :=
  let f := Format.double
  let gap := twoTo (f.shift code)
  let atStep := f.significand code = twoTo f.fractionBits && 1 ≤ f.shift code
  { low := 4 * f.units code - (if atStep then gap else 2 * gap)
    high := 4 * f.units code + 2 * gap
    closed := f.significand code % 2 = 0 }

/-- Does `digits · 10 ^ (place - finest)` lie in the interval? -/
def Rounding.admits (r : Rounding) (place digits : Nat) : Bool :=
  let x := digits * tenTo place * 4 * Format.double.one
  let low := r.low * tenTo finest
  let high := r.high * tenTo finest
  if r.closed then low ≤ x && x ≤ high else low < x && x < high

/-- The decimal of a grid that is taken, if one of its two lies in the interval. -/
def Grid.pick (g : Grid) (r : Rounding) (units : Nat) : Option Nat :=
  let twice := 2 * units * tenTo finest
  let middle := (2 * g.below + 1) * tenTo g.place * Format.double.one
  match r.admits g.place g.below, r.admits g.place (g.below + 1) with
  | true, true => some (if twice < middle then g.below else g.below + 1)
  | true, false => some g.below
  | false, true => some (g.below + 1)
  | false, false => none

/-- The same decimal without its last digit where that is a zero. The search leaves such a digit
only where it rounds one digit up to the next power of ten. -/
def reduced (x : Decimal) : Decimal :=
  if x.digits % 10 = 0 then ⟨x.digits / 10, x.exponent + 1⟩ else x

/-- Looks for a decimal with `count` digits, then with more, as long as `fuel` lasts. -/
def shortestFrom (r : Rounding) (units size : Nat) : (fuel count : Nat) → Decimal
  | 0, count => ⟨(grid units Format.double.one size count).below, (size - count : Nat) - finest⟩
  | fuel + 1, count =>
    let g := grid units Format.double.one size count
    match g.pick r units with
    | some digits => reduced ⟨digits, (g.place : Int) - finest⟩
    | none => shortestFrom r units size fuel (count + 1)

/-- The shortest decimal of a finite, non-zero code. -/
def shortest (code : Nat) : Decimal :=
  let units := Format.double.units code
  let size := (Nat.toDigits 10 (units * tenTo finest / Format.double.one)).length
  shortestFrom (.ofCode code) units size 17 1

/-- A decimal in positional notation, without an exponent. -/
def positional (x : Decimal) : String :=
  let digits := Nat.toDigits 10 x.digits
  let cs :=
    match x.exponent with
    | .ofNat e => digits ++ List.replicate e '0'
    | .negSucc e =>
      let places := e + 1
      let padded := List.replicate (places + 1 - digits.length) '0' ++ digits
      padded.take (padded.length - places) ++ '.' :: padded.drop (padded.length - places)
  String.ofList cs

end Decimal

namespace Double

/-- The bound under which a number without a fraction is written with one decimal place. -/
def wholeBound : Nat := tenTo 15

/-- The text of a double: a number without a fraction under `10 ^ 15` ends in `.0`, every other
finite number is its shortest decimal, and nothing is ever written with an exponent. -/
def text (x : Double) : String :=
  if x.isNaN then "NaN"
  else
    let sign := if x.isNegative then "-" else ""
    if x.isInfinite then sign ++ "inf"
    else if x.isIntegral && x.units / Format.double.one < wholeBound then
      sign ++ Nat.repr (x.units / Format.double.one) ++ ".0"
    else sign ++ (Decimal.shortest x.code).positional

end Double
end BraceScript
