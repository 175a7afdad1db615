import BraceScript.Number.Double

/-!
# Numerals

The two ways in which a text is read as a number.

* An integer is a sign, which may be missing, and at least one digit, and must lie in its range.
* A double is a sign, which may be missing, and then either digits, a point and digits, of which
  there is at least one in all, with an exponent after them or not; or `inf`, `infinity` or `nan` in
  any letter case. Every decimal is rounded once to the nearest double.
-/

namespace BraceScript
namespace Numeral

/-- The value of a digit. -/
def digit? (c : Char) : Option Nat :=
  if '0' ≤ c && c ≤ '9' then some (c.toNat - '0'.toNat) else none

/-- The leading digits of `cs`, and what follows them. -/
def spanDigits (cs : List Char) : List Char × List Char :=
  cs.span fun c => (digit? c).isSome

/-- The number that a digit after the digits of `n` makes of it. -/
def extend (n : Nat) (c : Char) : Nat :=
  10 * n + (digit? c).getD 0

/-- The natural number that digits write. -/
def value (ds : List Char) : Nat :=
  ds.foldl extend 0

/-- The natural number that digits write, of which no more are read once the number has reached
`bound`: the same as `value` below `bound`, and at least `bound` otherwise. -/
def valueUpTo (bound : Nat) (ds : List Char) : Nat :=
  ds.foldl (fun n c => if n < bound then extend n c else n) 0

/-- A sign, which may be missing, and what follows it; `true` is minus. -/
def sign : List Char → Bool × List Char
  | '-' :: cs => (true, cs)
  | '+' :: cs => (false, cs)
  | cs => (false, cs)

/-- The integer that `cs` writes, exact below `twoTo 64` and not smaller than that otherwise. -/
def int? (cs : List Char) : Option Int :=
  let (negative, rest) := sign cs
  match spanDigits rest with
  | (d :: ds, []) =>
    let n := valueUpTo (twoTo 64) (d :: ds)
    some (if negative then -n else n)
  | _ => none

/-- The 64-bit integer that a text writes. -/
def int64? (s : String) : Option Int64 :=
  (int? s.toList).bind fun i =>
    if Int64.minValue.toInt ≤ i && i ≤ Int64.maxValue.toInt then some (.ofInt i) else none

/-- The 32-bit integer that a text writes. -/
def int32? (s : String) : Option Int32 :=
  (int? s.toList).bind fun i =>
    if Int32.minValue.toInt ≤ i && i ≤ Int32.maxValue.toInt then some (.ofInt i) else none

/-- The numeral of a 64-bit integer. -/
def ofInt64 (n : Int64) : String :=
  if n.toInt < 0 then "-" ++ Nat.repr n.toInt.natAbs else Nat.repr n.toInt.natAbs

/-- The exponent from which on no more of its digits are read. -/
def exponentBound : Nat := 65536

/-- The exponent at the end of a decimal: none, or the letter `e`, a sign and digits. -/
def exponent? : List Char → Option Int
  | [] => some 0
  | e :: cs =>
    if e = 'e' || e = 'E' then
      let (negative, rest) := sign cs
      match spanDigits rest with
      | (d :: ds, []) =>
        let n := valueUpTo exponentBound (d :: ds)
        some (if negative then -n else n)
      | _ => none
    else none

/-- The double nearest to `n · 10 ^ exponent`. -/
def nearest (negative : Bool) (n : Nat) : (exponent : Int) → Double
  | .ofNat e => .round negative (n * tenTo e * Format.double.one) 1
  | .negSucc e => .round negative (n * Format.double.one) (tenTo (e + 1))

/-- The digits that decide to which double a decimal is rounded. A number half way between two
doubles has fewer than 800 digits, so of the later ones only counts whether there is one that is not
zero. -/
def decisive (ds : List Char) : List Char :=
  ds.take 800 ++ if (ds.drop 800).all (· = '0') then [] else ['1']

/-- The double nearest to `ds · 10 ^ exponent`. Outside of `10 ^ -400` to `10 ^ 400` the answer is
zero or infinity whatever the digits, and no power is computed. -/
def round (negative : Bool) (ds : List Char) (exponent : Int) : Double :=
  let ds := ds.dropWhile (· = '0')
  let top := exponent + ds.length
  if ds.isEmpty || top < -400 then .ofCode negative 0
  else if 400 < top then .infinity negative
  else
    let ds := decisive ds
    nearest negative (value ds) (top - ds.length)

/-- The double that a decimal without sign writes. -/
def decimal? (negative : Bool) (cs : List Char) : Option Double :=
  let (whole, rest) := spanDigits cs
  let (fraction, rest) :=
    match rest with
    | '.' :: rest => spanDigits rest
    | rest => ([], rest)
  if whole.isEmpty && fraction.isEmpty then none
  else (exponent? rest).map fun e => round negative (whole ++ fraction) (e - fraction.length)

/-- The infinities and the double that is not a number, by their names. -/
def named? (negative : Bool) (cs : List Char) : Option Double :=
  let name := String.ofList (cs.map Char.toLower)
  if name = "inf" || name = "infinity" then some (.infinity negative)
  else if name = "nan" then some .nan
  else none

/-- The double that a text writes. -/
def double? (s : String) : Option Double :=
  let (negative, cs) := sign s.toList
  (decimal? negative cs).or (named? negative cs)

end Numeral
end BraceScript
