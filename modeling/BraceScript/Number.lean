import BraceScript.Error
import BraceScript.Number.Numeral
import BraceScript.Text.Blank
import BraceScript.Value

/-!
# Arithmetic and comparison of script numbers

A script number is a 64-bit integer or a double. Arithmetic stays with integers as long as both
operands are, is exact there, and refuses a result outside of the 64-bit range; with a double on
either side it is double arithmetic. Comparison always goes through doubles.
-/

namespace BraceScript

/-- A number of the language. -/
inductive Number where
  | int (n : Int64)
  | float (x : Double)
deriving DecidableEq, Repr, Inhabited

namespace Number

/-- A value read as a number. -/
def ofValue : Value → Except Complaint Number
  | .integer n => .ok (int n)
  | .float x => .ok (float x)
  | .text s =>
    let s := Text.trim s
    match Numeral.int64? s with
    | some n => .ok (int n)
    | none =>
      match Numeral.double? s with
      | some x => .ok (float x)
      | none => .error (.notNumeral s)
  | v => .error (.notNumber v.typeName)

/-- The nearest double. -/
def toDouble : Number → Double
  | int n => .ofInt64 n
  | float x => x

/-- The value that holds a number. -/
def toValue : Number → Value
  | int n => .integer n
  | float x => .float x

/-- The operations of arithmetic. -/
inductive Operation where
  | add
  | sub
  | mul
  | div
  | mod
deriving DecidableEq, Repr, Inhabited

namespace Operation

/-- The name of an operation. -/
def name : Operation → String
  | add => "add"
  | sub => "sub"
  | mul => "mul"
  | div => "div"
  | mod => "mod"

/-- The operation with a name. -/
def ofName? (s : String) : Option Operation :=
  [add, sub, mul, div, mod].find? (·.name = s)

/-- The exact result of an operation on integers, division going toward zero. -/
def exact : Operation → Int → Int → Int
  | add, x, y => x + y
  | sub, x, y => x - y
  | mul, x, y => x * y
  | div, x, y => x.tdiv y
  | mod, x, y => x.tmod y

/-- Does the operation divide? -/
def divides : Operation → Bool
  | div | mod => true
  | _ => false

/-- An operation on 64-bit integers. The remainder is refused where the quotient is. -/
def onIntegers (op : Operation) (x y : Int64) : Except Complaint Int64 :=
  if op.divides && y = 0 then .error .zeroDivisor
  else if op.divides && x = Int64.minValue && y = -1 then .error (.overflow op.name)
  else
    let r := op.exact x.toInt y.toInt
    if Int64.minValue.toInt ≤ r && r ≤ Int64.maxValue.toInt then .ok (.ofInt r)
    else .error (.overflow op.name)

/-- An operation on doubles. -/
def onDoubles : Operation → Double → Double → Double
  | add, x, y => x.add y
  | sub, x, y => x.sub y
  | mul, x, y => x.mul y
  | div, x, y => x.div y
  | mod, x, y => x.rem y

/-- An operation on numbers. -/
def apply (op : Operation) : Number → Number → Except Complaint Number
  | int x, int y => (op.onIntegers x y).map int
  | a, b => .ok (float (op.onDoubles a.toDouble b.toDouble))

end Operation

/-- Folds the operation with a name over values, from the left; the name is looked up when two
numbers are there to operate on. -/
def fold (name : String) : Number → List Value → Except Complaint Number
  | acc, [] => .ok acc
  | acc, v :: vs => do
    let n ← ofValue v
    match Operation.ofName? name with
    | none => throw (.operation name)
    | some op => fold name (← op.apply acc n) vs

/-- The comparison with a sign. -/
def comparison? (sign : String) : Option (Double → Double → Bool) :=
  match sign with
  | "==" => some fun x y => x.eq y
  | "!=" => some fun x y => !x.eq y
  | "<" => some fun x y => x.lt y
  | "<=" => some fun x y => x.le y
  | ">" => some fun x y => y.lt x
  | ">=" => some fun x y => y.le x
  | _ => none

end Number
end BraceScript
