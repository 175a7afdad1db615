import BraceScript.Error
import BraceScript.Host.Type
import BraceScript.Number.Single

/-!
# Arguments of host methods

A value is coerced to the type of the parameter that takes it. Numbers go to the width of the
parameter, a text of one character to a `char`, a list to an array of coerced items; null and all
that needs no conversion goes through as it is. `HostArgument.toValue` is the way back.
-/

namespace BraceScript

/-- An argument as a host method receives it. -/
inductive HostArgument where
  | null
  | boolean (b : Bool)
  | byte (n : Int8)
  | short (n : Int16)
  | char (c : Char)
  | int (n : Int32)
  | long (n : Int64)
  | float (x : Single)
  | double (x : Double)
  | text (s : String)
  | array (items : List HostArgument)
  /-- A value that is passed through. -/
  | value (v : Value)
deriving Repr, Inhabited

namespace HostArgument

/-- The integer that an argument holds; a character's is its code point. -/
def int64? : HostArgument → Option Int64
  | byte n => some n.toInt64
  | short n => some n.toInt64
  | char c => some (.ofNat c.toNat)
  | int n => some n.toInt64
  | long n => some n
  | _ => none

/-- The double that an argument holds. -/
def double? : HostArgument → Option Double
  | float x => some x.toDouble
  | double x => some x
  | a => a.int64?.map Double.ofInt64

/-- The text that an argument holds. -/
def text? : HostArgument → Option String
  | text s => some s
  | _ => none

/-- The character that an argument holds. -/
def char? : HostArgument → Option Char
  | char c => some c
  | _ => none

mutual

/-- The value that an argument stands for. -/
def toValue : HostArgument → Value
  | null => .null
  | boolean b => .boolean b
  | byte n => .integer n.toInt64
  | short n => .integer n.toInt64
  | char c => .text (String.singleton c)
  | int n => .integer n.toInt64
  | long n => .integer n
  | float x => .float x.toDouble
  | double x => .float x
  | text s => .text s
  | array items => .list (toValues items)
  | value v => v

/-- The values that arguments stand for. -/
def toValues : List HostArgument → List Value
  | [] => []
  | a :: as => toValue a :: toValues as

end

/-- A value as it is passed where no conversion is needed. -/
def natural : Value → HostArgument
  | .null => null
  | .boolean b => boolean b
  | .integer n =>
    if Int32.minValue.toInt ≤ n.toInt && n.toInt ≤ Int32.maxValue.toInt then int n.toInt32
    else long n
  | .float x => double x
  | .text s => text s
  | v => value v

/-- A value that cannot be converted to a primitive type. -/
def mismatch (v : Value) (p : Primitive) : ScriptError :=
  .complaint "InvokeMethodOf" (.conversion v.typeName p.name)

/-- The character with the low 16 bits of an integer as its code point, if there is one. -/
def charOfInt64? (n : Int64) : Option Char :=
  let code := (n.toInt % 65536).toNat
  if code.isValidChar then some (Char.ofNat code) else none

/-- A number at the width of a numeric primitive type, given as an integer and as a double. -/
def ofNumber (p : Primitive) (n : Int64) (x : Double) : HostArgument :=
  match p with
  | .byte => byte n.toInt8
  | .short => short n.toInt16
  | .int => int n.toInt32
  | .long => long n
  | .float => float (.ofDouble x)
  | _ => double x

/-- A value as a primitive type. -/
def toPrimitive (v : Value) (p : Primitive) : Except ScriptError HostArgument :=
  match p, v with
  | .boolean, .boolean b => .ok (boolean b)
  | .boolean, _ => .error (mismatch v p)
  | .char, .integer n =>
    match charOfInt64? n with
    | some c => .ok (char c)
    | none => .error (mismatch v p)
  | .char, .text s =>
    match s.toList with
    | [c] => .ok (char c)
    | _ => .error (mismatch v p)
  | .char, _ => .error (mismatch v p)
  | _, .integer n => .ok (ofNumber p n (.ofInt64 n))
  | _, .float x => .ok (ofNumber p x.toInt64 x)
  | _, _ => .error (mismatch v p)

/-- A value coerced to the type of a parameter. -/
def coerce : HostType → Value → Except ScriptError HostArgument
  | _, .null => .ok null
  | .primitive p, v => toPrimitive v p
  | .named className, v =>
    match Primitive.ofWrapper? className with
    | some p => toPrimitive v p
    | none => .ok (natural v)
  | .array element, .list items => (items.mapM (coerce element)).map array
  | .array _, v => .ok (natural v)

end HostArgument
end BraceScript
