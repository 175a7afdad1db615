import BraceScript.Number.Numeral
import BraceScript.Table
import BraceScript.Text.Blank

/-!
# Values

Every token, variable and command result is a `Value`. A raw token arrives as a text, and each
command decides whether it reads that text as a number or as a boolean.

Four kinds of value have an identity besides what they hold. Blocks, tasks and host objects are
*references*: a block's lines and counter live elsewhere (`Block`), under its number. A map is a
snapshot of entries together with the number of the operation that built it, which copies share.
-/

namespace BraceScript

/-- An object of the host, known by its class and its identity; `payload` is what it carries. -/
structure HostObject where
  className : String
  id : Nat
  payload : Int64
deriving DecidableEq, Repr, Inhabited

/-- A value of the language. -/
inductive Value where
  | null
  | boolean (b : Bool)
  | integer (n : Int64)
  | float (x : Double)
  | text (s : String)
  /-- The entries of a map in the order of insertion, and the identity of the map. -/
  | map (id : Nat) (entries : List (String × Value))
  | list (items : List Value)
  /-- The code block with a number. -/
  | block (id : Nat)
  /-- The launched line with a number. -/
  | task (id : Nat)
  | host (object : HostObject)
deriving Repr, Inhabited

namespace Value

/-- The name of a value's type; a host object's is its class. -/
def typeName : Value → String
  | null => "null"
  | boolean _ => "boolean"
  | integer _ => "integer"
  | float _ => "float"
  | text _ => "text"
  | map _ _ => "map"
  | list _ => "list"
  | block _ => "codeblock"
  | task _ => "task"
  | host object => object.className

/-- Is it null? -/
def isNull : Value → Bool
  | null => true
  | _ => false

/-- Is it an integer or a float? -/
def isNumber : Value → Bool
  | integer _ | float _ => true
  | _ => false

/-- The characters of a text. -/
def text? : Value → Option String
  | text s => some s
  | _ => none

/-- A value read as a boolean: a boolean as it is, and a text as whether it is `true` in any letter
case, blanks around it aside. -/
def bool? : Value → Option Bool
  | boolean b => some b
  | text s => some (String.ofList ((Chars.trim s.toList).map Char.toLower) = "true")
  | _ => none

/-- A value read as an integer: a float is cut toward zero, and a text must write an integer or
else a float. -/
def int? : Value → Option Int64
  | integer n => some n
  | float x => some x.toInt64
  | text s =>
    let s := Text.trim s
    (Numeral.int64? s).or ((Numeral.double? s).map Double.toInt64)
  | _ => none

/-- A value read as a float; a text must write one. -/
def float? : Value → Option Double
  | integer n => some (.ofInt64 n)
  | float x => some x
  | text s => Numeral.double? (Text.trim s)
  | _ => none

end Value
end BraceScript
