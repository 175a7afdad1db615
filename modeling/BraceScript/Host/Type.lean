import BraceScript.Value

/-!
# Types of the host

The host's methods have typed parameters: primitives, classes by name, and arrays. Each primitive
has a wrapper class. The runtime type of an argument is read off its value: an integer is an `int`
where it fits 32 bits and a `long` otherwise, a list is an array of the type that its items share or
else of `Object`, and null has none.
-/

namespace BraceScript

/-- The primitive types. -/
inductive Primitive where
  | boolean
  | byte
  | short
  | char
  | int
  | long
  | float
  | double
deriving DecidableEq, Repr, Inhabited

namespace Primitive

/-- All primitive types. -/
def all : List Primitive :=
  [boolean, byte, short, char, int, long, float, double]

/-- The name of a primitive type. -/
def name : Primitive → String
  | boolean => "boolean"
  | byte => "byte"
  | short => "short"
  | char => "char"
  | int => "int"
  | long => "long"
  | float => "float"
  | double => "double"

/-- The class that wraps a primitive type. -/
def wrapper : Primitive → String
  | boolean => "Boolean"
  | byte => "Byte"
  | short => "Short"
  | char => "Character"
  | int => "Integer"
  | long => "Long"
  | float => "Float"
  | double => "Double"

/-- The primitive type with a name. -/
def ofName? (name : String) : Option Primitive :=
  all.find? (·.name = name)

/-- The primitive type that a class wraps. -/
def ofWrapper? (className : String) : Option Primitive :=
  all.find? (·.wrapper = className)

/-- The primitive types that this one widens to. -/
def widened : Primitive → List Primitive
  | byte => [short, int, long, float, double]
  | short | char => [int, long, float, double]
  | int => [long, float, double]
  | long => [float, double]
  | float => [double]
  | double | boolean => []

/-- Does this type widen to the other? -/
def widensTo (p q : Primitive) : Bool :=
  q ∈ p.widened

end Primitive

/-- The type of a parameter or of an argument. -/
inductive HostType where
  | primitive (p : Primitive)
  | named (className : String)
  | array (element : HostType)
deriving DecidableEq, Repr, Inhabited

namespace HostType

/-- The name of the class that all classes inherit from. -/
def rootName : String := "Object"

/-- The class that all classes inherit from. -/
def object : HostType := named rootName

/-- Is it primitive? -/
def isPrimitive : HostType → Bool
  | primitive _ => true
  | _ => false

/-- The text of a type. -/
def text : HostType → String
  | primitive p => p.name
  | named className => className
  | array element => element.text ++ "[]"

/-- The type shared by the items of a list, given their types; `Object` where they share none. -/
def common : List (Option HostType) → HostType
  | some first :: rest => if rest.all (· = some first) then first else object
  | _ => object

end HostType

namespace Value

mutual

/-- The runtime type of a value; null has none. -/
def hostType? : Value → Option HostType
  | null => none
  | boolean _ => some (.primitive .boolean)
  | integer n =>
    some (.primitive (if Int32.minValue.toInt ≤ n.toInt && n.toInt ≤ Int32.maxValue.toInt then .int
      else .long))
  | float _ => some (.primitive .double)
  | text _ => some (.named "String")
  | map _ _ => some (.named "Map")
  | list items => some (.array (HostType.common (hostTypes items)))
  | block _ => some (.named "Codeblock")
  | task _ => some (.named "Task")
  | host object => some (.named object.className)

/-- The runtime types of the items of a list. -/
def hostTypes : List Value → List (Option HostType)
  | [] => []
  | v :: vs => hostType? v :: hostTypes vs

end

/-- The class whose methods can be called on a value: a primitive's wrapper, and `List` for a list.
-/
def hostClass? (v : Value) : Option String :=
  v.hostType?.map fun
    | .primitive p => p.wrapper
    | .named className => className
    | .array _ => "List"

end Value
end BraceScript
