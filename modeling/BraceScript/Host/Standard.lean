import BraceScript.Host.Overload
import BraceScript.Text.LetterCase
import BraceScript.Text.Slice
import BraceScript.Value.Display
import BraceScript.Value.Equality

/-!
# The standard classes

The classes every catalog starts from: `Object` at the root, the wrappers of the primitives, texts,
maps, lists, code blocks and tasks. Their methods work on values; called on an object of another
class that inherits them they fail, naming that class.
-/

namespace BraceScript
namespace Host

/-- A method that computes its result. -/
def method (name : String) (parameters : List HostType)
    (run : Array Block → Value → List HostArgument → Except HostFault Value) : HostMethod :=
  .fixed name parameters (.compute run)

/-- The failure of a method called on a value that is not of its class. -/
def notOf (className : String) (target : Value) : HostFault :=
  .failed (target.typeName ++ " is not a " ++ className)

/-- The text a method is called on. -/
def targetText (target : Value) : Except HostFault String :=
  match target with
  | .text s => .ok s
  | _ => .error (notOf "String" target)

/-- The entries of the map a method is called on. -/
def targetMap (target : Value) : Except HostFault (Table Value) :=
  match target with
  | .map _ entries => .ok entries
  | _ => .error (notOf "Map" target)

/-- The items of the list a method is called on. -/
def targetList (target : Value) : Except HostFault (List Value) :=
  match target with
  | .list items => .ok items
  | _ => .error (notOf "List" target)

/-- The block a method is called on. -/
def targetBlock (blocks : Array Block) (target : Value) : Except HostFault Block :=
  match target with
  | .block id => .ok (blocks.getD id default)
  | _ => .error (notOf "Codeblock" target)

/-- The integer at a place among the arguments. -/
def integerAt (arguments : List HostArgument) (index : Nat) : Except HostFault Int64 :=
  match arguments[index]?.bind HostArgument.int64? with
  | some n => .ok n
  | none => .error (.failed ("argument " ++ Nat.repr index ++ " is not an integer"))

/-- The text at a place among the arguments. -/
def textAt (arguments : List HostArgument) (index : Nat) : Except HostFault String :=
  match arguments[index]?.bind HostArgument.text? with
  | some s => .ok s
  | none => .error (.failed ("argument " ++ Nat.repr index ++ " is not a string"))

/-- The first argument as a value. -/
def firstValue (arguments : List HostArgument) : Value :=
  (arguments.head?.map HostArgument.toValue).getD .null

/-- The item at a place that an integer gives. -/
def itemAt? {α : Type} (items : List α) (index : Int64) : Option α :=
  if index.toInt < 0 then none else items[index.toInt.toNat]?

/-- The failure of a place outside of its range. -/
def outOfRange (index : Int64) : HostFault :=
  .failed ("index " ++ Numeral.ofInt64 index ++ " out of range")

/-- A length as a value. -/
def count (n : Nat) : Value :=
  .integer (.ofNat n)

/-- The part of a text between two places; the end of the text where the second is missing. -/
def substring (s : String) (first : Int64) (stop : Option Int64) : Except HostFault Value :=
  let stop := stop.getD (.ofNat s.length)
  match Text.slice? s first.toInt stop.toInt with
  | some part => .ok (.text part)
  | none =>
    .error (.failed ("begin " ++ Numeral.ofInt64 first ++ ", end " ++ Numeral.ofInt64 stop ++
      ", length " ++ Nat.repr s.length))

/-- The root of all classes. -/
def objectClass : HostClass where
  name := HostType.rootName
  methods := [
    method "toString" [] fun blocks target _ => .ok (.text (target.display blocks)),
    method "equals" [.object] fun _ target arguments =>
      .ok (.boolean (target.same (firstValue arguments))),
    method "getClassName" [] fun _ target _ =>
      .ok ((target.hostClass?.map Value.text).getD .null)]

/-- What numbers have in common. -/
def numberClass : HostClass where
  name := "Number"
  supertypes := [HostType.rootName]
  methods := [
    method "intValue" [] fun _ target _ =>
      match target.int? with
      | some n => .ok (.integer n.toInt32.toInt64)
      | none => .error (notOf "Number" target),
    method "longValue" [] fun _ target _ =>
      match target.int? with
      | some n => .ok (.integer n)
      | none => .error (notOf "Number" target),
    method "doubleValue" [] fun _ target _ =>
      match target.float? with
      | some x => .ok (.float x)
      | none => .error (notOf "Number" target)]

/-- The wrappers of the numeric primitives. -/
def numberWrappers : List HostClass :=
  ["Byte", "Short", "Integer", "Long", "Float", "Double"].map fun name =>
    { name, supertypes := ["Number"] }

/-- The wrapper of truth values. -/
def booleanClass : HostClass where
  name := "Boolean"
  supertypes := [HostType.rootName]
  methods := [
    method "booleanValue" [] fun _ target _ =>
      match target.bool? with
      | some b => .ok (.boolean b)
      | none => .error (notOf "Boolean" target)]

/-- Texts. -/
def stringClass : HostClass where
  name := "String"
  supertypes := ["CharSequence"]
  methods := [
    method "length" [] fun _ target _ => do
      return count (← targetText target).length,
    method "isEmpty" [] fun _ target _ => do
      return .boolean (← targetText target).isEmpty,
    method "toUpperCase" [] fun _ target _ => do
      return .text (Text.upper (← targetText target)),
    method "toLowerCase" [] fun _ target _ => do
      return .text (Text.lower (← targetText target)),
    method "trim" [] fun _ target _ => do
      return .text (Text.trim (← targetText target)),
    method "charAt" [.primitive .int] fun _ target arguments => do
      let s ← targetText target
      let index ← integerAt arguments 0
      match itemAt? s.toList index with
      | some c => return .text (String.singleton c)
      | none => throw (outOfRange index),
    method "substring" [.primitive .int] fun _ target arguments => do
      substring (← targetText target) (← integerAt arguments 0) none,
    method "substring" [.primitive .int, .primitive .int] fun _ target arguments => do
      substring (← targetText target) (← integerAt arguments 0) (some (← integerAt arguments 1)),
    method "indexOf" [.named "String"] fun _ target arguments => do
      return .integer (.ofInt (Text.indexOf (← targetText target) (← textAt arguments 0) 0)),
    method "indexOf" [.primitive .char] fun _ target arguments => do
      let c := (arguments.head?.bind HostArgument.char?).getD (Char.ofNat 0)
      return .integer (.ofInt (Text.indexOf (← targetText target) (String.singleton c) 0)),
    method "indexOf" [.named "String", .primitive .int] fun _ target arguments => do
      let s ← targetText target
      let needle ← textAt arguments 0
      let start ← integerAt arguments 1
      return .integer (.ofInt (Text.indexOf s needle start.toInt)),
    method "contains" [.named "CharSequence"] fun _ target arguments => do
      return .boolean (Text.contains (← targetText target) (← textAt arguments 0)),
    method "startsWith" [.named "String"] fun _ target arguments => do
      return .boolean (Text.startsWith (← targetText target) (← textAt arguments 0)),
    method "endsWith" [.named "String"] fun _ target arguments => do
      return .boolean (Text.endsWith (← targetText target) (← textAt arguments 0)),
    method "concat" [.named "String"] fun _ target arguments => do
      return .text ((← targetText target) ++ (← textAt arguments 0)),
    method "replace" [.named "CharSequence", .named "CharSequence"] fun _ target arguments => do
      let s ← targetText target
      let needle ← textAt arguments 0
      return .text (Text.replace s needle (← textAt arguments 1)),
    method "split" [.named "String"] fun _ target arguments => do
      return .list ((Text.splitOn (← targetText target) (← textAt arguments 0)).map .text),
    method "repeat" [.primitive .int] fun _ target arguments => do
      let times ← integerAt arguments 0
      if times.toInt < 0 then throw (.failed "count is negative")
      return .text (Text.repeated (← targetText target) times.toInt.toNat)]

/-- Maps. -/
def mapClass : HostClass where
  name := "Map"
  supertypes := [HostType.rootName]
  methods := [
    method "size" [] fun _ target _ => do
      return count (← targetMap target).length,
    method "isEmpty" [] fun _ target _ => do
      return .boolean (← targetMap target).isEmpty,
    method "get" [.object] fun blocks target arguments => do
      let key := (firstValue arguments).display blocks
      return (Table.value? key (← targetMap target)).getD .null,
    method "containsKey" [.object] fun blocks target arguments => do
      let key := (firstValue arguments).display blocks
      return .boolean (Table.has key (← targetMap target)),
    method "keySet" [] fun _ target _ => do
      return .list ((Table.keys (← targetMap target)).map .text)]

/-- Lists. -/
def listClass : HostClass where
  name := "List"
  supertypes := [HostType.rootName]
  methods := [
    method "size" [] fun _ target _ => do
      return count (← targetList target).length,
    method "isEmpty" [] fun _ target _ => do
      return .boolean (← targetList target).isEmpty,
    method "get" [.primitive .int] fun _ target arguments => do
      let index ← integerAt arguments 0
      match (targetList target).toOption.bind (itemAt? · index) with
      | some v => return v
      | none => throw (outOfRange index),
    method "contains" [.object] fun _ target arguments => do
      let needle := firstValue arguments
      return .boolean ((← targetList target).any (·.same needle))]

/-- Code blocks. -/
def blockClass : HostClass where
  name := "Codeblock"
  supertypes := [HostType.rootName]
  methods := [
    method "getName" [] fun blocks target _ => do
      return .text (← targetBlock blocks target).name,
    method "getExecutionCount" [] fun blocks target _ => do
      return count (← targetBlock blocks target).runs,
    .fixed "run" [] .runBlock]

/-- Launched lines. -/
def taskClass : HostClass where
  name := "Task"
  supertypes := [HostType.rootName]
  methods := [
    method "getId" [] fun _ target _ =>
      match target with
      | .task id => .ok (count id)
      | _ => .error (notOf "Task" target),
    .fixed "isAlive" [] .isAlive]

/-- The standard classes. -/
def standardClasses : List HostClass :=
  [objectClass, numberClass] ++ numberWrappers ++
    [booleanClass, { name := "Character", supertypes := [HostType.rootName] },
      { name := "CharSequence", supertypes := [HostType.rootName] },
      stringClass, mapClass, listClass, blockClass, taskClass]

end Host

/-- The catalog of the standard classes. -/
def Catalog.standard : Catalog :=
  .ofClasses Host.standardClasses

end BraceScript
