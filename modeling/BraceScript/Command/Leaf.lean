import BraceScript.Command
import BraceScript.Number
import BraceScript.Place

/-!
# Leaf commands

A leaf command looks at its arguments and at the world, and changes the world, but evaluates
nothing. Each is a run of its own, with its checks and its changes in the order in which they are
made: what a command did before it complained would stay done.
-/

namespace BraceScript
namespace Leaf

/-- Between `least` and `most` arguments. -/
def checkCount (arguments : List Value) (least : Nat) (most : Option Nat) : Except Complaint Unit :=
  if least ≤ arguments.length && most.all (arguments.length ≤ ·) then .ok ()
  else .error (.count least most arguments.length)

/-- The text at a place among the arguments. -/
def textAt (arguments : List Value) (index : Nat) : Except Complaint String :=
  match arguments[index]? with
  | some (.text s) => .ok s
  | some v => .error (.notText index v.typeName)
  | none => .error (.missing index)

/-- A value read as a condition. -/
def truth (v : Value) : Except Complaint Bool :=
  match v.bool? with
  | some b => .ok b
  | none => .error (.notTruth v.typeName)

/-- The entries of a map. -/
def entriesOf (v : Value) : Except Complaint (Table Value) :=
  match v with
  | .map _ entries => .ok entries
  | _ => .error (.notMap v.typeName)

/-- A value as `Print` writes it. -/
def printed (blocks : Array Block) : Value → String
  | .null => ""
  | .text s => s
  | .integer n => (Value.integer n).display blocks
  | .float x => (Value.float x).display blocks
  | v => v.labelled blocks

/-- The pairs of keys and values in a list of arguments, a key being the display of its value. -/
def pairs (blocks : Array Block) : List Value → Except Complaint (List (String × Value))
  | [] => .ok []
  | [_] => .error .unpaired
  | k :: v :: rest => (pairs blocks rest).map ((k.display blocks, v) :: ·)

/-- The exit code that a value gives. -/
def exitCode : Value → Except Complaint Int32
  | .integer n =>
    if Int32.minValue.toInt ≤ n.toInt && n.toInt ≤ Int32.maxValue.toInt then .ok n.toInt32
    else .error (.exitRange (Numeral.ofInt64 n))
  | .text s =>
    match Numeral.int32? (Text.trim s) with
    | some n => .ok n
    | none => .error (.exitNumeral s)
  | _ => .ok 0

/-- What `HostInfo` tells about a place. -/
def placeEntries (place : Place) : Table Value :=
  let optional (s : Option String) : Value := (s.map Value.text).getD .null
  [("OSName", .text place.system), ("OSArch", .text place.machine),
    ("OSFamily", .text place.family), ("UserName", optional place.user),
    ("UserHome", optional place.home), ("WorkingDirectory", optional place.directory),
    ("ProcessorCount", .integer place.processors)]

/-- What a check of the command finds, or its complaint. -/
def check {α : Type} (command : Leaf) (found : Except Complaint α) : Script α :=
  .orComplain command.name found

@[simp] theorem check_ok_bind {α β : Type} (command : Leaf) (a : α) (next : α → Script β) :
    (command.check (.ok a) >>= next) = next a := rfl

/-- Writes the arguments on one line. -/
def runPrint (arguments : List Value) : Script Value := do
  let line ← Script.read fun w => " ".intercalate (arguments.map (printed w.blocks))
  Script.change (·.write .print (line ++ "\n"))
  return .text line

/-- The value to store: `name = value` or `name value`. -/
def storedValue : List Value → Except Complaint Value
  | [_, v] => .ok v
  | [_, .text "=", v] => .ok v
  | _ => .error .storeForm

/-- Sets a variable. -/
def runStoreValue (h : Handle) (arguments : List Value) : Script Value := do
  storeValue.check (checkCount arguments 2 (some 3))
  let name ← storeValue.check (textAt arguments 0)
  let v ← storeValue.check (storedValue arguments)
  Script.change (·.setVariable h.session name v)
  return v

/-- Removes the variables that some values name, one after the other. -/
def removeAll (h : Handle) : List Value → Script Unit
  | [] => pure ()
  | v :: rest => do
    let name ← Script.read (·.display v)
    Script.change (·.removeVariable h.session name)
    removeAll h rest

/-- Removes variables. -/
def runFreeValue (h : Handle) (arguments : List Value) : Script Value := do
  freeValue.check (checkCount arguments 1 none)
  removeAll h arguments
  return .null

/-- Terminates the session. -/
def runExit (h : Handle) (arguments : List Value) : Script Value :=
  .step (·.terminate h.session (arguments.headD .null))

/-- Exits the program; without an argument it does nothing. -/
def runSysExit (arguments : List Value) : Script Value :=
  match arguments with
  | [] => pure .null
  | code :: _ => do
    let code ← sysExit.check (exitCode code)
    Script.exit code

/-- Makes a setting, or removes it where the value is null. -/
def makeSetting (name : String) : Value → Script Unit
  | .null => Script.change (·.unsetSetting name)
  | .text s => Script.change (·.setSetting name s)
  | v => Script.complain environment.name (.environmentValue v.typeName)

/-- Lists, reads and makes settings. -/
def runEnvironment (arguments : List Value) : Script Value := do
  environment.check (checkCount arguments 1 (some 3))
  let action ← environment.check (textAt arguments 0)
  match action, arguments with
  | "list", [_] =>
    let settings ← Script.read (·.environment.sorted)
    Script.step (·.newMap (settings.map fun (name, value) => (name, .text value)))
  | "get", [_, _] =>
    let name ← environment.check (textAt arguments 1)
    Script.read fun w => ((w.environment.get? name).map Value.text).getD .null
  | "set", [_, _, v] =>
    let name ← environment.check (textAt arguments 1)
    makeSetting name v
    return .null
  | action, _ => Script.complain environment.name (.environmentAction action)

/-- Compares two numbers by a sign. -/
def runCompareNumber (arguments : List Value) : Script Value := do
  compareNumber.check (checkCount arguments 3 (some 3))
  let a ← compareNumber.check (Number.ofValue (arguments.getD 0 .null))
  let b ← compareNumber.check (Number.ofValue (arguments.getD 2 .null))
  let sign ← compareNumber.check (textAt arguments 1)
  match Number.comparison? sign with
  | some holds => return .boolean (holds a.toDouble b.toDouble)
  | none => Script.complain compareNumber.name (.comparison sign)

/-- Reads all conditions, then joins them. -/
def runJoin (command : Leaf) (join : List Bool → Bool) (arguments : List Value) :
    Script Value := do
  command.check (checkCount arguments 2 none)
  let conditions ← command.check (arguments.mapM truth)
  return .boolean (join conditions)

/-- Negates a condition. -/
def runNot (arguments : List Value) : Script Value := do
  not.check (checkCount arguments 1 (some 1))
  let condition ← not.check (truth (arguments.headD .null))
  return .boolean (!condition)

/-- Folds an operation over numbers. -/
def runMath (arguments : List Value) : Script Value := do
  math.check (checkCount arguments 3 none)
  let operation ← math.check (textAt arguments 0)
  let first ← math.check (Number.ofValue (arguments.getD 1 .null))
  let result ← math.check (Number.fold operation first (arguments.drop 2))
  return result.toValue

/-- Builds a map from keys and values. -/
def runNewMap (arguments : List Value) : Script Value := do
  let entries ← newMap.check (← Script.read fun w => pairs w.blocks arguments)
  Script.step (·.newMap (Table.ofPairs entries))

/-- Looks up an entry of a map. -/
def runGetItem (arguments : List Value) : Script Value := do
  getItemFromMap.check (checkCount arguments 2 (some 2))
  let entries ← getItemFromMap.check (entriesOf (arguments.getD 0 .null))
  let key ← Script.read (·.display (arguments.getD 1 .null))
  return (Table.value? key entries).getD .null

/-- Builds a map with an entry more. -/
def runPutItem (arguments : List Value) : Script Value := do
  putItemToMap.check (checkCount arguments 3 (some 3))
  let entries ← putItemToMap.check (entriesOf (arguments.getD 0 .null))
  let key ← Script.read (·.display (arguments.getD 1 .null))
  Script.step (·.newMap (Table.put key (arguments.getD 2 .null) entries))

/-- Builds a map with an entry less. -/
def runDropItem (arguments : List Value) : Script Value := do
  dropItemFromMap.check (checkCount arguments 2 (some 2))
  if (arguments.getD 0 .null).isNull then Script.complain dropItemFromMap.name .nullMap
  else
    let entries ← dropItemFromMap.check (entriesOf (arguments.getD 0 .null))
    let key ← Script.read (·.display (arguments.getD 1 .null))
    Script.step (·.newMap (Table.remove key entries))

/-- Reads a value as one of another type. -/
def runGetAs (command : Leaf) (read? : Value → Option Value) (complaint : String → Complaint)
    (arguments : List Value) : Script Value := do
  command.check (checkCount arguments 1 (some 1))
  match read? (arguments.headD .null) with
  | some v => return v
  | none =>
    let shown ← Script.read (·.display (arguments.headD .null))
    Script.complain command.name (complaint shown)

/-- Joins the displays of the values that are not null. -/
def runGetAsString (arguments : List Value) : Script Value := do
  getAsString.check (checkCount arguments 1 none)
  Script.read fun w => .text (String.join ((arguments.filter (!·.isNull)).map w.display))

/-- Reads a value as a condition. -/
def runGetAsBoolean (arguments : List Value) : Script Value := do
  getAsBoolean.check (checkCount arguments 1 (some 1))
  let condition ← getAsBoolean.check (truth (arguments.headD .null))
  return .boolean condition

/-- Names the type of a value. -/
def runTypeOf (arguments : List Value) : Script Value := do
  typeOf.check (checkCount arguments 1 (some 1))
  return .text (arguments.headD .null).typeName

/-- Runs a leaf command. -/
def run (place : Place) (h : Handle) (command : Leaf) (arguments : List Value) : Script Value :=
  match command with
  | print => runPrint arguments
  | storeValue => runStoreValue h arguments
  | freeValue => runFreeValue h arguments
  | exit => runExit h arguments
  | sysExit => runSysExit arguments
  | environment => runEnvironment arguments
  | compareNumber => runCompareNumber arguments
  | and => runJoin .and (·.all id) arguments
  | or => runJoin .or (·.any id) arguments
  | not => runNot arguments
  | math => runMath arguments
  | newMap => runNewMap arguments
  | getItemFromMap => runGetItem arguments
  | putItemToMap => runPutItem arguments
  | dropItemFromMap => runDropItem arguments
  | hostInfo => .step (·.newMap (placeEntries place))
  | currentCodeblock => pure ((h.context.current.map Value.text).getD .null)
  | getAsInteger64 => runGetAs .getAsInteger64 (·.int?.map .integer) .notInteger arguments
  | getAsFloat64 => runGetAs .getAsFloat64 (·.float?.map .float) .notFloat arguments
  | getAsString => runGetAsString arguments
  | getAsBoolean => runGetAsBoolean arguments
  | trueValue => pure (.boolean true)
  | falseValue => pure (.boolean false)
  | nullValue => pure .null
  | typeOf => runTypeOf arguments

end Leaf
end BraceScript
