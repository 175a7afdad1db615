import BraceScript.Script

/-!
# Commands

A command takes the values of a line's tokens after its name. Which of these positions are evaluated
before it runs is a part of the command (`PreEvaluation`); the others reach it as raw texts, so that
it can evaluate them itself, later and more than once.

There are three kinds: *leaf* commands, which never evaluate anything; *control* commands, which do;
and commands that a host program adds.
-/

namespace BraceScript

/-- Which argument positions are evaluated before a command runs. -/
inductive PreEvaluation where
  | all
  | only (positions : List Nat)
deriving DecidableEq, Repr, Inhabited

namespace PreEvaluation

/-- Are the positions picked out? -/
def isSelective : PreEvaluation → Bool
  | all => false
  | only _ => true

/-- Is the argument at a position evaluated? -/
def isEligible : PreEvaluation → Nat → Bool
  | all, _ => true
  | only positions, position => position ∈ positions

end PreEvaluation

/-- The commands that evaluate nothing. -/
inductive Leaf where
  | print
  | storeValue
  | freeValue
  | exit
  | sysExit
  | environment
  | compareNumber
  | and
  | or
  | not
  | math
  | newMap
  | getItemFromMap
  | putItemToMap
  | dropItemFromMap
  | hostInfo
  | currentCodeblock
  | getAsInteger64
  | getAsFloat64
  | getAsString
  | getAsBoolean
  | trueValue
  | falseValue
  | nullValue
  | typeOf
deriving DecidableEq, Repr, Inhabited

/-- The name of a leaf command. -/
def Leaf.name : Leaf → String
  | print => "Print"
  | storeValue => "StoreValue"
  | freeValue => "FreeValue"
  | exit => "Exit"
  | sysExit => "SysExit"
  | environment => "Environment"
  | compareNumber => "CompareNumber"
  | and => "And"
  | or => "Or"
  | not => "Not"
  | math => "Math"
  | newMap => "NewMap"
  | getItemFromMap => "GetItemFromMap"
  | putItemToMap => "PutItemToMap"
  | dropItemFromMap => "DropItemFromMap"
  | hostInfo => "HostInfo"
  | currentCodeblock => "CurrentCodeblock"
  | getAsInteger64 => "GetAsInteger64"
  | getAsFloat64 => "GetAsFloat64"
  | getAsString => "GetAsString"
  | getAsBoolean => "GetAsBoolean"
  | trueValue => "True"
  | falseValue => "False"
  | nullValue => "Null"
  | typeOf => "TypeOf"

/-- The commands that evaluate lines. -/
inductive Control where
  | loop
  | codeblock
  | asynchronize
  | runIf
  | invokeMethodOf
deriving DecidableEq, Repr, Inhabited

namespace Control

/-- The name of a control command. -/
def name : Control → String
  | loop => "While"
  | codeblock => "Codeblock"
  | asynchronize => "Asynchronize"
  | runIf => "RunIf"
  | invokeMethodOf => "InvokeMethodOf"

/-- The argument positions that are evaluated before a control command runs. -/
def preEvaluation : Control → PreEvaluation
  | loop => .only []
  | codeblock => .only [0, 1]
  | asynchronize => .only []
  | runIf => .only [0]
  | invokeMethodOf => .all

end Control

/-- A command. -/
inductive Command where
  | leaf (command : Leaf)
  | control (command : Control)
  /-- A command of a host program. -/
  | custom (preEvaluation : PreEvaluation) (run : Handle → List Value → Script Value)

namespace Command

/-- The argument positions that are evaluated before a command runs. -/
def preEvaluation : Command → PreEvaluation
  | leaf _ => .all
  | control command => command.preEvaluation
  | custom pre _ => pre

end Command

/-- The commands there are, by their qualified names. -/
structure Registry where
  commands : Table Command := []

namespace Registry

/-- The registry with one more command, which replaces one with its name. -/
def add (r : Registry) (qualifiedName : String) (command : Command) : Registry :=
  ⟨Table.put qualifiedName command r.commands⟩

/-- The qualified names in the order in which they were added. -/
def names (r : Registry) : List String :=
  Table.keys r.commands

/-- Is there a command with exactly this name? -/
def has (r : Registry) (qualifiedName : String) : Bool :=
  Table.has qualifiedName r.commands

/-- The qualified name that a name stands for: one with a dot for itself, and a bare one for the
first of the namespaces in which it is found. -/
def qualify? (r : Registry) (searchOrder : List String) (name : String) : Option String :=
  if '.' ∈ name.toList then if r.has name then some name else none
  else (searchOrder.map (· ++ "." ++ name)).find? r.has

/-- The command that a name stands for, with its qualified name. -/
def resolve? (r : Registry) (searchOrder : List String) (name : String) :
    Option (String × Command) :=
  (r.qualify? searchOrder name).bind fun qualified =>
    (Table.value? qualified r.commands).map (qualified, ·)

/-- The commands of the namespace `ks.control`. -/
def controlCommands : List Command :=
  [.control .loop, .control .codeblock, .control .asynchronize]

/-- The commands of the namespace `ks.commands`. -/
def generalCommands : List Command :=
  [.leaf .print, .leaf .storeValue, .leaf .freeValue, .leaf .exit, .leaf .sysExit,
    .leaf .environment, .leaf .compareNumber, .leaf .and, .leaf .or, .leaf .not, .leaf .math,
    .control .runIf, .leaf .newMap, .leaf .getItemFromMap, .leaf .putItemToMap,
    .leaf .dropItemFromMap, .leaf .hostInfo, .leaf .currentCodeblock, .control .invokeMethodOf]

/-- The commands of the namespace `ks.types`. -/
def typeCommands : List Command :=
  [.leaf .getAsInteger64, .leaf .getAsFloat64, .leaf .getAsString, .leaf .getAsBoolean,
    .leaf .trueValue, .leaf .falseValue, .leaf .nullValue, .leaf .typeOf]

/-- The registry with the commands of a namespace. -/
def addAll (r : Registry) (space : String) (commands : List Command) : Registry :=
  commands.foldl (fun r command => r.add (space ++ "." ++ bareName command) command) r
where
  /-- The name of a built-in command. -/
  bareName : Command → String
    | .leaf command => command.name
    | .control command => command.name
    | .custom _ _ => ""

/-- The built-in commands. -/
def standard : Registry :=
  (((({} : Registry).addAll "ks.control" controlCommands).addAll "ks.commands"
    generalCommands).addAll "ks.types" typeCommands)

end Registry
end BraceScript
