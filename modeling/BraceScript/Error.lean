import BraceScript.Text.Quoted

/-!
# Errors

An error is a *cause* and the *frames* of the evaluations it passed on its way out, outermost first.
Nothing recovers from an error inside an evaluation: each enclosing argument, command, line, block
or loop adds its frame, so the frames are the path from the line that was asked for to the one that
failed.

Each cause, each complaint about arguments and each frame is a case of its own; the wording stands
in `Complaint.text`, `Cause.text` and `Frame.text` alone. `ScriptError.trail` is the whole path in
words.
-/

namespace BraceScript

/-- What is wrong with the arguments of a command. -/
inductive Complaint where
  /-- Not between `least` and `most` arguments. -/
  | count (least : Nat) (most : Option Nat) (got : Nat)
  | missing (index : Nat)
  | notText (index : Nat) (type : String)
  | notTruth (type : String)
  | notMap (type : String)
  | nullMap
  | notNumeral (text : String)
  | notNumber (type : String)
  | notInteger (shown : String)
  | notFloat (shown : String)
  | storeForm
  | exitRange (code : String)
  | exitNumeral (text : String)
  | environmentValue (type : String)
  | environmentAction (action : String)
  | comparison (operator : String)
  | operation (name : String)
  | overflow (name : String)
  | zeroDivisor
  | unpaired
  | loopArguments
  | loopCondition (type : String)
  | conditionResult (type : String)
  | blockArguments
  | blockWord (what : String)
  | blockCode
  | blockAction (action : String)
  | notBlock (slot type : String)
  | nothingToLaunch
  | nullTarget
  | conversion (type target : String)
  | other (text : String)
deriving DecidableEq, Repr, Inhabited

namespace Complaint

/-- How many arguments are expected. -/
def expected (least : Nat) : Option Nat → String
  | some most =>
    if most = least then "exactly " ++ Nat.repr least
    else Nat.repr least ++ " to " ++ Nat.repr most
  | none => "at least " ++ Nat.repr least

/-- The wording of a complaint. -/
def text : Complaint → String
  | count least most got =>
    "requires " ++ expected least most ++ " argument(s), got " ++ Nat.repr got
  | missing index => "missing argument " ++ Nat.repr index
  | notText index type => "argument " ++ Nat.repr index ++ " must be text, got " ++ type
  | notTruth type => "requires boolean or text arguments, got " ++ type
  | notMap type => "first argument must be a map, got " ++ type
  | nullMap => "the first argument cannot be null"
  | notNumeral s => Text.quoted s ++ " is not a number"
  | notNumber type => "requires numbers, got " ++ type
  | notInteger shown => "cannot convert " ++ shown ++ " to an integer"
  | notFloat shown => "cannot convert " ++ shown ++ " to a float"
  | storeForm => "usage: StoreValue <name> = <value>"
  | exitRange code => "exit code " ++ code ++ " out of range"
  | exitNumeral s => "invalid exit code " ++ Text.quoted s
  | environmentValue type => "value must be text or null, got " ++ type
  | environmentAction action =>
    "unknown action " ++ action ++ "; usage: list | get <key> | set <key> <value>"
  | comparison operator => "expected any of ==, !=, <, <=, >, >= but got " ++ operator
  | operation name => "unknown operation " ++ name ++ "; expected add, sub, mul, div or mod"
  | overflow name => "integer overflow in " ++ name
  | zeroDivisor => "division by zero"
  | unpaired => "requires key/value pairs"
  | loopArguments => "requires at least 2 arguments"
  | loopCondition type => "requires a boolean or a condition line, got " ++ type
  | conditionResult type => "condition produced " ++ type ++ " instead of a boolean"
  | blockArguments =>
    "requires at least 2 arguments: <name> <make|add|list|delete|setSession|get|run> [code]"
  | blockWord what => what ++ " must be text"
  | blockCode => "add requires code: <name> add <code>"
  | blockAction action =>
    "unknown action " ++ action ++ "; expected make, add, list, delete, setSession, get or run"
  | notBlock slot type => slot ++ " holds a " ++ type ++ ", not a code block"
  | nothingToLaunch => "requires at least one command"
  | nullTarget => "target object is null"
  | conversion type target => "cannot convert " ++ type ++ " to " ++ target
  | other s => s

end Complaint

/-- Why an evaluation failed. -/
inductive Cause where
  /-- The line has no usable command name. -/
  | malformed (text : String)
  | commandNotFound (name : String)
  | variableNotFound (name : String)
  | noOverload (method type : String)
  | argument (command : String) (complaint : Complaint)
  /-- A command or a host method ran and failed. -/
  | invocation (text : String)
  /-- A host method could not be reached. -/
  | hostAccess (text : String)
  | tooDeep (limit : Nat)
deriving DecidableEq, Repr, Inhabited

namespace Cause

/-- The broad classes of causes. -/
inductive Kind where
  | malformed
  | resolution
  | arityOrType
  | invocation
  | hostAccess
  | limit
deriving DecidableEq, Repr

/-- The class of a cause. -/
def kind : Cause → Kind
  | malformed _ => .malformed
  | commandNotFound _ | variableNotFound _ | noOverload _ _ => .resolution
  | argument _ _ => .arityOrType
  | invocation _ => .invocation
  | hostAccess _ => .hostAccess
  | tooDeep _ => .limit

/-- The wording of a cause. -/
def text : Cause → String
  | malformed s => "syntax error: " ++ s
  | commandNotFound name => "command not found: " ++ name
  | variableNotFound name => "variable " ++ name ++ " not found in session"
  | noOverload method type => "no compatible overload for " ++ method ++ " on " ++ type
  | argument command complaint => command ++ ": " ++ complaint.text
  | invocation s => s
  | hostAccess s => "host access error: " ++ s
  | tooDeep limit => "evaluation nested deeper than " ++ Nat.repr limit ++ " levels"

end Cause

/-- What an error passed on its way out. -/
inductive Frame where
  /-- The argument at a position of a line, counted from zero after the command name. -/
  | argument (index : Nat) (line : String)
  | command (name line : String)
  /-- A line of a sequence, counted from one. -/
  | line (number : Nat) (line : String)
  | block (name : String)
  /-- The condition of a loop. -/
  | condition
  /-- The body of a loop. -/
  | body
deriving DecidableEq, Repr, Inhabited

namespace Frame

/-- The wording of a frame. -/
def text : Frame → String
  | argument index source =>
    "failed to evaluate argument " ++ Nat.repr index ++ " of \"" ++ source ++ "\""
  | command name source =>
    "failed to execute command \"" ++ name ++ "\" at line: \"" ++ source ++ "\""
  | line number source => "failed to execute line " ++ Nat.repr number ++ ": \"" ++ source ++ "\""
  | block name => "error executing code block: " ++ name
  | condition => "While condition failed"
  | body => "While command failed"

end Frame

/-- A cause with the frames around it, outermost first. -/
structure ScriptError where
  cause : Cause
  frames : List Frame := []
deriving DecidableEq, Repr, Inhabited

namespace ScriptError

/-- A complaint of a command about its arguments. -/
def complaint (command : String) (c : Complaint) : ScriptError :=
  ⟨.argument command c, []⟩

/-- The error inside one more frame. -/
def within (e : ScriptError) (frame : Frame) : ScriptError :=
  { e with frames := frame :: e.frames }

/-- The class of the error's cause. -/
def kind (e : ScriptError) : Cause.Kind :=
  e.cause.kind

/-- The messages from the outermost frame down to the cause. -/
def messages (e : ScriptError) : List String :=
  e.frames.map Frame.text ++ [e.cause.text]

/-- The outermost message. -/
def text (e : ScriptError) : String :=
  e.messages.headD ""

/-- All messages in one text. -/
def trail (e : ScriptError) : String :=
  ": ".intercalate e.messages

end ScriptError
end BraceScript
