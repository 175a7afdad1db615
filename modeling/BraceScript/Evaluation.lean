import BraceScript.Command.Leaf
import BraceScript.Host.Standard
import BraceScript.Token

/-!
# Evaluation

A line is cut into tokens; the first names a command, and the others become its arguments, those
that the command wants evaluated being substituted from left to right: `{{name}}` by a variable and
`{line}` by the value of that line. Then the command runs.

Lines nest, through arguments, loops, conditionals and blocks, at most `recursionLimit` levels deep.
The evaluator is built from the innermost level outwards: `evaluateLevel` turns the evaluator of the
level below, or none at the bottom, into that of a level, and everything that evaluates is given the
evaluator to use. So `Engine.evaluate` is a recursion on the levels left, and nothing else needs a
bound but the passes of a loop and the launched lines inside one another, which `fuel` bounds. A run
that ends within its fuel ends the same way with more.

A launched line waits. It runs when the outermost evaluation has ended, by `Engine.settle`, or when
a loop has made many passes, which may be waiting for it; on a nesting of its own, with its error
dropped.
-/

namespace BraceScript

/-- Evaluates a line on a handle. -/
abbrev Evaluator := Handle → String → Script Value

/-- What evaluations use and never change: the commands, the host's classes, and the place. -/
structure Engine where
  registry : Registry
  hosts : Catalog
  place : Place

/-- How deep lines may nest. -/
def recursionLimit : Nat := 1000

/-- The value of a line without tokens. -/
def emptyLineValue : Value := .integer 1

/-- The value of a comment line. -/
def commentValue : Value := .integer 0

/-- Does the first token make its line a comment? -/
def Token.opensComment : Token → Bool
  | null => false
  | word text => ['/', '/'].isPrefixOf text.toList

namespace Evaluation

/-! ### Tokens to values -/

/-- The value of a variable. -/
def lookUp (h : Handle) (name : String) : Script Value :=
  fun w =>
    match w.valueOf? h.session name with
    | some v => .done v w
    | none => .failed ⟨.variableNotFound name, []⟩ w

/-- The value that a wrapped token stands for. -/
def resolve (eval : Evaluator) (h : Handle) : Token.Reference → Script Value
  | .named name => lookUp h name
  | .nested line => eval h line

/-- The value of a raw token at an argument position. -/
def substitute (eval : Evaluator) (h : Handle) (pre : PreEvaluation) (position : Nat)
    (raw : String) : Script Value :=
  if pre.isEligible position then
    match Token.reference? raw with
    | some reference => resolve eval h reference
    | none => pure (.text raw)
  else pure (.text raw)

/-- The values of the argument tokens of a line, from a position on. -/
def arguments (eval : Evaluator) (h : Handle) (pre : PreEvaluation) (line : String) :
    (position : Nat) → List Token → Script (List Value)
  | _, [] => pure []
  | position, .null :: tokens => do
    let rest ← arguments eval h pre line (position + 1) tokens
    return .null :: rest
  | position, .word raw :: tokens => do
    let v ← (substitute eval h pre position raw).within (.argument position line)
    let rest ← arguments eval h pre line (position + 1) tokens
    return v :: rest

/-- A value that may be a raw token: a text is evaluated as a line, without its outer braces, and
every other value is itself. -/
def deferred (eval : Evaluator) (h : Handle) : Value → Script Value
  | .text raw => eval h ((Token.unbraced? raw).getD raw)
  | v => pure v

/-! ### Sequences and blocks -/

/-- Evaluates lines in order, the first having a number, where `last` is the value so far. Blank
lines count and are passed over; each value becomes the session's last result. A terminated session
evaluates no further line and gives its terminating value. -/
def sequenceFrom (eval : Evaluator) (h : Handle) :
    (number : Nat) → (last : Value) → List String → Script Value
  | _, last, [] => .read fun w => (w.ending h.session).getD last
  | number, last, line :: lines => do
    match ← Script.read (·.ending h.session) with
    | some v => return v
    | none =>
      if Text.isAllBlank line then sequenceFrom eval h (number + 1) last lines
      else
        let v ← (eval h line).within (.line number line)
        Script.change (·.setLast h.session v)
        sequenceFrom eval h (number + 1) v lines

/-- Evaluates lines in order. -/
def sequence (eval : Evaluator) (h : Handle) (lines : List String) : Script Value :=
  sequenceFrom eval h 1 .null lines

/-- Runs the lines that a block holds at the start of the run. -/
def runBlock (eval : Evaluator) (h : Handle) (id : Nat) : Script Value := do
  let block ← Script.read (·.block id)
  Script.change (·.modifyBlock id fun b => { b with runs := b.runs + 1 })
  let inner ← Script.read (·.enterBlock h block.name)
  (sequence eval inner block.lines).within (.block block.name)

/-- The handle that a block is bound to, if its session is still live. -/
def liveHandle? (w : World) (block : Block) : Option Handle :=
  block.bound.filter fun h => (w.session h.session).isLive

/-- Runs a block on the session it is bound to. -/
def runBound (eval : Evaluator) (id : Nat) : Script Value := do
  let block ← Script.read (·.block id)
  match ← Script.read (liveHandle? · block) with
  | some h => runBlock eval h id
  | none => .failWith (.invocation ("code block " ++ block.name ++ " has no live session"))

/-- The block under a name, made where there is none. -/
def openBlock (h : Handle) (name : String) : Script Nat :=
  fun w =>
    match w.valueOf? h.session (Block.slot name) with
    | some (.block id) => .done id w
    | some v => .failed (.complaint "Codeblock" (.notBlock (Block.slot name) v.typeName)) w
    | none =>
      match w.makeBlock h.session name with
      | (id, w) => .done id w

/-! ### Host calls -/

/-- Calls a method of the host on a target. -/
def invoke (eval : Evaluator) (hosts : Catalog) (target : Value) (method : String)
    (args : List Value) : Script Value :=
  match hosts.resolve target method args with
  | .error e => .fail e
  | .ok call =>
    match call.method.action, target with
    | .compute run, _ => do
      match ← Script.read fun w => run w.blocks target call.arguments with
      | .ok v => return v
      | .error fault => .failWith (call.cause fault)
    | .runBlock, .block id => fun w =>
      match runBound eval id w with
      | .failed e w => .failed ⟨call.cause (.failed e.trail), []⟩ w
      | outcome => outcome
    | .runBlock, _ => .failWith (call.cause (Host.notOf "Codeblock" target))
    | .isAlive, .task id => .read fun w => .boolean (w.isAlive id)
    | .isAlive, _ => .failWith (call.cause (Host.notOf "Task" target))

theorem invoke_compute {hosts : Catalog} {target : Value} {method : String} {args : List Value}
    {call : Catalog.Call} (hresolve : hosts.resolve target method args = .ok call)
    {run : Array Block → Value → List HostArgument → Except HostFault Value}
    (haction : call.method.action = .compute run) (eval : Evaluator) (w : World) :
    invoke eval hosts target method args w =
      match run w.blocks target call.arguments with
      | .ok v => .done v w
      | .error fault => .failed ⟨call.cause fault, []⟩ w := by
  rw [invoke, hresolve]
  dsimp only
  rw [haction]
  show (match run w.blocks target call.arguments with
    | .ok v => pure v
    | .error fault => Script.failWith (call.cause fault) : Script Value) w = _
  cases run w.blocks target call.arguments <;> rfl

/-! ### Launched lines -/

/-- Runs a launched line to its end, aside where the output is not free. -/
def runLaunched (eval : Evaluator) (task : Nat) (launch : Launch) : Script Unit :=
  fun w =>
    let run := (eval launch.handle launch.line).quietly
    if w.keepsOutput then (run { w with written := #[] }).mapWorld (·.closeAside w.written task)
    else (run w).mapWorld (·.endLaunch task)

/-- Runs the launched lines that wait, and those that they launch, in the order of their launches;
at most `fuel` of them. -/
def settle (eval : Evaluator) : (fuel : Nat) → Script Unit
  | 0 => fun w => if w.hasWaiting then .exhausted w else .done () w
  | fuel + 1 => fun w =>
    match w.startNext? with
    | none => .done () w
    | some ((task, launch), w) =>
      ((runLaunched eval task launch).andThen fun _ => settle eval fuel) w

/-- Where no line waits there is nothing to run. -/
theorem settle_of_not_hasWaiting {w : World} (h : w.hasWaiting = false) (eval : Evaluator)
    (fuel : Nat) : settle eval fuel w = .done () w := by
  cases fuel with
  | zero => simp [settle, h]
  | succ fuel => simp [settle, World.startNext?_eq_none h]

/-- Launches a line and gives its task. -/
def launch (h : Handle) (line : String) : Script Value := do
  return .task (← .step (·.launch h line))

/-! ### Control commands -/

/-- The condition of a loop, a boolean or a raw token, evaluated once. -/
def test (eval : Evaluator) (h : Handle) : Value → Script Bool
  | .boolean b => pure b
  | .text raw => do
    match ← (deferred eval h (.text raw)).within .condition with
    | .boolean b => return b
    | v => Script.complain "While" (.conditionResult v.typeName)
  | v => Script.complain "While" (.loopCondition v.typeName)

/-- Passes through a loop from the one with a number on, at most `fuel` of them, until the session
is terminated or the condition is false. -/
def passes (h : Handle) (condition : Script Bool) (body : Nat → Script Value) :
    (number fuel : Nat) → Script Unit
  | _, 0 => .exhausted
  | number, fuel + 1 => do
    if ← Script.read fun w => (w.ending h.session).isSome then return ()
    else if ← condition then
      let _ ← body number
      passes h condition body (number + 1) fuel
    else return ()

/-- How many passes a loop makes before it gives way to the launched lines. -/
def patience : Nat := 100

/-- The pass of a loop with a number: its body, and now and then what waits. -/
def pass (eval : Evaluator) (waiting : Script Unit) (h : Handle) (body : String) (number : Nat) :
    Script Value := do
  let v ← (eval h body).within .body
  if number % patience = 0 then waiting
  return v

/-- A loop: the first argument is the condition, and the others, joined once, are the body. -/
def runLoop (eval : Evaluator) (waiting : Script Unit) (fuel : Nat) (h : Handle) :
    List Value → Script Value
  | condition :: first :: rest => do
    let body ← Script.read (·.joinSource (first :: rest))
    passes h (test eval h condition) (pass eval waiting h body) 1 fuel
    return .null
  | _ => .complain "While" .loopArguments

/-- A word of the block command. -/
def blockWord (args : List Value) (index : Nat) (what : String) : Script String :=
  match args[index]?.bind Value.text? with
  | some s => pure s
  | none => .complain "Codeblock" (.blockWord what)

/-- The actions of the block command. -/
def runBlockAction (eval : Evaluator) (h : Handle) (name action : String) (code : List Value) :
    Script Value :=
  match action with
  | "make" => do return .block (← .step (·.makeBlock h.session name))
  | "delete" => do
    Script.change (·.deleteBlock h.session name)
    return .null
  | "list" => .read fun w => .list ((w.blockNames h.session).map .text)
  | "add" => do
    if code.isEmpty then Script.complain "Codeblock" .blockCode
    else
      let id ← openBlock h name
      let line ← Script.read (·.joinSource code)
      Script.change (·.modifyBlock id (·.push line))
      return .block id
  | "setSession" => do
    let id ← openBlock h name
    Script.change (·.modifyBlock id ({ · with bound := some h }))
    return .block id
  | "get" => do return .block (← openBlock h name)
  | "run" => do runBlock eval h (← openBlock h name)
  | action => .complain "Codeblock" (.blockAction action)

/-- The block command: a name, an action, and code where the action takes it. -/
def runCodeblock (eval : Evaluator) (h : Handle) (args : List Value) : Script Value := do
  if args.length < 2 then Script.complain "Codeblock" .blockArguments
  else
    let name ← blockWord args 0 "block name"
    let action ← blockWord args 1 "action"
    runBlockAction eval h name action (args.drop 2)

/-- Launches the line that the arguments make. -/
def runAsynchronize (h : Handle) (args : List Value) : Script Value := do
  if args.isEmpty then Script.complain "Asynchronize" .nothingToLaunch
  else launch h (← Script.read (·.joinSource args))

/-- Evaluates the line that the arguments after the first make, if the first holds. -/
def runRunIf (eval : Evaluator) (h : Handle) (args : List Value) : Script Value := do
  Script.orComplain "RunIf" (Leaf.checkCount args 2 none)
  if ← Script.orComplain "RunIf" (Leaf.truth (args.headD .null)) then
    eval h (← Script.read (·.joinSource (args.drop 1)))
  else return .null

/-- Calls a method of the host: the target, the name of the method, and its arguments. -/
def runInvoke (eval : Evaluator) (hosts : Catalog) (args : List Value) : Script Value := do
  Script.orComplain "InvokeMethodOf" (Leaf.checkCount args 2 none)
  let method ← Script.orComplain "InvokeMethodOf" (Leaf.textAt args 1)
  invoke eval hosts (args.headD .null) method (args.drop 2)

/-- Runs a command: `eval` evaluates what it evaluates, `waiting` runs the launched lines that wait,
and `fuel` bounds the passes of a loop. -/
def execute (engine : Engine) (fuel : Nat) (waiting : Script Unit) (eval : Evaluator) (h : Handle) :
    Command → List Value → Script Value
  | .leaf command, args => command.run engine.place h args
  | .control .loop, args => runLoop eval waiting fuel h args
  | .control .codeblock, args => runCodeblock eval h args
  | .control .asynchronize, args => runAsynchronize h args
  | .control .runIf, args => runRunIf eval h args
  | .control .invokeMethodOf, args => runInvoke eval engine.hosts args
  | .custom _ run, args => run h args

/-! ### Lines -/

/-- The run that needs one level more, where there is one. -/
def guarded (lower : Option Evaluator) (run : Evaluator → Script Value) : Script Value :=
  match lower with
  | some eval => run eval
  | none => .failWith (.tooDeep recursionLimit)

/-- Looks up a command and runs it on the tokens after its name. -/
def dispatch (engine : Engine) (fuel : Nat) (waiting : Script Unit) (eval : Evaluator) (h : Handle)
    (line name : String) (tokens : List Token) : Script Value := do
  let searchOrder ← Script.read fun w => (w.session h.session).searchOrder
  match engine.registry.resolve? searchOrder name with
  | none => .failWith (.commandNotFound name)
  | some (_, command) =>
    let args ← arguments eval h command.preEvaluation line 0 tokens
    (execute engine fuel waiting eval h command args).within (.command name line)

/-- What a line that is nothing but one wrapped token stands for. -/
def loneReference? : List Token → Option Token.Reference
  | [.word only] => Token.reference? only
  | _ => none

/-- Evaluates the tokens of a line that has some and is no comment. -/
def evaluateTokens (engine : Engine) (fuel : Nat) (waiting : Script Unit)
    (lower : Option Evaluator) (h : Handle) (line : String) (first : Token) (rest : List Token) :
    Script Value :=
  match loneReference? (first :: rest) with
  | some reference => guarded lower fun eval => resolve eval h reference
  | none =>
    match first with
    | .null => .failWith (.malformed ("invalid command name in \"" ++ line ++ "\""))
    | .word name =>
      if Text.hasBlank name then
        .failWith (.malformed ("invalid command name in \"" ++ line ++ "\""))
      else guarded lower fun eval => dispatch engine fuel waiting eval h line name rest

/-- Evaluates a line, given the evaluator of the level below. -/
def evaluateLevel (engine : Engine) (fuel : Nat) (waiting : Script Unit) (lower : Option Evaluator)
    (h : Handle) (line : String) : Script Value := do
  match ← Script.read (·.ending h.session) with
  | some v => return v
  | none =>
    match Token.scan line with
    | [] => return emptyLineValue
    | first :: rest =>
      if first.opensComment then return commentValue
      else evaluateTokens engine fuel waiting lower h line first rest

/-- Evaluates a line with a number of levels left. -/
def evaluateAt (engine : Engine) (fuel : Nat) (waiting : Script Unit) : (levels : Nat) → Evaluator
  | 0, h, line => evaluateLevel engine fuel waiting none h line
  | levels + 1, h, line =>
    evaluateLevel engine fuel waiting (some (evaluateAt engine fuel waiting levels)) h line

end Evaluation

namespace Engine

/-- Evaluates a line with a number of levels left; launched lines have all levels and less fuel. -/
def evaluate (engine : Engine) : (fuel levels : Nat) → Evaluator
  | 0, levels, h, line =>
    Evaluation.evaluateAt engine 0 (Evaluation.settle (fun _ _ => .exhausted) 0) levels h line
  | fuel + 1, levels, h, line =>
    Evaluation.evaluateAt engine (fuel + 1)
      (Evaluation.settle (engine.evaluate fuel recursionLimit) (fuel + 1)) levels h line

/-- Fuel that no run can use up in practice. -/
def ampleFuel : Nat := twoTo 62

/-- Evaluates a line from the outermost level. -/
def evaluateLine (engine : Engine) : Evaluator :=
  engine.evaluate ampleFuel recursionLimit

/-- Gives way to the launched lines that wait, and to those that they launch. -/
def giveWay (engine : Engine) : Script Unit :=
  Evaluation.settle engine.evaluateLine ampleFuel

/-- Ends a run: frees the output, and runs the launched lines that wait. -/
def settle (engine : Engine) : Script Unit := do
  Script.change World.release
  engine.giveWay

end Engine
end BraceScript
