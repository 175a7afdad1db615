import BraceScript.Proofs.Dispatch

/-!
# What happens during an evaluation

Two kinds of event make up the history of an evaluation: a command is executed, and a run of a block
is started. The log of a run lists them in order, each with the world of that moment.

The functions below say what the log of each part of the evaluator is, given the log of the
evaluator that it uses. They follow the calls and nothing else: what a part computes in between, it
does by the part itself, which is run for the value and the world that the next call starts from.
So the log holds a start for each time that the lines of a block are about to be evaluated, whether
or not the run comes to its end, and whatever the counter of the block says.
-/

namespace BraceScript

/-- Something that happens in a run, in the world of that moment. -/
inductive Event where
  | executed (h : Handle) (command : Command) (args : List Value) (w : World)
  | started (block : Nat) (w : World)

/-- The events of a run, in order, where it starts in a world. -/
abbrev Log := World → List Event

/-- The events of the evaluation of a line on a handle. -/
abbrev Logger := Handle → String → Log

namespace Log

/-- The log of a run in which nothing happens. -/
def nothing : Log :=
  fun _ => []

/-- The events of a run and, where it ends with a value, those of what comes after it. -/
def andThen {α : Type} (log : Log) (x : Script α) (next : α → Log) : Log :=
  fun w => log w ++
    match x w with
    | .done a w => next a w
    | _ => []

end Log

namespace Evaluation

/-! ### The arguments of control commands -/

theorem runCodeblock_text (eval : Evaluator) (h : Handle) (name action : String)
    (code : List Value) :
    runCodeblock eval h (.text name :: .text action :: code) =
      runBlockAction eval h name action code := rfl

theorem exists_runCodeblock_eq_fail {args : List Value}
    (hargs : ∀ name action code, args ≠ .text name :: .text action :: code) :
    ∃ e, ∀ eval h, runCodeblock eval h args = .fail e := by
  match args with
  | [] => exact ⟨_, fun _ _ => rfl⟩
  | [_] => exact ⟨_, fun _ _ => rfl⟩
  | first :: second :: code =>
    by_cases hfirst : ∃ name, first = .text name
    · obtain ⟨name, rfl⟩ := hfirst
      cases second with
      | text action => exact absurd rfl (hargs name action code)
      | _ => exact ⟨_, fun _ _ => rfl⟩
    · cases first with
      | text name => exact absurd ⟨name, rfl⟩ hfirst
      | _ => exact ⟨_, fun _ _ => rfl⟩

theorem runInvoke_text (eval : Evaluator) (hosts : Catalog) (target : Value) (method : String)
    (args : List Value) :
    runInvoke eval hosts (target :: .text method :: args) =
      invoke eval hosts target method args := rfl

theorem exists_runInvoke_eq_fail {args : List Value}
    (hargs : ∀ target method rest, args ≠ target :: .text method :: rest) :
    ∃ e, ∀ eval hosts, runInvoke eval hosts args = .fail e := by
  match args with
  | [] => exact ⟨_, fun _ _ => rfl⟩
  | [_] => exact ⟨_, fun _ _ => rfl⟩
  | target :: second :: rest =>
    cases second with
    | text method => exact absurd rfl (hargs target method rest)
    | _ => exact ⟨_, fun _ _ => rfl⟩

theorem runRunIf_eq (eval : Evaluator) (h : Handle) (condition first : Value) (rest : List Value) :
    runRunIf eval h (condition :: first :: rest) =
      match Leaf.truth condition with
      | .ok true => Script.read (·.joinSource (first :: rest)) >>= eval h
      | .ok false => pure .null
      | .error c => .complain "RunIf" c := by
  show (Script.orComplain "RunIf" (Leaf.truth condition) >>=
    fun holds => if holds = true then _ else _) = _
  cases Leaf.truth condition with
  | error c => rfl
  | ok holds => cases holds <;> rfl

/-! ### Tokens, sequences and blocks -/

/-- What happens where a reference is resolved: a name is only looked up, a line is evaluated. -/
def resolveLog (log : Logger) (h : Handle) : Token.Reference → Log
  | .named _ => .nothing
  | .nested line => log h line

/-- What happens where an argument is found, which is evaluated at an eligible position only. -/
def argumentLog (log : Logger) (h : Handle) (pre : PreEvaluation) (position : Nat) : Token → Log
  | .null => .nothing
  | .word raw =>
    if pre.isEligible position then
      match Token.reference? raw with
      | some reference => resolveLog log h reference
      | none => .nothing
    else .nothing

/-- The arguments are found from left to right, up to one that fails. -/
def argumentsLog (eval : Evaluator) (log : Logger) (h : Handle) (pre : PreEvaluation) :
    (position : Nat) → List Token → Log
  | _, [] => .nothing
  | position, t :: tokens =>
    (argumentLog log h pre position t).andThen (argument eval h pre position t) fun _ =>
      argumentsLog eval log h pre (position + 1) tokens

/-- What happens where a value that was left for later is evaluated; only a text is a line. -/
def deferredLog (log : Logger) (h : Handle) : Value → Log
  | .text raw => log h ((Token.unbraced? raw).getD raw)
  | _ => .nothing

/-- The lines of a sequence happen one after the other, blank ones left out, while the session is
live. -/
def sequenceLog (eval : Evaluator) (log : Logger) (h : Handle) : List String → Log
  | [] => .nothing
  | line :: lines => fun w =>
    if (w.ending h.session).isSome then []
    else if Text.isAllBlank line then sequenceLog eval log h lines w
    else (log h line).andThen (eval h line)
      (fun v w => sequenceLog eval log h lines (w.setLast h.session v)) w

/-- A run of a block is a start, and then the events of the lines that the block holds then. -/
def blockLog (eval : Evaluator) (log : Logger) (h : Handle) (id : Nat) : Log :=
  fun w => .started id w ::
    sequenceLog eval log (w.enterBlock h (w.block id).name) (w.block id).lines (w.countRun id)

/-- A block that a host runs happens on the handle it is bound to. -/
def boundLog (eval : Evaluator) (log : Logger) (id : Nat) : Log :=
  fun w =>
    match liveHandle? w (w.block id) with
    | some h => blockLog eval log h id w
    | none => []

/-- Of the methods of the host only the one that runs a block lets something happen. -/
def invokeLog (eval : Evaluator) (log : Logger) (hosts : Catalog) (target : Value)
    (method : String) (args : List Value) : Log :=
  match hosts.resolve target method args with
  | .error _ => .nothing
  | .ok call =>
    match call.method.action, target with
    | .runBlock, .block id => boundLog eval log id
    | _, _ => .nothing

/-! ### Loops and launched lines -/

/-- Each pass of a loop is the condition and, where that holds, the body. -/
def passesLog (h : Handle) (condition : Script Bool) (conditionLog : Log)
    (body : Nat → Script Value) (bodyLog : Nat → Log) : (number fuel : Nat) → Log
  | _, 0 => .nothing
  | number, fuel + 1 => fun w =>
    if (w.ending h.session).isSome then []
    else conditionLog.andThen condition
      (fun holds =>
        if holds then
          (bodyLog number).andThen (body number) fun _ =>
            passesLog h condition conditionLog body bodyLog (number + 1) fuel
        else .nothing) w

/-- What happens in the body of a loop: its line and, now and then, what was launched meanwhile. -/
def passLog (eval : Evaluator) (log : Logger) (waitingLog : Log) (h : Handle) (body : String)
    (number : Nat) : Log :=
  (log h body).andThen (eval h body) fun _ =>
    if number % patience = 0 then waitingLog else .nothing

/-- What happens in a loop, whose body is joined once from the arguments. -/
def loopLog (eval : Evaluator) (log : Logger) (waiting : Script Unit) (waitingLog : Log)
    (fuel : Nat) (h : Handle) : List Value → Log
  | condition :: first :: rest => fun w =>
    passesLog h (test eval h condition) (deferredLog log h condition)
      (pass eval waiting h (w.joinSource (first :: rest)))
      (passLog eval log waitingLog h (w.joinSource (first :: rest))) 1 fuel w
  | _ => .nothing

/-- A launched line starts without the output that the run keeps to itself. -/
def launchedLog (log : Logger) (launch : Launch) : Log :=
  fun w => log launch.handle launch.line (if w.keepsOutput then { w with written := #[] } else w)

/-- The launched lines happen in the order of their launches. -/
def settleLog (eval : Evaluator) (log : Logger) : (fuel : Nat) → Log
  | 0 => .nothing
  | fuel + 1 => fun w =>
    match w.startNext? with
    | none => []
    | some ((task, launch), w) =>
      (launchedLog log launch).andThen (runLaunched eval task launch)
        (fun _ => settleLog eval log fuel) w

/-! ### Commands and lines -/

/-- Of what can be done with a block only a run lets something happen. -/
def codeblockLog (eval : Evaluator) (log : Logger) (h : Handle) : List Value → Log
  | .text name :: .text "run" :: _ =>
    Log.nothing.andThen (openBlock h name) (blockLog eval log h)
  | _ => .nothing

/-- What happens in a conditional line, where the condition holds. -/
def runIfLog (log : Logger) (h : Handle) : List Value → Log
  | condition :: first :: rest =>
    match Leaf.truth condition with
    | .ok true => fun w => log h (w.joinSource (first :: rest)) w
    | _ => .nothing
  | _ => .nothing

/-- What happens in a call of a method of the host. -/
def methodLog (eval : Evaluator) (log : Logger) (hosts : Catalog) : List Value → Log
  | target :: .text method :: args => invokeLog eval log hosts target method args
  | _ => .nothing

/-- What happens while a command runs. -/
def commandLog (engine : Engine) (fuel : Nat) (waiting : Script Unit) (waitingLog : Log)
    (eval : Evaluator) (log : Logger) (h : Handle) : Command → List Value → Log
  | .control .loop, args => loopLog eval log waiting waitingLog fuel h args
  | .control .codeblock, args => codeblockLog eval log h args
  | .control .runIf, args => runIfLog log h args
  | .control .invokeMethodOf, args => methodLog eval log engine.hosts args
  | _, _ => .nothing

/-- What happens where a command is found: its arguments, its execution, and what that leads to. -/
def dispatchLog (engine : Engine) (fuel : Nat) (waiting : Script Unit) (waitingLog : Log)
    (eval : Evaluator) (log : Logger) (h : Handle) (line name : String) (tokens : List Token) :
    Log := fun w =>
  match engine.registry.resolve? (w.session h.session).searchOrder name with
  | none => []
  | some (_, command) =>
    (argumentsLog eval log h command.preEvaluation 0 tokens).andThen
      (arguments eval h command.preEvaluation line 0 tokens)
      (fun args w => .executed h command args w ::
        commandLog engine fuel waiting waitingLog eval log h command args w) w

/-- Without a level more nothing happens. -/
def guardedLog (lower : Option (Evaluator × Logger)) (log : Evaluator → Logger → Log) : Log :=
  match lower with
  | some (eval, inner) => log eval inner
  | none => .nothing

/-- What happens in a line, on the level below. -/
def lineLog (engine : Engine) (fuel : Nat) (waiting : Script Unit) (waitingLog : Log)
    (lower : Option (Evaluator × Logger)) (h : Handle) (line : String) : Log := fun w =>
  if (w.ending h.session).isSome then []
  else
    match Token.scan line with
    | [] => []
    | first :: rest =>
      if first.opensComment then []
      else
        match loneReference? (first :: rest), first with
        | some reference, _ => guardedLog lower (fun _ log => resolveLog log h reference) w
        | none, .null => []
        | none, .word name =>
          if Text.hasBlank name then []
          else guardedLog lower (fun eval log =>
            dispatchLog engine fuel waiting waitingLog eval log h line name rest) w

/-- The events of a line with a number of levels left. -/
def logAt (engine : Engine) (fuel : Nat) (waiting : Script Unit) (waitingLog : Log) :
    (levels : Nat) → Logger
  | 0, h, line => lineLog engine fuel waiting waitingLog none h line
  | levels + 1, h, line =>
    lineLog engine fuel waiting waitingLog (some (evaluateAt engine fuel waiting levels,
      logAt engine fuel waiting waitingLog levels)) h line

end Evaluation

namespace Engine
open Evaluation

/-- The events of a line. -/
def log (engine : Engine) : (fuel levels : Nat) → Logger
  | 0, levels => logAt engine 0 (engine.waiting 0) .nothing levels
  | fuel + 1, levels =>
    logAt engine (fuel + 1) (engine.waiting (fuel + 1))
      (settleLog (engine.evaluate fuel recursionLimit) (engine.log fuel recursionLimit) (fuel + 1))
      levels

/-- The events of the launched lines that wait. -/
def waitingLog (engine : Engine) : (fuel : Nat) → Log
  | 0 => .nothing
  | fuel + 1 =>
    settleLog (engine.evaluate fuel recursionLimit) (engine.log fuel recursionLimit) (fuel + 1)

theorem log_eq (engine : Engine) (fuel levels : Nat) :
    engine.log fuel levels =
      logAt engine fuel (engine.waiting fuel) (engine.waitingLog fuel) levels := by
  cases fuel <;> rfl

end Engine
end BraceScript
