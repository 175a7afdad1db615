import BraceScript.EnvironmentFile
import BraceScript.Shell

/-!
# Scripts

A script is a text of lines that are evaluated in order, blank and comment lines aside. It stops at
the first line that fails, which it reports, and once the session is terminated. A line that says
`ShellMode` hands over to the shell, which reads the input until that ends or the session is
terminated; then the script goes on.
-/

namespace BraceScript
namespace ScriptFile

/-- What a script does with a line. -/
inductive LineKind where
  | skipped
  | shell
  | code
deriving DecidableEq, Repr, Inhabited

/-- What a script does with a line. -/
def lineKind (line : String) : LineKind :=
  if isSkippedLine line then .skipped
  else if Text.trim line = "ShellMode" then .shell
  else .code

/-- How a script ended. -/
structure Report where
  /-- How many lines were evaluated, the one that failed included. -/
  executed : Nat := 0
  /-- The number of the line that failed, counted from one. -/
  failedAt : Option Nat := none
deriving DecidableEq, Repr, Inhabited

/-- The line that tells where a script failed. -/
def failureLine (number : Nat) (line : String) : String :=
  "Interpreter Error: Failed executing line " ++ Nat.repr number ++ ": " ++ line ++ "\n"

/-- Evaluates a line of a script that has a number; tells whether it succeeded. -/
def perform (eval : Evaluator) (h : Handle) (number : Nat) (line : String) (w : World) :
    Ended Bool :=
  match eval h line w with
  | .done v w => (.ok true, w.setLast h.session v)
  | .failed e w =>
    (.ok false, (w.write .shell (Shell.errorLine e)).write .shell (failureLine number line))
  | .exited code w => (.error (.exited code), w)
  | .exhausted w => (.error .exhausted, w)

/-- Runs the lines of a script, the first having a number, after `executed` evaluated lines. -/
def runFrom (eval : Evaluator) (place : Place) (h : Handle) :
    (number executed : Nat) → List String → Input → World → Ended Report
  | _, executed, [], _, w => (.ok { executed }, w)
  | number, executed, line :: lines, input, w =>
    if (w.ending h.session).isSome then (.ok { executed }, w)
    else
      match lineKind line with
      | .skipped => runFrom eval place h (number + 1) executed lines input w
      | .shell =>
        match Shell.run eval place h input w with
        | (.ok rest, w) => runFrom eval place h (number + 1) executed lines rest w
        | (.error halt, w) => (.error halt, w)
      | .code =>
        match perform eval h number line w with
        | (.ok true, w) => runFrom eval place h (number + 1) (executed + 1) lines input w
        | (.ok false, w) => (.ok { executed := executed + 1, failedAt := some number }, w)
        | (.error halt, w) => (.error halt, w)

/-- Runs a script. -/
def run (eval : Evaluator) (place : Place) (h : Handle) (source : String) (input : Input)
    (w : World) : Ended Report :=
  runFrom eval place h 1 0 (Text.lines source) input w

end ScriptFile
end BraceScript
