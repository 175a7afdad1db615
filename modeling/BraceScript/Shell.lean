import BraceScript.Evaluation
import BraceScript.Prompt
import BraceScript.Text.Lines

/-!
# The shell

The shell shows a prompt, reads a line of input, evaluates it, and starts over, until the input ends
or the session is terminated. A result is shown where the environment asks for it; an error is shown
and does not end the shell. `Shell.reply` is what happens to one line.

The prompt is written before the input is looked at, so a shell that ends with its input ends with a
prompt, and one that starts at the end of the input writes exactly that.
-/

namespace BraceScript

/-- Why a shell or a script is broken off. -/
inductive Halt where
  /-- The program is to exit with a code. -/
  | exited (code : Int32)
  /-- The input is not valid UTF-8. -/
  | unreadable
  /-- The bound on passes and launches was reached. -/
  | exhausted
deriving DecidableEq, Repr, Inhabited

/-- How a shell or a script ends, and in which world. -/
abbrev Ended (α : Type) := Except Halt α × World

/-- Lines of input, `none` for one that is not valid UTF-8. -/
abbrev Input := List (Option String)

namespace Shell

/-- The prompt at this moment. -/
def prompt (place : Place) (w : World) : String :=
  let format := w.environment.getD Environment.promptFormat Environment.defaultPromptFormat
  Prompt.renderAt format place

/-- The line that shows an error. -/
def errorLine (e : ScriptError) : String :=
  "error: " ++ e.trail ++ "\n"

/-- Evaluates a line of input and shows what there is to show. -/
def reply (eval : Evaluator) (h : Handle) (line : String) (w : World) : Ended Unit :=
  match eval h (Text.dropLineEnd line) w with
  | .done v w =>
    let shown :=
      if w.environment.isEnabled Environment.echo then w.write .shell (w.display v ++ "\n") else w
    (.ok (), shown.setLast h.session v)
  | .failed e w => (.ok (), w.write .shell (errorLine e))
  | .exited code w => (.error (.exited code), w)
  | .exhausted w => (.error .exhausted, w)

/-- Runs the shell; gives the input that is left. -/
def run (eval : Evaluator) (place : Place) (h : Handle) : Input → World → Ended Input
  | [], w =>
    if (w.ending h.session).isSome then (.ok [], w)
    else (.ok [], w.write .shell (prompt place w))
  | line :: rest, w =>
    if (w.ending h.session).isSome then (.ok (line :: rest), w)
    else
      match line with
      | none => (.error .unreadable, w.write .shell (prompt place w))
      | some s =>
        match reply eval h s (w.write .shell (prompt place w)) with
        | (.ok (), w) => run eval place h rest w
        | (.error halt, w) => (.error halt, w)

end Shell
end BraceScript
