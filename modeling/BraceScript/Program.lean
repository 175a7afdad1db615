import BraceScript.FileTree
import BraceScript.Mode
import BraceScript.ScriptFile

/-!
# The program

What the program does with its arguments, its files and its input: what it writes to either stream
and the code it exits with. Failures to use it and failures of a file go to the error stream; what
scripts and shells report is part of their output, which they keep to themselves. The program ends
when its launched lines have ended, unless it exits.
-/

namespace BraceScript

/-- What reading the file at a path gives. -/
abbrev FileReader := String → Except FileFault ByteArray

/-- The text of the file at a path. -/
def FileReader.text (files : FileReader) (path : String) : Except FileFault String :=
  (files path).bind fileText

namespace Program

/-- What a run of the program leaves behind. -/
structure Result where
  exitCode : Nat := 0
  output : String := ""
  errors : String := ""
deriving DecidableEq, Repr, Inhabited

/-- A message of the program, on a line of its own. -/
def message (s : String) : String :=
  "kscript: " ++ s ++ "\n"

/-- The exit code that the system sees. -/
def systemCode (code : Int32) : Nat :=
  (code.toInt % 256).toNat

/-- The run that failed with a message. -/
def failure (s : String) : Result :=
  { exitCode := 1, errors := message s }

/-- The run that exits in a world. -/
def exited (code : Int32) (w : World) : Result :=
  { exitCode := systemCode code, output := w.allWritten }

/-- The result of a run that ended in a world, with the launched lines run to their ends; one of
them may exit the program. -/
def settled (engine : Engine) (result : Result) (w : World) : Result :=
  match engine.settle w with
  | .exited code w => { exited code w with errors := result.errors }
  | outcome => { result with output := outcome.world.allWritten }

/-- The result of a shell or a script that was broken off, where `source` is what was read. -/
def halted (engine : Engine) (source : String) (w : World) : Halt → Result
  | .exited code => exited code w
  | .unreadable => settled engine (failure (source ++ FileFault.notText.text)) w
  | .exhausted => { exitCode := 1, output := w.allWritten }

/-- The session that the program runs. -/
def mainHandle : Handle := { session := 0 }

/-- The environment with the settings of some files. -/
def readEnvironmentFiles (files : FileReader) :
    List String → Environment → Except String Environment
  | [], env => .ok env
  | path :: paths, env =>
    match files.text path with
    | .ok source => readEnvironmentFiles files paths ((EnvironmentFile.read source).apply env)
    | .error fault => .error ("environment file " ++ path ++ ": " ++ fault.text)

/-- The world in which a script starts and its source, or the message that says why it cannot. -/
def startScript (files : FileReader) (arguments : ScriptArguments) :
    Except String (World × String) := do
  let env ← readEnvironmentFiles files arguments.environmentFiles {}
  match files.text arguments.file with
  | .ok source =>
    let env := (EnvironmentFile.ofPairs arguments.settings).apply env
    return ((World.start env).keepOutput, source)
  | .error fault => throw (arguments.file ++ ": " ++ fault.text)

/-- The exit code after a script. -/
def scriptCode (report : ScriptFile.Report) : Nat :=
  if report.failedAt.isSome then 1 else 0

/-- Runs a script file. -/
def runScript (engine : Engine) (files : FileReader) (input : Input)
    (arguments : ScriptArguments) : Result :=
  match startScript files arguments with
  | .error s => failure s
  | .ok (w, source) =>
    match ScriptFile.run engine.evaluateLine engine.place mainHandle source input w with
    | (.ok report, w) => settled engine { exitCode := scriptCode report } w
    | (.error halt, w) => halted engine (arguments.file ++ ": ") w halt

/-- The world in which a shell starts. -/
def startShell : World :=
  (World.start {}).keepOutput

/-- Runs a shell. -/
def runShell (engine : Engine) (input : Input) : Result :=
  match Shell.run engine.evaluateLine engine.place mainHandle input startShell with
  | (.ok _, w) => settled engine {} w
  | (.error halt, w) => halted engine "" w halt

/-- Evaluates one line. -/
def runLine (engine : Engine) (line : String) : Result :=
  match engine.evaluateLine mainHandle line (.start {}) with
  | .done _ w => settled engine {} w
  | .failed e w => settled engine (failure e.trail) w
  | .exited code w => exited code w
  | .exhausted w => { exitCode := 1, output := w.allWritten }

/-- Runs the program. -/
def run (engine : Engine) (files : FileReader) (input : Input)
    (arguments : List String) : Result :=
  match Mode.ofArguments arguments with
  | .error misuse => { exitCode := 1, errors := message misuse.text ++ Mode.usage ++ "\n" }
  | .ok .help => { output := Mode.usage ++ "\n" }
  | .ok .version => { output := Mode.versionText ++ "\n" }
  | .ok .shell => runShell engine input
  | .ok (.line words) => runLine engine (Mode.joinWords words)
  | .ok (.script arguments) => runScript engine files input arguments

/-- The engine with the built-in commands and classes. -/
def standardEngine (place : Place) : Engine where
  registry := .standard
  hosts := .standard
  place

end Program
end BraceScript
