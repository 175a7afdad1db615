import BraceScript.Program

/-!
# The command line

Reads the place, the files and the input from the system, and writes what the program says as soon
as it says it, so that a shell can be used at a terminal. What is said and done is `Program`'s,
`ScriptFile`'s and `Shell`'s; only, a shell that waits for a line lets the launched lines run.
-/

namespace BraceScript.CommandLine

/-- Where the program runs. -/
def readPlace : IO Place := do
  let user ← IO.getEnv "USER"
  let other ← IO.getEnv "USERNAME"
  let home ← IO.getEnv "HOME"
  let directory ← IO.currentDir
  return { user := user.or other, home, directory := some directory.toString }

/-- Why the system could not read a file. A path through a file is refused when it is opened, which
names it; a directory is refused only when it is read. -/
def fault : IO.Error → FileFault
  | .inappropriateType (some _) _ _ => .notDirectory
  | .inappropriateType none _ _ => .directory
  | .invalidArgument _ _ _ => .nameTooLong
  | .permissionDenied _ _ _ => .denied
  | _ => .missing

/-- The bytes of a file, or why it cannot be read. -/
def readFile (path : String) : IO (Except FileFault ByteArray) := do
  try return .ok (← IO.FS.readBinFile path)
  catch e => return .error (fault e)

/-- The bytes of the files that some arguments name. -/
def readFiles (arguments : ScriptArguments) : IO FileReader := do
  let paths := arguments.file :: arguments.environmentFiles
  let contents ← paths.mapM fun path => do return (path, ← readFile path)
  return fun path => (contents.lookup path).getD (.error .missing)

/-- Writes the output and the errors of a result, and gives its exit code. -/
def finish (result : Program.Result) : IO UInt32 := do
  (← IO.getStdout).putStr result.output
  (← IO.getStdout).flush
  (← IO.getStderr).putStr result.errors
  return .ofNat result.exitCode

/-- Writes what a world holds, and empties it. -/
def flush (w : World) : IO World := do
  (← IO.getStdout).putStr w.allWritten
  (← IO.getStdout).flush
  return { w with written := #[] }

/-- Reads bytes up to the end of a line; `read` holds those read so far. -/
partial def readBytes (stdin : IO.FS.Stream) (read : ByteArray) : IO ByteArray := do
  let next ← stdin.read 1
  if next.isEmpty then return read
  else if next.data[0]? = some 10 then return read ++ next
  else readBytes stdin (read ++ next)

/-- The next line of input: none at its end, and `some none` for one that is not valid UTF-8. -/
def readLine : IO (Option (Option String)) := do
  let bytes ← readBytes (← IO.getStdin) ByteArray.empty
  return if bytes.isEmpty then none else some (String.fromUTF8? bytes)

/-- Gives way to the launched lines. -/
def giveWay (engine : Engine) (w : World) : IO (Ended Unit) := do
  match engine.giveWay w with
  | .exited code w => return (.error (.exited code), ← flush w)
  | outcome => return (.ok (), ← flush outcome.world)

/-- Runs the shell on standard input. -/
partial def shell (engine : Engine) (w : World) : IO (Ended Unit) := do
  if (w.ending Program.mainHandle.session).isSome then return (.ok (), w)
  match ← giveWay engine (← flush (w.write .shell (Shell.prompt engine.place w))) with
  | (.error halt, w) => return (.error halt, w)
  | (.ok (), w) =>
    match ← readLine with
    | none => return (.ok (), w)
    | some none => return (.error .unreadable, w)
    | some (some line) =>
      match Shell.reply engine.evaluateLine Program.mainHandle line w with
      | (.ok (), w) => shell engine (← flush w)
      | (.error halt, w) => return (.error halt, ← flush w)

/-- Runs the lines of a script, with standard input for its shell. -/
def script (engine : Engine) : (number executed : Nat) → List String → World →
    IO (Ended ScriptFile.Report)
  | _, executed, [], w => return (.ok { executed }, w)
  | number, executed, line :: lines, w => do
    if (w.ending Program.mainHandle.session).isSome then return (.ok { executed }, w)
    match ScriptFile.lineKind line with
    | .skipped => script engine (number + 1) executed lines w
    | .shell =>
      match ← shell engine w with
      | (.ok (), w) => script engine (number + 1) executed lines w
      | (.error halt, w) => return (.error halt, w)
    | .code =>
      match ScriptFile.perform engine.evaluateLine Program.mainHandle number line w with
      | (.ok true, w) => script engine (number + 1) (executed + 1) lines (← flush w)
      | (.ok false, w) =>
        return (.ok { executed := executed + 1, failedAt := some number }, ← flush w)
      | (.error halt, w) => return (.error halt, ← flush w)

/-- Runs a script file. -/
def runScript (engine : Engine) (arguments : ScriptArguments) : IO UInt32 := do
  match Program.startScript (← readFiles arguments) arguments with
  | .error s => finish (Program.failure s)
  | .ok (w, source) =>
    match ← script engine 1 0 (Text.lines source) w with
    | (.ok report, w) =>
      finish (Program.settled engine { exitCode := Program.scriptCode report } w)
    | (.error halt, w) => finish (Program.halted engine (arguments.file ++ ": ") w halt)

/-- Runs a shell. -/
def runShell (engine : Engine) : IO UInt32 := do
  match ← shell engine Program.startShell with
  | (.ok (), w) => finish (Program.settled engine {} w)
  | (.error halt, w) => finish (Program.halted engine "" w halt)

/-- Runs the program. -/
def run (arguments : List String) : IO UInt32 := do
  let engine := Program.standardEngine (← readPlace)
  match Mode.ofArguments arguments with
  | .ok .shell => runShell engine
  | .ok (.script arguments) => runScript engine arguments
  | _ => finish (Program.run engine (fun _ => .error .missing) [] arguments)

end BraceScript.CommandLine

/-- Runs the program on its command-line arguments. -/
def main (arguments : List String) : IO UInt32 :=
  BraceScript.CommandLine.run arguments
