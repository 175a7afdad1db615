import BraceScript.Text.Blank
import BraceScript.Text.Span

/-!
# Modes of the program

Without arguments the program is a shell. `-ScriptMode` runs a script file, after which environment
files or single settings may follow, and two switches ask for help and for the version. Anything
else is one line, given word by word.
-/

namespace BraceScript

/-- A script to run, and the settings to make before it. -/
structure ScriptArguments where
  file : String
  environmentFiles : List String := []
  settings : List String := []
deriving DecidableEq, Repr, Inhabited

/-- What the arguments ask for. -/
inductive Mode where
  | shell
  | help
  | version
  | script (arguments : ScriptArguments)
  | line (words : List String)
deriving DecidableEq, Repr, Inhabited

namespace Mode

/-- What is wrong with the arguments. -/
inductive Misuse where
  | noScript
  | unknownOption (option : String)
deriving DecidableEq, Repr, Inhabited

/-- The wording of a misuse. -/
def Misuse.text : Misuse → String
  | noScript => "-ScriptMode requires a script file"
  | unknownOption option => "unknown option after script file: " ++ option

/-- What follows `-ScriptMode`. -/
def ofScriptArguments : List String → Except Misuse ScriptArguments
  | [] => .error .noScript
  | [file] => .ok { file }
  | file :: option :: rest =>
    if option = "-Env" then .ok { file, environmentFiles := rest }
    else if option = "-LineEnv" then .ok { file, settings := rest }
    else .error (.unknownOption option)

/-- What the arguments ask for. -/
def ofArguments : List String → Except Misuse Mode
  | [] => .ok .shell
  | first :: rest =>
    if first = "-h" || first = "--help" then .ok .help
    else if first = "-V" || first = "--version" then .ok .version
    else if first = "-ScriptMode" then (ofScriptArguments rest).map .script
    else .ok (.line (first :: rest))

/-- The words of a line joined into its source: an empty word, and one that holds a blank and is not
in braces, becomes a quoted span. -/
def joinWords (words : List String) : String :=
  " ".intercalate (words.map word)
where
  /-- One word as source. -/
  word (w : String) : String :=
    let braced := ['{'].isPrefixOf w.toList && ['}'].isSuffixOf w.toList
    if w.isEmpty || (!braced && Text.hasBlank w) then Text.span w else w

/-- How the program is used. -/
def usage : String :=
  "Usage: kscript\n" ++
  "       kscript -ScriptMode <file> [-Env <file>...]\n" ++
  "       kscript -ScriptMode <file> [-LineEnv <key=value>...]\n" ++
  "       kscript <command> [<arg>...]"

/-- The program's name and version. -/
def versionText : String := "kscript 0.1.0"

end Mode
end BraceScript
