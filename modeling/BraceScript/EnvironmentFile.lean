import BraceScript.Environment
import BraceScript.Text.Blank
import BraceScript.Text.Lines
import BraceScript.Text.Quoted
import BraceScript.Text.Search

/-!
# Environment files

An environment file lists settings, one `name=value` a line: the value is all that follows the first
equals sign, and a line without one sets the empty value. Blanks around the line and around the name
do not count. Blank lines and comment lines, which begin with `#` or `//`, are skipped. A line
without a name is a fault, and the other lines are read all the same.

The same entries may come as single texts, among which there are no comments.
-/

namespace BraceScript

/-- Is it a line that is skipped, blank or a comment? -/
def isSkippedLine (line : String) : Bool :=
  let cs := Chars.trim line.toList
  cs.isEmpty || ['#'].isPrefixOf cs || ['/', '/'].isPrefixOf cs

namespace EnvironmentFile

/-- An entry without a name, where the entries are counted from one. -/
structure Fault where
  number : Nat
  entry : String
deriving DecidableEq, Repr, Inhabited

/-- The wording of a fault. -/
def Fault.text (f : Fault) : String :=
  "line " ++ Nat.repr f.number ++ ": missing key in " ++ Text.quoted f.entry

/-- What was read: the settings in order, and the faults. -/
structure Reading where
  entries : List (String × String) := []
  faults : List Fault := []
deriving DecidableEq, Repr, Inhabited

/-- The name and the value of an entry, which has no blanks around it; `none` if it has no name. -/
def entry? (entry : String) : Option (String × String) :=
  let name := Chars.trim (entry.toList.takeWhile (· ≠ '='))
  let value := (entry.toList.dropWhile (· ≠ '=')).drop 1
  if name.isEmpty then none else some (String.ofList name, String.ofList value)

/-- Reads an entry that has a number. -/
def Reading.add (r : Reading) (number : Nat) (raw : String) : Reading :=
  let trimmed := Text.trim raw
  match entry? trimmed with
  | some setting => { r with entries := r.entries ++ [setting] }
  | none => { r with faults := r.faults ++ [⟨number, trimmed⟩] }

/-- Reads numbered entries, those aside that `skips` tells. -/
def readFrom (skips : String → Bool) : (number : Nat) → Reading → List String → Reading
  | _, r, [] => r
  | number, r, raw :: rest =>
    readFrom skips (number + 1) (if skips raw then r else r.add number raw) rest

/-- Reads the text of an environment file. -/
def read (source : String) : Reading :=
  readFrom isSkippedLine 1 {} (Text.lines source)

/-- Reads entries given one by one. -/
def ofPairs (pairs : List String) : Reading :=
  readFrom (fun _ => false) 1 {} pairs

/-- The environment with the entries that were read, in order. -/
def Reading.apply (r : Reading) (env : Environment) : Environment :=
  r.entries.foldl (fun env setting => env.set setting.1 setting.2) env

end EnvironmentFile
end BraceScript
