import BraceScript.Block
import BraceScript.Number.Shortest
import BraceScript.Value

/-!
# Texts of values

The display text of a value is what a message or an echo shows and what a map takes as a key. A
block shows its name, lines and runs at that moment, so the display reads the blocks there are.
-/

namespace BraceScript

namespace Value

mutual

/-- The display text of a value, where `blocks` are the blocks there are. -/
def display (blocks : Array Block) : Value → String
  | null => "null"
  | boolean b => if b then "true" else "false"
  | integer n => Numeral.ofInt64 n
  | float x => x.text
  | text s => s
  | map _ entries => "\x7b" ++ ", ".intercalate (displayEntries blocks entries) ++ "\x7d"
  | list items => "[" ++ ", ".intercalate (displayItems blocks items) ++ "]"
  | block id => (blocks.getD id default).text
  | task id => "Task#" ++ Nat.repr id
  | host object => "<host:" ++ object.className ++ ">"

/-- The display texts of the items of a list. -/
def displayItems (blocks : Array Block) : List Value → List String
  | [] => []
  | v :: vs => display blocks v :: displayItems blocks vs

/-- The display texts of the entries of a map. -/
def displayEntries (blocks : Array Block) : List (String × Value) → List String
  | [] => []
  | (k, v) :: rest => (k ++ "=" ++ display blocks v) :: displayEntries blocks rest

end

/-- The display text with the type in front, for the kinds that could be taken for source. -/
def labelled (blocks : Array Block) (v : Value) : String :=
  v.typeName ++ ": " ++ v.display blocks

end Value
end BraceScript
