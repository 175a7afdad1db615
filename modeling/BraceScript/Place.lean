import BraceScript.Text.Search

/-!
# Places

Where the program runs: who uses it, in which directory, on what machine.

Two paths agree when they have the same steps: repeated and trailing slashes and steps that stay in
place (`.`) do not count, except one at the very start; steps up (`..`) do.
-/

namespace BraceScript

/-- Where the program runs. -/
structure Place where
  user : Option String
  home : Option String
  directory : Option String
  system : String := "linux"
  machine : String := "x86_64"
  family : String := "unix"
  processors : Int64 := 1
deriving Repr, Inhabited

namespace Path

/-- A directory as the steps that lead to it. -/
structure Steps where
  /-- Does it start at the root? -/
  fromRoot : Bool
  names : List String
deriving DecidableEq, Repr

/-- The steps of a path. -/
def steps (path : String) : Steps :=
  let fromRoot := ['/'].isPrefixOf path.toList
  match Text.splitOn path "/" with
  | "." :: rest =>
    ⟨fromRoot, "." :: rest.filter fun name => name ≠ "" && name ≠ "."⟩
  | names => ⟨fromRoot, names.filter fun name => name ≠ "" && name ≠ "."⟩

/-- Do two paths lead to the same directory, step by step? -/
def agree (a b : String) : Bool :=
  steps a = steps b

end Path

end BraceScript
