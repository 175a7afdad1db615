/-!
# Code blocks

A code block is a named list of lines that can be run again and again. It counts the runs started on
it and may be bound to a session, on which a host can then run it.

While a block runs, the chain of evaluations it belongs to carries a `BlockContext`: the name of the
block and whether a mask has been used up on this chain. A `Handle` is a session together with such
a context; entering a block makes a new handle and leaves the old one as it was.
-/

namespace BraceScript

/-- What a chain of evaluations knows of the blocks it runs in. -/
structure BlockContext where
  /-- The name of the block whose lines run. -/
  current : Option String := none
  /-- Has a masked block been entered on this chain? -/
  maskConsumed : Bool := false
deriving DecidableEq, Repr, Inhabited

/-- A session, by its number, as one chain of evaluations sees it. -/
structure Handle where
  session : Nat
  context : BlockContext := {}
deriving DecidableEq, Repr, Inhabited

/-- A named list of lines. -/
structure Block where
  name : String
  lines : List String := []
  /-- How many runs have been started. The counter is taken never to wrap around: 64 bits suffice
  for all runs that can be made. -/
  runs : Nat := 0
  /-- The handle the block is bound to. -/
  bound : Option Handle := none
deriving DecidableEq, Repr, Inhabited

namespace Block

/-- The text of a block. -/
def text (b : Block) : String :=
  "Codeblock: " ++ b.name ++ " (" ++ Nat.repr b.lines.length ++ " lines, " ++ Nat.repr b.runs ++
    " executions)"

/-- The block with a line appended. -/
def push (b : Block) (line : String) : Block :=
  { b with lines := b.lines ++ [line] }

/-- The variable under which a session keeps the block with a name. -/
def slot (name : String) : String :=
  "ks.block:" ++ name

end Block
end BraceScript
