import BraceScript.Table
import BraceScript.Text.Search
import BraceScript.Value

/-!
# Sessions

A session holds variables, the last result, the namespaces it searches for commands, and, once it is
terminated, its terminating value; the first one stands. A session that has been dropped is no
longer *live*, and blocks bound to it can no longer run.
-/

namespace BraceScript

/-- What one session holds. -/
structure Session where
  bindings : Table Value := []
  last : Value := .null
  /-- The terminating value, once there is one. -/
  ending : Option Value := none
  /-- The namespaces in which a bare command name is looked for, in order. -/
  searchOrder : List String
  isLive : Bool := true
deriving Repr, Inhabited

namespace Session

/-- The namespaces that a new session searches. -/
def standardSearchOrder : List String :=
  ["ks.control", "ks.commands", "ks.types"]

/-- The session with a variable set. -/
def setVariable (s : Session) (name : String) (v : Value) : Session :=
  { s with bindings := Table.put name v s.bindings }

/-- The session without a variable. -/
def removeVariable (s : Session) (name : String) : Session :=
  { s with bindings := Table.remove name s.bindings }

/-- The session terminated with a value, unless it already is. -/
def terminate (s : Session) (v : Value) : Session :=
  { s with ending := some (s.ending.getD v) }

/-- The names of the variables that begin with `lead`, sorted. -/
def namesFrom (s : Session) (lead : String) : List String :=
  ((Table.keys s.bindings).filter (Text.startsWith · lead)).mergeSort (· ≤ ·)

end Session

end BraceScript
