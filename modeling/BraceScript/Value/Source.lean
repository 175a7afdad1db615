import BraceScript.Text.Span
import BraceScript.Value.Display

/-!
# Values as source

Commands that keep code for later join the raw tokens they were given back into a line. Its tokens
are the ones it was joined from as long as each token that has a brace group was written without a
quoted span after it.
-/

namespace BraceScript
namespace Value

/-- A value as a piece of source: null is an empty span, a text is quoted where it needs to be,
numbers stand as they are, and every other kind carries its type so that it is not taken for
source. -/
def source (blocks : Array Block) : Value → String
  | null => "\"\""
  | text s => if Text.needsQuotes s then Text.span s else s
  | integer n => display blocks (integer n)
  | float x => display blocks (float x)
  | v => v.labelled blocks

/-- Values joined into one line of source. -/
def joinSource (blocks : Array Block) (vs : List Value) : String :=
  " ".intercalate (vs.map (source blocks))

end Value
end BraceScript
