import BraceScript.Text.Blank

/-!
# Quoted spans of a line

A text that holds a blank, a quote or a backslash outside of braces is written as a quoted span:
between double quotes, with a backslash before each quote and each backslash. So is the empty text.
-/

namespace BraceScript.Text

/-- Does the text get quotes to stay one token? Only the part before its first brace counts; from
there on the text is taken for a brace group, which needs none. -/
def needsQuotes (s : String) : Bool :=
  let head := s.toList.takeWhile (· ≠ '{')
  s.toList.isEmpty || head.any fun c => isBlank c || c = '"' || c = '\\'

/-- A text as a quoted span of a line. -/
def span (s : String) : String :=
  let escape (c : Char) : List Char := if c = '\\' || c = '"' then ['\\', c] else [c]
  String.ofList ('"' :: (s.toList.flatMap escape ++ ['"']))

end BraceScript.Text
