import BraceScript.Text.Blank
import BraceScript.Text.Search

/-!
# Tokens of a line

A line is cut into tokens at runs of blanks. A token is put together from pieces that stand side by
side without a blank:

* a plain character, which stands for itself;
* a quoted span between double quotes, in which blanks do not separate and a backslash makes the
  next character stand for itself; the quotes and those backslashes are dropped;
* a brace group, from an opening brace to the brace that balances it, kept as it is written, blanks
  and quotes included.

The end of the line closes an open span or group; a backslash that is the last character of an open
span is dropped. A token whose pieces stand for no character at all, as `""`, is `null`.

Nothing is evaluated here. `variableName?` and `nestedLine?` tell the two wrapped forms that a later
substitution looks for: `{{name}}` and `{line}`.
-/

namespace BraceScript

/-- A token of a line. -/
inductive Token where
  /-- A position that is written and holds no character. -/
  | null
  /-- A token with at least one character. -/
  | word (text : String)
deriving DecidableEq, Repr, Inhabited

namespace Token

/-- Where the scanner stands. -/
inductive Mode where
  /-- Between two tokens. -/
  | between
  /-- Inside a token, outside of its spans and groups. -/
  | plain
  /-- Inside a quoted span. -/
  | quoted
  /-- Inside a brace group, with `depth + 1` braces open. -/
  | braced (depth : Nat)
deriving DecidableEq, Repr

/-- The token with the given characters, last one first. -/
def ofReversed (cs : List Char) : Token :=
  if cs.isEmpty then null else word (String.ofList cs.reverse)

/-- Scans the rest of a line; `token` holds the characters of the current token, last one first. -/
def scanFrom : Mode → (token : List Char) → List Char → List Token
  | .between, _, [] => []
  | _, token, [] => [ofReversed token]
  | .between, _, c :: cs =>
    if c = '"' then scanFrom .quoted [] cs
    else if c = '{' then scanFrom (.braced 0) [c] cs
    else if isBlank c then scanFrom .between [] cs
    else scanFrom .plain [c] cs
  | .plain, token, c :: cs =>
    if c = '"' then scanFrom .quoted token cs
    else if c = '{' then scanFrom (.braced 0) (c :: token) cs
    else if isBlank c then ofReversed token :: scanFrom .between [] cs
    else scanFrom .plain (c :: token) cs
  | .quoted, token, '\\' :: c :: cs => scanFrom .quoted (c :: token) cs
  | .quoted, token, c :: cs =>
    if c = '"' then scanFrom .plain token cs
    else if c = '\\' then scanFrom .quoted token cs
    else scanFrom .quoted (c :: token) cs
  | .braced depth, token, c :: cs =>
    if c = '{' then scanFrom (.braced (depth + 1)) (c :: token) cs
    else if c = '}' then
      match depth with
      | 0 => scanFrom .plain (c :: token) cs
      | depth + 1 => scanFrom (.braced depth) (c :: token) cs
    else scanFrom (.braced depth) (c :: token) cs

/-- The tokens of a line. -/
def scan (line : String) : List Token :=
  scanFrom .between [] line.toList

/-! ### Wrapped tokens -/

/-- What a wrapped token stands for: the variable with a name, or the value of a line. -/
inductive Reference where
  | named (name : String)
  | nested (line : String)
deriving DecidableEq, Repr

/-- The text between two pairs of braces. -/
def betweenPairs? (cs : List Char) : Option String :=
  ((['{', '{'].isPrefixOf? cs).bind (['}', '}'].isSuffixOf? ·)).map String.ofList

/-- The text between two braces. -/
def betweenBraces? (cs : List Char) : Option String :=
  ((['{'].isPrefixOf? cs).bind (['}'].isSuffixOf? ·)).map String.ofList

/-- What a token wrapped as `{{name}}` or otherwise as `{line}` stands for. -/
def reference? (t : String) : Option Reference :=
  let cs := t.toList
  match betweenPairs? cs with
  | some name => some (.named name)
  | none => (betweenBraces? cs).map .nested

/-- The name in a token wrapped as `{{name}}`. -/
def variableName? (t : String) : Option String :=
  betweenPairs? t.toList

/-- The text inside one pair of outer braces. -/
def unbraced? (t : String) : Option String :=
  betweenBraces? t.toList

/-- The line in a token wrapped as `{line}` and not as `{{name}}`. -/
def nestedLine? (t : String) : Option String :=
  if (variableName? t).isSome then none else unbraced? t

theorem reference?_eq (t : String) :
    reference? t = ((variableName? t).map .named).or ((nestedLine? t).map .nested) := by
  simp only [reference?, nestedLine?, variableName?, unbraced?]
  split
  · rename_i name h
    simp [h]
  · rename_i h
    simp [h]

end Token
end BraceScript
