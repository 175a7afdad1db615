import BraceScript.Text.LetterCase.Cased
import BraceScript.Text.LetterCase.Lower
import BraceScript.Text.LetterCase.Upper

/-!
# Upper and lower case

The full case mappings of Unicode, without any language's own rules: a character may become several
(`ß` in upper case is `SS`), and a capital sigma becomes the final small sigma where it ends a word,
that is, after a cased character and before none, case-ignorable characters being looked through on
both sides.
-/

namespace BraceScript
namespace LetterCase

/-- The form of one character under a mapping given by runs and by longer forms. -/
def mapChar (runs : List CaseRun) (long : List (Nat × List Nat)) (c : Char) : List Char :=
  let n := c.toNat
  match long.lookup n with
  | some ns => ns.map Char.ofNat
  | none =>
    match runs.find? (·.covers n) with
    | some run => [Char.ofNat (run.image n)]
    | none => [c]

/-- The upper case of one character. -/
def upperChar (c : Char) : List Char :=
  mapChar upperRuns upperLong c

/-- The lower case of one character by itself. -/
def lowerChar (c : Char) : List Char :=
  mapChar lowerRuns lowerLong c

/-- Is the first character that is not case-ignorable a cased one? -/
def meetsCased (cs : List Char) : Bool :=
  (cs.dropWhile caseIgnorable.holds).head?.any cased.holds

/-- The lower case of `cs` where `before` precedes it, last character first. -/
def lowerFrom : (before : List Char) → (cs : List Char) → List Char
  | _, [] => []
  | before, c :: cs =>
    let form :=
      if c = 'Σ' then if meetsCased before && !meetsCased cs then ['ς'] else ['σ']
      else lowerChar c
    form ++ lowerFrom (c :: before) cs

end LetterCase

namespace Text

/-- A text in upper case. -/
def upper (s : String) : String :=
  String.ofList (s.toList.flatMap LetterCase.upperChar)

/-- A text in lower case. -/
def lower (s : String) : String :=
  String.ofList (LetterCase.lowerFrom [] s.toList)

end Text
end BraceScript
