import BraceScript.Text.Search

/-!
# Places in a text

Characters of a text are counted from zero. A search may start at any integer: before the start of
the text it starts there, and past its end it finds the empty text alone, at the end.
-/

namespace BraceScript.Text

/-- The place of the first occurrence of `needle` in `s` at or after `start`, or -1. -/
def indexOf (s needle : String) (start : Int) : Int :=
  let cs := s.toList
  let start := start.toNat
  if start < cs.length then
    match Chars.cut? needle.toList (cs.drop start) with
    | some (before, _) => (start + before.length : Nat)
    | none => -1
  else if needle.isEmpty then cs.length
  else -1

/-- The characters of `s` from place `first` up to, not including, place `stop`. -/
def slice? (s : String) (first stop : Int) : Option String :=
  let cs := s.toList
  if 0 ≤ first && first ≤ stop && stop ≤ cs.length then
    some (String.ofList ((cs.drop first.toNat).take (stop - first).toNat))
  else none

/-- The text repeated. -/
def repeated (s : String) (count : Nat) : String :=
  if count = 0 then ""
  else
    let half := repeated s (count / 2)
    if count % 2 = 0 then half ++ half else half ++ half ++ s
termination_by count

end BraceScript.Text
