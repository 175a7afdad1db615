import BraceScript.Text.Blank
import BraceScript.Text.Lines
import Mathlib.Data.List.Basic
import Mathlib.Data.List.TakeWhile

/-!
# Trimming, and the lines of a text

What trimming takes away is blank, and what it leaves begins and ends with a character that is not;
so a text that does both is left as it is (`Chars.trim_eq_self`). Lines that hold no line feed, and
none of which is empty or ends in a carriage return, are the lines of the text that they are joined
into with line feeds (`Text.lines_intercalate`).
-/

namespace BraceScript

namespace Chars
variable {cs : List Char} {c : Char}

/-! ### Trimming -/

theorem trimStart_eq_trim_append (cs : List Char) : ∃ blanks, trimStart cs = trim cs ++ blanks := by
  refine ⟨((trimStart cs).reverse.takeWhile isBlank).reverse, ?_⟩
  rw [trim, trimEnd, ← List.reverse_append, List.takeWhile_append_dropWhile, List.reverse_reverse]

theorem trim_eq_nil_iff : trim cs = [] ↔ cs.all isBlank = true := by
  have hstart : (∀ c ∈ trimStart cs, isBlank c = true) ↔ ∀ c ∈ cs, isBlank c = true := by
    constructor
    · intro h c hc
      rw [← List.takeWhile_append_dropWhile (p := isBlank) (l := cs), List.mem_append] at hc
      rcases hc with hc | hc
      · exact List.all_eq_true.1 List.all_takeWhile c hc
      · exact h c hc
    · intro h c hc
      exact h c ((List.dropWhile_sublist _).subset hc)
  rw [trim, trimEnd, List.reverse_eq_nil_iff, List.dropWhile_eq_nil_iff, List.all_eq_true, ← hstart]
  simp

theorem isBlank_of_trim_eq_cons {rest : List Char} (h : trim cs = c :: rest) :
    isBlank c = false := by
  obtain ⟨blanks, hstart⟩ := trimStart_eq_trim_append cs
  have hhead := List.head?_dropWhile_not isBlank cs
  rw [h] at hstart
  rw [← trimStart, hstart] at hhead
  exact hhead

theorem trimStart_eq_self (h : cs.head?.all (!isBlank ·) = true) : trimStart cs = cs := by
  cases cs with
  | nil => rfl
  | cons c cs =>
    have hc : isBlank c = false := by simpa using h
    simp [trimStart, hc]

/-- A text that begins and ends with a character that is not blank has nothing to trim. -/
theorem trim_eq_self (hfirst : cs.head?.all (!isBlank ·) = true)
    (hlast : cs.getLast?.all (!isBlank ·) = true) : trim cs = cs := by
  have hreverse : trimStart cs.reverse = cs.reverse :=
    trimStart_eq_self (by rwa [List.head?_reverse])
  rw [trim, trimStart_eq_self hfirst, trimEnd, ← trimStart, hreverse, List.reverse_reverse]

theorem trim_trim (cs : List Char) : trim (trim cs) = trim cs := by
  refine trim_eq_self ?_ ?_
  · cases hcs : trim cs with
    | nil => rfl
    | cons c rest => simp [isBlank_of_trim_eq_cons hcs]
  · have hlast := List.head?_dropWhile_not isBlank (trimStart cs).reverse
    rw [trim, trimEnd, List.getLast?_reverse]
    cases hcs : ((trimStart cs).reverse.dropWhile isBlank).head? with
    | none => rfl
    | some c =>
      rw [hcs] at hlast
      simp [hlast]

/-! ### Lines -/

theorem linesFrom_append (line : List Char) (hcs : '\n' ∉ cs) (rest : List Char) :
    linesFrom line (cs ++ rest) = linesFrom (cs.reverse ++ line) rest := by
  induction cs generalizing line with
  | nil => rfl
  | cons c cs ih =>
    obtain ⟨hc, hcs⟩ := List.ne_and_not_mem_of_not_mem_cons hcs
    rw [List.cons_append, linesFrom, if_neg hc.symm, ih _ hcs]
    simp

theorem dropReturn_eq_self (hlast : cs.getLast?.all (!isBlank ·) = true) : dropReturn cs = cs := by
  rw [dropReturn]
  cases hcs : ['\r'].isSuffixOf? cs with
  | none => rfl
  | some rest =>
    -- the return would be the last character, but it is blank
    obtain rfl := List.isSuffixOf?_eq_some_iff_append_eq.1 hcs
    rw [List.getLast?_concat, Option.all_some] at hlast
    exact absurd hlast (by decide)

/-- A line that can be told from the lines around it. -/
structure IsLine (cs : List Char) : Prop where
  ne_nil : cs ≠ []
  lineFeed : '\n' ∉ cs
  last : cs.getLast?.all (!isBlank ·) = true

theorem linesFrom_intercalate {lines : List (List Char)} (hlines : ∀ line ∈ lines, IsLine line) :
    linesFrom [] (['\n'].intercalate lines) = lines := by
  induction lines with
  | nil => rfl
  | cons line lines ih =>
    have hline := hlines line List.mem_cons_self
    have ih := ih fun l hl => hlines l (List.mem_cons_of_mem _ hl)
    cases lines with
    | nil =>
      have hcut := linesFrom_append [] hline.lineFeed []
      rw [List.append_nil, List.append_nil] at hcut
      rw [List.intercalate_singleton, hcut, linesFrom, List.reverse_reverse]
      exact fun hnil => hline.ne_nil (List.reverse_eq_nil_iff.1 hnil)
    | cons next lines =>
      rw [List.intercalate_cons_cons, List.append_assoc, linesFrom_append [] hline.lineFeed,
        List.append_nil, List.cons_append, linesFrom, if_pos rfl, List.nil_append, ih,
        List.reverse_reverse, dropReturn_eq_self hline.last]

end Chars

theorem Text.lines_intercalate {lines : List String}
    (hlines : ∀ line ∈ lines, Chars.IsLine line.toList) :
    Text.lines ("\n".intercalate lines) = lines := by
  have hcs : ∀ cs ∈ lines.map String.toList, Chars.IsLine cs := by
    intro cs hcs
    obtain ⟨line, hline, rfl⟩ := List.mem_map.1 hcs
    exact hlines line hline
  have hfeed : "\n".toList = ['\n'] := rfl
  rw [Text.lines, String.toList_intercalate, hfeed, Chars.linesFrom_intercalate hcs, List.map_map]
  simp

end BraceScript
