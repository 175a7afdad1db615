import BraceScript.EnvironmentFile
import BraceScript.Proofs.TextLines
import Mathlib.Data.List.Forall2

/-!
# The entries of environment files

Every line of an environment file is one of three things: it is skipped, it lacks a name, or it is
an entry (`EnvironmentFile.Gives`). Reading gives one entry for each line of the last kind and one
fault, with the number of the line, for each line that lacks a name, all in the order of the file
(`EnvironmentFile.counts_read`).

Entries whose names and values can stand on a line as they are (`EnvironmentFile.IsWritable`) are
read back from the lines that list them, and applying them leaves every name with the value of its
last entry (`EnvironmentFile.get?_apply_of_last`).
-/

namespace BraceScript

namespace EnvironmentFile
open Chars (trim)

/-! ### One line -/

/-- A line whose text begins with an equals sign. -/
def lacksName (line : String) : Bool :=
  ['='].isPrefixOf (trim line.toList)

/-- A line gives a setting: its name is what stands before the first equals sign, without the blanks
around that, and its value is all that follows; without an equals sign the line is the name. -/
inductive Gives (line : String) : String × String → Prop
  | sign {name value : List Char} (hline : trim line.toList = name ++ '=' :: value)
    (hname : '=' ∉ name) : Gives line (String.ofList (trim name), String.ofList value)
  | bare (hline : '=' ∉ trim line.toList) : Gives line (Text.trim line, "")

variable {line : String}

theorem isSkippedLine_of_lacksName (h : lacksName line = true) : isSkippedLine line = false := by
  obtain ⟨rest, hrest⟩ := List.isPrefixOf_iff_prefix.1 h
  simp only [isSkippedLine, ← hrest]
  rfl

theorem entry?_eq_none_iff : entry? line = none ↔ trim (line.toList.takeWhile (· ≠ '=')) = [] := by
  simp only [List.isEmpty_iff, entry?, ite_eq_left_iff, reduceCtorEq, imp_false, Decidable.not_not]

theorem entry?_trim_eq_none_iff (hcode : isSkippedLine line = false) :
    entry? (Text.trim line) = none ↔ lacksName line = true := by
  rw [entry?_eq_none_iff, Text.trim, String.toList_ofList, Chars.trim_eq_nil_iff, lacksName]
  cases hline : trim line.toList with
  | nil => simp [isSkippedLine, hline] at hcode
  | cons c rest =>
    have hc := Chars.isBlank_of_trim_eq_cons hline
    by_cases heq : c = '='
    · simp [heq]
    · simp [heq, hc, Ne.symm heq]

theorem isNone_entry?_trim (line : String) :
    (!isSkippedLine line && ( entry? (Text.trim line)).isNone) = lacksName line := by
  cases hskipped : isSkippedLine line with
  | true =>
    cases hname : lacksName line with
    | true => simp [isSkippedLine_of_lacksName hname] at hskipped
    | false => rfl
  | false =>
    rw [Bool.eq_iff_iff, ← entry?_trim_eq_none_iff hskipped]
    simp

theorem gives_of_entry?_eq_some {setting : String × String}
    (h : entry? (Text.trim line) = some setting) : Gives line setting := by
  have hcut := List.takeWhile_append_dropWhile (p := (· ≠ '=')) (l := trim line.toList)
  have hname : '=' ∉ (trim line.toList).takeWhile (· ≠ '=') := by
    intro hmem
    have := List.all_eq_true.1 List.all_takeWhile _ hmem
    simp at this
  simp only [Text.trim, entry?, String.toList_ofList, Option.ite_none_left_eq_some,
    Option.some.injEq] at h
  obtain ⟨-, rfl⟩ := h
  cases hrest : (trim line.toList).dropWhile (· ≠ '=') with
  | nil =>
    rw [hrest, List.append_nil] at hcut
    rw [hcut] at hname ⊢
    rw [Chars.trim_trim]
    exact .bare hname
  | cons c value =>
    have hc := List.head?_dropWhile_not (· ≠ '=') (trim line.toList)
    rw [hrest] at hcut hc
    obtain rfl : c = '=' := by simpa using hc
    exact .sign hcut.symm hname

/-! ### All lines -/

/-- What is read from numbered lines comes behind what had been read before. -/
theorem readFrom_eq (skips : String → Bool) (number : Nat) (r : Reading) (lines : List String) :
    readFrom skips number r lines =
      { entries := r.entries ++
          (lines.filter (!skips ·)).filterMap fun line => entry? (Text.trim line)
        faults := r.faults ++
          ((lines.zipIdx number).filter fun line =>
            !skips line.1 && ( entry? (Text.trim line.1)).isNone).map
              fun line => ⟨line.2, Text.trim line.1⟩ } := by
  induction lines generalizing number r with
  | nil => simp [readFrom]
  | cons line lines ih =>
    rw [readFrom, ih]
    cases hskips : skips line with
    | true => simp [hskips]
    | false =>
      cases hentry : entry? (Text.trim line) with
      | none => simp [hskips, hentry, Reading.add]
      | some setting => simp [hskips, hentry, Reading.add]

/-- Every line is told by what was read, and once only. The lines are of three kinds, of which no
line is two: skipped ones, which are blank or comments; lines that lack a name; and the others.
There is a setting for each of the others and a fault, with the number of the line counted from one,
for each line that lacks a name, both in the order of the lines. -/
structure Reading.Counts (r : Reading) (lines : List String) : Prop where
  apart : ∀ line ∈ lines, lacksName line = true → isSkippedLine line = false
  entries : List.Forall₂ Gives
    (lines.filter fun line => !isSkippedLine line && !lacksName line) r.entries
  faults : r.faults =
    ((lines.zipIdx 1).filter fun line => lacksName line.1).map
      fun line => ⟨line.2, Text.trim line.1⟩
  total : lines.countP isSkippedLine + r.entries.length + r.faults.length = lines.length

theorem forall₂_gives (lines : List String) :
    List.Forall₂ Gives (lines.filter fun line => !isSkippedLine line && !lacksName line)
      ((lines.filter (!isSkippedLine ·)).filterMap fun line => entry? (Text.trim line)) := by
  induction lines with
  | nil => exact .nil
  | cons line lines ih =>
    cases hskipped : isSkippedLine line with
    | true => simpa [hskipped] using ih
    | false =>
      have hnone := entry?_trim_eq_none_iff hskipped
      cases hentry : entry? (Text.trim line) with
      | none => simpa [hskipped, hentry, hnone.1 hentry] using ih
      | some setting =>
        have hname : lacksName line = false := by simpa [hentry] using hnone
        simpa [hskipped, hentry, hname] using ⟨gives_of_entry?_eq_some hentry, ih⟩

theorem countP_kinds (lines : List String) :
    lines.countP isSkippedLine +
        lines.countP (fun line => !isSkippedLine line && !lacksName line) +
      lines.countP lacksName = lines.length := by
  induction lines with
  | nil => rfl
  | cons line lines ih =>
    have hapart : lacksName line = true → isSkippedLine line = false := isSkippedLine_of_lacksName
    rw [List.countP_cons, List.countP_cons, List.countP_cons, List.length_cons, ← ih]
    cases hname : lacksName line with
    | true =>
      rw [hapart hname]
      simp
      omega
    | false =>
      cases isSkippedLine line <;> simp <;> omega

theorem counts_read (source : String) : (read source).Counts (Text.lines source) := by
  have hread := readFrom_eq isSkippedLine 1 {} (Text.lines source)
  simp only [List.nil_append, isNone_entry?_trim] at hread
  have hentries := forall₂_gives (Text.lines source)
  have hlength := hentries.length_eq
  have htotal := countP_kinds (Text.lines source)
  have hnumbered : ((Text.lines source).zipIdx 1).countP (fun line => lacksName line.1) =
      (Text.lines source).countP lacksName := by
    nth_rewrite 2 [← List.zipIdx_map_fst 1 (Text.lines source)]
    rw [List.countP_map]
    rfl
  rw [read, hread]
  refine ⟨fun line _ => isSkippedLine_of_lacksName, hentries, rfl, ?_⟩
  rw [← hlength, List.length_map, ← List.countP_eq_length_filter, ← List.countP_eq_length_filter,
    hnumbered, htotal]

/-! ### Entries that are written -/

/-- A setting that can stand on a line as it is. -/
structure IsWritable (setting : String × String) : Prop where
  named : setting.1.toList ≠ []
  nameFirst : setting.1.toList.head?.all (!isBlank ·) = true
  nameLast : setting.1.toList.getLast?.all (!isBlank ·) = true
  noSign : '=' ∉ setting.1.toList
  nameFeed : '\n' ∉ setting.1.toList
  noHash : ¬ ['#'] <+: setting.1.toList
  noSlashes : ¬ ['/', '/'] <+: setting.1.toList
  valueFeed : '\n' ∉ setting.2.toList
  valueLast : setting.2.toList.getLast?.all (!isBlank ·) = true

/-- The line that lists a setting. -/
def entryLine (setting : String × String) : String :=
  setting.1 ++ "=" ++ setting.2

theorem toList_entryLine (setting : String × String) :
    (entryLine setting).toList = setting.1.toList ++ '=' :: setting.2.toList := by
  simp [entryLine]

namespace IsWritable
variable {setting : String × String}

theorem isLine (h : IsWritable setting) : Chars.IsLine (entryLine setting).toList := by
  rw [toList_entryLine]
  refine ⟨by simp, ?_, ?_⟩
  · have := h.nameFeed
    have := h.valueFeed
    simp_all
  · have hlast := h.valueLast
    cases hvalue : setting.2.toList.getLast? with
    | none =>
      rw [List.getLast?_eq_none_iff] at hvalue
      rw [hvalue]
      simp [isBlank]
    | some c =>
      rw [hvalue] at hlast
      simpa [List.getLast?_append, List.getLast?_cons, hvalue] using hlast

theorem trim_entryLine (h : IsWritable setting) :
    trim (entryLine setting).toList = (entryLine setting).toList := by
  refine Chars.trim_eq_self ?_ h.isLine.last
  have hfirst := h.nameFirst
  rw [toList_entryLine]
  cases hname : setting.1.toList with
  | nil => exact absurd hname h.named
  | cons c rest => rwa [hname] at hfirst

theorem isSkippedLine_entryLine (h : IsWritable setting) :
    isSkippedLine (entryLine setting) = false := by
  have hhash := h.noHash
  have hslashes := h.noSlashes
  rw [isSkippedLine, h.trim_entryLine, toList_entryLine]
  cases hname : setting.1.toList with
  | nil => exact absurd hname h.named
  | cons c rest =>
    rw [hname] at hhash hslashes
    have hc : '#' ≠ c := by simpa using hhash
    -- in the line of a short name the equals sign follows where the second slash would stand
    cases rest with
    | nil => simp [List.isPrefixOf, hc]
    | cons d rest => simpa [List.isPrefixOf, hc] using hslashes

theorem entry?_entryLine (h : IsWritable setting) :
    entry? (Text.trim (entryLine setting)) = some setting := by
  have hname : ∀ c ∈ setting.1.toList, decide (c ≠ '=') = true := by
    intro c hc
    exact decide_eq_true fun heq => h.noSign (heq ▸ hc)
  have htake : (setting.1.toList ++ '=' :: setting.2.toList).takeWhile (· ≠ '=') =
      setting.1.toList := by
    rw [List.takeWhile_append_of_pos hname]
    simp
  have hdrop : (setting.1.toList ++ '=' :: setting.2.toList).dropWhile (· ≠ '=') =
      '=' :: setting.2.toList := by
    rw [List.dropWhile_append_of_pos hname]
    simp
  rw [Text.trim, h.trim_entryLine, entry?, String.toList_ofList, toList_entryLine, htake, hdrop,
    Chars.trim_eq_self h.nameFirst h.nameLast]
  simp [h.named]

end IsWritable

variable {entries : List (String × String)}

/-- Numbered lines that list settings give these, whether or not comments are skipped. -/
theorem readFrom_map_entryLine {skips : String → Bool}
    (hskips : ∀ line, isSkippedLine line = false → skips line = false)
    (hentries : ∀ entry ∈ entries, IsWritable entry) (number : Nat) (r : Reading) :
    readFrom skips number r (entries.map entryLine) =
      { r with entries := r.entries ++ entries } := by
  induction entries generalizing number r with
  | nil => simp [readFrom]
  | cons entry entries ih =>
    have hentry := hentries entry List.mem_cons_self
    have ih := ih fun e he => hentries e (List.mem_cons_of_mem _ he)
    rw [List.map_cons, readFrom, hskips _ hentry.isSkippedLine_entryLine, ih, Reading.add,
      hentry.entry?_entryLine]
    simp

theorem read_intercalate_entryLine (hentries : ∀ entry ∈ entries, IsWritable entry) :
    read ("\n".intercalate (entries.map entryLine)) = { entries } := by
  have hlines : ∀ line ∈ entries.map entryLine, Chars.IsLine line.toList := by
    intro line hline
    obtain ⟨entry, hentry, rfl⟩ := List.mem_map.1 hline
    exact (hentries entry hentry).isLine
  rw [read, Text.lines_intercalate hlines, readFrom_map_entryLine (fun _ => id) hentries]
  rfl

theorem ofPairs_map_entryLine (hentries : ∀ entry ∈ entries, IsWritable entry) :
    ofPairs (entries.map entryLine) = { entries } := by
  rw [ofPairs, readFrom_map_entryLine (fun _ _ => rfl) hentries]
  rfl

/-! ### Applying -/

theorem get?_foldl_set_of_notMem {name : String} (hname : name ∉ entries.map Prod.fst)
    (env : Environment) :
    (entries.foldl (fun env entry => env.set entry.1 entry.2) env).get? name = env.get? name := by
  induction entries generalizing env with
  | nil => rfl
  | cons entry entries ih =>
    obtain ⟨hentry, hname⟩ := List.ne_and_not_mem_of_not_mem_cons hname
    rw [List.foldl_cons, ih hname]
    exact Table.value?_put_of_ne env.settings entry.2 hentry.symm

/-- What comes after the last entry of a name does not change its value. -/
theorem get?_apply_of_last {before after : List (String × String)} {name value : String}
    (hlast : name ∉ after.map Prod.fst) (env : Environment) :
    (({ entries := before ++ (name, value) :: after } : Reading).apply env).get? name =
      some value := by
  rw [Reading.apply, List.foldl_append, List.foldl_cons, get?_foldl_set_of_notMem hlast]
  exact Table.value?_put_self _ _ _

/-- Settings that can stand on lines are read from the lines that list them, in a text or one by
one, and applying them gives every name the value of its last entry. Of any text, every line is told
by what is read from it. -/
theorem read_lists_entries :
    (∀ entries : List (String × String), (∀ entry ∈ entries, IsWritable entry) →
      read ("\n".intercalate (entries.map entryLine)) = { entries } ∧
      ofPairs (entries.map entryLine) = { entries } ∧
      ∀ (env : Environment) (name : String),
        (∀ before value after, entries = before ++ (name, value) :: after →
          name ∉ after.map Prod.fst →
          ((read ("\n".intercalate (entries.map entryLine))).apply env).get? name = some value) ∧
        (name ∉ entries.map Prod.fst →
          ((read ("\n".intercalate (entries.map entryLine))).apply env).get? name =
            env.get? name)) ∧
    ∀ source : String, (read source).Counts (Text.lines source) := by
  refine ⟨fun entries hentries => ?_, counts_read⟩
  have hread := read_intercalate_entryLine hentries
  refine ⟨hread, ofPairs_map_entryLine hentries, fun env name => ⟨?_, fun hname => ?_⟩⟩
  · intro before value after hsplit hlast
    rw [hread, hsplit]
    exact get?_apply_of_last hlast env
  · rw [hread]
    exact get?_foldl_set_of_notMem hname env

theorem read_lists_entries_repeated :
    let r := read "A= x=y\n/B=\nA=2"
    let env : Environment := ⟨[("A", "0"), ("C", "3")]⟩
    r = { entries := [("A", " x=y"), ("/B", ""), ("A", "2")] } ∧
      (r.apply env).get? "A" = some "2" ∧ (r.apply env).get? "C" = some "3" := by
  have hentries : ∀ entry ∈ [("A", " x=y"), ("/B", ""), ("A", "2")], IsWritable entry := by
    simp only [List.forall_mem_cons, List.not_mem_nil, false_implies, implies_true, and_true]
    refine ⟨?_, ?_, ?_⟩ <;> constructor <;> decide
  intro r env
  obtain ⟨hread, -, hnames⟩ := read_lists_entries.1 _ hentries
  refine ⟨hread, ?_, ?_⟩
  · exact (hnames env "A").1 [("A", " x=y"), ("/B", "")] "2" [] rfl (by simp)
  · exact (hnames env "C").2 (by decide)

end EnvironmentFile
end BraceScript
