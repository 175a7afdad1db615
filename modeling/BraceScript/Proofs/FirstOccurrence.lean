import BraceScript.Host.Standard
import Mathlib.Order.Bounds.Basic

/-!
# The first occurrence of a text

A text `s` goes on with `needle` after `i` characters where what is left of its characters begins
with those of `needle`. `Text.indexOf` looks for the least such place that a start allows
(`Text.Found`), and gives -1 where there is none. A start before the text counts as its beginning.
Past the end of the text only the empty needle is found, and it is found at the end.

Places are told in characters, for any text, also where the search goes by bytes
(`Text.indexOfBytes_eq`), and so are those of `Host.substring`: what is between the place that was
found and the one as many characters further on as `needle` has is `needle`
(`Text.indexOf_first_occurrence`).
-/

namespace BraceScript

namespace Chars
variable {needle cs : List Char} {n : ℕ}

theorem isLeast_of_find?_eq_some (h : find? needle cs = some n) :
    IsLeast {i | needle <+: cs.drop i} n := by
  induction cs generalizing n with
  | nil =>
    obtain ⟨hempty, hzero⟩ := Option.ite_none_right_eq_some.1 h
    cases hzero
    rw [List.isEmpty_iff.1 hempty]
    exact ⟨List.nil_prefix, fun i _ => Nat.zero_le i⟩
  | cons c cs ih =>
    rw [find?] at h
    split at h
    next hhere =>
      cases h
      exact ⟨List.isPrefixOf_iff_prefix.1 hhere, fun i _ => Nat.zero_le i⟩
    next hhere =>
      obtain ⟨m, hm, rfl⟩ := Option.map_eq_some_iff.1 h
      refine ⟨(ih hm).1, fun i hi => ?_⟩
      cases i with
      | zero => exact absurd (List.isPrefixOf_iff_prefix.2 hi) hhere
      | succ i => exact Nat.succ_le_succ ((ih hm).2 hi)

theorem not_occurs_of_find?_eq_none (h : find? needle cs = none) (i : ℕ) :
    ¬ needle <+: cs.drop i := by
  intro hi
  have hinfix : needle <:+: cs := hi.isInfix.trans (List.drop_suffix i cs).isInfix
  simpa [h] using (find?_isSome_iff needle cs).2 hinfix

theorem add_length_le_of_find?_eq_some (h : find? needle cs = some n) :
    n + needle.length ≤ cs.length := by
  obtain ⟨hhere, hfirst⟩ := isLeast_of_find?_eq_some h
  have hlength : needle.length ≤ cs.length - n := by simpa using hhere.length_le
  -- past the end there is only the empty needle, which is found at once
  have hinside : n ≤ cs.length := by
    by_contra hpast
    obtain rfl : needle = [] := List.length_eq_zero_iff.1 (by omega)
    exact hpast (Nat.le_trans (hfirst List.nil_prefix) (Nat.zero_le _))
  omega

end Chars

namespace Text
variable {s needle : String} {start : Int} {i : ℕ}

/-- A place where a search from `start` may find `needle`: the text goes on with it there, and the
place is not before the start, or before the end of the text where the start is past that. Past the
end there is nothing but the empty needle to find. -/
structure Found (s needle : String) (start : Int) (i : ℕ) : Prop where
  reached : min (max start 0) s.length ≤ i
  goesOn : needle.toList <+: s.toList.drop i
  behind : needle ≠ "" → max start 0 ≤ i

theorem Found.of_inside (hstart : start.toNat < s.length) :
    Found s needle start i ↔
      ∃ k, i = start.toNat + k ∧ needle.toList <+: (s.toList.drop start.toNat).drop k := by
  constructor
  · rintro ⟨hreached, hgoes, -⟩
    obtain ⟨k, rfl⟩ : ∃ k, i = start.toNat + k := ⟨i - start.toNat, by omega⟩
    exact ⟨k, rfl, by rwa [List.drop_drop]⟩
  · rintro ⟨k, rfl, hgoes⟩
    rw [List.drop_drop] at hgoes
    exact ⟨by omega, hgoes, fun _ => by omega⟩

theorem Found.of_past (hstart : s.length ≤ start.toNat) :
    Found s needle start i ↔ needle = "" ∧ s.length ≤ i := by
  constructor
  · rintro ⟨hreached, hgoes, hbehind⟩
    have hlength : s.length ≤ i := by omega
    refine ⟨?_, hlength⟩
    by_contra hne
    rw [List.drop_eq_nil_of_le (s.length_toList ▸ hlength), List.prefix_nil] at hgoes
    exact hne (String.toList_eq_nil_iff.1 hgoes)
  · rintro ⟨rfl, hlength⟩
    exact ⟨by omega, by simp, fun hne => absurd rfl hne⟩

theorem indexOf_of_inside (hstart : start.toNat < s.length) :
    indexOf s needle start =
      match Chars.find? needle.toList (s.toList.drop start.toNat) with
      | some n => ((start.toNat + n : ℕ) : Int)
      | none => -1 := by
  simp only [indexOf, String.length_toList, if_pos hstart, Chars.cut?_eq]
  cases hfind : Chars.find? needle.toList (s.toList.drop start.toNat) with
  | none => rfl
  | some n =>
    have hfits := Chars.add_length_le_of_find?_eq_some hfind
    simp only [Option.map_some, List.length_take_of_le (Nat.le_of_add_right_le hfits)]

theorem indexOf_of_past (hstart : s.length ≤ start.toNat) :
    indexOf s needle start = if needle = "" then (s.length : Int) else -1 := by
  simp only [indexOf, String.length_toList, if_neg (not_lt.2 hstart), String.isEmpty_iff]

/-- A search finds nothing where there is nothing to find, and else the first there is. -/
theorem indexOf_eq (s needle : String) (start : Int) :
    (indexOf s needle start = -1 ∧ ∀ i, ¬ Found s needle start i) ∨
    ∃ i : ℕ, indexOf s needle start = i ∧ i + needle.length ≤ s.length ∧
      IsLeast {i | Found s needle start i} i := by
  by_cases hstart : start.toNat < s.length
  · simp only [indexOf_of_inside hstart, Found.of_inside hstart]
    cases hfind : Chars.find? needle.toList (s.toList.drop start.toNat) with
    | none =>
      refine .inl ⟨rfl, ?_⟩
      rintro i ⟨k, -, hgoes⟩
      exact Chars.not_occurs_of_find?_eq_none hfind k hgoes
    | some n =>
      obtain ⟨hhere, hfirst⟩ := Chars.isLeast_of_find?_eq_some hfind
      have hfits := Chars.add_length_le_of_find?_eq_some hfind
      rw [List.length_drop, String.length_toList, String.length_toList] at hfits
      refine .inr ⟨start.toNat + n, rfl, by omega, ⟨n, rfl, hhere⟩, ?_⟩
      rintro i ⟨k, rfl, hgoes⟩
      exact Nat.add_le_add_left (hfirst hgoes) _
  · simp only [indexOf_of_past (not_lt.1 hstart), Found.of_past (not_lt.1 hstart)]
    by_cases hempty : needle = ""
    · refine .inr ⟨s.length, if_pos hempty, by simp [hempty], ⟨hempty, le_refl _⟩, ?_⟩
      exact fun i hi => hi.2
    · exact .inl ⟨if_neg hempty, fun i hi => hempty hi.1⟩

/-! ### Parts of a text -/

variable {first stop : Int} {part : String}

theorem slice?_eq_some_iff :
    slice? s first stop = some part ↔ (0 ≤ first ∧ first ≤ stop ∧ stop ≤ s.length) ∧
      part = String.ofList ((s.toList.drop first.toNat).take (stop - first).toNat) := by
  simp only [slice?, Option.ite_none_right_eq_some, Option.some_inj, Bool.and_eq_true,
    decide_eq_true_eq, String.length_toList, and_assoc, eq_comm (a := part)]

theorem slice?_of_goesOn (hgoes : needle.toList <+: s.toList.drop i)
    (hfits : i + needle.length ≤ s.length) :
    slice? s i (i + needle.length : ℕ) = some needle := by
  obtain ⟨rest, hrest⟩ := hgoes
  refine slice?_eq_some_iff.2 ⟨by omega, ?_⟩
  have hcount : ((i + needle.length : ℕ) - (i : Int)).toNat = needle.toList.length := by
    rw [String.length_toList]
    omega
  rw [Int.toNat_natCast, hcount, ← hrest, List.take_left, String.ofList_toList]

/-- The two parts of a text before and behind a place make up the text. -/
theorem exists_slice?_append {place : Int} (hplace : 0 ≤ place) (hle : place ≤ s.length) :
    ∃ front back, slice? s 0 place = some front ∧ slice? s place s.length = some back ∧
      front ++ back = s := by
  refine ⟨_, _, slice?_eq_some_iff.2 ⟨⟨le_refl 0, hplace, hle⟩, rfl⟩,
    slice?_eq_some_iff.2 ⟨⟨hplace, hle, le_refl _⟩, rfl⟩, ?_⟩
  have hrest : (s.toList.drop place.toNat).length ≤ (s.length - place).toNat := by
    rw [List.length_drop, String.length_toList]
    omega
  rw [← String.ofList_append, List.take_of_length_le hrest]
  simp

end Text

namespace Host
variable {s : String} {first stop : Int64}

theorem substring_of_slice? {part : String}
    (h : Text.slice? s first.toInt stop.toInt = some part) :
    substring s first (some stop) = .ok (.text part) := by
  simp [substring, h]

theorem exists_substring_eq_ok_iff :
    (∃ v, substring s first (some stop) = .ok v) ↔
      0 ≤ first.toInt ∧ first.toInt ≤ stop.toInt ∧ stop.toInt ≤ s.length := by
  constructor
  · rintro ⟨v, hv⟩
    cases hslice : Text.slice? s first.toInt stop.toInt with
    | none => simp [substring, hslice] at hv
    | some part => exact (Text.slice?_eq_some_iff.1 hslice).1
  · intro hplaces
    exact ⟨_, substring_of_slice? (Text.slice?_eq_some_iff.2 ⟨hplaces, rfl⟩)⟩

/-- A part without an end goes to the end of the text. -/
theorem substring_none (hstop : stop.toInt = s.length) :
    substring s first none = substring s first (some stop) := by
  have hlength : Int64.ofNat s.length = stop := by
    rw [← Int64.ofInt_toInt stop, hstop]
    rfl
  rw [substring, substring, Option.getD_none, Option.getD_some, hlength]

end Host

/-- **A search finds the first occurrence.** It gives the least place that is not before the start
and where the text goes on with the needle, and -1 exactly where there is none; for the empty needle
the end of the text is such a place, however far behind it the start is.

A part of a text is given exactly where its two places are in order and inside the text. So the part
from the place that was found, as long as the needle, is given and is the needle; and a text is made
up of what is before and what is behind any of its places. -/
theorem Text.indexOf_first_occurrence (s needle : String) (start : Int) :
    (∀ i : ℕ, indexOf s needle start = i ↔ IsLeast {i | Found s needle start i} i) ∧
    (indexOf s needle start = -1 ↔ ∀ i, ¬ Found s needle start i) ∧
    (∀ i : ℕ, indexOf s needle start = i → i + needle.length ≤ s.length ∧
      ∀ first stop : Int64, first.toInt = i → stop.toInt = (i + needle.length : ℕ) →
        Host.substring s first (some stop) = .ok (.text needle)) ∧
    (∀ first stop : Int64, (∃ v, Host.substring s first (some stop) = .ok v) ↔
      0 ≤ first.toInt ∧ first.toInt ≤ stop.toInt ∧ stop.toInt ≤ s.length) ∧
    ∀ place stop : Int64, 0 ≤ place.toInt → place.toInt ≤ s.length → stop.toInt = s.length →
      Host.substring s place none = Host.substring s place (some stop) ∧
      ∃ front back, Host.substring s 0 (some place) = .ok (.text front) ∧
        Host.substring s place (some stop) = .ok (.text back) ∧ front ++ back = s := by
  refine ⟨fun i => ?_, ?_, ?_, fun first stop => Host.exists_substring_eq_ok_iff, ?_⟩
  · rcases indexOf_eq s needle start with ⟨hindex, hnone⟩ | ⟨k, hindex, -, hleast⟩
    · rw [hindex]
      exact ⟨fun h => absurd h (by omega), fun h => absurd h.1 (hnone i)⟩
    · rw [hindex, Int.natCast_inj]
      exact ⟨fun h => h ▸ hleast, fun h => hleast.unique h⟩
  · rcases indexOf_eq s needle start with ⟨hindex, hnone⟩ | ⟨k, hindex, -, hleast⟩
    · exact ⟨fun _ => hnone, fun _ => hindex⟩
    · rw [hindex]
      exact ⟨fun h => absurd h (by omega), fun h => absurd hleast.1 (h k)⟩
  · intro i hi
    rcases indexOf_eq s needle start with ⟨hindex, -⟩ | ⟨k, hindex, hfits, hleast⟩
    · omega
    obtain rfl : k = i := Int.natCast_inj.1 (hindex.symm.trans hi)
    refine ⟨hfits, fun first stop hfirst hstop => Host.substring_of_slice? ?_⟩
    rw [hfirst, hstop]
    exact slice?_of_goesOn hleast.1.goesOn hfits
  · intro place stop hplace hle hstop
    obtain ⟨front, back, hfront, hback, hwhole⟩ := exists_slice?_append hplace hle
    rw [← hstop] at hback
    exact ⟨Host.substring_none hstop, front, back, Host.substring_of_slice? hfront,
      Host.substring_of_slice? hback, hwhole⟩

theorem Text.indexOf_first_occurrence_accents :
    indexOf "né né" "né" 1 = 3 ∧ IsLeast {i | Found "né né" "né" 1 i} 3 ∧
    Host.substring "né né" 3 (some 5) = .ok (.text "né") ∧
    (∀ i, ¬ Found "né né" "né" 4 i) ∧
    (∃ v, Host.substring "né né" 2 (some 5) = .ok v) ∧
    ∃ front back, Host.substring "né né" 0 (some 2) = .ok (.text front) ∧
      Host.substring "né né" 2 (some 5) = .ok (.text back) ∧ front ++ back = "né né" := by
  obtain ⟨hleast, -, hpart, hgiven, hwhole⟩ := indexOf_first_occurrence "né né" "né" 1
  obtain ⟨-, hnone, -⟩ := indexOf_first_occurrence "né né" "né" 4
  have hindex : indexOf "né né" "né" 1 = (3 : ℕ) := by decide
  exact ⟨hindex, (hleast 3).1 hindex, (hpart 3 hindex).2 3 5 (by decide) (by decide),
    hnone.1 (by decide), (hgiven 2 5).2 (by decide),
    (hwhole 2 5 (by decide) (by decide) (by decide)).2⟩

end BraceScript
