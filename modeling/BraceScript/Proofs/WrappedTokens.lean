import BraceScript.Proofs.LineGrammar
import Mathlib.Data.List.Infix

/-!
# Wrapped tokens and their braces

A token is taken for `{line}` or `{{name}}` by the characters at its two ends. Whether the braces
that are taken off belong together is another matter: they do exactly when the token, and for
`{{name}}` also what stands between its outer braces, is one brace group. A balanced token that
begins with a brace and is not one group is *glued*: a group, and something balanced behind it.

Main statement: what is inside a balanced wrapped token is balanced exactly when nothing is glued
(`Token.isBalanced_inside_iff`).
-/

namespace BraceScript
namespace LineGrammar

/-! ### Balanced text -/

/-- The braces pair up: no beginning of the text closes more braces than it opens, and all of it
closes as many. -/
structure IsBalanced (cs : List Char) : Prop where
  inside : ∀ p, p <+: cs → 0 ≤ depth p
  closes : depth cs = 0

theorem isBalanced_iff_inits {cs : List Char} :
    IsBalanced cs ↔ (∀ p ∈ cs.inits, 0 ≤ depth p) ∧ depth cs = 0 := by
  simp only [List.mem_inits]
  exact ⟨fun h => ⟨h.inside, h.closes⟩, fun h => ⟨h.1, h.2⟩⟩

instance (cs : List Char) : Decidable (IsBalanced cs) :=
  decidable_of_iff' _ isBalanced_iff_inits

/-- A brace group with something balanced behind it. -/
def IsGlued (cs : List Char) : Prop :=
  ∃ g rest, cs = g ++ rest ∧ IsGroup g ∧ rest ≠ [] ∧ IsBalanced rest

/-- The text between braces. -/
def braced (cs : List Char) : List Char :=
  '{' :: (cs ++ ['}'])

theorem depth_append (cs ds : List Char) : depth (cs ++ ds) = depth cs + depth ds := by
  simp only [depth, List.count_append]
  omega

theorem closesFrom_append_close_iff {cs : List Char} :
    ClosesFrom 1 (cs ++ ['}']) ↔ IsBalanced cs := by
  constructor
  · rintro ⟨hin, hend⟩
    rw [depth_append, depth_close] at hend
    refine ⟨fun p hp => ?_, by omega⟩
    -- a beginning of `cs` is never the whole text, so it leaves the brace open
    have hne : p ≠ cs ++ ['}'] := by
      rintro rfl
      have := hp.length_le
      rw [List.length_append, List.length_singleton] at this
      omega
    have := hin p (hp.trans (List.prefix_append _ _)) hne
    omega
  · rintro ⟨hin, hend⟩
    refine ⟨fun p hp hne => ?_, by rw [depth_append, depth_close]; omega⟩
    have := hin p ((List.prefix_concat_iff.1 hp).resolve_left hne)
    omega

theorem isGroup_braced_iff {cs : List Char} : IsGroup (braced cs) ↔ IsBalanced cs := by
  rw [isGroup_iff, braced, ← closesFrom_append_close_iff]
  constructor
  · rintro ⟨t, ht, h⟩
    rwa [List.tail_eq_of_cons_eq ht]
  · intro h
    exact ⟨_, rfl, h⟩

theorem IsGroup.isBalanced {cs : List Char} (h : IsGroup cs) : IsBalanced cs := by
  refine ⟨fun p hp => ?_, h.closes⟩
  by_cases hnil : p = []
  · simp [hnil]
  by_cases hall : p = cs
  · exact Int.le_of_eq (by rw [hall, h.closes])
  · exact Int.le_of_lt (h.inside p hp hnil hall)

theorem IsGlued.not_isGroup {cs : List Char} (h : IsGlued cs) : ¬ IsGroup cs := by
  obtain ⟨g, rest, rfl, hg, hne, -⟩ := h
  intro hgroup
  have hnil : g ≠ [] := by
    rintro rfl
    simpa using hg.opens
  have := hgroup.inside g (List.prefix_append _ _) hnil (by simpa using hne)
  rw [hg.closes] at this
  omega

/-- Balanced text that begins with a brace is a group, or it is glued. -/
theorem IsBalanced.isGroup_or_isGlued {cs : List Char} (h : IsBalanced cs)
    (hopens : cs.head? = some '{') : IsGroup cs ∨ IsGlued cs := by
  obtain ⟨cs, rfl⟩ := List.head?_eq_some_iff.1 hopens
  rcases staysOpenFrom_or_closesFrom (n := 1) (by decide) cs with hopen | ⟨t, rest, rfl, ht⟩
  · -- the first brace is never closed, which the balance rules out
    have hdepth := h.closes
    have := hopen cs (List.prefix_refl cs)
    rw [depth_cons, depth_open] at hdepth
    omega
  · have hgroup : IsGroup ('{' :: t) := isGroup_iff.2 ⟨t, rfl, ht⟩
    -- what stands behind the group has the depths of the whole text
    have hdepth : ∀ p, depth p = depth ('{' :: t ++ p) := by
      intro p
      rw [depth_append, hgroup.closes, Int.zero_add]
    by_cases hrest : rest = []
    · rw [hrest, List.append_nil]
      exact .inl hgroup
    · refine .inr ⟨'{' :: t, rest, rfl, hgroup, hrest, fun p hp => ?_, ?_⟩
      · rw [hdepth]
        exact h.inside _ ((List.prefix_append_right_inj _).2 hp)
      · rw [hdepth]
        exact h.closes

theorem IsBalanced.not_isGroup_iff {cs : List Char} (h : IsBalanced cs)
    (hopens : cs.head? = some '{') : ¬ IsGroup cs ↔ IsGlued cs :=
  ⟨(h.isGroup_or_isGlued hopens).resolve_left, IsGlued.not_isGroup⟩

end LineGrammar

/-! ### Wrapped tokens -/

namespace Token
open LineGrammar

theorem betweenBraces?_eq_some_iff {cs : List Char} {inner : String} :
    betweenBraces? cs = some inner ↔ cs = braced inner.toList := by
  simp only [betweenBraces?, braced, Option.map_eq_some_iff, Option.bind_eq_some_iff,
    List.isPrefixOf?_eq_some_iff_append_eq, List.isSuffixOf?_eq_some_iff_append_eq]
  constructor
  · rintro ⟨ds, ⟨rest, rfl, rfl⟩, rfl⟩
    simp
  · rintro rfl
    exact ⟨inner.toList, ⟨_, rfl, rfl⟩, String.ofList_toList⟩

theorem betweenPairs?_eq_some_iff {cs : List Char} {inner : String} :
    betweenPairs? cs = some inner ↔ cs = braced (braced inner.toList) := by
  simp only [betweenPairs?, braced, Option.map_eq_some_iff, Option.bind_eq_some_iff,
    List.isPrefixOf?_eq_some_iff_append_eq, List.isSuffixOf?_eq_some_iff_append_eq]
  constructor
  · rintro ⟨ds, ⟨rest, rfl, rfl⟩, rfl⟩
    simp
  · rintro rfl
    exact ⟨inner.toList, ⟨_, rfl, by simp⟩, String.ofList_toList⟩

theorem unbraced?_eq_some_iff {t inner : String} :
    unbraced? t = some inner ↔ t.toList = braced inner.toList :=
  betweenBraces?_eq_some_iff

theorem variableName?_eq_some_iff {t name : String} :
    variableName? t = some name ↔ t.toList = braced (braced name.toList) :=
  betweenPairs?_eq_some_iff

theorem unbraced?_of_nestedLine? {t line : String} (h : nestedLine? t = some line) :
    unbraced? t = some line := by
  rw [nestedLine?] at h
  split at h
  · cases h
  · exact h

/-- The text is in braces, to judge by its two ends. -/
def IsWrapped (s : String) : Prop :=
  2 ≤ s.length ∧ s.toList.head? = some '{' ∧ s.toList.getLast? = some '}'

instance (s : String) : Decidable (IsWrapped s) :=
  inferInstanceAs (Decidable (_ ∧ _))

theorem isWrapped_of_unbraced? {s inner : String} (h : unbraced? s = some inner) :
    IsWrapped s := by
  have htext := unbraced?_eq_some_iff.1 h
  refine ⟨?_, by rw [htext]; rfl, ?_⟩
  · rw [← String.length_toList, htext]
    simp [braced]
  · rw [htext, braced, ← List.cons_append, List.getLast?_concat]

theorem unbraced?_of_variableName? {s name : String} (h : variableName? s = some name) :
    unbraced? s = some (String.ofList (braced name.toList)) := by
  rw [unbraced?_eq_some_iff, String.toList_ofList]
  exact variableName?_eq_some_iff.1 h

theorem reference?_eq_none {s : String} (h : ¬ IsWrapped s) : reference? s = none := by
  have hbraces : unbraced? s = none :=
    Option.eq_none_iff_forall_ne_some.2 fun inner hinner => h (isWrapped_of_unbraced? hinner)
  have hnamed : variableName? s = none := by
    cases hname : variableName? s with
    | none => rfl
    | some name => simp [unbraced?_of_variableName? hname] at hbraces
  rw [reference?_eq, nestedLine?, hnamed, hbraces]
  rfl

/-- What is inside a balanced token that is taken for `{line}` is balanced exactly when the token is
one brace group, and not when the token is glued. What is inside one that is taken for `{{name}}` is
balanced exactly when it is one group within its outer braces, and not when the token is glued, or
the text between its outer braces. -/
theorem isBalanced_inside_iff {t : String} (ht : IsBalanced t.toList) (n : String) :
    (nestedLine? t = some n →
      (IsBalanced n.toList ↔ IsGroup t.toList) ∧ (¬ IsBalanced n.toList ↔ IsGlued t.toList)) ∧
    (variableName? t = some n →
      (IsBalanced n.toList ↔ IsGroup (braced n.toList)) ∧
      (¬ IsBalanced n.toList ↔ IsGlued t.toList ∨ IsGlued (braced n.toList))) := by
  constructor
  · intro hnested
    have htext := unbraced?_eq_some_iff.1 (unbraced?_of_nestedLine? hnested)
    rw [htext] at ht ⊢
    rw [← isGroup_braced_iff]
    exact ⟨Iff.rfl, ht.not_isGroup_iff rfl⟩
  · intro hnamed
    rw [variableName?_eq_some_iff.1 hnamed] at ht ⊢
    rw [← isGroup_braced_iff]
    refine ⟨Iff.rfl, fun hn => ?_, ?_⟩
    · rcases ht.isGroup_or_isGlued rfl with hgroup | hglued
      · exact .inr (((isGroup_braced_iff.1 hgroup).not_isGroup_iff rfl).1 hn)
      · exact .inl hglued
    · rintro (hglued | hglued) hn
      · exact hglued.not_isGroup (isGroup_braced_iff.2 hn.isBalanced)
      · exact hglued.not_isGroup hn

/-- Two groups side by side are one token, whose braces at the two ends do not belong together. -/
theorem not_isBalanced_inside_of_two_groups :
    .word "\x7ba\x7d\x7bb\x7d" ∈ scan "\x7ba\x7d\x7bb\x7d" ∧
      IsBalanced "\x7ba\x7d\x7bb\x7d".toList ∧
      nestedLine? "\x7ba\x7d\x7bb\x7d" = some "a\x7d\x7bb" ∧ ¬ IsBalanced "a\x7d\x7bb".toList := by
  decide

/-- Between two lines inside one group there is a glued text, which is taken for a name. -/
theorem isBalanced_inside_iff_twoLines :
    IsBalanced "\x7b\x7ba\x7d \x7bb\x7d\x7d".toList ∧
      (IsGlued "\x7b\x7ba\x7d \x7bb\x7d\x7d".toList ∨ IsGlued "\x7ba\x7d \x7bb\x7d".toList) := by
  have ht : IsBalanced "\x7b\x7ba\x7d \x7bb\x7d\x7d".toList := by decide
  have hinside := (isBalanced_inside_iff ht "a\x7d \x7bb").2 (by decide)
  exact ⟨ht, hinside.2.1 (by decide)⟩

end Token
end BraceScript
