import BraceScript.Host.Overload
import Mathlib.Data.Bool.Basic
import Mathlib.Data.List.Basic
import Mathlib.Data.List.Induction
import Mathlib.Data.List.Pairwise
import Mathlib.Data.Prod.Lex

/-!
# The overload that is taken

Of the methods with a name that fit some arguments, `Catalog.select?` takes one with the least
score. Where comparing breadths ranks the methods of that score (`Catalog.Ranks`), none of them is
narrower than the one taken, and of those that are as narrow it comes first in the order of
`Catalog.methodsOf` (`Catalog.select?_optimal`).

That they are ranked has to be assumed: breadths are summed over the places, so three methods can
be narrower than each other in a circle, and of two classes that inherit from each other both are
the wider one. What comes first then depends on how the candidates are sorted (`Catalog.ranked`).
The least score does not: it comes first in any case (`Catalog.score_le_of_head?_ranked`).

A method that fits exactly is taken without this assumption. Only equal types cost nothing, and no
two methods of a class have the same name and parameters, so no other method has its score.
-/

namespace BraceScript

/-! ### The order of scores -/

namespace Score

/-- Scores by penalty, and what is not variadic before what is. -/
instance : LinearOrder Score :=
  LinearOrder.lift' (fun s => toLex (s.penalty, s.isVariadic)) fun s t h => by
    cases s
    cases t
    simpa using h

theorem le_iff {s t : Score} :
    s ≤ t ↔ s.penalty < t.penalty ∨ s.penalty = t.penalty ∧ s.isVariadic ≤ t.isVariadic :=
  Prod.Lex.toLex_le_toLex

theorem lt_iff {s t : Score} :
    s < t ↔ s.penalty < t.penalty ∨ s.penalty = t.penalty ∧ s.isVariadic < t.isVariadic :=
  Prod.Lex.toLex_lt_toLex

theorem compare_eq_lt_iff {s t : Score} : s.compare t = .lt ↔ s < t := by
  simp [compare, lt_iff, Ordering.then_eq_lt, compare_lt_iff_lt]

theorem compare_eq_eq_iff {s t : Score} : s.compare t = .eq ↔ s = t := by
  cases s
  cases t
  simp [compare, Ordering.then_eq_eq]

/-- The score of an exact fit. -/
def exact : Score := ⟨0, false⟩

theorem exact_le (s : Score) : exact ≤ s := by
  refine not_lt.1 fun h => ?_
  rcases lt_iff.1 h with h | ⟨-, h⟩
  · exact Nat.not_lt_zero _ h
  · exact not_lt_bot h

end Score

namespace HostMethod
variable {m n k : HostMethod}

theorem hides_iff : m.hides n ↔ m.name = n.name ∧ m.parameters = n.parameters := by
  simp [hides]

theorem hides_self (m : HostMethod) : m.hides m = true := by
  simp [hides]

theorem hides_symm (h : m.hides n) : n.hides m :=
  hides_iff.2 ((hides_iff.1 h).imp Eq.symm Eq.symm)

theorem hides_trans (h : m.hides n) (h' : n.hides k) : m.hides k :=
  hides_iff.2 ⟨(hides_iff.1 h).1.trans (hides_iff.1 h').1,
    (hides_iff.1 h).2.trans (hides_iff.1 h').2⟩

end HostMethod

namespace Catalog
variable {c : Catalog}

/-! ### What the choice is about -/

/-- The method can be called on the class by the name, and fits the arguments with the score. -/
structure Fits (c : Catalog) (className method : String) (arguments : List Value)
    (m : HostMethod) (s : Score) : Prop where
  mem : m ∈ c.methodsOf className
  name : m.name = method
  score : c.score? m arguments = some s

/-- Comparing breadths is a total preorder on some methods. -/
def Ranks (c : Catalog) (p : HostMethod → Prop) : Prop :=
  Std.TransCmp fun a b : {m // p m} => c.compareBreadth a.1.parameters b.1.parameters

namespace Ranks
variable {p : HostMethod → Prop} {a b w : HostMethod}

theorem gt_of_lt (h : c.Ranks p) (ha : p a) (hb : p b)
    (hab : c.compareBreadth a.parameters b.parameters = .lt) :
    c.compareBreadth b.parameters a.parameters = .gt :=
  @Std.OrientedCmp.gt_of_lt _ _ (@Std.TransCmp.toOrientedCmp _ _ h) ⟨a, ha⟩ ⟨b, hb⟩ hab

theorem ne_lt_self (h : c.Ranks p) (ha : p a) :
    c.compareBreadth a.parameters a.parameters ≠ .lt :=
  fun hlt => by simpa [hlt] using h.gt_of_lt ha ha hlt

theorem ne_lt_trans (h : c.Ranks p) (ha : p a) (hb : p b) (hw : p w)
    (hab : c.compareBreadth a.parameters b.parameters ≠ .lt)
    (hbw : c.compareBreadth b.parameters w.parameters ≠ .lt) :
    c.compareBreadth a.parameters w.parameters ≠ .lt :=
  Ordering.isGE_iff_ne_lt.1 <| @Std.TransCmp.isGE_trans _ _ h ⟨a, ha⟩ ⟨b, hb⟩ ⟨w, hw⟩
    (Ordering.isGE_iff_ne_lt.2 hab) (Ordering.isGE_iff_ne_lt.2 hbw)

end Ranks

/-! ### The candidate that comes first

Of the order of the candidates only the first one matters, and a candidate that is sorted in becomes
the first one exactly where it precedes all others. What comes first can therefore be told along the
candidates, without the order of the rest. -/

variable {p : HostMethod → Prop} {k w : Candidate} {ks : List Candidate}

theorem compareCandidates_eq_lt_iff :
    c.compareCandidates k w = .lt ↔ k.score < w.score ∨
      k.score = w.score ∧
        c.compareBreadth k.method.parameters w.method.parameters = .lt := by
  simp only [compareCandidates, Ordering.then_eq_lt, Score.compare_eq_lt_iff,
    Score.compare_eq_eq_iff]

theorem score_le_of_precedes (h : c.compareCandidates k w = .lt) : k.score ≤ w.score := by
  rcases compareCandidates_eq_lt_iff.1 h with h | ⟨h, -⟩
  exacts [h.le, h.le]

theorem score_le_of_not_precedes (h : c.compareCandidates k w ≠ .lt) : w.score ≤ k.score :=
  not_lt.1 fun hlt => h (compareCandidates_eq_lt_iff.2 (.inl hlt))

theorem sink_perm (c : Catalog) (k : Candidate) (sorted : List Candidate) :
    (c.sink k sorted).Perm (k :: sorted) := by
  induction sorted with
  | nil => exact .refl _
  | cons last sorted ih =>
    rw [sink]
    split
    · exact (ih.cons last).trans (.swap k last sorted)
    · exact .refl _

theorem getLast?_sink (c : Catalog) (k : Candidate) (sorted : List Candidate) :
    (c.sink k sorted).getLast? =
      if ∀ x ∈ sorted, c.compareCandidates k x = .lt then some k else sorted.getLast? := by
  induction sorted with
  | nil => simp [sink]
  | cons last sorted ih =>
    rw [sink]
    by_cases hlast : c.compareCandidates k last = .lt
    · have hne : c.sink k sorted ≠ [] := fun h => by simpa [h] using c.sink_perm k sorted
      rw [if_pos hlast, List.getLast?_cons_of_ne_nil hne, ih]
      cases sorted with
      | nil => simp [hlast]
      | cons x sorted => simp [hlast]
    · simp [hlast, List.getLast?_cons_cons]

theorem ranked_concat (c : Catalog) (ks : List Candidate) (k : Candidate) :
    c.ranked (ks ++ [k]) = (c.sink k (c.ranked ks).reverse).reverse := by
  simp [ranked]

theorem ranked_perm (c : Catalog) (ks : List Candidate) : (c.ranked ks).Perm ks := by
  induction ks using List.reverseRecOn with
  | nil => exact .refl _
  | append_singleton ks k ih =>
    rw [ranked_concat]
    calc
      (c.sink k (c.ranked ks).reverse).reverse.Perm (c.sink k (c.ranked ks).reverse) :=
        List.reverse_perm _
      _ |>.Perm (k :: (c.ranked ks).reverse) := c.sink_perm k _
      _ |>.Perm (k :: ks) := ((List.reverse_perm _).trans ih).cons k
      _ |>.Perm (ks ++ [k]) := (List.perm_append_singleton k ks).symm

theorem head?_ranked_concat (c : Catalog) (ks : List Candidate) (k : Candidate) :
    (c.ranked (ks ++ [k])).head? =
      if ∀ x ∈ ks, c.compareCandidates k x = .lt then some k else (c.ranked ks).head? := by
  rw [ranked_concat, List.head?_reverse, getLast?_sink]
  simp only [List.mem_reverse, (c.ranked_perm ks).mem_iff, List.getLast?_reverse]

/-- No candidate has a lower score than the first one. -/
theorem score_le_of_head?_ranked (h : (c.ranked ks).head? = some w) :
    ∀ k ∈ ks, w.score ≤ k.score := by
  induction ks using List.reverseRecOn generalizing w with
  | nil => cases h
  | append_singleton ks k ih =>
    rw [head?_ranked_concat] at h
    intro x hx
    split at h
    next hall =>
      cases h
      rcases List.mem_append.1 hx with hx | hx
      · exact score_le_of_precedes (hall x hx)
      · rw [List.mem_singleton.1 hx]
    next hstop =>
      rcases List.mem_append.1 hx with hx | hx
      · exact ih h x hx
      · -- the new candidate stops behind another, which is behind the first one
        obtain rfl := List.mem_singleton.1 hx
        obtain ⟨y, hy, hxy⟩ := not_forall₂.1 hstop
        exact (ih h y hy).trans (score_le_of_not_precedes hxy)

/-- Of the candidates with its score, `w` is narrower than those before it, and those after it are
not narrower. -/
def IsFirstNarrowest (c : Catalog) (ks : List Candidate) (w : Candidate) : Prop :=
  ∃ before after, ks = before ++ w :: after ∧
    (∀ k ∈ before, k.score = w.score →
      c.compareBreadth k.method.parameters w.method.parameters = .gt) ∧
    ∀ k ∈ after, k.score = w.score →
      c.compareBreadth k.method.parameters w.method.parameters ≠ .lt

theorem IsFirstNarrowest.ne_lt (h : c.IsFirstNarrowest ks w) (hranks : c.Ranks p)
    (hw : p w.method) (hk : k ∈ ks) (hscore : k.score = w.score) :
    c.compareBreadth k.method.parameters w.method.parameters ≠ .lt := by
  obtain ⟨before, after, rfl, hbefore, hafter⟩ := h
  rcases List.mem_append.1 hk with hk | hk
  · simp [hbefore k hk hscore]
  rcases List.mem_cons.1 hk with rfl | hk
  · exact hranks.ne_lt_self hw
  · exact hafter k hk hscore

theorem isFirstNarrowest_of_head?_ranked (hranks : c.Ranks p)
    (h : (c.ranked ks).head? = some w) (hp : ∀ k ∈ ks, k.score = w.score → p k.method) :
    c.IsFirstNarrowest ks w := by
  induction ks using List.reverseRecOn generalizing w with
  | nil => cases h
  | append_singleton ks k ih =>
    have hlast : k ∈ ks ++ [k] := List.mem_append_right ks List.mem_cons_self
    rw [head?_ranked_concat] at h
    split at h
    next hall =>
      cases h
      refine ⟨ks, [], rfl, fun x hx hscore => ?_, by simp⟩
      have hlt : c.compareBreadth k.method.parameters x.method.parameters = .lt := by
        rcases compareCandidates_eq_lt_iff.1 (hall x hx) with hlt | ⟨-, hlt⟩
        · exact absurd hscore hlt.ne'
        · exact hlt
      exact hranks.gt_of_lt (hp k hlast rfl) (hp x (List.mem_append_left _ hx) hscore) hlt
    next hstop =>
      have hp' : ∀ x ∈ ks, x.score = w.score → p x.method :=
        fun x hx => hp x (List.mem_append_left _ hx)
      have hw : p w.method := hp' w ((c.ranked_perm ks).mem_iff.1 (List.mem_of_mem_head? h)) rfl
      have hnarrow := fun y => (ih h hp').ne_lt (k := y) hranks hw
      obtain ⟨before, after, heq, hbefore, hafter⟩ := ih h hp'
      refine ⟨before, after ++ [k], by rw [heq]; simp, hbefore, fun x hx hscore => ?_⟩
      rcases List.mem_append.1 hx with hx | hx
      · exact hafter x hx hscore
      obtain rfl := List.mem_singleton.1 hx
      -- the one behind which it stops has the least score too, and is not narrower than the first
      obtain ⟨y, hy, hxy⟩ := not_forall₂.1 hstop
      have hyw : y.score = w.score := le_antisymm
        (hscore ▸ score_le_of_not_precedes hxy) (score_le_of_head?_ranked h y hy)
      rw [compareCandidates_eq_lt_iff, not_or, not_and] at hxy
      exact hranks.ne_lt_trans (hp x hlast hscore) (hp' y hy hyw) hw
        (hxy.2 (hscore.trans hyw.symm)) (hnarrow y hy hyw)

/-! ### Candidates and methods -/

variable {className method : String} {arguments : List Value} {m n : HostMethod}

/-- The candidate that a method is, if it has the name and fits the arguments. -/
def candidate? (c : Catalog) (method : String) (arguments : List Value) (m : HostMethod) :
    Option Candidate :=
  if m.name = method then (c.score? m arguments).map (⟨m, ·⟩) else none

theorem candidate?_eq_some_iff :
    c.candidate? method arguments m = some k ↔
      m.name = method ∧ c.score? m arguments = some k.score ∧ k.method = m := by
  simp only [candidate?, Option.ite_none_right_eq_some, Option.map_eq_some_iff]
  constructor
  · rintro ⟨hname, s, hs, rfl⟩
    exact ⟨hname, hs, rfl⟩
  · rintro ⟨hname, hs, rfl⟩
    exact ⟨hname, k.score, hs, rfl⟩

theorem candidates_eq_filterMap :
    c.candidates className method arguments =
      (c.methodsOf className).filterMap (c.candidate? method arguments) := by
  simp only [candidates, List.filterMap_filter, decide_eq_true_eq]
  rfl

theorem mem_candidates :
    k ∈ c.candidates className method arguments ↔
      c.Fits className method arguments k.method k.score := by
  simp only [candidates_eq_filterMap, List.mem_filterMap, candidate?_eq_some_iff]
  constructor
  · rintro ⟨m, hm, hname, hs, rfl⟩
    exact ⟨hm, hname, hs⟩
  · rintro ⟨hm, hname, hs⟩
    exact ⟨k.method, hm, hname, hs, rfl⟩

/-- Candidates stand in the order of their methods. -/
theorem exists_methodsOf_eq_append {before after : List Candidate}
    (h : c.candidates className method arguments = before ++ w :: after) :
    ∃ front back, c.methodsOf className = front ++ w.method :: back ∧
      (∀ m ∈ front, ∀ s, c.Fits className method arguments m s → ⟨m, s⟩ ∈ before) ∧
      ∀ m ∈ back, ∀ s, c.Fits className method arguments m s → ⟨m, s⟩ ∈ after := by
  rw [candidates_eq_filterMap] at h
  obtain ⟨l₁, _, hmethods, rfl, hrest⟩ := List.filterMap_eq_append_iff.1 h
  obtain ⟨l₂, m, l₃, rfl, hl₂, hm, rfl⟩ := List.filterMap_eq_cons_iff.1 hrest
  obtain ⟨-, -, rfl⟩ := candidate?_eq_some_iff.1 hm
  have hfits : ∀ n s, c.Fits className method arguments n s →
      c.candidate? method arguments n = some ⟨n, s⟩ :=
    fun n s h => candidate?_eq_some_iff.2 ⟨h.name, h.score, rfl⟩
  refine ⟨l₁ ++ l₂, l₃, by rw [hmethods, List.append_assoc], ?_, ?_⟩
  · intro n hn s h
    rcases List.mem_append.1 hn with hn | hn
    · exact List.mem_filterMap.2 ⟨n, hn, hfits n s h⟩
    · cases (hl₂ n hn).symm.trans (hfits n s h)
  · exact fun n hn s h => List.mem_filterMap.2 ⟨n, hn, hfits n s h⟩

theorem select?_eq_none_iff :
    c.select? className method arguments = none ↔
      ∀ m s, ¬ c.Fits className method arguments m s := by
  rw [select?, Option.map_eq_none_iff, List.head?_eq_none_iff, List.eq_nil_iff_forall_not_mem]
  simp only [(c.ranked_perm _).mem_iff, mem_candidates]
  exact ⟨fun h m s => h ⟨m, s⟩, fun h k => h k.method k.score⟩

/-- What is chosen fits, and nothing fits better. -/
theorem exists_score_of_select? (h : c.select? className method arguments = some m) :
    ∃ s, c.Fits className method arguments m s ∧
      ∀ n t, c.Fits className method arguments n t → s ≤ t := by
  obtain ⟨k, hk, rfl⟩ := Option.map_eq_some_iff.1 h
  have hmem := (c.ranked_perm _).mem_iff.1 (List.mem_of_mem_head? hk)
  refine ⟨k.score, mem_candidates.1 hmem, ?_⟩
  exact fun n t hn => score_le_of_head?_ranked hk ⟨n, t⟩ (mem_candidates.2 hn)

/-- Where those that fit as well are ranked, no one of them is narrower than what is chosen, and
none that is as narrow stands before it. -/
theorem exists_methodsOf_eq_of_select? {s : Score}
    (h : c.select? className method arguments = some m)
    (hm : c.Fits className method arguments m s)
    (hranks : c.Ranks fun n => c.Fits className method arguments n s) :
    ∃ before after, c.methodsOf className = before ++ m :: after ∧
      (∀ n ∈ before, c.Fits className method arguments n s →
        c.compareBreadth n.parameters m.parameters = .gt) ∧
      ∀ n ∈ after, c.Fits className method arguments n s →
        c.compareBreadth n.parameters m.parameters ≠ .lt := by
  obtain ⟨k, hk, rfl⟩ := Option.map_eq_some_iff.1 h
  have hmem := (c.ranked_perm _).mem_iff.1 (List.mem_of_mem_head? hk)
  obtain rfl : k.score = s :=
    Option.some_inj.1 ((mem_candidates.1 hmem).score.symm.trans hm.score)
  obtain ⟨before, after, heq, hbefore, hafter⟩ :=
    isFirstNarrowest_of_head?_ranked hranks hk fun x hx hscore => hscore ▸ mem_candidates.1 hx
  obtain ⟨front, back, hmethods, hfront, hback⟩ := exists_methodsOf_eq_append heq
  exact ⟨front, back, hmethods, fun n hn h => hbefore _ (hfront n hn _ h) rfl,
    fun n hn h => hafter _ (hback n hn _ h) rfl⟩

/-! ### Methods that no other hides -/

theorem visible_concat (methods : List HostMethod) (m : HostMethod) :
    visible (methods ++ [m]) =
      if (visible methods).any (·.hides m) then visible methods else visible methods ++ [m] :=
  List.foldl_concat ..

/-- No method is listed behind one that hides it. -/
theorem pairwise_visible (methods : List HostMethod) :
    (visible methods).Pairwise fun m n => ¬ m.hides n := by
  induction methods using List.reverseRecOn with
  | nil => exact .nil
  | append_singleton methods m ih =>
    rw [visible_concat]
    split
    · exact ih
    next hm =>
      rw [List.any_eq_true, not_exists] at hm
      refine List.pairwise_append.2 ⟨ih, List.pairwise_singleton _ m, ?_⟩
      intro n hn m' hm'
      rw [List.mem_singleton.1 hm']
      exact fun h => hm n ⟨hn, h⟩

theorem eq_of_mem_visible {methods : List HostMethod} (hm : m ∈ visible methods)
    (hn : n ∈ visible methods) (h : m.hides n) : m = n := by
  have : Std.Symm fun m n : HostMethod => ¬ m.hides n :=
    ⟨fun _ _ h h' => h (HostMethod.hides_symm h')⟩
  by_contra hne
  exact (pairwise_visible methods).forall hm hn hne h

/-- Leaving out what is hidden changes nothing for who looks for a name and parameters. -/
theorem find?_visible (methods : List HostMethod) (m : HostMethod) :
    (visible methods).find? (·.hides m) = methods.find? (·.hides m) := by
  induction methods using List.reverseRecOn with
  | nil => rfl
  | append_singleton methods n ih =>
    rw [visible_concat, List.find?_append]
    split
    next hn =>
      obtain ⟨x, hx, hxn⟩ := List.any_eq_true.1 hn
      rw [ih]
      cases hfound : methods.find? (·.hides m) with
      | some y => rfl
      | none =>
        -- `n` is not looked for: what hides it would have been found
        have hnm : n.hides m = false := by
          by_contra hnm
          rw [Bool.not_eq_false] at hnm
          rw [← ih, List.find?_eq_none] at hfound
          exact hfound x hx (HostMethod.hides_trans hxn hnm)
        simp [hnm]
    next => rw [List.find?_append, ih]

/-- The methods that are left are those that come first with their name and parameters. -/
theorem mem_visible {methods : List HostMethod} :
    m ∈ visible methods ↔ methods.find? (·.hides m) = some m := by
  rw [← find?_visible]
  constructor
  · intro hm
    cases hfound : (visible methods).find? (·.hides m) with
    | none => exact absurd m.hides_self (List.find?_eq_none.1 hfound m hm)
    | some n =>
      have hhides : n.hides m = true := by simpa using List.find?_some hfound
      rw [eq_of_mem_visible (List.mem_of_find?_eq_some hfound) hm hhides]
  · exact List.mem_of_find?_eq_some

theorem eq_of_mem_methodsOf (hm : m ∈ c.methodsOf className) (hn : n ∈ c.methodsOf className)
    (hname : m.name = n.name) (hparameters : m.parameters = n.parameters) : m = n :=
  eq_of_mem_visible hm hn (HostMethod.hides_iff.2 ⟨hname, hparameters⟩)

/-! ### Exact fits -/

/-- Only equal types cost nothing. -/
theorem typePenalty?_eq_zero_iff {oneCharacter : Bool} {parameter argument : HostType} :
    c.typePenalty? oneCharacter parameter argument = some 0 ↔ parameter = argument := by
  fun_cases typePenalty? c oneCharacter parameter argument <;> simp_all

theorem penalty?_eq_zero_iff {parameter : HostType} {v : Value} :
    c.penalty? parameter v = some 0 ↔ v.hostType? = some parameter := by
  rw [penalty?]
  cases v.hostType? with
  | none => cases parameter.isPrimitive <;> simp
  | some type =>
    rw [Option.some_inj, eq_comm (a := type)]
    exact typePenalty?_eq_zero_iff

theorem penalties?_zip_eq_zero_iff {parameters : List HostType} {arguments : List Value}
    (h : parameters.length = arguments.length) :
    c.penalties? (parameters.zip arguments) = some 0 ↔
      arguments.map Value.hostType? = parameters.map some := by
  induction parameters generalizing arguments with
  | nil =>
    obtain rfl := List.length_eq_zero_iff.1 h.symm
    simp [penalties?]
  | cons p ps ih =>
    obtain ⟨v, vs, rfl⟩ := List.exists_cons_of_length_eq_add_one h.symm
    have hps := ih (Nat.succ.inj h)
    simp [penalties?, hps, penalty?_eq_zero_iff, Option.bind_eq_some_iff]

/-- A score tells whether its method is variadic. -/
theorem isVariadic_of_score? {s : Score} (h : c.score? m arguments = some s) :
    s.isVariadic = m.variadicElement?.isSome := by
  cases hm : m.variadicElement? with
  | none =>
    simp only [score?, hm, Option.ite_none_right_eq_some, Option.map_eq_some_iff] at h
    obtain ⟨-, penalty, -, rfl⟩ := h
    rfl
  | some element =>
    simp only [score?, hm, Option.ite_none_left_eq_some, Option.bind_eq_some_iff] at h
    obtain ⟨-, base, -, h⟩ := h
    split at h
    · cases h
      rfl
    · obtain ⟨packing, -, rfl⟩ := Option.map_eq_some_iff.1 h
      rfl

/-- A method fits exactly where it is not variadic and has the types of the arguments. -/
theorem score?_eq_exact_iff :
    c.score? m arguments = some .exact ↔
      m.variadicElement? = none ∧ arguments.map Value.hostType? = m.parameters.map some := by
  constructor
  · intro h
    have hm : m.variadicElement? = none := by simpa [Score.exact] using isVariadic_of_score? h
    simp only [score?, hm, Option.ite_none_right_eq_some, Option.map_eq_some_iff] at h
    obtain ⟨hlength, penalty, hpenalty, heq⟩ := h
    obtain rfl : penalty = 0 := congrArg Score.penalty heq
    exact ⟨hm, (penalties?_zip_eq_zero_iff hlength).1 hpenalty⟩
  · rintro ⟨hm, htypes⟩
    have hlength : m.parameters.length = arguments.length := by
      simpa using (congrArg List.length htypes).symm
    simp only [score?, hm, if_pos hlength, (penalties?_zip_eq_zero_iff hlength).2 htypes,
      Option.map_some, Score.exact]

/-- A method that fits exactly is the only one with its score. -/
theorem select?_of_exact (hm : m ∈ c.methodsOf className) (hname : m.name = method)
    (hfixed : m.variadicElement? = none)
    (htypes : arguments.map Value.hostType? = m.parameters.map some) :
    c.select? className method arguments = some m := by
  have hfits : c.Fits className method arguments m .exact :=
    ⟨hm, hname, score?_eq_exact_iff.2 ⟨hfixed, htypes⟩⟩
  obtain ⟨n, hn⟩ := Option.ne_none_iff_exists'.1 fun h => select?_eq_none_iff.1 h m _ hfits
  obtain ⟨s, hs, hle⟩ := exists_score_of_select? hn
  obtain rfl : s = .exact := le_antisymm (hle m _ hfits) (Score.exact_le s)
  have hparameters : n.parameters = m.parameters := by
    have := (score?_eq_exact_iff.1 hs.score).2.symm.trans htypes
    exact List.map_injective_iff.2 (fun _ _ => Option.some.inj) this
  rw [hn, eq_of_mem_methodsOf hs.mem hm (hs.name.trans hname.symm) hparameters]

/-! ### The choice -/

/-- **The choice of an overload is the best there is.** There is none exactly where nothing fits.
What is chosen fits, with a score that is the least: by penalty, and not variadic before variadic.
Where those of this score are ranked by their breadth, no other of them is narrower, and those as
narrow come later. A method that has the very types of the arguments and is not variadic is
chosen. -/
theorem select?_optimal (c : Catalog) (className method : String) (arguments : List Value) :
    (c.select? className method arguments = none ↔
      ∀ m s, ¬ c.Fits className method arguments m s) ∧
    (∀ m, c.select? className method arguments = some m →
      ∃ s, c.Fits className method arguments m s ∧
        (∀ n t, c.Fits className method arguments n t → s.penalty < t.penalty ∨
          s.penalty = t.penalty ∧ (s.isVariadic = true → t.isVariadic = true)) ∧
        (c.Ranks (fun n => c.Fits className method arguments n s) →
          ∃ before after, c.methodsOf className = before ++ m :: after ∧
            (∀ n, c.Fits className method arguments n s →
              c.compareBreadth n.parameters m.parameters ≠ .lt) ∧
            ∀ n ∈ before, c.Fits className method arguments n s →
              c.compareBreadth n.parameters m.parameters ≠ .eq)) ∧
    ∀ m ∈ c.methodsOf className, m.name = method → m.isVariadic = false →
      arguments.map Value.hostType? = m.parameters.map some →
        c.select? className method arguments = some m := by
  refine ⟨select?_eq_none_iff, ?_, ?_⟩
  · intro m h
    obtain ⟨s, hm, hle⟩ := exists_score_of_select? h
    refine ⟨s, hm, fun n t hn => Score.le_iff.1 (hle n t hn), fun hranks => ?_⟩
    obtain ⟨before, after, hmethods, hbefore, hafter⟩ :=
      exists_methodsOf_eq_of_select? h hm hranks
    refine ⟨before, after, hmethods, ?_, fun n hn hfits => by simp [hbefore n hn hfits]⟩
    intro n hfits
    have hn := hfits.mem
    rw [hmethods, List.mem_append, List.mem_cons] at hn
    rcases hn with hn | rfl | hn
    · simp [hbefore n hn hfits]
    · exact hranks.ne_lt_self hm
    · exact hafter n hn hfits
  · intro m hm hname hfixed htypes
    exact select?_of_exact hm hname (by simp [HostMethod.variadicElement?, hfixed]) htypes

/-- A class whose method takes anything, a sequence of characters or an integer. -/
def calculator : Catalog :=
  ofClasses [
    { name := "String", supertypes := ["CharSequence"] },
    { name := "Calc",
      methods := [.fixed "k" [.object] .runBlock, .fixed "k" [.named "CharSequence"] .runBlock,
        .fixed "k" [.primitive .int] .runBlock] }]

theorem ranks_calculator :
    calculator.Ranks fun n => calculator.Fits "Calc" "k" [.text "ab"] n ⟨3, false⟩ := by
  have hswap : ∀ a ∈ calculator.methodsOf "Calc", ∀ b ∈ calculator.methodsOf "Calc",
      calculator.compareBreadth a.parameters b.parameters =
        (calculator.compareBreadth b.parameters a.parameters).swap := by
    decide +kernel
  -- the integer is neither wider nor narrower than the other two, which are not as narrow as each
  -- other: without the score this would fail
  have htrans : ∀ a ∈ calculator.methodsOf "Calc", ∀ b ∈ calculator.methodsOf "Calc",
      ∀ w ∈ calculator.methodsOf "Calc",
        calculator.score? a [.text "ab"] = some ⟨3, false⟩ →
        calculator.score? b [.text "ab"] = some ⟨3, false⟩ →
        calculator.score? w [.text "ab"] = some ⟨3, false⟩ →
        (calculator.compareBreadth a.parameters b.parameters).isLE →
        (calculator.compareBreadth b.parameters w.parameters).isLE →
          (calculator.compareBreadth a.parameters w.parameters).isLE := by
    decide +kernel
  exact
    { eq_swap := fun {a b} => hswap a a.2.mem b b.2.mem
      isLE_trans := fun {a b w} =>
        htrans a a.2.mem b b.2.mem w w.2.mem a.2.score b.2.score w.2.score }

theorem select?_optimal_calculator :
    (∃ m before after, calculator.select? "Calc" "k" [.text "ab"] = some m ∧
      m.parameters = [.named "CharSequence"] ∧
      calculator.methodsOf "Calc" = before ++ m :: after ∧
      ∀ n, calculator.Fits "Calc" "k" [.text "ab"] n ⟨3, false⟩ →
        calculator.compareBreadth n.parameters m.parameters ≠ .lt) ∧
    ∃ m, calculator.select? "Calc" "k" [.integer 7] = some m ∧
      m.parameters = [.primitive .int] := by
  constructor
  · obtain ⟨m, hm⟩ := Option.isSome_iff_exists.1
      (show (calculator.select? "Calc" "k" [.text "ab"]).isSome by decide +kernel)
    have hparameters : (calculator.select? "Calc" "k" [.text "ab"]).map (·.parameters) =
        some [.named "CharSequence"] := by
      decide +kernel
    have hscore : (calculator.select? "Calc" "k" [.text "ab"]).bind
        (calculator.score? · [.text "ab"]) = some ⟨3, false⟩ := by
      decide +kernel
    rw [hm] at hparameters hscore
    obtain ⟨s, hs, -, hnarrow⟩ := (select?_optimal calculator "Calc" "k" [.text "ab"]).2.1 m hm
    obtain rfl : s = ⟨3, false⟩ := Option.some_inj.1 (hs.score.symm.trans hscore)
    obtain ⟨before, after, hmethods, hle, -⟩ := hnarrow ranks_calculator
    exact ⟨m, before, after, hm, Option.some_inj.1 hparameters, hmethods, hle⟩
  · obtain ⟨m, hm, hname, hfixed, hparameters, htypes⟩ :
        ∃ m ∈ calculator.methodsOf "Calc", m.name = "k" ∧ m.isVariadic = false ∧
          m.parameters = [.primitive .int] ∧
          [Value.integer 7].map Value.hostType? = m.parameters.map some := by
      decide +kernel
    exact ⟨m, (select?_optimal calculator "Calc" "k" [.integer 7]).2.2 m hm hname hfixed htypes,
      hparameters⟩

/-- Of three methods that are narrower than each other in a circle the first one is taken: each is
compared with the one right before it first. -/
example :
    let first : List HostType := [.named "Square", .named "Rectangle", .named "Shape"]
    let second : List HostType := [.named "Rectangle", .named "Shape", .named "Square"]
    let third : List HostType := [.named "Shape", .named "Square", .named "Rectangle"]
    let c := ofClasses [
      { name := "Square", supertypes := ["Rectangle"] },
      { name := "Rectangle", supertypes := ["Shape"] },
      { name := "Calc", methods := [first, second, third].map (.fixed "k" · .runBlock) }]
    c.compareBreadth first second = .lt ∧ c.compareBreadth second third = .lt ∧
      c.compareBreadth third first = .lt ∧
      (c.select? "Calc" "k" [.null, .null, .null]).map HostMethod.parameters = some first := by
  decide +kernel

end Catalog
end BraceScript
