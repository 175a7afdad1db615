import BraceScript.Proofs.Inheritance
import BraceScript.Proofs.OverloadChoice
import Mathlib.Data.List.Forall2

/-!
# Narrower parameters

`Catalog.breadth` asks of two types first whether the one is the wider, and only then whether the
other is. Where classes inherit from each other in a circle both are, and the order of the questions
decides. In a hierarchy (`Catalog.IsHierarchy`) it does not: of two different types at most one can
be assigned to the other (`Assignable.antisymm`), so exchanging them changes the sign
(`breadth_swap`).

The sums over the places of two parameter lists follow: comparing them the other way around gives
the reverse, and a list that is narrower at every place (`Catalog.Narrower`) comes first. So a
method is not chosen where another one, with the same score, is narrower at every place
(`compareBreadth_consistent`).
-/

namespace BraceScript
namespace Catalog

variable {c : Catalog}

/-- No class inherits from itself, and nothing is above `Object`. -/
structure IsHierarchy (c : Catalog) : Prop where
  acyclic : ∀ name, ¬ Relation.TransGen c.Lists name name
  root : c.supertypes HostType.rootName = []

/-- To see that a catalog is a hierarchy it is enough to ask of every class whether one that it
lists inherits from it. -/
theorem isHierarchy_of_listed (hroot : c.supertypes HostType.rootName = [])
    (hlisted : ∀ entry ∈ c.classes, ∀ super ∈ entry.2.supertypes,
      c.isSubclass super entry.1 = false) : c.IsHierarchy := by
  refine ⟨fun name hcycle => ?_, hroot⟩
  obtain ⟨super, ⟨k, hclass, hsuper⟩, hback⟩ := Relation.TransGen.head'_iff.1 hcycle
  have hsub : c.isSubclass super name = true :=
    isSubclass_iff.2 (.inr ((Relation.reflTransGen_iff_eq_or_transGen.1 hback).imp_left Eq.symm))
  rw [hlisted (name, k) (Table.mem_of_value?_eq_some hclass) super hsuper] at hsub
  cases hsub

theorem isHierarchy_standard : standard.IsHierarchy :=
  isHierarchy_of_listed rfl (by decide +kernel)

/-! ### Types that can be assigned to each other -/

theorem isSubclass_antisymm (hc : c.IsHierarchy) {a b : String} (hab : c.isSubclass a b = true)
    (hba : c.isSubclass b a = true) : a = b := by
  rcases isSubclass_iff.1 hab with rfl | rfl | hchain
  · exact eq_root_of_isSubclass hc.root hba
  · rfl
  rcases isSubclass_iff.1 hba with rfl | rfl | hback
  · exact (eq_root_of_isSubclass hc.root hab).symm
  · rfl
  · exact (hc.acyclic a (hchain.trans hback)).elim

theorem Assignable.antisymm (hc : c.IsHierarchy) {t u : HostType} (h : c.Assignable t u)
    (h' : c.Assignable u t) : t = u := by
  induction h with
  | same t => rfl
  | subclass h =>
    cases h' with
    | same => rfl
    | subclass h' => rw [isSubclass_antisymm hc h' h]
  | object element => cases h'
  | items _ _ _ ih =>
    cases h' with
    | same => rfl
    | items _ _ h' => rw [ih h']

theorem isAssignable_antisymm (hc : c.IsHierarchy) {t u : HostType}
    (h : c.isAssignable t u = true) (h' : c.isAssignable u t = true) : t = u :=
  (isAssignable_iff.1 h).antisymm hc (isAssignable_iff.1 h')

/-! ### One place -/

theorem breadth_self (c : Catalog) (t : HostType) : c.breadth t t = 0 :=
  if_pos rfl

theorem breadth_of_narrower (hc : c.IsHierarchy) {t u : HostType} (hne : t ≠ u)
    (h : c.isAssignable u t = true) : c.breadth t u = -1 := by
  have hwider : c.isAssignable t u ≠ true := fun h' => hne (isAssignable_antisymm hc h' h)
  rw [breadth, if_neg hne, if_neg hwider, if_pos h]

theorem breadth_of_wider {t u : HostType} (hne : t ≠ u) (h : c.isAssignable t u = true) :
    c.breadth t u = 1 := by
  rw [breadth, if_neg hne, if_pos h]

theorem breadth_of_unrelated {t u : HostType} (h : c.isAssignable t u ≠ true)
    (h' : c.isAssignable u t ≠ true) : c.breadth t u = 0 := by
  rw [breadth, if_neg h, if_neg h', ite_self]

theorem breadth_swap (hc : c.IsHierarchy) (t u : HostType) : c.breadth t u = -c.breadth u t := by
  by_cases hne : t = u
  · rw [hne, breadth_self, Int.neg_zero]
  by_cases h : c.isAssignable t u = true
  · rw [breadth_of_wider hne h, breadth_of_narrower hc (Ne.symm hne) h, Int.neg_neg]
  by_cases h' : c.isAssignable u t = true
  · rw [breadth_of_narrower hc hne h', breadth_of_wider (Ne.symm hne) h']
  · rw [breadth_of_unrelated h h', breadth_of_unrelated h' h, Int.neg_zero]

theorem breadth_nonpos (hc : c.IsHierarchy) {t u : HostType} (h : c.isAssignable u t = true) :
    c.breadth t u ≤ 0 := by
  by_cases hne : t = u
  · rw [hne, breadth_self]
  · rw [breadth_of_narrower hc hne h]
    decide

/-! ### All places -/

/-- At every place the type of `a` can be assigned to that of `b`, and they are not all the same. -/
def Narrower (c : Catalog) (a b : List HostType) : Prop :=
  List.Forall₂ (fun t u => c.isAssignable u t = true) a b ∧ a ≠ b

theorem totalBreadth_swap (hc : c.IsHierarchy) (a b : List HostType) :
    c.totalBreadth a b = -c.totalBreadth b a := by
  induction a generalizing b with
  | nil => cases b <;> rfl
  | cons t a ih =>
    cases b with
    | nil => rfl
    | cons u b => rw [totalBreadth, totalBreadth, breadth_swap hc t u, ih b, Int.neg_add]

theorem totalBreadth_nonpos (hc : c.IsHierarchy) {a b : List HostType}
    (h : List.Forall₂ (fun t u => c.isAssignable u t = true) a b) : c.totalBreadth a b ≤ 0 := by
  induction h with
  | nil => exact Int.le_refl 0
  | cons hplace _ ih => exact Int.add_nonpos (breadth_nonpos hc hplace) ih

theorem Narrower.totalBreadth_neg (hc : c.IsHierarchy) {a b : List HostType}
    (h : c.Narrower a b) : c.totalBreadth a b < 0 := by
  obtain ⟨hplaces, hne⟩ := h
  induction hplaces with
  | nil => exact absurd rfl hne
  | @cons t u a b hplace hrest ih =>
    rw [totalBreadth]
    by_cases htu : t = u
    · have hrest_ne : a ≠ b := fun heq => hne (by rw [htu, heq])
      rw [htu, breadth_self, Int.zero_add]
      exact ih hrest_ne
    · have hrest_le := totalBreadth_nonpos hc hrest
      rw [breadth_of_narrower hc htu hplace]
      omega

theorem compareBreadth_swap (hc : c.IsHierarchy) (a b : List HostType) :
    c.compareBreadth a b = (c.compareBreadth b a).swap := by
  have hswap := totalBreadth_swap hc a b
  rw [compareBreadth, compareBreadth]
  rcases lt_trichotomy (c.totalBreadth b a) 0 with h | h | h
  · rw [if_neg (by omega), if_neg (by omega), if_pos h]
    rfl
  · rw [if_neg (by omega), if_pos (by omega), if_neg (by omega), if_pos h]
    rfl
  · rw [if_pos (by omega), if_neg (by omega), if_neg (by omega)]
    rfl

theorem Narrower.compareBreadth_eq_lt (hc : c.IsHierarchy) {a b : List HostType}
    (h : c.Narrower a b) : c.compareBreadth a b = .lt :=
  if_pos (h.totalBreadth_neg hc)

/-! ### The choice -/

/-- **Comparing breadths is consistent in a hierarchy.** Comparing two parameter lists the other way
around, whatever their lengths, gives the reverse; and a list that is narrower at every place comes
first. So where the methods that fit as well as the one chosen are ranked, none of them is narrower
at every place than the one chosen. -/
theorem compareBreadth_consistent (hc : c.IsHierarchy) :
    (∀ a b, c.compareBreadth a b = (c.compareBreadth b a).swap) ∧
    (∀ a b, c.Narrower a b → c.compareBreadth a b = .lt) ∧
    ∀ className method arguments m s, c.select? className method arguments = some m →
      c.Fits className method arguments m s →
      c.Ranks (fun n => c.Fits className method arguments n s) →
      ∀ n, c.Fits className method arguments n s → ¬ c.Narrower n.parameters m.parameters := by
  refine ⟨compareBreadth_swap hc, fun a b h => h.compareBreadth_eq_lt hc, ?_⟩
  intro className method arguments m s hselect hm hranks n hn hnarrower
  have hlt := hnarrower.compareBreadth_eq_lt hc
  obtain ⟨before, after, hmethods, hbefore, hafter⟩ :=
    exists_methodsOf_eq_of_select? hselect hm hranks
  have hmem := hn.mem
  rw [hmethods, List.mem_append, List.mem_cons] at hmem
  rcases hmem with hmem | rfl | hmem
  · rw [hbefore n hmem hn] at hlt
    cases hlt
  · exact hnarrower.2 rfl
  · exact hafter n hmem hn hlt

theorem compareBreadth_consistent_nestedArrays :
    standard.compareBreadth [.object, .object] [.named "Map"] = .gt ∧
    standard.compareBreadth [.array (.array (.named "String")), .primitive .int]
      [.array .object, .primitive .int] = .lt ∧
    ∃ m, calculator.select? "Calc" "k" [.text "ab"] = some m ∧
      ∀ n, calculator.Fits "Calc" "k" [.text "ab"] n ⟨3, false⟩ →
        ¬ calculator.Narrower n.parameters m.parameters := by
  have hcalculator : calculator.IsHierarchy := isHierarchy_of_listed rfl (by decide +kernel)
  obtain ⟨hswap, hlt, -⟩ := compareBreadth_consistent isHierarchy_standard
  obtain ⟨-, -, hselect⟩ := compareBreadth_consistent hcalculator
  refine ⟨?_, ?_, ?_⟩
  · rw [hswap]
    decide +kernel
  · refine hlt _ _ ⟨?_, by decide⟩
    exact .cons (by decide +kernel) (.cons (by decide) .nil)
  · have hscore : ((calculator.select? "Calc" "k" [.text "ab"]).bind
        (calculator.score? · [.text "ab"])) = some ⟨3, false⟩ := by
      decide +kernel
    obtain ⟨m, hm, hscore⟩ := Option.bind_eq_some_iff.1 hscore
    obtain ⟨s, hfits, -⟩ := exists_score_of_select? hm
    obtain rfl : s = ⟨3, false⟩ := Option.some_inj.1 (hfits.score.symm.trans hscore)
    exact ⟨m, hm, hselect "Calc" "k" [.text "ab"] m _ hm hfits ranks_calculator⟩

/-- Of two classes that inherit from each other both are the wider one. -/
example :
    let c := ofClasses [{ name := "Even", supertypes := ["Odd"] },
      { name := "Odd", supertypes := ["Even"] }]
    c.compareBreadth [.named "Even"] [.named "Odd"] = .gt ∧
      c.compareBreadth [.named "Odd"] [.named "Even"] = .gt := by
  decide +kernel

end Catalog
end BraceScript
