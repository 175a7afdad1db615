import BraceScript.Proofs.Inheritance
import BraceScript.Proofs.OverloadChoice
import Mathlib.Data.Fintype.Card
import Mathlib.Data.Set.Finite.Basic
import Mathlib.Order.WellFounded

/-!
# The methods that can be called on a class

Who can be reached from a class, going up, is what `Catalog.Above` says: the supertypes that are
listed, and `Object` above a class that is unknown or lists none. The methods of all these classes
can be called, but of those with one name and parameters only the nearest: the one that is declared
first in the class that comes first in breadth-first order (`Catalog.Nearest`). No others can
(`Catalog.mem_methodsOf`).

`Object` is not always among the classes that can be reached: where classes inherit from each other
in a circle, the way up may never come to an end. Without such a circle it ends, and it can end at
`Object` only (`Catalog.reaches_root`).

All this is `Catalog.methodsOf_nearest`.
-/

namespace BraceScript
namespace Catalog

variable {c : Catalog} {name owner : String} {m : HostMethod}

/-- The methods that a class declares itself; one that is unknown declares none. -/
def declared (c : Catalog) (name : String) : List HostMethod :=
  ((c.class? name).map HostClass.methods).getD []

/-- Of the methods with its name and parameters, the method is the first that its owner declares,
and of the classes at or above `name` that declare such a method the owner comes first. -/
structure Nearest (c : Catalog) (name owner : String) (m : HostMethod) : Prop where
  reached : Relation.ReflTransGen c.Above name owner
  first : (c.declared owner).find? (·.hides m) = some m
  precedes : ∀ other, Relation.ReflTransGen c.Above name other →
    (∃ n ∈ c.declared other, n.hides m) → other = owner ∨ Precedes c.above name owner other

/-! ### Looking for a name and parameters -/

theorem mem_visit_above :
    owner ∈ visit c.above c.visitBound [name] [] ↔ Relation.ReflTransGen c.Above name owner := by
  simp only [(c.visits_above name).mem_iff, mem_above]

theorem find?_methodsOf (c : Catalog) (name : String) (m : HostMethod) :
    (c.methodsOf name).find? (·.hides m) =
      (visit c.above c.visitBound [name] []).findSome? fun n =>
        (c.declared n).find? (·.hides m) := by
  rw [methodsOf, find?_visible, List.find?_flatMap]
  rfl

theorem exists_mem_methodsOf (howner : Relation.ReflTransGen c.Above name owner)
    (hm : m ∈ c.declared owner) :
    ∃ n ∈ c.methodsOf name, n.name = m.name ∧ n.parameters = m.parameters := by
  cases hfound : (c.methodsOf name).find? (·.hides m) with
  | some n =>
    have hhides : n.hides m = true := by simpa using List.find?_some hfound
    exact ⟨n, List.mem_of_find?_eq_some hfound, HostMethod.hides_iff.1 hhides⟩
  | none =>
    rw [find?_methodsOf, List.findSome?_eq_none_iff] at hfound
    have hnone := List.find?_eq_none.1 (hfound owner (mem_visit_above.2 howner))
    exact absurd m.hides_self (hnone m hm)

/-- Exactly the nearest methods can be called. -/
theorem mem_methodsOf : m ∈ c.methodsOf name ↔ ∃ owner, c.Nearest name owner m := by
  have hordered := (c.visits_above name).pairwise
  have hfound : m ∈ c.methodsOf name ↔ (c.methodsOf name).find? (·.hides m) = some m := by
    rw [methodsOf, mem_visible, find?_visible]
  rw [hfound, find?_methodsOf, List.findSome?_eq_some_iff]
  constructor
  · rintro ⟨before, owner, after, horder, hfirst, hbefore⟩
    have hnext : ∀ other ∈ after, Precedes c.above name owner other := by
      rw [horder, List.pairwise_append, List.pairwise_cons] at hordered
      exact hordered.2.1.1
    refine ⟨owner, mem_visit_above.1 (by simp [horder]), hfirst, ?_⟩
    rintro other hother ⟨n, hn, hhides⟩
    rw [← mem_visit_above, horder, List.mem_append, List.mem_cons] at hother
    rcases hother with hother | rfl | hother
    · exact absurd hhides (List.find?_eq_none.1 (hbefore other hother) n hn)
    · exact .inl rfl
    · exact .inr (hnext other hother)
  · rintro ⟨owner, hreached, hfirst, hprecedes⟩
    obtain ⟨before, after, horder⟩ := List.append_of_mem (mem_visit_above.2 hreached)
    refine ⟨before, owner, after, horder, hfirst, fun other hother => ?_⟩
    have hother' : Precedes c.above name other owner := by
      rw [horder, List.pairwise_append] at hordered
      exact hordered.2.2 other hother owner List.mem_cons_self
    have hreached' : Relation.ReflTransGen c.Above name other :=
      mem_visit_above.1 (by simp [horder, hother])
    -- a class before the owner that declares such a method would not come after it
    refine List.find?_eq_none.2 fun n hn hhides => ?_
    rcases hprecedes other hreached' ⟨n, hn, hhides⟩ with rfl | h
    · exact hother'.asymm hother'
    · exact hother'.asymm h

/-! ### The way up to `Object` -/

theorem lists_or_above_root (hname : name ≠ HostType.rootName) :
    (∃ super, c.Lists name super) ∨ c.Above name HostType.rootName := by
  cases hclass : c.class? name with
  | none => exact .inr (.unknown hclass hname)
  | some k =>
    cases hsupertypes : k.supertypes with
    | nil => exact .inr (.bare hclass hsupertypes hname)
    | cons super rest => exact .inl ⟨super, k, hclass, by simp [hsupertypes]⟩

theorem finite_reached (c : Catalog) (name : String) :
    Finite {n // Relation.ReflTransGen c.Above name n} := by
  simp only [← mem_visit_above]
  exact List.finite_toSet _

/-- Where no class at or above `name` inherits from itself, `Object` is above. -/
theorem reaches_root
    (hacyclic : ∀ n, Relation.ReflTransGen c.Above name n → ¬ Relation.TransGen c.Lists n n) :
    Relation.ReflTransGen c.Above name HostType.rootName := by
  -- inheritance is well-founded on what is reached, so one class lists no other that is
  let inherits (a b : {n // Relation.ReflTransGen c.Above name n}) : Prop :=
    Relation.TransGen c.Lists b.1 a.1
  have : Finite {n // Relation.ReflTransGen c.Above name n} := c.finite_reached name
  have : IsTrans _ inherits := ⟨fun _ _ _ hab hbd => hbd.trans hab⟩
  have : Std.Irrefl inherits := ⟨fun a => hacyclic a.1 a.2⟩
  obtain ⟨⟨top, htop⟩, -, hlast⟩ := (Finite.wellFounded_of_trans_of_irrefl inherits).has_min
    Set.univ ⟨⟨name, .refl⟩, trivial⟩
  by_cases hroot : top = HostType.rootName
  · exact hroot ▸ htop
  rcases lists_or_above_root hroot with ⟨super, hsuper⟩ | habove
  · exact absurd (.single hsuper) (hlast ⟨super, htop.tail (.listed hsuper)⟩ trivial)
  · exact htop.tail habove

/-- **The methods of a class are the nearest ones.** The visit of the classes above comes to its
end. No two of the methods that it gives have the same name and parameters. For every method of a
class that can be reached there is one with its name and parameters. It is the one that is declared
first in the class that comes first in breadth-first order, of those that declare one, and nothing
else is given. Where no class that can be reached inherits from itself, the methods of `Object` are
among those for which there is one. -/
theorem methodsOf_nearest (c : Catalog) (name : String) :
    Visits c.above [name] [] (visit c.above c.visitBound [name] []) ∧
    ((c.methodsOf name).Pairwise fun m n => ¬ (m.name = n.name ∧ m.parameters = n.parameters)) ∧
    (∀ owner, Relation.ReflTransGen c.Above name owner → ∀ m ∈ c.declared owner,
      ∃ n ∈ c.methodsOf name, n.name = m.name ∧ n.parameters = m.parameters) ∧
    (∀ m, m ∈ c.methodsOf name ↔ ∃ owner, c.Nearest name owner m) ∧
    ((∀ n, Relation.ReflTransGen c.Above name n → ¬ Relation.TransGen c.Lists n n) →
      ∀ m ∈ c.declared HostType.rootName,
        ∃ n ∈ c.methodsOf name, n.name = m.name ∧ n.parameters = m.parameters) := by
  refine ⟨c.visits_above name, ?_, fun _ h _ => exists_mem_methodsOf h, fun _ => mem_methodsOf, ?_⟩
  · exact (pairwise_visible _).imp fun h => mt HostMethod.hides_iff.2 h
  · exact fun hacyclic m hm => exists_mem_methodsOf (reaches_root hacyclic) hm

/-- A method that gives a text. -/
def telling (method text : String) : HostMethod :=
  Host.method method [] fun _ _ _ => .ok (.text text)

/-- Two ways up from `Square`, which meet again, and end in a class that is unknown. -/
def shapes : Catalog :=
  ofClasses
    [{ name := "Square", supertypes := ["Shape", "Figure"], methods := [telling "sides" "four"] },
      { name := "Shape", supertypes := ["Thing"],
        methods := [telling "draw" "shape", telling "draw" "shape again"] },
      { name := "Figure", supertypes := ["Thing", "Mark"],
        methods := [telling "draw" "figure", telling "move" "figure"] },
      { name := "Thing", supertypes := ["Mark"], methods := [telling "move" "thing"] },
      { name := HostType.rootName, methods := [telling "sides" "none", telling "text" "object"] }]

theorem methodsOf_nearest_shapes :
    shapes.methodsOf "Square" = [telling "sides" "four", telling "draw" "shape",
      telling "move" "figure", telling "text" "object"] ∧
    (∃ owner, shapes.Nearest "Square" owner (telling "move" "figure")) ∧
    (¬ ∃ owner, shapes.Nearest "Square" owner (telling "move" "thing")) ∧
    ∀ m ∈ shapes.declared HostType.rootName,
      ∃ n ∈ shapes.methodsOf "Square", n.name = m.name ∧ n.parameters = m.parameters := by
  have hmethods : shapes.methodsOf "Square" = [telling "sides" "four", telling "draw" "shape",
      telling "move" "figure", telling "text" "object"] := rfl
  have hacyclic : ∀ n ∈ visit shapes.above shapes.visitBound ["Square"] [],
      ∀ super ∈ shapes.supertypes n, shapes.isSubclass super n = false := by decide +kernel
  obtain ⟨-, -, -, hnearest, hroot⟩ := methodsOf_nearest shapes "Square"
  refine ⟨hmethods, (hnearest _).1 (by simp [hmethods]), fun h => ?_, hroot fun n hn hcycle => ?_⟩
  · have hthing := (hnearest _).2 h
    simp [hmethods, telling, Host.method, HostMethod.fixed, funext_iff] at hthing
  · obtain ⟨super, hlists, hback⟩ := Relation.TransGen.head'_iff.1 hcycle
    have hsub : shapes.isSubclass super n = true :=
      isSubclass_iff.2 (.inr ((Relation.reflTransGen_iff_eq_or_transGen.1 hback).imp_left Eq.symm))
    rw [hacyclic n (mem_visit_above.2 hn) super (mem_supertypes.2 hlists)] at hsub
    cases hsub

end Catalog
end BraceScript
