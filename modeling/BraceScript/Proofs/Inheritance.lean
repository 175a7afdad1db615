import BraceScript.Host.Standard
import BraceScript.Proofs.ClassVisit

/-!
# Inheritance and assignability

`Catalog.isSubclass` decides inheritance: a class inherits from `Object`, from itself, and from each
class at the end of a chain of registered classes that list each other (`isSubclass_iff`). Cycles,
classes that are listed twice and unknown ones make no difference.

The search takes the name that was pushed last and stops at the first class that lists the target,
so what it has seen when it stops depends on the order. What carries the proof is that the classes
seen do not list the target, and that what they list has been seen or is pending
(`Search.Combed`): a chain to the target from a class that has been seen must leave through a
pending name. The pending names may grow in number with every turn; what gets less is `Search.cost`.

On types it makes `Catalog.isAssignable` a preorder (`isAssignable_preorder`). The rules are those
of `Assignable`: a type itself, an inheriting class, any array where `Object` is asked for, and
arrays of references item type by item type. `Object` is above every class without being listed. A
class that `Object` lists would be above `Object` and not above the others, so `Object` must list
none.
-/

namespace BraceScript

/-! ### The search for a class -/

namespace Search
variable {c : Catalog} {sup name : String} {s s' : Search}

/-- A turn with a name that is pending. An unknown class goes like one that lists nothing. -/
theorem turn_cons (c : Catalog) (sup name : String) (pending seen : List String) :
    turn c sup ⟨name :: pending, seen⟩ =
      if name ∈ seen then .next ⟨pending, seen⟩
      else if sup ∈ c.supertypes name then .answer true
      else .next ⟨(c.supertypes name).reverse ++ pending, seen ++ [name]⟩ := by
  rw [turn, Catalog.supertypes]
  cases hclass : c.class? name with
  | none => simp [hclass]
  | some k => by_cases hsup : sup ∈ k.supertypes <;> simp [hclass, push?_eq, hsup]

/-- What a turn that does not end the search makes of it: the name that it takes has been seen then,
and what a class lists that was not seen before is pending, the target not being among that. -/
structure GoesOn (c : Catalog) (sup : String) (s s' : Search) : Prop where
  kept : s.seen ⊆ s'.seen
  taken : ∀ name ∈ s.pending, name ∈ s'.seen ∨ name ∈ s'.pending
  new : ∀ name ∈ s'.seen, name ∈ s.seen ∨
    ∀ super, c.Lists name super → super ≠ sup ∧ super ∈ s'.pending
  pushed : ∀ name ∈ s'.pending, name ∈ s.pending ∨ ∃ below ∈ s.pending, c.Lists below name

theorem goesOn_of_turn (h : s.turn c sup = .next s') : s.GoesOn c sup s' := by
  obtain ⟨_ | ⟨top, pending⟩, seen⟩ := s
  · cases h
  rw [turn_cons] at h
  split at h
  · rename_i htop
    cases h
    refine ⟨List.Subset.refl seen, fun name hname => ?_, fun name hname => .inl hname,
      fun name hname => .inl (List.mem_cons_of_mem top hname)⟩
    rcases List.mem_cons.1 hname with rfl | hname
    · exact .inl htop
    · exact .inr hname
  split at h
  · cases h
  rename_i hsup
  cases h
  refine ⟨List.subset_append_left seen [top], fun name hname => ?_, fun name hname => ?_,
    fun name hname => ?_⟩
  · rcases List.mem_cons.1 hname with rfl | hname
    · exact .inl (List.mem_append_right seen List.mem_cons_self)
    · exact .inr (List.mem_append_right _ hname)
  · rcases List.mem_append.1 hname with hname | hname
    · exact .inl hname
    · obtain rfl := List.mem_singleton.1 hname
      refine .inr fun super hlists => ?_
      have hmem := Catalog.mem_supertypes.2 hlists
      exact ⟨fun heq => hsup (heq ▸ hmem), List.mem_append_left _ (List.mem_reverse.2 hmem)⟩
  · rcases List.mem_append.1 hname with hname | hname
    · have hlists := Catalog.mem_supertypes.1 (List.mem_reverse.1 hname)
      exact .inr ⟨top, List.mem_cons_self, hlists⟩
    · exact .inl (List.mem_cons_of_mem top hname)

/-- There is a chain from a pending name to the target. -/
def Leads (c : Catalog) (sup : String) (s : Search) : Prop :=
  ∃ name ∈ s.pending, Relation.TransGen c.Lists name sup

/-- The classes that have been seen do not list the target, and what they list has been seen or is
pending. -/
def Combed (c : Catalog) (sup : String) (s : Search) : Prop :=
  ∀ name ∈ s.seen, ∀ super, c.Lists name super →
    super ≠ sup ∧ (super ∈ s.seen ∨ super ∈ s.pending)

theorem combed_init (c : Catalog) (sup : String) (pending : List String) :
    Combed c sup ⟨pending, []⟩ := by
  simp [Combed]

theorem Combed.turn (h : s.Combed c sup) (hturn : s.turn c sup = .next s') : s'.Combed c sup := by
  have hnext := goesOn_of_turn hturn
  intro name hname super hlists
  rcases hnext.new name hname with hold | hnew
  · obtain ⟨hne, hmet⟩ := h name hold super hlists
    refine ⟨hne, ?_⟩
    rcases hmet with hseen | hpending
    · exact .inl (hnext.kept hseen)
    · exact hnext.taken super hpending
  · obtain ⟨hne, hpending⟩ := hnew super hlists
    exact ⟨hne, .inr hpending⟩

/-- A chain to the target from a class that has been seen leaves through a pending name. -/
theorem Combed.leads_of_seen (h : s.Combed c sup) (hname : name ∈ s.seen)
    (hchain : Relation.TransGen c.Lists name sup) : s.Leads c sup := by
  induction hchain using Relation.TransGen.head_induction_on with
  | single hlists => exact absurd rfl (h _ hname _ hlists).1
  | head hlists hchain ih =>
    rcases (h _ hname _ hlists).2 with hseen | hpending
    · exact ih hseen
    · exact ⟨_, hpending, hchain⟩

/-- A turn that does not end the search neither loses the chains to the target nor makes up any. -/
theorem Combed.leads_iff (h : s.Combed c sup) (hturn : s.turn c sup = .next s') :
    s'.Leads c sup ↔ s.Leads c sup := by
  have hnext := goesOn_of_turn hturn
  constructor
  · rintro ⟨name, hname, hchain⟩
    rcases hnext.pushed name hname with hpending | ⟨below, hbelow, hlists⟩
    · exact ⟨name, hpending, hchain⟩
    · exact ⟨below, hbelow, .head hlists hchain⟩
  · rintro ⟨name, hname, hchain⟩
    rcases hnext.taken name hname with hseen | hpending
    · exact (h.turn hturn).leads_of_seen hseen hchain
    · exact ⟨name, hpending, hchain⟩

theorem leads_iff_of_answer {found : Bool} (hturn : s.turn c sup = .answer found) :
    found = true ↔ s.Leads c sup := by
  obtain ⟨_ | ⟨top, pending⟩, seen⟩ := s
  · cases hturn
    simp [Leads]
  rw [turn_cons] at hturn
  split at hturn
  · cases hturn
  split at hturn
  · rename_i hsup
    cases hturn
    have hchain := Relation.TransGen.single (Catalog.mem_supertypes.1 hsup)
    exact ⟨fun _ => ⟨top, List.mem_cons_self, hchain⟩, fun _ => rfl⟩
  · cases hturn

theorem Combed.answer_iff (h : s.Combed c sup) : s.answer c sup = true ↔ s.Leads c sup := by
  fun_induction answer c sup s with
  | case1 s found hturn => exact leads_iff_of_answer hturn
  | case2 s s' hturn ih => exact (ih (h.turn hturn)).trans (h.leads_iff hturn)

theorem wellFounded_turn (c : Catalog) (sup : String) :
    WellFounded fun later earlier : Search => earlier.turn c sup = .next later :=
  Subrelation.wf cost_lt_of_turn (measure (cost c)).wf

end Search

namespace Catalog

variable {c : Catalog} {sub mid sup : String}

/-! ### Classes -/

theorem isSubclass_iff :
    c.isSubclass sub sup = true ↔
      sup = HostType.rootName ∨ sub = sup ∨ Relation.TransGen c.Lists sub sup := by
  have hsearch : (Search.mk [sub] []).answer c sup = true ↔ Relation.TransGen c.Lists sub sup := by
    rw [(Search.combed_init c sup [sub]).answer_iff]
    simp [Search.Leads]
  rw [isSubclass, Bool.or_eq_true, hsearch]
  simp only [Bool.or_eq_true, decide_eq_true_eq]
  tauto

/-- **Inheritance is decided.** No search can take one turn after the other for ever, whatever the
classes and wherever it starts, and the answer is that there is a chain of registered classes from
the one class to the other, each listing the next, or that the classes are the same, or that the
other one is `Object`. -/
theorem isSubclass_decides (c : Catalog) (sub sup : String) :
    (WellFounded fun later earlier : Search => earlier.turn c sup = .next later) ∧
    (c.isSubclass sub sup = true ↔
      sup = HostType.rootName ∨ sub = sup ∨ Relation.TransGen c.Lists sub sup) :=
  ⟨Search.wellFounded_turn c sup, isSubclass_iff⟩

theorem isSubclass_self (c : Catalog) (name : String) : c.isSubclass name name = true :=
  isSubclass_iff.2 (.inr (.inl rfl))

theorem isSubclass_root (c : Catalog) (name : String) :
    c.isSubclass name HostType.rootName = true :=
  isSubclass_iff.2 (.inl rfl)

/-- What a class inherits from is in every set that holds the class, the root and, with a class, its
supertypes. -/
theorem mem_of_isSubclass {closed : List String} (hroot : HostType.rootName ∈ closed)
    (hclosed : ∀ name ∈ closed, c.supertypes name ⊆ closed) (hsub : sub ∈ closed)
    (h : c.isSubclass sub sup = true) : sup ∈ closed := by
  rcases isSubclass_iff.1 h with rfl | rfl | hchain
  · exact hroot
  · exact hsub
  · clear h
    induction hchain with
    | single hlists => exact hclosed sub hsub (mem_supertypes.2 hlists)
    | tail _ hlists ih => exact hclosed _ ih (mem_supertypes.2 hlists)

section
variable (hroot : c.supertypes HostType.rootName = [])
include hroot

theorem eq_root_of_isSubclass (h : c.isSubclass HostType.rootName sup = true) :
    sup = HostType.rootName := by
  have hclosed : ∀ name ∈ [HostType.rootName], c.supertypes name ⊆ [HostType.rootName] := by
    simp [hroot]
  simpa using mem_of_isSubclass (by simp) hclosed (by simp) h

theorem isSubclass_trans (h : c.isSubclass sub mid = true) (h' : c.isSubclass mid sup = true) :
    c.isSubclass sub sup = true := by
  rcases isSubclass_iff.1 h with rfl | rfl | hchain
  · rw [eq_root_of_isSubclass hroot h']
    exact c.isSubclass_root sub
  · exact h'
  rcases isSubclass_iff.1 h' with rfl | rfl | hchain'
  · exact c.isSubclass_root sub
  · exact h
  · exact isSubclass_iff.2 (.inr (.inr (hchain.trans hchain')))

end

/-! ### Types -/

/-- A value of type `source` may stand where `target` is asked for. -/
inductive Assignable (c : Catalog) : (target source : HostType) → Prop
  | same (t : HostType) : Assignable c t t
  | subclass {target source : String} (h : c.isSubclass source target = true) :
    Assignable c (.named target) (.named source)
  | object (element : HostType) : Assignable c .object (.array element)
  | items {target source : HostType} (htarget : target.isPrimitive = false)
    (hsource : source.isPrimitive = false) (h : Assignable c target source) :
    Assignable c (.array target) (.array source)

theorem isAssignable_iff {target source : HostType} :
    c.isAssignable target source = true ↔ c.Assignable target source := by
  fun_induction isAssignable c target source with
  | case1 target source =>
    rw [Bool.or_eq_true, decide_eq_true_eq]
    constructor
    · rintro (rfl | h)
      · exact .same _
      · exact .subclass h
    · rintro (_ | h)
      · exact .inl rfl
      · exact .inr h
  | case2 target element =>
    rw [decide_eq_true_eq]
    constructor
    · rintro rfl
      exact .object element
    · rintro ⟨⟩
      rfl
  | case3 target source ih =>
    simp only [Bool.or_eq_true, Bool.and_eq_true, decide_eq_true_eq, Bool.not_eq_true', ih]
    constructor
    · rintro (rfl | ⟨⟨htarget, hsource⟩, h⟩)
      · exact .same _
      · exact .items htarget hsource h
    · rintro (_ | _ | _ | ⟨htarget, hsource, h⟩)
      · exact .inl rfl
      · exact .inr ⟨⟨htarget, hsource⟩, h⟩
  | case4 target source hnamed hobject harray =>
    rw [decide_eq_true_eq]
    constructor
    · rintro rfl
      exact .same _
    · intro h
      cases h with
      | same => rfl
      | subclass h => exact (hnamed _ _ rfl rfl).elim
      | object element => exact (hobject _ _ rfl rfl).elim
      | items _ _ h => exact (harray _ _ rfl rfl).elim

theorem isAssignable_refl (c : Catalog) (t : HostType) : c.isAssignable t t = true :=
  isAssignable_iff.2 (.same t)

theorem isSubclass_of_isAssignable (h : c.isAssignable (.named sup) (.named sub) = true) :
    c.isSubclass sub sup = true := by
  cases isAssignable_iff.1 h with
  | same => exact c.isSubclass_self _
  | subclass h => exact h

theorem Assignable.trans (hroot : c.supertypes HostType.rootName = []) {t u v : HostType}
    (h : c.Assignable t u) (h' : c.Assignable u v) : c.Assignable t v := by
  induction h generalizing v with
  | same t => exact h'
  | @subclass target source h =>
    cases h' with
    | same => exact .subclass h
    | subclass h' => exact .subclass (isSubclass_trans hroot h' h)
    | object element =>
      -- only `Object` is above `Object`
      obtain rfl := eq_root_of_isSubclass hroot h
      exact .object element
  | object element =>
    cases h' with
    | same => exact .object element
    | items _ _ _ => exact .object _
  | @items target source htarget hsource h ih =>
    cases h' with
    | same => exact .items htarget hsource h
    | items _ hsource' h' => exact .items htarget hsource' (ih h')

/-- **Assignability is a preorder.** Where `Object` lists no supertypes, every type can be assigned
to itself, and what can be assigned to a type can be assigned to all that the type itself can be
assigned to. -/
theorem isAssignable_preorder {c : Catalog} (hroot : c.supertypes HostType.rootName = []) :
    (∀ t, c.isAssignable t t = true) ∧
    ∀ t u v, c.isAssignable t u = true → c.isAssignable u v = true → c.isAssignable t v = true := by
  refine ⟨c.isAssignable_refl, fun t u v h h' => ?_⟩
  exact isAssignable_iff.2 ((isAssignable_iff.1 h).trans hroot (isAssignable_iff.1 h'))

/-- The standard classes and two that inherit from each other, the one of them from `Integer`. -/
def parities : Catalog :=
  (standard.add { name := "Even", supertypes := ["Odd"] }).add
    { name := "Odd", supertypes := ["Even", "Integer"] }

theorem isAssignable_preorder_parities :
    parities.isAssignable (.array (.named "Integer")) (.array (.named "Even")) = true ∧
    parities.isAssignable (.array .object) (.array (.named "Integer")) = true ∧
    parities.isAssignable (.array .object) (.array (.named "Even")) = true ∧
    parities.isAssignable (.array (.primitive .int)) (.array (.primitive .int)) = true := by
  have hroot : parities.supertypes HostType.rootName = [] := rfl
  have heven :
      parities.isAssignable (.array (.named "Integer")) (.array (.named "Even")) = true := by
    decide +kernel
  have hinteger : parities.isAssignable (.array .object) (.array (.named "Integer")) = true := rfl
  obtain ⟨hrefl, htrans⟩ := isAssignable_preorder hroot
  exact ⟨heven, hinteger, htrans _ _ _ hinteger heven, hrefl _⟩

/-- A class that `Object` lists is above `Object`, and not above what `Object` is above. -/
example :
    let c := ofClasses [{ name := HostType.rootName, supertypes := ["Thing"] }]
    c.isAssignable (.named "Thing") .object = true ∧ c.isAssignable .object (.named "Map") = true ∧
      c.isAssignable (.named "Thing") (.named "Map") = false := by
  decide +kernel

end Catalog
end BraceScript
