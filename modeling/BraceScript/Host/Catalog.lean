import BraceScript.Block
import BraceScript.Host.Argument

/-!
# The host's classes

A catalog holds the classes that scripts can reach, each with its supertypes and its own methods.
Supertypes may be unknown, repeated or cyclic. Two questions are asked of the class graph:

* `Catalog.isSubclass sub sup`: is there a chain of registered classes from `sub` to `sup`, each
  listing the next? Every class is a subclass of itself and of `Object`. The answer is found by a
  search in depth first, which stops as soon as a class lists `sup` (`Search`).
* `Catalog.methodsOf name`: the methods that can be called, nearest class first, where a method
  hides those further away with its name and parameters. Here a class without supertypes, and one
  that is not registered, has `Object` above it. The classes are met by a breadth-first visit.
-/

namespace BraceScript

/-- How a host method fails. -/
inductive HostFault where
  /-- The method could not be reached. -/
  | access (text : String)
  /-- The method ran and failed. -/
  | failed (text : String)
deriving DecidableEq, Repr, Inhabited

/-- What a host method does. A method is given its target and its arguments and no session, so all
that it can change is what a block does that it is called on. -/
inductive HostAction where
  /-- Computes a value from the blocks there are, the target and the arguments. -/
  | compute (run : Array Block → Value → List HostArgument → Except HostFault Value)
  /-- Runs the target, a code block, on the session it is bound to. -/
  | runBlock
  /-- Tells whether the target, a launched line, has not ended yet. -/
  | isAlive

/-- A method of a host class. The last parameter of a variadic method is an array, which takes all
the arguments that remain. -/
structure HostMethod where
  name : String
  parameters : List HostType
  isVariadic : Bool
  action : HostAction

namespace HostMethod

/-- A method with as many arguments as parameters. -/
def fixed (name : String) (parameters : List HostType) (action : HostAction) : HostMethod :=
  ⟨name, parameters, false, action⟩

/-- A variadic method; it is not one where the last parameter is not an array. -/
def variadic (name : String) (parameters : List HostType) (action : HostAction) : HostMethod :=
  let isArray := match parameters.getLast? with
    | some (.array _) => true
    | _ => false
  ⟨name, parameters, isArray, action⟩

/-- The item type of the variadic parameter. -/
def variadicElement? (m : HostMethod) : Option HostType :=
  match m.isVariadic, m.parameters.getLast? with
  | true, some (.array element) => some element
  | _, _ => none

/-- The texts of the parameters; a variadic one ends in dots. -/
def parameterTexts (m : HostMethod) : List String :=
  match m.variadicElement? with
  | some element => m.parameters.dropLast.map HostType.text ++ [element.text ++ "..."]
  | none => m.parameters.map HostType.text

/-- The name and the parameters of a method. -/
def signature (m : HostMethod) : String :=
  m.name ++ "(" ++ ", ".intercalate m.parameterTexts ++ ")"

/-- Do two methods have the same name and parameters? -/
def hides (m n : HostMethod) : Bool :=
  m.name = n.name && m.parameters = n.parameters

end HostMethod

/-- A class of the host. -/
structure HostClass where
  name : String
  supertypes : List String := []
  methods : List HostMethod := []

/-- The classes that scripts can reach, by name. -/
structure Catalog where
  classes : Table HostClass := []

namespace Catalog

/-- The class with a name. -/
def class? (c : Catalog) (name : String) : Option HostClass :=
  Table.value? name c.classes

/-- The catalog with one more class, which replaces one with its name. -/
def add (c : Catalog) (k : HostClass) : Catalog :=
  ⟨Table.put k.name k c.classes⟩

/-- The catalog of some classes. -/
def ofClasses (ks : List HostClass) : Catalog :=
  ks.foldl add {}

/-- The names that a breadth-first visit along `next` meets, each once, in order. Every step meets a
new name, so as many steps suffice as there are names. -/
def visit (next : String → List String) : (fuel : Nat) → (queue visited : List String) → List String
  | 0, _, visited => visited
  | fuel + 1, queue, visited =>
    match queue.dropWhile (· ∈ visited) with
    | [] => visited
    | name :: rest => visit next fuel (rest ++ next name) (visited ++ [name])

/-- How many names a visit can meet at most: those of the classes and of their supertypes, the one
it starts from, and `Object`. -/
def visitBound (c : Catalog) : Nat :=
  c.classes.foldr (fun entry bound => entry.2.supertypes.length + 1 + bound) 2

/-- The supertypes that a class lists. -/
def supertypes (c : Catalog) (name : String) : List String :=
  ((c.class? name).map HostClass.supertypes).getD []

end Catalog

/-- A search for a class above others: the names that are pending, the next one first, and those
that have been seen. -/
structure Search where
  pending : List String
  seen : List String := []

namespace Search

/-- What a turn of a search comes to. -/
inductive Turn where
  | answer (found : Bool)
  | next (s : Search)

/-- Puts supertypes before the pending names, one before the other, unless `sup` is among them. -/
def push? (sup : String) : (supertypes pending : List String) → Option (List String)
  | [], pending => some pending
  | name :: rest, pending => if name = sup then none else push? sup rest (name :: pending)

/-- One turn of a search for a class that lists `sup`. A name that has been seen is passed over. -/
def turn (c : Catalog) (sup : String) (s : Search) : Turn :=
  match s.pending with
  | [] => .answer false
  | name :: pending =>
    if name ∈ s.seen then .next { s with pending }
    else
      match c.class? name with
      | none => .next ⟨pending, s.seen ++ [name]⟩
      | some k =>
        match push? sup k.supertypes pending with
        | none => .answer true
        | some pending => .next ⟨pending, s.seen ++ [name]⟩

/-- How many turns a class can still cost: one, and one for each of its supertypes, unless it has been
seen. -/
def classCost (seen : List String) (name : String) (k : HostClass) : Nat :=
  if name ∈ seen then 0 else k.supertypes.length + 1

/-- How many turns all classes can still cost. -/
def classesCost (seen : List String) : Table HostClass → Nat
  | [] => 0
  | (name, k) :: rest => classCost seen name k + classesCost seen rest

/-- How many turns a search can take at most. -/
def cost (c : Catalog) (s : Search) : Nat :=
  s.pending.length + classesCost s.seen c.classes

/-! ### A search comes to its end -/

theorem push?_eq (sup : String) (supertypes pending : List String) :
    push? sup supertypes pending =
      if sup ∈ supertypes then none else some (supertypes.reverse ++ pending) := by
  induction supertypes generalizing pending with
  | nil => simp [push?]
  | cons name rest ih =>
    rw [push?, ih]
    by_cases hname : name = sup
    · simp [hname]
    · simp [hname, Ne.symm hname]

theorem length_of_push?_eq_some {sup : String} {supertypes pending pushed : List String}
    (h : push? sup supertypes pending = some pushed) :
    pushed.length = supertypes.length + pending.length := by
  rw [push?_eq] at h
  split at h
  · cases h
  · cases h
    simp

theorem classCost_concat_le (seen : List String) (name other : String) (k : HostClass) :
    classCost (seen ++ [name]) other k ≤ classCost seen other k := by
  simp only [classCost, List.mem_append]
  by_cases hother : other ∈ seen
  · simp [hother]
  · rw [if_neg hother]
    split
    · exact Nat.zero_le _
    · exact Nat.le_refl _

theorem classesCost_concat_le (seen : List String) (name : String) (t : Table HostClass) :
    classesCost (seen ++ [name]) t ≤ classesCost seen t := by
  induction t with
  | nil => exact Nat.le_refl 0
  | cons entry t ih => exact Nat.add_le_add (classCost_concat_le seen name entry.1 entry.2) ih

/-- A class that is seen now pays for what it pushes. -/
theorem classesCost_concat {seen : List String} {name : String} (hname : name ∉ seen)
    {k : HostClass} {t : Table HostClass} (hk : Table.value? name t = some k) :
    classesCost (seen ++ [name]) t + (k.supertypes.length + 1) ≤ classesCost seen t := by
  induction t with
  | nil => cases hk
  | cons entry t ih =>
    have hrest := classesCost_concat_le seen name t
    have hentry := classCost_concat_le seen name entry.1 entry.2
    simp only [classesCost]
    rw [Table.value?] at hk
    split at hk
    · rename_i heq
      cases hk
      have hafter : classCost (seen ++ [name]) entry.1 entry.2 = 0 := by simp [classCost, heq]
      have hbefore : classCost seen entry.1 entry.2 = entry.2.supertypes.length + 1 := by
        simp [classCost, heq, hname]
      omega
    · have := ih hk
      omega

theorem cost_lt_of_turn {c : Catalog} {sup : String} {s s' : Search}
    (h : s.turn c sup = .next s') : s'.cost c < s.cost c := by
  rw [turn] at h
  split at h
  · cases h
  rename_i name pending hpending
  have hlength := congrArg List.length hpending
  simp only [List.length_cons] at hlength
  split at h
  · cases h
    simp only [cost]
    omega
  rename_i hname
  split at h
  · cases h
    have hle := classesCost_concat_le s.seen name c.classes
    simp only [cost]
    omega
  rename_i k hk
  split at h
  · cases h
  rename_i pushed hpushed
  cases h
  have hpush := length_of_push?_eq_some hpushed
  have hclasses := classesCost_concat hname hk
  simp only [cost]
  omega

/-- The answer to which a search comes. -/
def answer (c : Catalog) (sup : String) (s : Search) : Bool :=
  match _h : s.turn c sup with
  | .answer found => found
  | .next s' => s'.answer c sup
termination_by s.cost c
decreasing_by exact cost_lt_of_turn _h

end Search

namespace Catalog

/-- Is `sub` the class `sup` or one that inherits from it? -/
def isSubclass (c : Catalog) (sub sup : String) : Bool :=
  sub = sup || sup = HostType.rootName || (Search.mk [sub] []).answer c sup

/-- The classes right above a class, `Object` being above those that list none. -/
def above (c : Catalog) (name : String) : List String :=
  match c.supertypes name with
  | [] => if name = HostType.rootName then [] else [HostType.rootName]
  | names => names

/-- The methods without those that an earlier one hides. -/
def visible (methods : List HostMethod) : List HostMethod :=
  methods.foldl (fun seen m => if seen.any (·.hides m) then seen else seen ++ [m]) []

/-- The methods that can be called on a class, nearest first. -/
def methodsOf (c : Catalog) (name : String) : List HostMethod :=
  visible ((visit c.above c.visitBound [name] []).flatMap fun n =>
    ((c.class? n).map HostClass.methods).getD [])

/-- May a value of type `source` stand where `target` is asked for, without conversion? The types
are equal, or they are references and the one inherits from the other, item type by item type for
arrays. -/
def isAssignable (c : Catalog) : (target source : HostType) → Bool
  | .named target, .named source => target = source || c.isSubclass source target
  | .named target, .array _ => target = HostType.rootName
  | .array target, .array source =>
    target = source ||
      (!target.isPrimitive && !source.isPrimitive && c.isAssignable target source)
  | target, source => target = source

end Catalog
end BraceScript
