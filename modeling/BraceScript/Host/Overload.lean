import BraceScript.Host.Catalog

/-!
# Choosing an overload

Every parameter has a penalty for the conversion that its argument needs:

| conversion                                | penalty |
|-------------------------------------------|---------|
| none                                      | 0       |
| wrapping or unwrapping a primitive        | 1       |
| widening a primitive                      | 2       |
| a text of one character to a character    | 2       |
| up to a supertype                         | 3       |
| null to a reference                       | 3       |

and no other conversion is possible. The arguments of a variadic parameter are scored one by one
against its item type, which costs 1 more, unless they are a single list that already has the array
type.

The method with the least total penalty is taken; of several, one that is not variadic; then the one
with the narrowest parameters; then the one that comes first. To this end the methods are sorted,
and the first one is taken. Breadths need not rank methods, and where they do not, what comes first
depends on the sort.
-/

namespace BraceScript

/-- How well a method fits some arguments; less is better. -/
structure Score where
  penalty : Nat
  isVariadic : Bool
deriving DecidableEq, Repr, Inhabited

namespace Score

/-- The order of scores: penalty first, and what is not variadic before what is. -/
def compare (a b : Score) : Ordering :=
  (Ord.compare a.penalty b.penalty).then (Ord.compare a.isVariadic b.isVariadic)

end Score

namespace Catalog

/-- The penalty of an argument that is not null, by its type, where `oneCharacter` tells a text of
one character. -/
def typePenalty? (c : Catalog) (oneCharacter : Bool) : (parameter argument : HostType) → Option Nat
  | .primitive p, .primitive a =>
    if p = a then some 0 else if a.widensTo p then some 2 else none
  | .primitive p, .named name =>
    if p.wrapper = name then some 1
    else if (Primitive.ofWrapper? name).any (·.widensTo p) then some 2
    else if p = .char && name = "String" && oneCharacter then some 2
    else none
  | .named name, .primitive a =>
    if a.wrapper = name then some 1 else if c.isSubclass a.wrapper name then some 3 else none
  | .named name, .named source =>
    if name = source then some 0
    else if name = "Character" && oneCharacter then some 2
    else if c.isAssignable (.named name) (.named source) then some 3
    else none
  | parameter, argument =>
    if parameter = argument then some 0
    else if c.isAssignable parameter argument then some 3
    else none

/-- The penalty of an argument for a parameter. -/
def penalty? (c : Catalog) (parameter : HostType) (argument : Value) : Option Nat :=
  match argument.hostType? with
  | none => if parameter.isPrimitive then none else some 3
  | some type => c.typePenalty? (argument.text?.any (·.length = 1)) parameter type

/-- The total penalty of some arguments, parameter by parameter. -/
def penalties? (c : Catalog) : List (HostType × Value) → Option Nat
  | [] => some 0
  | (parameter, argument) :: rest =>
    (c.penalty? parameter argument).bind fun p => (c.penalties? rest).map (p + ·)

/-- Are the arguments of a variadic method given with a list that already has the array type? -/
def isPacked (c : Catalog) (m : HostMethod) (arguments : List Value) : Bool :=
  arguments.length = m.parameters.length &&
    match m.parameters.getLast?, arguments.getLast?.bind Value.hostType? with
    | some array, some (.array element) => c.isAssignable array (.array element)
    | _, _ => false

/-- How well a method fits some arguments, if it does. -/
def score? (c : Catalog) (m : HostMethod) (arguments : List Value) : Option Score :=
  match m.variadicElement? with
  | none =>
    if m.parameters.length = arguments.length then
      (c.penalties? (m.parameters.zip arguments)).map (⟨·, false⟩)
    else none
  | some element =>
    let fixed := m.parameters.dropLast
    if arguments.length < fixed.length then none
    else
      (c.penalties? (fixed.zip arguments)).bind fun base =>
        if c.isPacked m arguments then some ⟨base, true⟩
        else
          (c.penalties? ((arguments.drop fixed.length).map ((element, ·)))).map fun packing =>
            ⟨base + packing + 1, true⟩

/-- How a parameter type weighs against the one at its place: 1 where it is the wider of the two,
and -1 where it is the narrower. -/
def breadth (c : Catalog) (a b : HostType) : Int :=
  if a = b then 0
  else if c.isAssignable a b then 1
  else if c.isAssignable b a then -1
  else 0

/-- The weights of some parameter types against others, place by place and summed. -/
def totalBreadth (c : Catalog) : (a b : List HostType) → Int
  | x :: xs, y :: ys => c.breadth x y + totalBreadth c xs ys
  | _, _ => 0

/-- Which parameters are the narrower ones, all in all. -/
def compareBreadth (c : Catalog) (a b : List HostType) : Ordering :=
  let total := c.totalBreadth a b
  if total < 0 then .lt else if total = 0 then .eq else .gt

/-- A method with its score. -/
structure Candidate where
  method : HostMethod
  score : Score

/-- The order in which candidates are preferred. -/
def compareCandidates (c : Catalog) (a b : Candidate) : Ordering :=
  (a.score.compare b.score).then (c.compareBreadth a.method.parameters b.method.parameters)

/-- The methods with a name that fit some arguments, nearest first. -/
def candidates (c : Catalog) (className method : String) (arguments : List Value) :
    List Candidate :=
  ((c.methodsOf className).filter (·.name = method)).filterMap fun m =>
    (c.score? m arguments).map (⟨m, ·⟩)

/-- Sorts a candidate in: it goes before the candidates that it precedes, the last of them first, up
to one that it does not precede. The last one stands first in the list. -/
def sink (c : Catalog) (k : Candidate) : (sorted : List Candidate) → List Candidate
  | [] => [k]
  | last :: sorted =>
    if c.compareCandidates k last = .lt then last :: sink c k sorted else k :: last :: sorted

/-- The candidates in the order of preference. They are sorted by insertion, one after the other, so
those of which neither precedes the other stay in their order. -/
def ranked (c : Catalog) (ks : List Candidate) : List Candidate :=
  (ks.foldl (fun sorted k => c.sink k sorted) []).reverse

/-- The method to call. -/
def select? (c : Catalog) (className method : String) (arguments : List Value) :
    Option HostMethod :=
  (c.ranked (c.candidates className method arguments)).head?.map Candidate.method

/-- The arguments as the method receives them. -/
def prepare (c : Catalog) (m : HostMethod) (arguments : List Value) :
    Except ScriptError (List HostArgument) :=
  let coerceAll (pairs : List (HostType × Value)) : Except ScriptError (List HostArgument) :=
    pairs.mapM fun (type, v) => HostArgument.coerce type v
  match m.variadicElement? with
  | none => coerceAll (m.parameters.zip arguments)
  | some element => do
    let fixed := m.parameters.dropLast
    let front ← coerceAll (fixed.zip arguments)
    let rest := arguments.drop fixed.length
    if c.isPacked m arguments then
      let packed ← coerceAll (rest.map ((.array element, ·)))
      return front ++ packed
    else
      let items ← coerceAll (rest.map ((element, ·)))
      return front ++ [.array items]

/-- A call that has been resolved: the class it was looked up on, the method, and its arguments. -/
structure Call where
  className : String
  method : HostMethod
  arguments : List HostArgument

/-- Resolves a call of a method on a target. -/
def resolve (c : Catalog) (target : Value) (method : String) (arguments : List Value) :
    Except ScriptError Call :=
  match target.hostClass? with
  | none => .error (.complaint "InvokeMethodOf" .nullTarget)
  | some className =>
    match c.select? className method arguments with
    | none => .error ⟨.noOverload method className, []⟩
    | some m => (c.prepare m arguments).map (⟨className, m, ·⟩)

/-- The cause that a method's failure becomes. -/
def Call.cause (call : Call) : HostFault → Cause
  | .access s => .hostAccess ("cannot invoke " ++ call.method.signature ++ " on " ++
      call.className ++ ": " ++ s)
  | .failed s => .invocation ("failed to invoke " ++ call.method.signature ++ " on " ++
      call.className ++ ": " ++ s)

end Catalog
end BraceScript
