import BraceScript.Evaluation
import BraceScript.Host.Standard
import BraceScript.Proofs.Inheritance
import BraceScript.Proofs.OverloadChoice

/-!
# Calls that are resolved but not made

A method is chosen by penalties, and then its arguments are coerced. Penalties let an object of the
host stand for its class and for every class above it, and coercion passes it through. There is one
exception: where a primitive type or its wrapper class is asked for, coercion wants a value that
converts to the primitive, and an object of the host never does.

`HostArgument.Cast` says what coercion casts, item by item, and `HostArgument.Misfit` what of that
cannot be cast; the arguments of a method can be prepared exactly where there is no misfit. In a
catalog that leaves the standard classes where they are (`Catalog.KeepsStandard`), all that the
penalties let be cast fits (`Value.Fits`), but for objects of a class at or below a wrapper. So a
misfit of a chosen method is such an object; nothing else fails between the choice and the call. A
call that is prepared fails only with a fault of the method itself (`Evaluation.HostFails`). All
this is `Catalog.prepare_of_select?`.
-/

namespace BraceScript

/-! ### Coercion -/

/-- Does a value convert to the type? Null goes through. -/
def Primitive.takes : Primitive → Value → Bool
  | _, .null => true
  | .boolean, .boolean _ => true
  | .boolean, _ => false
  | .char, .integer n => (HostArgument.charOfInt64? n).isSome
  | .char, .text s => s.length = 1
  | .char, _ => false
  | _, .integer _ => true
  | _, .float _ => true
  | _, _ => false

namespace Primitive

theorem ofWrapper?_wrapper (p : Primitive) : ofWrapper? p.wrapper = some p := by
  cases p <;> rfl

theorem eq_wrapper_of_ofWrapper? {name : String} {p : Primitive} (h : ofWrapper? name = some p) :
    name = p.wrapper := by
  have hfound := List.find?_some h
  simpa [eq_comm] using hfound

end Primitive

namespace HostArgument

/-- `x` is somewhere inside of `v`, at a place where the type `t` asks for the primitive type `p` or
its wrapper, and does not convert to it. -/
inductive Misfit : (t : HostType) → (v : Value) → (p : Primitive) → (x : Value) → Prop
  | primitive {p : Primitive} {x : Value} (hx : p.takes x = false) : Misfit (.primitive p) x p x
  | wrapper {p : Primitive} {x : Value} (hx : p.takes x = false) : Misfit (.named p.wrapper) x p x
  | item {t : HostType} {items : List Value} {v : Value} {p : Primitive} {x : Value}
    (hv : v ∈ items) (hx : Misfit t v p x) : Misfit (.array t) (.list items) p x

/-- `x` is somewhere inside of `v`, at a place where the type `t` asks for the primitive type `p` or
its wrapper, so that coercion casts it. Null is not cast. -/
inductive Cast : (t : HostType) → (v : Value) → (p : Primitive) → (x : Value) → Prop
  | primitive {p : Primitive} {x : Value} (hx : x ≠ .null) : Cast (.primitive p) x p x
  | wrapper {p : Primitive} {x : Value} (hx : x ≠ .null) : Cast (.named p.wrapper) x p x
  | item {t : HostType} {items : List Value} {v : Value} {p : Primitive} {x : Value}
    (hv : v ∈ items) (hx : Cast t v p x) : Cast (.array t) (.list items) p x

/-- Coercing several things succeeds with all of them, or fails with one. -/
theorem mapM_cases {α : Type} (f : α → Except ScriptError HostArgument) (xs : List α) :
    (∃ as, xs.mapM f = .ok as ∧ ∀ x ∈ xs, ∃ a, f x = .ok a) ∨
      ∃ x ∈ xs, ∃ e, f x = .error e ∧ xs.mapM f = .error e := by
  induction xs with
  | nil => exact .inl ⟨[], rfl, by simp⟩
  | cons x xs ih =>
    rw [List.mapM_cons]
    cases hx : f x with
    | error e => exact .inr ⟨x, by simp, e, hx, rfl⟩
    | ok a =>
      rcases ih with ⟨as, has, hall⟩ | ⟨y, hy, e, herror, hxs⟩
      · refine .inl ⟨a :: as, by rw [has]; rfl, ?_⟩
        intro y hy
        rcases List.mem_cons.1 hy with rfl | hy
        · exact ⟨a, hx⟩
        · exact hall y hy
      · exact .inr ⟨y, by simp [hy], e, herror, by rw [hxs]; rfl⟩

theorem toPrimitive_eq_error_iff {v : Value} {p : Primitive} (hv : v ≠ .null) {e : ScriptError} :
    toPrimitive v p = .error e ↔ p.takes v = false ∧ mismatch v p = e := by
  fun_cases toPrimitive v p <;>
    simp_all [Primitive.takes, ← String.length_toList, List.length_eq_one_iff]

theorem ne_null_of_not_takes {v : Value} {p : Primitive} (h : p.takes v = false) : v ≠ .null := by
  rintro rfl
  cases p <;> cases h

theorem Misfit.cast {t : HostType} {v : Value} {p : Primitive} {x : Value} (h : Misfit t v p x) :
    Cast t v p x ∧ p.takes x = false := by
  induction h with
  | primitive hx => exact ⟨.primitive (ne_null_of_not_takes hx), hx⟩
  | wrapper hx => exact ⟨.wrapper (ne_null_of_not_takes hx), hx⟩
  | item hv _ ih => exact ⟨.item hv ih.1, ih.2⟩

theorem coerce_primitive {v : Value} (hv : v ≠ .null) (p : Primitive) :
    coerce (.primitive p) v = toPrimitive v p := by
  cases v with
  | null => exact absurd rfl hv
  | _ => rfl

theorem coerce_named {v : Value} (hv : v ≠ .null) (name : String) :
    coerce (.named name) v = match Primitive.ofWrapper? name with
      | some p => toPrimitive v p
      | none => .ok (natural v) := by
  cases v with
  | null => exact absurd rfl hv
  | _ => rfl

theorem ne_null_of_coerce {t : HostType} {v : Value} {e : ScriptError}
    (h : coerce t v = .error e) : v ≠ .null := by
  rintro rfl
  rw [coerce] at h
  cases h

theorem exists_misfit_of_coerce {t : HostType} {v : Value} {e : ScriptError}
    (h : coerce t v = .error e) : ∃ p x, Misfit t v p x ∧ mismatch x p = e := by
  have hv := ne_null_of_coerce h
  induction t generalizing v with
  | primitive p =>
    rw [coerce_primitive hv, toPrimitive_eq_error_iff hv] at h
    exact ⟨p, v, .primitive h.1, h.2⟩
  | named name =>
    rw [coerce_named hv] at h
    cases hname : Primitive.ofWrapper? name with
    | none => rw [hname] at h; cases h
    | some p =>
      rw [hname] at h
      obtain ⟨hx, rfl⟩ := (toPrimitive_eq_error_iff hv).1 h
      obtain rfl := Primitive.eq_wrapper_of_ofWrapper? hname
      exact ⟨p, v, .wrapper hx, rfl⟩
  | array t ih =>
    cases v with
    | list items =>
      rw [coerce] at h
      rcases mapM_cases (coerce t) items with ⟨as, hitems, -⟩ | ⟨v, hmem, e', herror, hitems⟩
      · rw [hitems] at h
        cases h
      · rw [hitems] at h
        cases h
        obtain ⟨p, x, hx, rfl⟩ := ih herror (ne_null_of_coerce herror)
        exact ⟨p, x, .item hmem hx, rfl⟩
    | _ => simp [coerce] at h

theorem Misfit.coerce {t : HostType} {v : Value} {p : Primitive} {x : Value}
    (h : Misfit t v p x) : ∃ e, coerce t v = .error e := by
  induction h with
  | @primitive p x hx =>
    have hv := ne_null_of_not_takes hx
    exact ⟨_, (coerce_primitive hv p).trans ((toPrimitive_eq_error_iff hv).2 ⟨hx, rfl⟩)⟩
  | @wrapper p x hx =>
    have hv := ne_null_of_not_takes hx
    refine ⟨mismatch x p, ?_⟩
    rw [coerce_named hv, Primitive.ofWrapper?_wrapper]
    exact (toPrimitive_eq_error_iff hv).2 ⟨hx, rfl⟩
  | @item t items v p x hv hx ih =>
    obtain ⟨e, he⟩ := ih
    rw [HostArgument.coerce]
    rcases mapM_cases (HostArgument.coerce t) items with ⟨as, -, hall⟩ | ⟨_, _, e', -, hitems⟩
    · obtain ⟨a, ha⟩ := hall v hv
      cases ha.symm.trans he
    · exact ⟨e', by rw [hitems]; rfl⟩

end HostArgument

/-! ### Types of values -/

namespace Value

theorem takes_of_hostType? {v : Value} {a : Primitive} (hv : v.hostType? = some (.primitive a))
    {p : Primitive} (hp : p = a ∨ a.widensTo p = true) : p.takes v = true := by
  cases v with
  | boolean b =>
    cases hv
    rcases hp with rfl | hp
    · rfl
    · cases hp
  | integer n =>
    simp only [Value.hostType?, Option.some.injEq, HostType.primitive.injEq] at hv
    subst hv
    revert hp
    split <;> cases p <;> simp [Primitive.takes, Primitive.widensTo, Primitive.widened]
  | float x =>
    cases hv
    rcases hp with rfl | hp
    · rfl
    · cases hp
  | _ => cases hv

theorem takes_of_oneCharacter {v : Value} (hv : (v.text?.any (·.length = 1)) = true) :
    Primitive.char.takes v = true := by
  cases v with
  | text s => simpa [Value.text?, Primitive.takes] using hv
  | _ => cases hv

/-- The value is of the primitive type, or of one that widens to it where the primitive type itself
is asked for, or it is a text of one character where a character is. -/
inductive Fits : (t : HostType) → (p : Primitive) → (x : Value) → Prop
  | exact {t : HostType} {p : Primitive} {x : Value} (hx : x.hostType? = some (.primitive p)) :
    Fits t p x
  | widened {p a : Primitive} {x : Value} (hx : x.hostType? = some (.primitive a))
    (ha : a.widensTo p = true) : Fits (.primitive p) p x
  | character {t : HostType} {x : Value} (hx : (x.text?.any (·.length = 1)) = true) :
    Fits t .char x

theorem Fits.takes {t : HostType} {p : Primitive} {x : Value} (h : Fits t p x) :
    p.takes x = true := by
  cases h with
  | exact hx => exact takes_of_hostType? hx (.inl rfl)
  | widened hx ha => exact takes_of_hostType? hx (.inr ha)
  | character hx => exact takes_of_oneCharacter hx

theorem hostTypes_eq_map (items : List Value) :
    hostTypes items = items.map hostType? := by
  induction items with
  | nil => rfl
  | cons v items ih => rw [hostTypes, ih, List.map_cons]

/-- An item has the type that the items of its list share, if they share one. -/
theorem hostType?_of_mem {items : List Value} {v : Value} (hv : v ∈ items) :
    v.hostType? = some (HostType.common (hostTypes items)) ∨
      HostType.common (hostTypes items) = .object := by
  rw [hostTypes_eq_map]
  cases items with
  | nil => cases hv
  | cons first rest =>
    rw [List.map_cons]
    cases hfirst : first.hostType? with
    | none => exact .inr rfl
    | some type =>
      rw [HostType.common]
      split
      next hall =>
        left
        rcases List.mem_cons.1 hv with rfl | hv
        · exact hfirst
        · simp only [List.all_map, List.all_eq_true, Function.comp_apply, decide_eq_true_eq] at hall
          exact hall v hv
      next => exact .inr rfl

end Value

/-! ### The places of a call -/

namespace Catalog
open HostArgument

variable {c : Catalog} {m : HostMethod} {arguments : List Value}

/-- Each argument with the type that it is coerced to. -/
def places (c : Catalog) (m : HostMethod) (arguments : List Value) : List (HostType × Value) :=
  match m.variadicElement? with
  | none => m.parameters.zip arguments
  | some element =>
    let fixed := m.parameters.dropLast
    let type := if c.isPacked m arguments then .array element else element
    fixed.zip arguments ++ (arguments.drop fixed.length).map ((type, ·))

/-- Preparing the arguments of a method fails as coercing them place by place does. -/
theorem prepare_eq_error_iff {e : ScriptError} :
    c.prepare m arguments = .error e ↔
      (c.places m arguments).mapM (fun (type, v) => coerce type v) = .error e := by
  rw [prepare, places]
  cases m.variadicElement? with
  | none => rfl
  | some element =>
    dsimp only
    rw [List.mapM_append]
    cases (m.parameters.dropLast.zip arguments).mapM fun (type, v) => coerce type v with
    | error e' => rfl
    | ok front =>
      cases c.isPacked m arguments with
      | true => rfl
      | false =>
        simp only [Bool.false_eq_true, if_false]
        cases ((arguments.drop m.parameters.dropLast.length).map ((element, ·))).mapM
          fun (type, v) => coerce type v with
        | error e' => rfl
        | ok items => simp [bind, Except.bind, pure, Except.pure]

theorem exists_misfit_of_prepare {e : ScriptError} (h : c.prepare m arguments = .error e) :
    ∃ place ∈ c.places m arguments, ∃ p x, Misfit place.1 place.2 p x ∧ mismatch x p = e := by
  rw [prepare_eq_error_iff] at h
  rcases mapM_cases (fun (type, v) => coerce type v) (c.places m arguments) with
    ⟨as, has, -⟩ | ⟨place, hplace, e', herror, he⟩
  · cases has.symm.trans h
  · cases he.symm.trans h
    exact ⟨place, hplace, exists_misfit_of_coerce herror⟩

theorem exists_prepare_eq_error {place : HostType × Value} (hplace : place ∈ c.places m arguments)
    {p : Primitive} {x : Value} (h : Misfit place.1 place.2 p x) :
    ∃ e, c.prepare m arguments = .error e := by
  obtain ⟨e, he⟩ := h.coerce
  rcases mapM_cases (fun (type, v) => coerce type v) (c.places m arguments) with
    ⟨as, -, hall⟩ | ⟨_, _, e', -, herror⟩
  · obtain ⟨a, ha⟩ := hall place hplace
    cases ha.symm.trans he
  · exact ⟨e', prepare_eq_error_iff.2 herror⟩

theorem penalty?_of_penalties? {pairs : List (HostType × Value)} {n : Nat}
    (h : c.penalties? pairs = some n) : ∀ place ∈ pairs, (c.penalty? place.1 place.2).isSome := by
  induction pairs generalizing n with
  | nil => simp
  | cons pair pairs ih =>
    obtain ⟨type, v⟩ := pair
    rw [penalties?] at h
    obtain ⟨first, hfirst, h⟩ := Option.bind_eq_some_iff.1 h
    obtain ⟨rest, hrest, -⟩ := Option.map_eq_some_iff.1 h
    intro place hplace
    rcases List.mem_cons.1 hplace with rfl | hplace
    · simp [hfirst]
    · exact ih hrest place hplace

theorem penalty?_of_isAssignable {type source : HostType} {v : Value}
    (hv : v.hostType? = some (.array source)) (h : c.isAssignable (.array type) (.array source)) :
    (c.penalty? (.array type) v).isSome := by
  rw [penalty?, hv]
  simp only [typePenalty?, h]
  split <;> rfl

theorem exists_of_isPacked {element : HostType} (hm : m.variadicElement? = some element)
    (h : c.isPacked m arguments = true) :
    ∃ last source, arguments.drop m.parameters.dropLast.length = [last] ∧
      last.hostType? = some (.array source) ∧
      c.isAssignable (.array element) (.array source) = true := by
  have harray : m.parameters.getLast? = some (.array element) := by
    unfold HostMethod.variadicElement? at hm
    split at hm
    · next heq => cases hm; exact heq
    · cases hm
  unfold isPacked at h
  rw [harray, Bool.and_eq_true, decide_eq_true_eq] at h
  obtain ⟨hlength, h⟩ := h
  split at h
  next array source harray' hsource =>
    cases harray'
    obtain ⟨last, hlast, htype⟩ := Option.bind_eq_some_iff.1 hsource
    obtain ⟨front, rfl⟩ := List.getLast?_eq_some_iff.1 hlast
    refine ⟨last, source, ?_, htype, h⟩
    have hfront : m.parameters.dropLast.length = front.length := by
      simp at hlength ⊢
      omega
    rw [hfront, List.drop_left]
  next => cases h

/-- A method that fits has a penalty for every place. -/
theorem penalty?_of_score? {s : Score} (h : c.score? m arguments = some s) :
    ∀ place ∈ c.places m arguments, (c.penalty? place.1 place.2).isSome := by
  rw [places]
  cases hm : m.variadicElement? with
  | none =>
    simp only [score?, hm, Option.ite_none_right_eq_some, Option.map_eq_some_iff] at h
    obtain ⟨-, n, hn, -⟩ := h
    exact penalty?_of_penalties? hn
  | some element =>
    simp only [score?, hm, Option.ite_none_left_eq_some, Option.bind_eq_some_iff] at h
    obtain ⟨-, base, hbase, h⟩ := h
    intro place hplace
    rcases List.mem_append.1 hplace with hfixed | hrest
    · exact penalty?_of_penalties? hbase place hfixed
    cases hpacked : c.isPacked m arguments with
    | true =>
      obtain ⟨last, source, hdrop, htype, hassignable⟩ := exists_of_isPacked hm hpacked
      rw [hpacked, if_pos rfl, hdrop] at hrest
      obtain rfl := List.mem_singleton.1 hrest
      exact penalty?_of_isAssignable htype hassignable
    | false =>
      rw [hpacked, if_neg Bool.false_ne_true] at h
      obtain ⟨packing, hpacking, -⟩ := Option.map_eq_some_iff.1 h
      rw [hpacked, if_neg Bool.false_ne_true] at hrest
      exact penalty?_of_penalties? hpacking place hrest

/-! ### The standard classes -/

/-- The standard classes are where they were; others may have been added. -/
def KeepsStandard (c : Catalog) : Prop :=
  ∀ k ∈ Host.standardClasses, c.supertypes k.name = k.supertypes

/-- The classes of the values that are neither primitive nor objects of the host, and what is above
them. -/
def valueClasses : List String :=
  ["Object", "CharSequence", "String", "Map", "Codeblock", "Task"]

theorem KeepsStandard.supertypes_subset (hc : c.KeepsStandard) {closed : List String}
    (h : ∀ name ∈ closed, ∃ k ∈ Host.standardClasses, k.name = name ∧ k.supertypes ⊆ closed) :
    ∀ name ∈ closed, c.supertypes name ⊆ closed := by
  intro name hname
  obtain ⟨k, hk, rfl, hsupertypes⟩ := h name hname
  rwa [hc k hk]

theorem KeepsStandard.not_isSubclass_wrapper (hc : c.KeepsStandard) {name : String}
    (hname : name ∈ valueClasses) (p : Primitive) : c.isSubclass name p.wrapper = false := by
  by_contra h
  have hmem : p.wrapper ∈ valueClasses :=
    mem_of_isSubclass (by decide) (hc.supertypes_subset (by decide)) hname (by simpa using h)
  revert hmem
  cases p <;> decide

theorem KeepsStandard.eq_of_isSubclass_wrapper (hc : c.KeepsStandard) {p q : Primitive}
    (h : c.isSubclass p.wrapper q.wrapper = true) : p = q := by
  have hclosed : ∀ name ∈ [p.wrapper, "Number", "Object"], ∃ k ∈ Host.standardClasses,
      k.name = name ∧ k.supertypes ⊆ [p.wrapper, "Number", "Object"] := by
    cases p <;> decide
  have hmem := mem_of_isSubclass (by simp [HostType.rootName]) (hc.supertypes_subset hclosed)
    (by simp) h
  revert hmem
  cases p <;> cases q <;> decide

/-! ### What penalties let through -/

theorem host_or_mem_valueClasses {v : Value} {name : String}
    (hv : v.hostType? = some (.named name)) :
    (∃ o, v = .host o ∧ o.className = name) ∨ name ∈ valueClasses := by
  cases v with
  | host o => cases hv; exact .inl ⟨o, rfl, rfl⟩
  | boolean b => cases hv
  | integer n => cases hv
  | float x => cases hv
  | list items => cases hv
  | null => cases hv
  | _ => cases hv; exact .inr (by decide)

/-- An object of the host whose class is at or below a wrapper. -/
def IsWrapped (c : Catalog) (x : Value) : Prop :=
  ∃ o q, x = .host o ∧ c.isSubclass o.className (Primitive.wrapper q) = true

theorem KeepsStandard.isWrapped (hc : c.KeepsStandard) {v : Value} {name : String}
    (hv : v.hostType? = some (.named name)) {q : Primitive}
    (h : c.isSubclass name q.wrapper = true) : c.IsWrapped v := by
  rcases host_or_mem_valueClasses hv with ⟨o, rfl, rfl⟩ | hname
  · exact ⟨o, q, rfl, h⟩
  · rw [hc.not_isSubclass_wrapper hname] at h
    cases h

theorem wrapper_ne_rootName (p : Primitive) : p.wrapper ≠ HostType.rootName := by
  cases p <;> decide

/-- Nothing is cast where `Object` is good enough. -/
theorem KeepsStandard.not_isAssignable_object (hc : c.KeepsStandard) {t : HostType} {v : Value}
    {p : Primitive} {x : Value} (h : Cast t v p x) : c.isAssignable t .object = false := by
  cases h with
  | primitive hx => rfl
  | @wrapper p x hx =>
    by_contra hassign
    rw [Bool.not_eq_false] at hassign
    have hsub := isSubclass_of_isAssignable hassign
    rw [hc.not_isSubclass_wrapper (by decide)] at hsub
    cases hsub
  | item hv hx => rfl

/-- What is cast where its type is good enough has the type that it is cast to, unless it is an
object at or below a wrapper. -/
theorem KeepsStandard.isWrapped_or_exact (hc : c.KeepsStandard) {t : HostType} {v : Value}
    {p : Primitive} {x : Value} (h : Cast t v p x) {type : HostType}
    (hv : v.hostType? = some type) (hassign : c.isAssignable t type = true) :
    c.IsWrapped x ∨ x.hostType? = some (.primitive p) := by
  induction h generalizing type with
  | @primitive p x hx =>
    cases type with
    | primitive a =>
      obtain rfl : p = a := by simpa [isAssignable] using hassign
      exact .inr hv
    | _ => cases hassign
  | @wrapper p x hx =>
    cases type with
    | primitive a => cases hassign
    | named name => exact .inl (hc.isWrapped hv (isSubclass_of_isAssignable hassign))
    | array element => exact absurd (of_decide_eq_true hassign) (wrapper_ne_rootName p)
  | @item t items v p x hmem hx ih =>
    cases hv
    have hitem : c.isAssignable t (HostType.common (Value.hostTypes items)) = true := by
      simp only [isAssignable, Bool.or_eq_true, decide_eq_true_eq, Bool.and_eq_true] at hassign
      rcases hassign with rfl | ⟨-, hassign⟩
      · exact c.isAssignable_refl _
      · exact hassign
    rcases Value.hostType?_of_mem hmem with hv | hobject
    · exact ih hv hitem
    · rw [hobject, hc.not_isAssignable_object hx] at hitem
      cases hitem

theorem typePenalty?_primitive {oneCharacter : Bool} {p : Primitive} {type : HostType}
    (h : (c.typePenalty? oneCharacter (.primitive p) type).isSome) :
    (∃ a, type = .primitive a ∧ (p = a ∨ a.widensTo p = true)) ∨
      (∃ q, type = .named (Primitive.wrapper q)) ∨ (p = .char ∧ oneCharacter = true) := by
  cases type with
  | primitive a =>
    refine .inl ⟨a, rfl, ?_⟩
    simp only [typePenalty?] at h
    split at h
    next heq => exact .inl heq
    next =>
      split at h
      next hwidens => exact .inr hwidens
      next => cases h
  | named name =>
    right
    simp only [typePenalty?] at h
    split at h
    next heq => exact .inl ⟨p, by rw [heq]⟩
    next =>
      split at h
      next hany =>
        obtain ⟨q, hq, -⟩ := (Option.any_eq_true _ _).1 hany
        exact .inl ⟨q, by rw [Primitive.eq_wrapper_of_ofWrapper? hq]⟩
      next =>
        split at h
        next hchar =>
          simp only [Bool.and_eq_true, decide_eq_true_eq] at hchar
          exact .inr ⟨hchar.1.1, hchar.2⟩
        next => cases h
  | array element => simp [typePenalty?, isAssignable] at h

theorem typePenalty?_wrapper {oneCharacter : Bool} {p : Primitive} {type : HostType}
    (h : (c.typePenalty? oneCharacter (.named p.wrapper) type).isSome) :
    (∃ a, type = .primitive a ∧ c.isSubclass a.wrapper p.wrapper = true) ∨
      (∃ name, type = .named name ∧ c.isSubclass name p.wrapper = true) ∨
      (p = .char ∧ oneCharacter = true) := by
  cases type with
  | primitive a =>
    refine .inl ⟨a, rfl, ?_⟩
    simp only [typePenalty?] at h
    split at h
    next heq => rw [heq]; exact c.isSubclass_self _
    next =>
      split at h
      next hsub => exact hsub
      next => cases h
  | named name =>
    right
    simp only [typePenalty?] at h
    split at h
    next heq => exact .inl ⟨name, rfl, by rw [heq]; exact c.isSubclass_self _⟩
    next =>
      split at h
      next hchar =>
        simp only [Bool.and_eq_true, decide_eq_true_eq] at hchar
        refine .inr ⟨?_, hchar.2⟩
        have := hchar.1
        revert this
        cases p <;> decide
      next =>
        split at h
        next hassign => exact .inl ⟨name, rfl, isSubclass_of_isAssignable hassign⟩
        next => cases h
  | array element => simp [typePenalty?, isAssignable, wrapper_ne_rootName] at h

/-- What is cast where the penalties let it through fits, unless it is an object at or below a
wrapper. -/
theorem KeepsStandard.isWrapped_or_fits (hc : c.KeepsStandard) {t : HostType} {v : Value}
    {p : Primitive} {x : Value} (h : Cast t v p x) (hpenalty : (c.penalty? t v).isSome) :
    c.IsWrapped x ∨ Value.Fits t p x := by
  rw [penalty?] at hpenalty
  cases h with
  | primitive hx =>
    cases hv : v.hostType? with
    | none => rw [hv] at hpenalty; cases hpenalty
    | some type =>
      rw [hv] at hpenalty
      rcases typePenalty?_primitive hpenalty with ⟨a, rfl, rfl | ha⟩ | ⟨q, rfl⟩ | ⟨rfl, hone⟩
      · exact .inr (.exact hv)
      · exact .inr (.widened hv ha)
      · exact .inl (hc.isWrapped hv (c.isSubclass_self _))
      · exact .inr (.character hone)
  | wrapper hx =>
    cases hv : v.hostType? with
    | none =>
      cases v with
      | null => exact absurd rfl hx
      | _ => cases hv
    | some type =>
      rw [hv] at hpenalty
      rcases typePenalty?_wrapper hpenalty with ⟨a, rfl, ha⟩ | ⟨name, rfl, hsub⟩ | ⟨rfl, hone⟩
      · rw [hc.eq_of_isSubclass_wrapper ha] at hv
        exact .inr (.exact hv)
      · exact .inl (hc.isWrapped hv hsub)
      · exact .inr (.character hone)
  | @item t items v p x hmem hx =>
    have hassign : c.isAssignable (.array t) (.array (HostType.common (Value.hostTypes items))) := by
      by_contra hassign
      simp only [Value.hostType?, typePenalty?, hassign] at hpenalty
      split at hpenalty
      next heq => exact hassign (heq ▸ c.isAssignable_refl _)
      next => cases hpenalty
    exact (hc.isWrapped_or_exact (.item hmem hx) rfl hassign).imp_right .exact

theorem KeepsStandard.isWrapped_of_penalty? (hc : c.KeepsStandard) {t : HostType} {v : Value}
    {p : Primitive} {x : Value} (h : Misfit t v p x) (hpenalty : (c.penalty? t v).isSome) :
    c.IsWrapped x := by
  obtain ⟨hcast, hx⟩ := h.cast
  refine (hc.isWrapped_or_fits hcast hpenalty).resolve_right fun hfits => ?_
  rw [hfits.takes] at hx
  cases hx

end Catalog

/-! ### The call -/

/-- How a method fails that is called with some arguments: by the fault that it gives, or that of
the block that it runs, or because the target is not of its class. -/
inductive Evaluation.HostFails (eval : Evaluator) (target : Value) (arguments : List HostArgument)
    (w : World) : HostAction → HostFault → World → Prop
  | compute {run : Array Block → Value → List HostArgument → Except HostFault Value}
    {fault : HostFault} (hrun : run w.blocks target arguments = .error fault) :
    HostFails eval target arguments w (.compute run) fault w
  | runBlock {id : Nat} {e : ScriptError} {w' : World} (htarget : target = .block id)
    (hrun : runBound eval id w = .failed e w') :
    HostFails eval target arguments w .runBlock (.failed e.trail) w'
  | notBlock (htarget : ∀ id, target ≠ .block id) :
    HostFails eval target arguments w .runBlock (Host.notOf "Codeblock" target) w
  | notTask (htarget : ∀ id, target ≠ .task id) :
    HostFails eval target arguments w .isAlive (Host.notOf "Task" target) w

theorem Evaluation.invoke_eq_failed_iff {eval : Evaluator} {hosts : Catalog} {target : Value}
    {method : String} {args : List Value} {call : Catalog.Call}
    (hresolve : hosts.resolve target method args = .ok call) {w w' : World} {e : ScriptError} :
    invoke eval hosts target method args w = .failed e w' ↔
      ∃ fault, HostFails eval target call.arguments w call.method.action fault w' ∧
        e = ⟨call.cause fault, []⟩ := by
  cases haction : call.method.action with
  | compute run =>
    rw [invoke_compute hresolve haction]
    cases hrun : run w.blocks target call.arguments with
    | ok v =>
      constructor
      · rintro ⟨⟩
      · rintro ⟨fault, ⟨hfault⟩, -⟩
        cases hrun.symm.trans hfault
    | error fault =>
      constructor
      · rintro ⟨⟩
        exact ⟨fault, .compute hrun, rfl⟩
      · rintro ⟨fault', ⟨hfault⟩, rfl⟩
        cases hrun.symm.trans hfault
        rfl
  | runBlock =>
    rw [invoke, hresolve]
    dsimp only
    rw [haction]
    cases target with
    | block id =>
      dsimp only
      constructor
      · cases hrun : runBound eval id w with
        | failed inner w₁ =>
          rintro ⟨⟩
          exact ⟨_, .runBlock rfl hrun, rfl⟩
        | _ => rintro ⟨⟩
      · rintro ⟨fault, hfails, rfl⟩
        cases hfails with
        | runBlock htarget hrun =>
          cases htarget
          rw [hrun]
        | notBlock htarget => exact absurd rfl (htarget id)
    | _ =>
      constructor
      · rintro ⟨⟩
        exact ⟨_, .notBlock (by simp), rfl⟩
      · rintro ⟨fault, hfails, rfl⟩
        cases hfails with
        | runBlock htarget hrun => cases htarget
        | notBlock htarget => rfl
  | isAlive =>
    rw [invoke, hresolve]
    dsimp only
    rw [haction]
    cases target with
    | task id =>
      constructor
      · rintro ⟨⟩
      · rintro ⟨fault, hfails, -⟩
        cases hfails with
        | notTask htarget => exact absurd rfl (htarget id)
    | _ =>
      constructor
      · rintro ⟨⟩
        exact ⟨_, .notTask (by simp), rfl⟩
      · rintro ⟨fault, hfails, rfl⟩
        cases hfails
        rfl

namespace Catalog
open HostArgument

/-- **What stands between the choice of an overload and its call.** The arguments of the chosen
method cannot be prepared exactly where one of them has a misfit inside, and the error names a
misfit with its type. In a catalog that keeps the standard classes every misfit is an object of the
host whose class is at or below a wrapper. Once the arguments are prepared, the call fails exactly
where the method itself does. -/
theorem prepare_of_select? {c : Catalog} {className method : String} {arguments : List Value}
    {m : HostMethod} (h : c.select? className method arguments = some m) :
    (∀ e, c.prepare m arguments = .error e → ∃ place ∈ c.places m arguments, ∃ p x,
      Misfit place.1 place.2 p x ∧ mismatch x p = e) ∧
    (∀ place ∈ c.places m arguments, ∀ p x, Misfit place.1 place.2 p x →
      (∃ e, c.prepare m arguments = .error e) ∧ (c.KeepsStandard → c.IsWrapped x)) ∧
    ∀ eval target as, target.hostClass? = some className → c.prepare m arguments = .ok as →
      ∀ w e w', Evaluation.invoke eval c target method arguments w = .failed e w' ↔
        ∃ fault, Evaluation.HostFails eval target as w m.action fault w' ∧
          e = ⟨Call.cause ⟨className, m, as⟩ fault, []⟩ := by
  refine ⟨fun e he => exists_misfit_of_prepare he, ?_, ?_⟩
  · intro place hplace p x hx
    refine ⟨exists_prepare_eq_error hplace hx, fun hc => ?_⟩
    obtain ⟨s, hs, -⟩ := exists_score_of_select? h
    exact hc.isWrapped_of_penalty? hx (penalty?_of_score? hs.score place hplace)
  · intro eval target as htarget has w e w'
    have hresolve : c.resolve target method arguments = .ok ⟨className, m, as⟩ := by
      rw [resolve, htarget]
      dsimp only
      rw [h]
      dsimp only
      rw [has]
      rfl
    exact Evaluation.invoke_eq_failed_iff hresolve

/-- A method that takes a wrapper, and fails. -/
def outOfOrder : HostMethod :=
  Host.method "f" [.named "Integer"] fun _ _ _ => .error (.failed "out of order")

/-- The standard classes, one below a wrapper, and one with the method. -/
def counters : Catalog :=
  (standard.add { name := "Count", supertypes := ["Integer"] }).add
    { name := "Calc", methods := [outOfOrder] }

theorem keepsStandard_counters : counters.KeepsStandard := by
  unfold KeepsStandard
  decide +kernel

theorem select?_counters :
    counters.select? "Calc" "f" [.host ⟨"Count", 0, 0⟩] = some outOfOrder := by
  with_unfolding_all rfl

/-- An object below the wrapper lets the method be chosen, and cannot be given to it. -/
theorem select?_then_prepare_eq_error :
    counters.select? "Calc" "f" [.host ⟨"Count", 0, 0⟩] = some outOfOrder ∧
      counters.prepare outOfOrder [.host ⟨"Count", 0, 0⟩] =
        .error (mismatch (.host ⟨"Count", 0, 0⟩) .int) ∧
      ∀ eval w, Evaluation.invoke eval counters (.host ⟨"Calc", 1, 0⟩) "f"
        [.host ⟨"Count", 0, 0⟩] w = .failed (mismatch (.host ⟨"Count", 0, 0⟩) .int) w := by
  refine ⟨select?_counters, rfl, fun eval w => ?_⟩
  with_unfolding_all rfl

/-- The object is what does not fit; with an integer, whatever fails is the method's own fault. -/
theorem prepare_of_select?_counters :
    counters.IsWrapped (.host ⟨"Count", 0, 0⟩) ∧
    ∀ eval w e w', Evaluation.invoke eval counters (.host ⟨"Calc", 1, 0⟩) "f" [.integer 5] w =
        .failed e w' ↔
      ∃ fault, Evaluation.HostFails eval (.host ⟨"Calc", 1, 0⟩) [.int 5] w outOfOrder.action
        fault w' ∧ e = ⟨Call.cause ⟨"Calc", outOfOrder, [.int 5]⟩ fault, []⟩ := by
  have hinteger : counters.select? "Calc" "f" [.integer 5] = some outOfOrder := rfl
  have hplace : (HostType.named "Integer", Value.host ⟨"Count", 0, 0⟩) ∈
      counters.places outOfOrder [.host ⟨"Count", 0, 0⟩] := List.mem_singleton.2 rfl
  have hmisfit : Misfit (.named Primitive.int.wrapper) (.host ⟨"Count", 0, 0⟩) .int
      (.host ⟨"Count", 0, 0⟩) := .wrapper rfl
  constructor
  · exact ((prepare_of_select? select?_counters).2.1 _ hplace _ _ hmisfit).2 keepsStandard_counters
  · intro eval
    exact (prepare_of_select? hinteger).2.2 eval (.host ⟨"Calc", 1, 0⟩) [.int 5] rfl rfl

end Catalog

end BraceScript
