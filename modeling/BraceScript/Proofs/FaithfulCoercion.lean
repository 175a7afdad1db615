import BraceScript.Proofs.PreparedCalls

/-!
# Coercion loses nothing

Coercion cuts numbers to the width of a primitive type, so an argument may reach a method changed.
Where the penalties let the argument through, it does not: what is cast has the primitive type that
it is cast to, is a text of one character where a character is asked for, or is an integer that is
widened (`Value.Fits`), and in none of these cases does the way back, `HostArgument.toValue`, give
another value. The exception is meant: an integer for a `float` or a `double` becomes that float,
and this happens to an argument itself only, never to the items of a list.

Main statement: `Catalog.coerce_of_penalty?`.
-/

namespace BraceScript

/-- There is an object of the host in the value, at some depth of lists. -/
inductive Value.HoldsObject : Value → Prop
  | object (o : HostObject) : HoldsObject (.host o)
  | item {items : List Value} {v : Value} (hv : v ∈ items) (h : HoldsObject v) :
    HoldsObject (.list items)

namespace Value

@[simp] theorem holdsObject_list {items : List Value} :
    (list items).HoldsObject ↔ ∃ v ∈ items, v.HoldsObject := by
  constructor
  · intro h
    cases h with
    | item hv h => exact ⟨_, hv, h⟩
  · rintro ⟨v, hv, h⟩
    exact .item hv h

@[simp] theorem not_holdsObject_integer (n : Int64) : ¬ (integer n).HoldsObject := by
  rintro ⟨⟩

end Value

namespace HostArgument
variable {t : HostType} {p : Primitive} {v x : Value}

theorem Cast.holdsObject (h : Cast t v p x) (hx : x.HoldsObject) : v.HoldsObject := by
  induction h with
  | primitive _ => exact hx
  | wrapper _ => exact hx
  | item hv _ ih => exact .item hv (ih hx)

/-- The value as a parameter of the type receives it: an integer becomes a float where a primitive
floating type is asked for. -/
def received : HostType → Value → Value
  | .primitive .double, .integer n => .float (.ofInt64 n)
  | .primitive .float, .integer n => .float (Single.ofDouble (.ofInt64 n)).toDouble
  | _, v => v

/-! ### There and back -/

theorem toInt64_toInt32 {n : Int64} (hleast : Int32.minValue.toInt ≤ n.toInt)
    (hmost : n.toInt ≤ Int32.maxValue.toInt) : n.toInt32.toInt64 = n := by
  have hmin : Int32.minValue.toInt = -2147483648 := rfl
  have hmax : Int32.maxValue.toInt = 2147483647 := rfl
  rw [← Int64.toInt_inj, Int32.toInt_toInt64, Int64.toInt_toInt32]
  exact Int.bmod_eq_of_le (by omega) (by omega)

theorem toValue_natural (v : Value) : (natural v).toValue = v := by
  cases v with
  | integer n =>
    rw [natural]
    split
    next hrange =>
      simp only [Bool.and_eq_true, decide_eq_true_eq] at hrange
      rw [toValue, toInt64_toInt32 hrange.1 hrange.2]
    next => rfl
  | _ => rfl

theorem toPrimitive_of_hostType? (hx : x.hostType? = some (.primitive p)) :
    ∃ a, toPrimitive x p = .ok a ∧ a.toValue = x := by
  cases x with
  | boolean b => cases hx; exact ⟨_, rfl, rfl⟩
  | float x => cases hx; exact ⟨_, rfl, rfl⟩
  | integer n =>
    simp only [Value.hostType?, Option.some.injEq, HostType.primitive.injEq] at hx
    -- an `int` is in the range that the cut to 32 bits keeps
    split at hx
    next hrange =>
      subst hx
      simp only [Bool.and_eq_true, decide_eq_true_eq] at hrange
      refine ⟨_, rfl, ?_⟩
      rw [ofNumber, toValue, toInt64_toInt32 hrange.1 hrange.2]
    next => subst hx; exact ⟨_, rfl, rfl⟩
  | _ => cases hx

theorem toPrimitive_of_widensTo {a : Primitive} (hx : x.hostType? = some (.primitive a))
    (ha : a.widensTo p = true) :
    ∃ b, toPrimitive x p = .ok b ∧ b.toValue = received (.primitive p) x := by
  cases x with
  | boolean b => cases hx; cases ha
  | float x => cases hx; cases ha
  | integer n =>
    have hwide : p = .long ∨ p = .float ∨ p = .double := by
      simp only [Value.hostType?, Option.some.injEq, HostType.primitive.injEq] at hx
      subst hx
      revert ha
      split <;> cases p <;> simp [Primitive.widensTo, Primitive.widened]
    rcases hwide with rfl | rfl | rfl <;> exact ⟨_, rfl, rfl⟩
  | _ => cases hx

theorem toPrimitive_of_oneCharacter (hx : (x.text?.any (·.length = 1)) = true) :
    ∃ a, toPrimitive x .char = .ok a ∧ a.toValue = x := by
  cases x with
  | text s =>
    have hlength : s.toList.length = 1 := by simpa [Value.text?, String.length_toList] using hx
    obtain ⟨c, hc⟩ := List.length_eq_one_iff.1 hlength
    have hs : s = String.singleton c := by rw [← String.ofList_toList (s := s), hc]; rfl
    refine ⟨.char c, ?_, by rw [toValue, hs]⟩
    simp only [toPrimitive, hc]
  | _ => cases hx

/-! ### What fits -/

theorem received_of_hostType? (hx : x.hostType? = some (.primitive p)) :
    received (.primitive p) x = x := by
  cases x with
  | integer n =>
    simp only [Value.hostType?, Option.some.injEq, HostType.primitive.injEq] at hx
    subst hx
    split <;> rfl
  | _ => cases p <;> rfl

theorem received_char (x : Value) : received (.primitive .char) x = x := rfl

end HostArgument

namespace Value.Fits
open HostArgument

variable {t : HostType} {p : Primitive} {x : Value}

theorem exists_toPrimitive (h : Fits t p x) :
    ∃ a, toPrimitive x p = .ok a ∧ a.toValue = received (.primitive p) x := by
  cases h with
  | exact hx => rw [received_of_hostType? hx]; exact toPrimitive_of_hostType? hx
  | widened hx ha => exact toPrimitive_of_widensTo hx ha
  | character hx => rw [received_char]; exact toPrimitive_of_oneCharacter hx

/-- Only where the primitive type itself is asked for does a value become another. -/
theorem received_eq (h : Fits t p x) (ht : t ≠ .primitive p) :
    received (.primitive p) x = x := by
  cases h with
  | exact hx => exact received_of_hostType? hx
  | widened hx ha => exact absurd rfl ht
  | character hx => exact received_char x

end Value.Fits

/-! ### Lists -/

namespace HostArgument
variable {t : HostType} {v : Value}

theorem mapM_eq_ok_of_toValue {f : Value → Except ScriptError HostArgument} {items : List Value}
    (h : ∀ v ∈ items, ∃ a, f v = .ok a ∧ a.toValue = v) :
    ∃ as, items.mapM f = .ok as ∧ toValues as = items := by
  induction items with
  | nil => exact ⟨[], rfl, rfl⟩
  | cons v items ih =>
    obtain ⟨a, ha, hvalue⟩ := h v (by simp)
    obtain ⟨as, has, hvalues⟩ := ih fun u hu => h u (by simp [hu])
    refine ⟨a :: as, ?_, by rw [toValues, hvalue, hvalues]⟩
    rw [List.mapM_cons, ha, has]
    rfl

/-- Where every cast can be made and undone, so can the coercion. -/
theorem coerce_of_cast
    (hcast : ∀ p x, Cast t v p x → ∃ a, toPrimitive x p = .ok a ∧ a.toValue = x) :
    ∃ a, coerce t v = .ok a ∧ a.toValue = v := by
  induction t generalizing v with
  | primitive p =>
    by_cases hv : v = .null
    · subst hv; exact ⟨.null, by rw [coerce], rfl⟩
    · rw [coerce_primitive hv]
      exact hcast p v (.primitive hv)
  | named name =>
    by_cases hv : v = .null
    · subst hv; exact ⟨.null, by rw [coerce], rfl⟩
    rw [coerce_named hv]
    cases hname : Primitive.ofWrapper? name with
    | none => exact ⟨_, rfl, toValue_natural v⟩
    | some p =>
      obtain rfl := Primitive.eq_wrapper_of_ofWrapper? hname
      exact hcast p v (.wrapper hv)
  | array t ih =>
    cases v with
    | null => exact ⟨.null, by rw [coerce], rfl⟩
    | list items =>
      have hitems : ∀ u ∈ items, ∃ a, coerce t u = .ok a ∧ a.toValue = u := fun u hu =>
        ih fun p x hx => hcast p x (.item hu hx)
      obtain ⟨as, has, hvalues⟩ := mapM_eq_ok_of_toValue hitems
      refine ⟨.array as, ?_, by rw [toValue, hvalues]⟩
      rw [coerce, has]
      rfl
    | _ => exact ⟨_, rfl, toValue_natural _⟩

end HostArgument

namespace Catalog
open HostArgument

/-- In a catalog that keeps the standard classes, a value without objects of the host that has a
penalty for a parameter can be coerced to the type of the parameter, and the argument stands for the
same value, but for an integer that becomes a float. All that is cut to the width of a `byte`, a
`short`, an `int` or a `char` on the way is left as it is by that. -/
theorem coerce_of_penalty? {c : Catalog} (hc : c.KeepsStandard) {t : HostType} {v : Value}
    (hv : ¬ v.HoldsObject) (hpenalty : (c.penalty? t v).isSome) :
    (∃ a, coerce t v = .ok a ∧ a.toValue = received t v) ∧
    ∀ p x, Cast t v p x → p ∈ [.byte, .short, .int, .char] →
      ∃ a, toPrimitive x p = .ok a ∧ a.toValue = x := by
  have hfits : ∀ p x, Cast t v p x → Value.Fits t p x := by
    intro p x hcast
    refine (hc.isWrapped_or_fits hcast hpenalty).resolve_left ?_
    rintro ⟨o, _, rfl, _⟩
    exact hv (hcast.holdsObject (.object o))
  constructor
  · cases t with
    | primitive p =>
      have hne : v ≠ .null := by rintro rfl; cases hpenalty
      rw [coerce_primitive hne]
      exact (hfits p v (.primitive hne)).exists_toPrimitive
    | _ =>
      refine coerce_of_cast fun p x hcast => ?_
      have hreceived := (hfits p x hcast).received_eq (by simp)
      have hcasted := (hfits p x hcast).exists_toPrimitive
      rwa [hreceived] at hcasted
  · intro p x hcast hp
    have hreceived : received (.primitive p) x = x := by
      simp only [List.mem_cons, List.not_mem_nil, or_false] at hp
      rcases hp with rfl | rfl | rfl | rfl <;> rfl
    have hcasted := (hfits p x hcast).exists_toPrimitive
    rwa [hreceived] at hcasted

/-- Rows of different lengths, with the least `int` in one. -/
def raggedRows : Value :=
  .list [.list [.integer 5, .integer (-2147483648)], .list [.integer 0], .list [.integer 7]]

theorem coerce_of_penalty?_raggedRows :
    (∃ a, coerce (.array (.array (.primitive .int))) raggedRows = .ok a ∧
      a.toValue = raggedRows) ∧
    ∃ a, coerce (.primitive .float) (.integer 16777217) = .ok a ∧
      a.toValue = received (.primitive .float) (.integer 16777217) := by
  have hrows : ¬ raggedRows.HoldsObject := by simp [raggedRows]
  exact ⟨(coerce_of_penalty? keepsStandard_counters hrows (by rfl)).1,
    (coerce_of_penalty? keepsStandard_counters (by simp) (by rfl)).1⟩

end Catalog
end BraceScript
