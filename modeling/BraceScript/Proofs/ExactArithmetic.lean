import BraceScript.Command.Leaf

/-!
# Exact arithmetic

`Math` on integers computes with exact integers and refuses what it cannot give exactly. A step of
the fold *breaks* where it divides by zero, where its exact result is no 64-bit integer, and where
it takes the remainder of the least integer by -1 (`Operation.Breaks`). Steps are looked at one by
one: a sum that leaves the range is refused even if the next step would bring it back.

So a list of integers has one of two fates: all its steps are clear, and the result is the exact
fold; or there is a first step that breaks, and the command fails with the complaint of that step.
-/

namespace BraceScript
namespace Number
namespace Operation

/-! ### One step -/

/-- Is it the value of a 64-bit integer? -/
def Fits (r : Int) : Prop :=
  Int64.minValue.toInt ≤ r ∧ r ≤ Int64.maxValue.toInt

instance (r : Int) : Decidable (Fits r) :=
  inferInstanceAs (Decidable (_ ∧ _))

/-- The operation has no result on two integers: it divides by zero, its exact result does not fit,
or it is the one remainder whose quotient does not fit. -/
inductive Breaks (op : Operation) (x y : Int) : Prop
  | zeroDivisor (hop : op.divides = true) (hy : y = 0)
  | range (hr : ¬ Fits (op.exact x y))
  | remainder (hop : op = mod) (hx : x = Int64.minValue.toInt) (hy : y = -1)

/-- The complaint about a step that breaks. -/
def refusal (op : Operation) (y : Int) : Complaint :=
  if op.divides = true ∧ y = 0 then .zeroDivisor else .overflow op.name

variable {op : Operation} {x y : Int64}

/-- The quotient that does not fit breaks its step, and the remainder beside it does as well. -/
theorem breaks_least (hop : op.divides = true) : op.Breaks Int64.minValue.toInt (-1) := by
  cases op with
  | div => exact .range (by decide)
  | mod => exact .remainder rfl rfl rfl
  | _ => cases hop

/-- The tests of an operation, in the order in which they are made, told of integers. -/
theorem onIntegers_eq (op : Operation) (x y : Int64) :
    op.onIntegers x y =
      if op.divides = true ∧ y.toInt = 0 then .error .zeroDivisor
      else if op.divides = true ∧ x.toInt = Int64.minValue.toInt ∧ y.toInt = -1 then
        .error (.overflow op.name)
      else if Fits (op.exact x.toInt y.toInt) then .ok (.ofInt (op.exact x.toInt y.toInt))
      else .error (.overflow op.name) := by
  have hzero : y = 0 ↔ y.toInt = 0 := by
    rw [← Int64.toInt_inj, Int64.toInt_zero]
  have hleast : x = Int64.minValue ↔ x.toInt = Int64.minValue.toInt := Int64.toInt_inj.symm
  have hone : y = -1 ↔ y.toInt = -1 := by
    rw [← Int64.toInt_inj, show (-1 : Int64).toInt = -1 from rfl]
  have hfits : (Int64.minValue.toInt ≤ op.exact x.toInt y.toInt ∧
      op.exact x.toInt y.toInt ≤ Int64.maxValue.toInt) ↔ Fits (op.exact x.toInt y.toInt) := Iff.rfl
  simp only [onIntegers, hzero, hleast, hone, Bool.and_eq_true, decide_eq_true_eq, hfits, and_assoc]

theorem onIntegers_of_breaks (h : op.Breaks x.toInt y.toInt) :
    op.onIntegers x y = .error (op.refusal y.toInt) := by
  rw [onIntegers_eq, refusal]
  split
  · rfl
  · rename_i hzero
    split
    · rfl
    · rename_i hleast
      rw [if_neg]
      -- the other two ways to break have been ruled out
      cases h with
      | zeroDivisor hop hy => exact absurd ⟨hop, hy⟩ hzero
      | range hr => exact hr
      | remainder hop hx hy => exact absurd ⟨hop ▸ rfl, hx, hy⟩ hleast

theorem onIntegers_of_not_breaks (h : ¬ op.Breaks x.toInt y.toInt) :
    ∃ r : Int64, op.onIntegers x y = .ok r ∧ r.toInt = op.exact x.toInt y.toInt := by
  have hzero : ¬ (op.divides = true ∧ y.toInt = 0) := fun hz => h (.zeroDivisor hz.1 hz.2)
  have hleast : ¬ (op.divides = true ∧ x.toInt = Int64.minValue.toInt ∧ y.toInt = -1) := by
    rintro ⟨hop, hx, hy⟩
    rw [hx, hy] at h
    exact h (breaks_least hop)
  have hfits : Fits (op.exact x.toInt y.toInt) :=
    Decidable.byContradiction fun hr => h (.range hr)
  refine ⟨.ofInt (op.exact x.toInt y.toInt), ?_, ?_⟩
  · rw [onIntegers_eq, if_neg hzero, if_neg hleast, if_pos hfits]
  · have hless : op.exact x.toInt y.toInt < Int64.maxValue.toInt + 1 :=
      Int.lt_add_one_of_le hfits.2
    exact Int64.toInt_ofInt_of_le hfits.1 hless

/-! ### The fold -/

/-- The exact result of folding an operation over integers from the left. -/
def exactFold (op : Operation) (x : Int) (ys : List Int64) : Int :=
  ys.foldl (fun r y => op.exact r y.toInt) x

/-- No step of the fold breaks. -/
def Clear (op : Operation) (x : Int) (ys : List Int64) : Prop :=
  ∀ before y after, ys = before ++ y :: after → ¬ op.Breaks (op.exactFold x before) y.toInt

/-- The fold breaks, for the first time where it comes to `y`, after `before`. -/
structure FirstBreak (op : Operation) (x : Int) (ys before : List Int64) (y : Int64) : Prop where
  splits : ∃ after, ys = before ++ y :: after
  clear : op.Clear x before
  breaks : op.Breaks (op.exactFold x before) y.toInt

theorem clear_cons {x : Int} {y : Int64} {ys : List Int64} :
    op.Clear x (y :: ys) ↔ ¬ op.Breaks x y.toInt ∧ op.Clear (op.exact x y.toInt) ys := by
  constructor
  · intro h
    refine ⟨h [] y ys rfl, fun before z after hys => ?_⟩
    exact h (y :: before) z after (by rw [hys, List.cons_append])
  · rintro ⟨hy, hys⟩ before z after heq
    cases before with
    | nil =>
      obtain ⟨rfl, -⟩ := List.cons.inj heq
      exact hy
    | cons first before =>
      obtain ⟨rfl, htail⟩ := List.cons.inj heq
      exact hys before z after htail

/-- A fold that is not clear breaks for a first time. -/
theorem exists_firstBreak_iff {x : Int} {ys : List Int64} :
    (∃ before y, op.FirstBreak x ys before y) ↔ ¬ op.Clear x ys := by
  constructor
  · rintro ⟨before, y, ⟨after, hys⟩, -, hbreaks⟩ hclear
    exact hclear before y after hys hbreaks
  · intro h
    induction ys generalizing x with
    | nil =>
      refine absurd (fun before y after heq => ?_) h
      cases before <;> cases heq
    | cons y ys ih =>
      by_cases hy : op.Breaks x y.toInt
      · refine ⟨[], y, ⟨ys, rfl⟩, fun before z after heq => ?_, hy⟩
        cases before <;> cases heq
      · obtain ⟨before, z, ⟨after, rfl⟩, hclear, hbreaks⟩ :=
          ih fun hys => h (clear_cons.2 ⟨hy, hys⟩)
        exact ⟨y :: before, z, ⟨after, rfl⟩, clear_cons.2 ⟨hy, hclear⟩, hbreaks⟩

theorem ofName?_name (op : Operation) : ofName? op.name = some op := by
  cases op <;> decide

end Operation

open Operation

variable {op : Operation} {x y : Int64}

theorem fold_cons_of_ok {r : Int64} (h : op.onIntegers x y = .ok r) (vs : List Value) :
    fold op.name (int x) (.integer y :: vs) = fold op.name (int r) vs := by
  rw [fold, ofName?_name]
  show (op.onIntegers x y).map int >>= _ = _
  rw [h]
  rfl

theorem fold_cons_of_error {c : Complaint} (h : op.onIntegers x y = .error c) (vs : List Value) :
    fold op.name (int x) (.integer y :: vs) = .error c := by
  rw [fold, ofName?_name]
  show (op.onIntegers x y).map int >>= _ = _
  rw [h]
  rfl

theorem fold_of_clear {ys : List Int64} (h : op.Clear x.toInt ys) :
    ∃ r : Int64, fold op.name (int x) (ys.map .integer) = .ok (int r) ∧
      r.toInt = op.exactFold x.toInt ys := by
  induction ys generalizing x with
  | nil => exact ⟨x, rfl, rfl⟩
  | cons y ys ih =>
    obtain ⟨hy, hys⟩ := clear_cons.1 h
    obtain ⟨r, hr, hexact⟩ := onIntegers_of_not_breaks hy
    rw [← hexact] at hys
    obtain ⟨s, hs, hfold⟩ := ih hys
    refine ⟨s, ?_, by rw [hfold, hexact]; rfl⟩
    rw [List.map_cons, fold_cons_of_ok hr, hs]

theorem fold_of_firstBreak {ys before : List Int64} (h : op.FirstBreak x.toInt ys before y) :
    fold op.name (int x) (ys.map .integer) = .error (op.refusal y.toInt) := by
  obtain ⟨⟨after, rfl⟩, hclear, hbreaks⟩ := h
  -- the steps before `y` lead to the exact result so far, on which `y` breaks
  induction before generalizing x with
  | nil => exact fold_cons_of_error (onIntegers_of_breaks hbreaks) _
  | cons z before ih =>
    obtain ⟨hz, hbefore⟩ := clear_cons.1 hclear
    obtain ⟨r, hr, hexact⟩ := onIntegers_of_not_breaks hz
    rw [List.cons_append, List.map_cons, fold_cons_of_ok hr]
    refine ih ?_ ?_
    · rwa [hexact]
    · rw [hexact]
      exact hbreaks

end Number

namespace Leaf
open Number Number.Operation

theorem run_math (place : Place) (h : Handle) (op : Operation) (x y : Int64) (ys : List Int64)
    (w : World) :
    math.run place h (.text op.name :: (x :: y :: ys).map .integer) w =
      match fold op.name (int x) ((y :: ys).map .integer) with
      | .ok r => .done r.toValue w
      | .error c => .failed (.complaint "Math" c) w := by
  have hrun : math.run place h (.text op.name :: (x :: y :: ys).map .integer) w =
      (math.check (fold op.name (int x) ((y :: ys).map .integer)) >>= fun r => pure r.toValue) w :=
    rfl
  rw [hrun]
  cases fold op.name (int x) ((y :: ys).map .integer) <;> rfl

/-- `Math` on two or more integers is exact or refuses. Where no step breaks, its value is the
integer of the exact fold; where a step breaks, the first one that does decides how it fails, with
`division by zero` if it divides by zero and `integer overflow` in all other cases; and one of the
two always happens. The world stays as it was. -/
theorem math_exact_or_refused (place : Place) (h : Handle) (op : Operation) (x y : Int64)
    (ys : List Int64) (w : World) :
    (op.Clear x.toInt (y :: ys) →
      ∃ r : Int64, r.toInt = op.exactFold x.toInt (y :: ys) ∧
        math.run place h (.text op.name :: (x :: y :: ys).map .integer) w =
          .done (.integer r) w) ∧
    (∀ before z, op.FirstBreak x.toInt (y :: ys) before z →
      ∃ c : Complaint,
        math.run place h (.text op.name :: (x :: y :: ys).map .integer) w =
          .failed (.complaint "Math" c) w ∧
        c.text = if op.divides = true ∧ z.toInt = 0 then "division by zero"
          else "integer overflow in " ++ op.name) ∧
    (¬ op.Clear x.toInt (y :: ys) ↔ ∃ before z, op.FirstBreak x.toInt (y :: ys) before z) := by
  refine ⟨fun hclear => ?_, fun before z hbreak => ?_, exists_firstBreak_iff.symm⟩
  · obtain ⟨r, hr, hexact⟩ := fold_of_clear hclear
    refine ⟨r, hexact, ?_⟩
    rw [run_math, hr]
    rfl
  · refine ⟨op.refusal z.toInt, ?_, ?_⟩
    · rw [run_math, fold_of_firstBreak hbreak]
    · rw [refusal]
      split <;> rfl

/-- The greatest integer plus 1 minus 1 would fit, but the first step does not. -/
theorem math_exact_or_refused_thereAndBack :
    Fits (add.exactFold Int64.maxValue.toInt [1, -1]) ∧
    ∃ c : Complaint,
      math.run default { session := 0 } (.text "add" :: [Int64.maxValue, 1, -1].map .integer)
        (.start {}) = .failed (.complaint "Math" c) (.start {}) ∧
      c.text = "integer overflow in add" := by
  have hbreak : add.FirstBreak Int64.maxValue.toInt [1, -1] [] 1 := by
    refine ⟨⟨[-1], rfl⟩, fun before y after heq => ?_, .range (by decide)⟩
    cases before <;> cases heq
  have hmath := math_exact_or_refused default { session := 0 } add Int64.maxValue 1 [-1] (.start {})
  obtain ⟨c, hrun, htext⟩ := hmath.2.1 [] 1 hbreak
  exact ⟨by decide, c, hrun, htext⟩

end Leaf
end BraceScript
