import BraceScript.Program
import BraceScript.Proofs.Events
import BraceScript.Proofs.Limits

/-!
# The course of a loop

A loop that comes to an end has made some passes and then a last round. In a pass the session is
live, the condition holds, and the body gives a value; the condition is evaluated in the world that
the pass before has left, and the body in the world that the condition leaves. After every pass
whose number is a multiple of `patience` the launched lines that wait, if there are any, have their
turn. The last round is the one that ends the loop: the session is terminated, or the condition does
not hold, or it fails, or the body fails, or the program exits.

A `Loop.Course` is such a chain of worlds. The runs of a loop that end are those that have a course
(`Engine.execute_loop`): what is evaluated is found by the course alone, so that there is nothing
else that a loop evaluates, and of the fuel only that it is enough.
-/

namespace BraceScript

namespace Evaluation

/-! ### Passes and last rounds -/

/-- The parts of a loop, with what evaluates its lines and what runs the launched lines. -/
structure Loop where
  eval : Evaluator
  waiting : Script Unit
  handle : Handle
  condition : Value
  body : String

namespace Loop

/-- The condition, evaluated once. -/
def test (l : Loop) : Script Bool :=
  Evaluation.test l.eval l.handle l.condition

/-- After some passes the launched lines that wait, if there are any, have their turn. -/
def turn (l : Loop) (number : Nat) : Script Unit :=
  fun w => if number % patience = 0 ∧ w.hasWaiting = true then l.waiting w else .done () w

/-- The pass with a number leads from a world to another. -/
inductive IsPass (l : Loop) (number : Nat) : World → World → Prop
  | mk {w w₁ w₂ w' : World} {v : Value} (hlive : w.ending l.handle.session = none)
    (htest : l.test w = .done true w₁) (hbody : l.eval l.handle l.body w₁ = .done v w₂)
    (hturn : l.turn number w₂ = .done () w') : IsPass l number w w'

/-- The round with a number, from a world, is the last one and ends the loop in some way. -/
inductive IsLast (l : Loop) (number : Nat) (w : World) : Outcome Value → Prop
  | terminated {v : Value} (hended : w.ending l.handle.session = some v) :
    IsLast l number w (.done .null w)
  | notHolding {w₁ : World} (hlive : w.ending l.handle.session = none)
    (htest : l.test w = .done false w₁) : IsLast l number w (.done .null w₁)
  | testFailed {e : ScriptError} {w₁ : World} (hlive : w.ending l.handle.session = none)
    (htest : l.test w = .failed e w₁) : IsLast l number w (.failed e w₁)
  | bodyFailed {e : ScriptError} {w₁ w₂ : World} (hlive : w.ending l.handle.session = none)
    (htest : l.test w = .done true w₁) (hbody : l.eval l.handle l.body w₁ = .failed e w₂) :
    IsLast l number w (.failed (e.within .body) w₂)
  | testExited {code : Int32} {w₁ : World} (hlive : w.ending l.handle.session = none)
    (htest : l.test w = .exited code w₁) : IsLast l number w (.exited code w₁)
  | bodyExited {code : Int32} {w₁ w₂ : World} (hlive : w.ending l.handle.session = none)
    (htest : l.test w = .done true w₁) (hbody : l.eval l.handle l.body w₁ = .exited code w₂) :
    IsLast l number w (.exited code w₂)
  | turnExited {code : Int32} {v : Value} {w₁ w₂ w₃ : World}
    (hlive : w.ending l.handle.session = none) (htest : l.test w = .done true w₁)
    (hbody : l.eval l.handle l.body w₁ = .done v w₂)
    (hturn : l.turn number w₂ = .exited code w₃) : IsLast l number w (.exited code w₃)

/-- From a world, with the pass of a number first, the loop makes `k` passes, where `s j` is the
world after `j` of them, and then its last round. -/
structure Course (l : Loop) (number : Nat) (w : World) (k : Nat) (s : Nat → World)
    (o : Outcome Value) : Prop where
  start : s 0 = w
  passes : ∀ j < k, l.IsPass (number + j) (s j) (s (j + 1))
  last : l.IsLast (number + k) (s k) o

/-- The world first, and then the others. -/
def prepend (w : World) (s : Nat → World) : Nat → World
  | 0 => w
  | j + 1 => s j

namespace Course
variable {l : Loop} {number k : Nat} {w w' : World} {s : Nat → World} {o : Outcome Value}

theorem nil (hlast : l.IsLast number w o) : l.Course number w 0 (fun _ => w) o where
  start := rfl
  passes j hj := absurd hj j.not_lt_zero
  last := hlast

theorem cons (hpass : l.IsPass number w w') (hrest : l.Course (number + 1) w' k s o) :
    l.Course number w (k + 1) (prepend w s) o where
  start := rfl
  passes j hj := by
    cases j with
    | zero =>
      rw [prepend, prepend, hrest.start]
      exact hpass
    | succ j =>
      have := hrest.passes j (by omega)
      rwa [Nat.add_right_comm] at this
  last := by
    have := hrest.last
    rwa [Nat.add_right_comm] at this

theorem head (hcourse : l.Course number w (k + 1) s o) : l.IsPass number w (s 1) := by
  have := hcourse.passes 0 (by omega)
  rwa [hcourse.start] at this

theorem tail (hcourse : l.Course number w (k + 1) s o) :
    l.Course (number + 1) (s 1) k (fun j => s (j + 1)) o where
  start := rfl
  passes j hj := by
    rw [Nat.add_right_comm]
    exact hcourse.passes (j + 1) (by omega)
  last := by
    rw [Nat.add_right_comm]
    exact hcourse.last

theorem last_of_zero (hcourse : l.Course number w 0 s o) : l.IsLast number w o := by
  have := hcourse.last
  rwa [hcourse.start] at this

end Course

/-! ### The loop round by round -/

/-- The loop from the pass with a number on. -/
def rounds (l : Loop) (number fuel : Nat) : Script Value := do
  Evaluation.passes l.handle l.test (pass l.eval l.waiting l.handle l.body) number fuel
  return .null

/-- The launched lines do nothing where none waits, and no error of theirs shows. -/
structure IsQuiet (waiting : Script Unit) : Prop where
  idle {w : World} : w.hasWaiting = false → waiting w = .done () w
  ne_failed (w : World) (e : ScriptError) (w' : World) : waiting w ≠ .failed e w'

theorem isQuiet_settle (eval : Evaluator) (fuel : Nat) : IsQuiet (settle eval fuel) where
  idle hwaits := settle_of_not_hasWaiting hwaits eval fuel
  ne_failed := settle_ne_failed eval fuel

section
variable {l : Loop} (hquiet : IsQuiet l.waiting) {number : Nat} {w w' : World} {o : Outcome Value}
include hquiet

theorem pass_eq (number : Nat) :
    pass l.eval l.waiting l.handle l.body number = do
      let v ← (l.eval l.handle l.body).within .body
      l.turn number
      return v := by
  have hturn : (if number % patience = 0 then l.waiting else pure ()) = l.turn number := by
    funext w
    rw [turn]
    by_cases hnumber : number % patience = 0
    · cases hwaits : w.hasWaiting with
      | true => simp [hnumber]
      | false => simp [hnumber, hquiet.idle hwaits]
    · simp [hnumber]
  rw [← hturn]
  unfold pass
  by_cases hnumber : number % patience = 0
  · simp [hnumber]
  · simp [hnumber]

theorem rounds_succ (number fuel : Nat) :
    l.rounds number (fuel + 1) = do
      if ← Script.read fun w => (w.ending l.handle.session).isSome then return .null
      else if ← l.test then
        let _ ← (l.eval l.handle l.body).within .body
        l.turn number
        l.rounds (number + 1) fuel
      else return .null := by
  rw [rounds, Evaluation.passes, bind_assoc]
  congr 1
  funext ended
  cases ended with
  | true => simp
  | false =>
    simp only [Bool.false_eq_true, if_false, bind_assoc]
    congr 1
    funext holds
    cases holds with
    | false => simp
    | true => simp only [pass_eq hquiet, if_true, bind_assoc, pure_bind, rounds]

theorem turn_ne_failed (number : Nat) (w : World) (e : ScriptError) (w' : World) :
    l.turn number w ≠ .failed e w' := by
  rw [turn]
  split
  · exact hquiet.ne_failed w e w'
  · simp

theorem IsPass.rounds_succ (hpass : l.IsPass number w w') (fuel : Nat) :
    l.rounds number (fuel + 1) w = l.rounds (number + 1) fuel w' := by
  obtain ⟨hlive, htest, hbody, hturn⟩ := hpass
  simp [Loop.rounds_succ hquiet, hlive, htest, hbody, hturn]

theorem IsLast.rounds_succ (hlast : l.IsLast number w o) (fuel : Nat) :
    l.rounds number (fuel + 1) w = o := by
  cases hlast with
  | terminated hended => simp [Loop.rounds_succ hquiet, hended]
  | notHolding hlive htest => simp [Loop.rounds_succ hquiet, hlive, htest]
  | testFailed hlive htest => simp [Loop.rounds_succ hquiet, hlive, htest]
  | bodyFailed hlive htest hbody => simp [Loop.rounds_succ hquiet, hlive, htest, hbody]
  | testExited hlive htest => simp [Loop.rounds_succ hquiet, hlive, htest]
  | bodyExited hlive htest hbody => simp [Loop.rounds_succ hquiet, hlive, htest, hbody]
  | turnExited hlive htest hbody hturn =>
    simp [Loop.rounds_succ hquiet, hlive, htest, hbody, hturn]

/-- A round is a pass, or the last one, or is given too little. -/
theorem round_cases (number : Nat) (w : World) :
    (∃ w', l.IsPass number w w') ∨ (∃ o, l.IsLast number w o) ∨
      ∀ fuel, ∃ w', l.rounds number (fuel + 1) w = .exhausted w' := by
  -- the case split goes on where the round does: past a live session, a condition that holds, and
  -- a body with a value
  cases hended : w.ending l.handle.session with
  | some v => exact .inr (.inl ⟨_, .terminated hended⟩)
  | none =>
  cases htest : l.test w with
  | failed e w₁ => exact .inr (.inl ⟨_, .testFailed hended htest⟩)
  | exited code w₁ => exact .inr (.inl ⟨_, .testExited hended htest⟩)
  | exhausted w₁ =>
    exact .inr (.inr fun fuel => ⟨w₁, by simp [Loop.rounds_succ hquiet, hended, htest]⟩)
  | done holds w₁ =>
  cases holds with
  | false => exact .inr (.inl ⟨_, .notHolding hended htest⟩)
  | true =>
  cases hbody : l.eval l.handle l.body w₁ with
  | failed e w₂ => exact .inr (.inl ⟨_, .bodyFailed hended htest hbody⟩)
  | exited code w₂ => exact .inr (.inl ⟨_, .bodyExited hended htest hbody⟩)
  | exhausted w₂ =>
    exact .inr (.inr fun fuel => ⟨w₂, by simp [Loop.rounds_succ hquiet, hended, htest, hbody]⟩)
  | done v w₂ =>
  cases hturn : l.turn number w₂ with
  | done u w₃ => exact .inl ⟨w₃, hended, htest, hbody, hturn⟩
  | failed e w₃ => exact absurd hturn (turn_ne_failed hquiet number w₂ e w₃)
  | exited code w₃ => exact .inr (.inl ⟨_, .turnExited hended htest hbody hturn⟩)
  | exhausted w₃ =>
    exact .inr (.inr fun fuel =>
      ⟨w₃, by simp [Loop.rounds_succ hquiet, hended, htest, hbody, hturn]⟩)

/-- A loop that ends has a course, of fewer passes than it was given. -/
theorem exists_course {fuel : Nat} (hrun : l.rounds number fuel w = o)
    (hended : ∀ w', o ≠ .exhausted w') : ∃ k s, k < fuel ∧ l.Course number w k s o := by
  induction fuel generalizing number w with
  | zero => exact absurd hrun.symm (hended w)
  | succ fuel ih =>
    rcases round_cases hquiet number w with ⟨w', hpass⟩ | ⟨o', hlast⟩ | hexhausted
    · rw [hpass.rounds_succ hquiet] at hrun
      obtain ⟨k, s, hk, hcourse⟩ := ih hrun
      exact ⟨k + 1, prepend w s, by omega, .cons hpass hcourse⟩
    · rw [hlast.rounds_succ hquiet] at hrun
      exact ⟨0, fun _ => w, by omega, .nil (hrun ▸ hlast)⟩
    · obtain ⟨w', hrun'⟩ := hexhausted fuel
      exact absurd (hrun.symm.trans hrun') (hended w')

/-- A course is the run of the loop, where there is fuel for its passes and the last round. -/
theorem Course.rounds_eq {k fuel : Nat} {s : Nat → World} (hcourse : l.Course number w k s o)
    (hk : k < fuel) : l.rounds number fuel w = o := by
  obtain ⟨fuel, rfl⟩ := Nat.exists_eq_add_one_of_ne_zero (Nat.ne_zero_of_lt hk)
  induction k generalizing number w s fuel with
  | zero => exact hcourse.last_of_zero.rounds_succ hquiet fuel
  | succ k ih =>
    have hk' : k < fuel := Nat.lt_of_succ_lt_succ hk
    obtain ⟨fuel, rfl⟩ := Nat.exists_eq_add_one_of_ne_zero (Nat.ne_zero_of_lt hk')
    rw [hcourse.head.rounds_succ hquiet]
    exact ih hcourse.tail fuel hk'

end

/-! ### What happens in a loop -/

section
variable (l : Loop) (log : Logger) (waitingLog : Log)

/-- The events of a round that finds the session live. -/
def roundLog (number : Nat) : Log :=
  (deferredLog log l.handle l.condition).andThen l.test fun holds =>
    if holds then passLog l.eval log waitingLog l.handle l.body number else .nothing

/-- The events of a course: those of its passes one after another, and of the last round. -/
def courseLog (number k : Nat) (s : Nat → World) : List Event :=
  (List.range k).flatMap (fun j => l.roundLog log waitingLog (number + j) (s j)) ++
    if ((s k).ending l.handle.session).isSome then []
    else l.roundLog log waitingLog (number + k) (s k)

/-- The events of the loop from the pass with a number on. -/
def roundsLog (number fuel : Nat) : Log :=
  passesLog l.handle l.test (deferredLog log l.handle l.condition)
    (pass l.eval l.waiting l.handle l.body) (passLog l.eval log waitingLog l.handle l.body) number
    fuel

end

section
variable {l : Loop} (hquiet : IsQuiet l.waiting) (log : Logger) (waitingLog : Log) {number : Nat}
  {w w' : World} {o : Outcome Value}
include hquiet

theorem IsPass.roundsLog_succ (hpass : l.IsPass number w w') (fuel : Nat) :
    l.roundsLog log waitingLog number (fuel + 1) w =
      l.roundLog log waitingLog number w ++ l.roundsLog log waitingLog (number + 1) fuel w' := by
  obtain ⟨hlive, htest, hbody, hturn⟩ := hpass
  simp [-bind_pure_comp, roundsLog, roundLog, passesLog, Log.andThen, pass_eq hquiet, hlive, htest,
    hbody, hturn]

theorem IsLast.roundsLog_succ (hlast : l.IsLast number w o) (fuel : Nat) :
    l.roundsLog log waitingLog number (fuel + 1) w =
      if (w.ending l.handle.session).isSome then [] else l.roundLog log waitingLog number w := by
  -- where the condition holds, the body or the turn after it does not come to its end
  cases hlast with
  | terminated hended => simp [roundsLog, passesLog, hended]
  | notHolding hlive htest => simp [roundsLog, roundLog, passesLog, Log.andThen, hlive, htest]
  | testFailed hlive htest => simp [roundsLog, roundLog, passesLog, Log.andThen, hlive, htest]
  | testExited hlive htest => simp [roundsLog, roundLog, passesLog, Log.andThen, hlive, htest]
  | bodyFailed hlive htest hbody =>
    simp [roundsLog, roundLog, passesLog, Log.andThen, pass_eq hquiet, hlive, htest, hbody]
  | bodyExited hlive htest hbody =>
    simp [roundsLog, roundLog, passesLog, Log.andThen, pass_eq hquiet, hlive, htest, hbody]
  | turnExited hlive htest hbody hturn =>
    simp [-bind_pure_comp, roundsLog, roundLog, passesLog, Log.andThen, pass_eq hquiet, hlive, htest,
      hbody, hturn]

theorem Course.roundsLog_eq {k fuel : Nat} {s : Nat → World} (hcourse : l.Course number w k s o)
    (hk : k < fuel) :
    l.roundsLog log waitingLog number fuel w = l.courseLog log waitingLog number k s := by
  obtain ⟨fuel, rfl⟩ := Nat.exists_eq_add_one_of_ne_zero (Nat.ne_zero_of_lt hk)
  induction k generalizing number w s fuel with
  | zero =>
    rw [hcourse.last_of_zero.roundsLog_succ hquiet, courseLog, hcourse.start]
    rfl
  | succ k ih =>
    have hk' : k < fuel := Nat.lt_of_succ_lt_succ hk
    obtain ⟨fuel, rfl⟩ := Nat.exists_eq_add_one_of_ne_zero (Nat.ne_zero_of_lt hk')
    have hrest := ih hcourse.tail fuel hk'
    rw [hcourse.head.roundsLog_succ hquiet, hrest, courseLog, courseLog, List.range_succ_eq_map,
      List.flatMap_cons, List.flatMap_map, hcourse.start, List.append_assoc]
    simp only [Nat.add_right_comm number 1, Nat.add_zero, Nat.add_assoc]

end

end Loop

/-- What is wrong with a condition that is no boolean, or gives none. -/
def conditionComplaint (condition v : Value) : Complaint :=
  match condition with
  | .text _ => .conditionResult v.typeName
  | _ => .loopCondition v.typeName

theorem test_eq (eval : Evaluator) (h : Handle) (condition : Value) (w : World) :
    test eval h condition w =
      match deferred eval h condition w with
      | .done (.boolean b) w' => .done b w'
      | .done v w' => .failed (.complaint "While" (conditionComplaint condition v)) w'
      | .failed e w' => .failed (e.within .condition) w'
      | .exited code w' => .exited code w'
      | .exhausted w' => .exhausted w' := by
  cases condition with
  | text raw =>
    rw [test, Script.bind_apply, Script.within_apply]
    cases deferred eval h (.text raw) w with
    | done v w₁ => cases v <;> rfl
    | _ => rfl
  | _ => rfl

end Evaluation

namespace Engine
open Evaluation
open Script (UnlessExhausted)

/-- A loop as the engine runs it. -/
def loop (engine : Engine) (fuel levels : Nat) (h : Handle) (condition : Value) (body : String) :
    Loop where
  eval := engine.evaluate fuel levels
  waiting := engine.waiting fuel
  handle := h
  condition := condition
  body := body

theorem isQuiet_waiting (engine : Engine) (fuel : Nat) : Loop.IsQuiet (engine.waiting fuel) := by
  cases fuel with
  | zero => exact Loop.isQuiet_settle _ _
  | succ fuel => exact Loop.isQuiet_settle _ _

/-! ### More fuel -/

section
variable {engine : Engine} {fuel fuel' levels : Nat} {h : Handle} {condition : Value}
  {body : String} {number k : Nat} {w w' : World} {s : Nat → World} {o : Outcome Value}

theorem loop_test_unlessExhausted (hle : fuel ≤ fuel') :
    (engine.loop fuel levels h condition body).test.UnlessExhausted
      (engine.loop fuel' levels h condition body).test :=
  test_congr UnlessExhausted.isCongruence (engine.evaluate_unlessExhausted hle levels) h condition

theorem loop_turn_unlessExhausted (hle : fuel ≤ fuel') (number : Nat) :
    ((engine.loop fuel levels h condition body).turn number).UnlessExhausted
      ((engine.loop fuel' levels h condition body).turn number) := by
  intro w
  rw [Loop.turn, Loop.turn]
  split
  · exact engine.waiting_unlessExhausted hle w
  · exact .inr rfl

theorem isPass_of_le (hle : fuel ≤ fuel')
    (hpass : (engine.loop fuel levels h condition body).IsPass number w w') :
    (engine.loop fuel' levels h condition body).IsPass number w w' := by
  obtain ⟨hlive, htest, hbody, hturn⟩ := hpass
  exact ⟨hlive, (loop_test_unlessExhausted hle).eq_of_ne htest (by simp),
    (engine.evaluate_unlessExhausted hle levels h body).eq_of_ne hbody (by simp),
    (loop_turn_unlessExhausted hle number).eq_of_ne hturn (by simp)⟩

theorem isLast_of_le (hle : fuel ≤ fuel')
    (hlast : (engine.loop fuel levels h condition body).IsLast number w o) :
    (engine.loop fuel' levels h condition body).IsLast number w o := by
  have htests : (engine.loop fuel levels h condition body).test.UnlessExhausted
      (engine.loop fuel' levels h condition body).test := loop_test_unlessExhausted hle
  have hbodies := engine.evaluate_unlessExhausted hle levels h body
  cases hlast with
  | terminated hended => exact .terminated hended
  | notHolding hlive htest => exact .notHolding hlive (htests.eq_of_ne htest (by simp))
  | testFailed hlive htest => exact .testFailed hlive (htests.eq_of_ne htest (by simp))
  | testExited hlive htest => exact .testExited hlive (htests.eq_of_ne htest (by simp))
  | bodyFailed hlive htest hbody =>
    exact .bodyFailed hlive (htests.eq_of_ne htest (by simp)) (hbodies.eq_of_ne hbody (by simp))
  | bodyExited hlive htest hbody =>
    exact .bodyExited hlive (htests.eq_of_ne htest (by simp)) (hbodies.eq_of_ne hbody (by simp))
  | turnExited hlive htest hbody hturn =>
    exact .turnExited hlive (htests.eq_of_ne htest (by simp)) (hbodies.eq_of_ne hbody (by simp))
      ((loop_turn_unlessExhausted hle number).eq_of_ne hturn (by simp))

/-- What ends within some fuel does so with more, so a course stays one. -/
theorem course_of_le (hle : fuel ≤ fuel')
    (hcourse : (engine.loop fuel levels h condition body).Course number w k s o) :
    (engine.loop fuel' levels h condition body).Course number w k s o where
  start := hcourse.start
  passes j hj := isPass_of_le hle (hcourse.passes j hj)
  last := isLast_of_le hle hcourse.last

end

/-- A loop is the iteration of its condition and its body. Where a run of it ends, it has a course
of passes and a last round; and every course, at whatever fuel its parts end, is the run of the loop
with all fuel from there on that is more than its passes, and what happens in the run is what
happens in the rounds of the course. The condition holds or does not as its evaluation gives a
boolean, and fails where that fails or gives anything else. -/
theorem execute_loop (engine : Engine) (levels : Nat) (h : Handle) (condition first : Value)
    (rest : List Value) (w : World) :
    (∀ fuel o, execute engine fuel (engine.waiting fuel) (engine.evaluate fuel levels) h
        (.control .loop) (condition :: first :: rest) w = o → (∀ w', o ≠ .exhausted w') →
      ∃ k s, k < fuel ∧
        (engine.loop fuel levels h condition (w.joinSource (first :: rest))).Course 1 w k s o) ∧
    (∀ fuel k s o,
      (engine.loop fuel levels h condition (w.joinSource (first :: rest))).Course 1 w k s o →
      ∀ fuel', fuel ≤ fuel' → k < fuel' →
        execute engine fuel' (engine.waiting fuel') (engine.evaluate fuel' levels) h
          (.control .loop) (condition :: first :: rest) w = o ∧
        commandLog engine fuel' (engine.waiting fuel') (engine.waitingLog fuel')
            (engine.evaluate fuel' levels) (engine.log fuel' levels) h (.control .loop)
            (condition :: first :: rest) w =
          (engine.loop fuel' levels h condition (w.joinSource (first :: rest))).courseLog
            (engine.log fuel' levels) (engine.waitingLog fuel') 1 k s) ∧
    ∀ fuel body w₁, (engine.loop fuel levels h condition body).test w₁ =
      match deferred (engine.evaluate fuel levels) h condition w₁ with
      | .done (.boolean b) w₂ => .done b w₂
      | .done v w₂ => .failed (.complaint "While" (conditionComplaint condition v)) w₂
      | .failed e w₂ => .failed (e.within .condition) w₂
      | .exited code w₂ => .exited code w₂
      | .exhausted w₂ => .exhausted w₂ := by
  refine ⟨fun fuel o hrun hended => ?_, fun fuel k s o hcourse fuel' hle hk => ?_,
    fun fuel body w₁ => test_eq _ h condition w₁⟩
  · exact Loop.exists_course (engine.isQuiet_waiting fuel) hrun hended
  · have hcourse' := course_of_le hle hcourse
    exact ⟨hcourse'.rounds_eq (engine.isQuiet_waiting fuel') hk,
      hcourse'.roundsLog_eq (engine.isQuiet_waiting fuel') _ _ hk⟩

/-- The condition that a variable is true. -/
def whileGo : Value := .text "\x7b\x7b\x7bgo\x7d\x7d\x7d"

/-- A line that makes the variable false. -/
def stopGoing : List Value := [.text "StoreValue", .text "go", .text "\x7bFalse\x7d"]

def goWorld : World := (World.start {}).setVariable 0 "go" (.boolean true)

def goneWorld : World := goWorld.setVariable 0 "go" (.boolean false)

/-- The loop makes one pass. -/
theorem course_go :
    ∃ s, ((Program.standardEngine default).loop 1 2 { session := 0 } whileGo
      (goWorld.joinSource stopGoing)).Course 1 goWorld 1 s (.done .null goneWorld) := by
  have hjoined : goWorld.joinSource stopGoing = "StoreValue go \x7bFalse\x7d" := rfl
  have htest : test ((Program.standardEngine default).evaluate 1 2) { session := 0 } whileGo
      goWorld = .done true goWorld := rfl
  have hbody : (Program.standardEngine default).evaluate 1 2 { session := 0 }
      "StoreValue go \x7bFalse\x7d" goWorld = .done (.boolean false) goneWorld := rfl
  have hgone : test ((Program.standardEngine default).evaluate 1 2) { session := 0 } whileGo
      goneWorld = .done false goneWorld := rfl
  rw [hjoined]
  exact ⟨_, .cons (.mk rfl htest hbody rfl) (.nil (.notHolding rfl hgone))⟩

theorem execute_loop_go :
    execute (Program.standardEngine default) 9 ((Program.standardEngine default).waiting 9)
        ((Program.standardEngine default).evaluate 9 2) { session := 0 } (.control .loop)
        (whileGo :: stopGoing) goWorld = .done .null goneWorld ∧
    ∃ k s, k < 9 ∧ ((Program.standardEngine default).loop 9 2 { session := 0 } whileGo
      (goWorld.joinSource stopGoing)).Course 1 goWorld k s (.done .null goneWorld) := by
  obtain ⟨hcourse, hrun, -⟩ := execute_loop (Program.standardEngine default) 2 { session := 0 }
    whileGo (.text "StoreValue") [.text "go", .text "\x7bFalse\x7d"] goWorld
  obtain ⟨s, hgo⟩ := course_go
  obtain ⟨hdone, -⟩ := hrun 1 1 s _ hgo 9 (by decide) (by decide)
  exact ⟨hdone, hcourse 9 _ hdone (by simp)⟩

end Engine
end BraceScript
