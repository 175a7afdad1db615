import BraceScript.Proofs.Events
import BraceScript.Proofs.ScriptSequence

/-!
# A sequence in two parts

Evaluating `a ++ b` is evaluating `a` and then `b`, in the world that `a` left. Three things go over
the cut: the number of the next line, the value so far, and whether the session is terminated. The
number shows in the frame of the line that fails and nowhere else (`sequenceFrom_later`). The value
so far shows only where the second part evaluates nothing, because its lines are blank
(`sequenceFrom_eq_of_hasCode`, `sequenceFrom_of_not_hasCode`). A terminated session passes its value
over any cut, since the first part ended with it and the second part asks again.

`sequence_append` puts these together, and says the same of the events of the two parts.
-/

namespace BraceScript
open Script (Related)

/-- The second error is the first one, with the line at its outermost frame `skipped` lines
further down. -/
inductive ScriptError.Later (skipped : Nat) : ScriptError → ScriptError → Prop
  | intro (inner : ScriptError) (number : Nat) (line : String) :
    Later skipped (inner.within (.line number line)) (inner.within (.line (number + skipped) line))

namespace Evaluation
variable {eval : Evaluator} {h : Handle}

/-- Is there a line that a sequence evaluates? -/
def hasCode (lines : List String) : Bool :=
  lines.any (!Text.isAllBlank ·)

/-- How the second part of a sequence ends by itself, and how the whole sequence does, whose first
part has `skipped` lines and the value `last`. -/
inductive Continued (session skipped : Nat) (last : Value) (lines : List String) :
    Outcome Value → Outcome Value → Prop
  | done (v : Value) (w : World) : Continued session skipped last lines (.done v w)
    (.done (if hasCode lines || (w.ending session).isSome then v else last) w)
  | failed {e e' : ScriptError} (he : e.Later skipped e') (w : World) :
    Continued session skipped last lines (.failed e w) (.failed e' w)
  | exited (code : Int32) (w : World) :
    Continued session skipped last lines (.exited code w) (.exited code w)
  | exhausted (w : World) : Continued session skipped last lines (.exhausted w) (.exhausted w)

theorem Continued.of_eq {session skipped : Nat} {last v v' : Value} {lines : List String}
    {w : World} (hv : v' = if hasCode lines || (w.ending session).isSome then v else last) :
    Continued session skipped last lines (.done v w) (.done v' w) := by
  subst hv
  exact .done v w

/-! ### What goes over the cut -/

theorem sequenceFrom_append (eval : Evaluator) (h : Handle) (number : Nat) (last : Value)
    (a b : List String) :
    sequenceFrom eval h number last (a ++ b) = (do
      let v ← sequenceFrom eval h number last a
      sequenceFrom eval h (number + a.length) v b) := by
  funext w
  induction a generalizing number last w with
  | nil =>
    rw [List.nil_append, List.length_nil, Nat.add_zero, Script.bind_apply, sequenceFrom,
      Script.read_apply]
    cases hended : w.ending h.session with
    | some v =>
      dsimp only
      rw [sequenceFrom_of_ending hended, sequenceFrom_of_ending hended]
    | none => rfl
  | cons line a ih =>
    have hnumber : number + (line :: a).length = number + 1 + a.length := by
      rw [List.length_cons]; omega
    rw [Script.bind_apply, List.cons_append, hnumber]
    cases hended : w.ending h.session with
    | some v =>
      rw [sequenceFrom_of_ending hended, sequenceFrom_of_ending hended]
      dsimp only
      rw [sequenceFrom_of_ending hended]
    | none =>
      cases hblank : Text.isAllBlank line with
      | true =>
        rw [sequenceFrom_of_blank hended hblank, sequenceFrom_of_blank hended hblank, ih]
        rfl
      | false =>
        rw [sequenceFrom_of_not_blank hended hblank, sequenceFrom_of_not_blank hended hblank]
        cases eval h line w with
        | done v w₁ =>
          dsimp only
          rw [ih]
          rfl
        | _ => rfl

theorem sequenceFrom_later (eval : Evaluator) (h : Handle) (skipped number : Nat) (last : Value)
    (lines : List String) :
    Related (ScriptError.Later skipped) Eq (sequenceFrom eval h number last lines)
      (sequenceFrom eval h (number + skipped) last lines) := by
  -- what only reads and changes the world cannot fail, so it ends alike under any relation of errors
  have hread : ∀ {α : Type} (f : World → α),
      Related (ScriptError.Later skipped) Eq (Script.read f) (.read f) := by
    rintro α f w _ rfl
    exact .done _ rfl
  induction lines generalizing number last with
  | nil => exact hread _
  | cons line lines ih =>
    have hnext : number + skipped + 1 = number + 1 + skipped := by omega
    rw [sequenceFrom, sequenceFrom, hnext]
    refine .bind (hread _) fun ending => ?_
    cases ending with
    | some v => exact .pure v
    | none =>
      dsimp only
      split
      · exact ih _ _
      · have hline : Related (ScriptError.Later skipped) Eq
            ((eval h line).within (.line number line))
            ((eval h line).within (.line (number + skipped) line)) := by
          refine Related.mapError (E := Eq) ?_ (.refl (fun _ => rfl) _)
          rintro e _ rfl
          exact .intro e number line
        refine .bind hline fun v => .bind ?_ fun _ => ih _ _
        rintro w _ rfl
        exact .done () rfl

theorem sequenceFrom_eq_of_hasCode {lines : List String} (hcode : hasCode lines = true)
    (number : Nat) (last last' : Value) :
    sequenceFrom eval h number last lines = sequenceFrom eval h number last' lines := by
  funext w
  induction lines generalizing number w with
  | nil => cases hcode
  | cons line lines ih =>
    cases hended : w.ending h.session with
    | some v => rw [sequenceFrom_of_ending hended, sequenceFrom_of_ending hended]
    | none =>
      cases hblank : Text.isAllBlank line with
      | true =>
        have hlines : hasCode lines = true := by simpa [hasCode, hblank] using hcode
        rw [sequenceFrom_of_blank hended hblank, sequenceFrom_of_blank hended hblank, ih hlines]
      | false =>
        rw [sequenceFrom_of_not_blank hended hblank, sequenceFrom_of_not_blank hended hblank]

theorem sequenceFrom_of_not_hasCode {lines : List String} (hcode : hasCode lines = false)
    (number : Nat) (last : Value) (w : World) :
    sequenceFrom eval h number last lines w = .done ((w.ending h.session).getD last) w := by
  induction lines generalizing number with
  | nil => rfl
  | cons line lines ih =>
    obtain ⟨hblank, hlines⟩ : Text.isAllBlank line = true ∧ hasCode lines = false := by
      simpa [hasCode] using hcode
    cases hended : w.ending h.session with
    | some v => rw [sequenceFrom_of_ending hended, Option.getD_some]
    | none => rw [sequenceFrom_of_blank hended hblank, ih hlines, hended]

/-! ### The two parts -/

theorem continued_sequenceFrom (eval : Evaluator) (h : Handle) (skipped : Nat) (last : Value)
    (lines : List String) (w : World) :
    Continued h.session skipped last lines (sequence eval h lines w)
      (sequenceFrom eval h (1 + skipped) last lines w) := by
  cases hcode : hasCode lines with
  | true =>
    have hlater := sequenceFrom_later eval h skipped 1 .null lines (rfl : w = w)
    rw [sequenceFrom_eq_of_hasCode hcode (1 + skipped) last .null, sequence]
    generalize sequenceFrom eval h 1 .null lines w = o,
      sequenceFrom eval h (1 + skipped) .null lines w = o' at hlater
    cases hlater with
    | done v hw => subst hw; exact .of_eq (by simp [hcode])
    | failed he hw => subst hw; exact .failed he _
    | exited code hw => subst hw; exact .exited code _
    | exhausted hw => subst hw; exact .exhausted _
  | false =>
    rw [sequence, sequenceFrom_of_not_hasCode hcode, sequenceFrom_of_not_hasCode hcode]
    cases hended : w.ending h.session with
    | some v => exact .of_eq (by simp [hcode, hended])
    | none => exact .of_eq (by simp [hcode, hended])

section
variable {log : Logger} {w : World} {line : String}

theorem sequenceLog_of_ending {v : Value} (hended : w.ending h.session = some v)
    (lines : List String) : sequenceLog eval log h lines w = [] := by
  cases lines with
  | nil => rfl
  | cons line lines => simp [sequenceLog, hended]

theorem sequenceLog_of_blank (hlive : w.ending h.session = none)
    (hblank : Text.isAllBlank line = true) (lines : List String) :
    sequenceLog eval log h (line :: lines) w = sequenceLog eval log h lines w := by
  simp [sequenceLog, hlive, hblank]

theorem sequenceLog_of_not_blank (hlive : w.ending h.session = none)
    (hblank : Text.isAllBlank line = false) (lines : List String) :
    sequenceLog eval log h (line :: lines) w = ((log h line).andThen (eval h line) fun v w =>
      sequenceLog eval log h lines (w.setLast h.session v)) w := by
  simp [sequenceLog, hlive, hblank]

end

theorem sequenceLog_append (eval : Evaluator) (log : Logger) (h : Handle) (number : Nat)
    (last : Value) (a b : List String) (w : World) :
    sequenceLog eval log h (a ++ b) w =
      ((sequenceLog eval log h a).andThen (sequenceFrom eval h number last a) fun _ =>
        sequenceLog eval log h b) w := by
  induction a generalizing number last w with
  | nil => rfl
  | cons line a ih =>
    cases hended : w.ending h.session with
    | some v =>
      rw [Log.andThen, sequenceFrom_of_ending hended, sequenceLog_of_ending hended,
        sequenceLog_of_ending hended]
      dsimp only
      rw [sequenceLog_of_ending hended, List.append_nil]
    | none =>
      rw [List.cons_append, Log.andThen]
      cases hblank : Text.isAllBlank line with
      | true =>
        rw [sequenceLog_of_blank hended hblank, sequenceLog_of_blank hended hblank,
          sequenceFrom_of_blank hended hblank, ih (number + 1) last, Log.andThen]
      | false =>
        rw [sequenceLog_of_not_blank hended hblank, sequenceLog_of_not_blank hended hblank,
          sequenceFrom_of_not_blank hended hblank, Log.andThen, Log.andThen]
        cases eval h line w with
        | done v w₁ =>
          dsimp only
          rw [ih (number + 1) v, Log.andThen, List.append_assoc]
        | _ => simp

/-- Where the first part of a sequence does not end with a value, nothing of the second part
happens, and the whole sequence ends as the first part does. Else the second part goes on from the
world that the first one left: the whole ends in the same world and in the same way as the second
part by itself, where an error has its line further down by the length of the first part, and the
value is that of the second part, or of the first one where the second has only blank lines and the
session is not terminated. -/
theorem sequence_append (eval : Evaluator) (log : Logger) (h : Handle) (a b : List String)
    (w : World) :
    sequenceLog eval log h (a ++ b) w =
      ((sequenceLog eval log h a).andThen (sequence eval h a) fun _ =>
        sequenceLog eval log h b) w ∧
    match sequence eval h a w with
    | .done v w₁ => Continued h.session a.length v b (sequence eval h b w₁)
        (sequence eval h (a ++ b) w)
    | stopped => sequence eval h (a ++ b) w = stopped := by
  refine ⟨sequenceLog_append eval log h 1 .null a b w, ?_⟩
  have happend : sequence eval h (a ++ b) w =
      (sequence eval h a >>= fun v => sequenceFrom eval h (1 + a.length) v b) w := by
    rw [sequence, sequenceFrom_append]
    rfl
  rw [Script.bind_apply] at happend
  split
  next v w₁ ha =>
    rw [ha] at happend
    rw [happend]
    exact continued_sequenceFrom eval h a.length v b w₁
  next hstops =>
    rw [happend]
    generalize sequence eval h a w = o at hstops
    cases o with
    | done v w₁ => exact absurd rfl (hstops v w₁)
    | _ => rfl

end Evaluation
end BraceScript
