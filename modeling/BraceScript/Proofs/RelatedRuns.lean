import BraceScript.Proofs.Closure

/-!
# Runs that end alike

Two runs are related when, from worlds that are related, they end in the same way: with the same
value or exit code, or with errors that are related, in worlds that are related again. How errors
and worlds are related is left open (`E`, `R`); every way of putting runs together keeps the
relation.

`ScriptError.Alike` is the relation between errors that differ in the texts of lines only. What a
line evaluates to rests on its tokens alone, up to that relation (`evaluateLevel_of_scan_eq`).
-/

namespace BraceScript

/-- Two endings that are alike. -/
inductive Outcome.Related {α : Type} (E : ScriptError → ScriptError → Prop)
    (R : World → World → Prop) : Outcome α → Outcome α → Prop
  | done (a : α) {w w' : World} (hw : R w w') : Related E R (.done a w) (.done a w')
  | failed {e e' : ScriptError} (he : E e e') {w w' : World} (hw : R w w') :
    Related E R (.failed e w) (.failed e' w')
  | exited (code : Int32) {w w' : World} (hw : R w w') :
    Related E R (.exited code w) (.exited code w')
  | exhausted {w w' : World} (hw : R w w') : Related E R (.exhausted w) (.exhausted w')

theorem Outcome.Related.refl {α : Type} {E : ScriptError → ScriptError → Prop}
    (hE : ∀ e, E e e) (o : Outcome α) : Outcome.Related E Eq o o := by
  cases o with
  | done a w => exact .done a rfl
  | failed e w => exact .failed (hE e) rfl
  | exited code w => exact .exited code rfl
  | exhausted w => exact .exhausted rfl

namespace Script

/-- From worlds that are related the two runs end alike. -/
def Related {α : Type} (E : ScriptError → ScriptError → Prop) (R : World → World → Prop)
    (x x' : Script α) : Prop :=
  ∀ ⦃w w' : World⦄, R w w' → Outcome.Related E R (x w) (x' w')

namespace Related
variable {α β : Type} {E : ScriptError → ScriptError → Prop} {R : World → World → Prop}

theorem refl (hE : ∀ e, E e e) (x : Script α) : Related E Eq x x := by
  rintro w w' rfl
  exact .refl hE (x w)

theorem pure (a : α) : Related E R (pure a : Script α) (Pure.pure a) :=
  fun _ _ hw => .done a hw

theorem fail {e e' : ScriptError} (he : E e e') :
    Related E R (Script.fail e : Script α) (.fail e') :=
  fun _ _ hw => .failed he hw

theorem bind {x x' : Script α} {f f' : α → Script β} (hx : Related E R x x')
    (hf : ∀ a, Related E R (f a) (f' a)) : Related E R (x >>= f) (x' >>= f') := by
  intro w w' hw
  have h := hx hw
  rw [bind_apply, bind_apply]
  generalize x w = o, x' w' = o' at h ⊢
  cases h with
  | done a hw => exact hf a hw
  | failed he hw => exact .failed he hw
  | exited code hw => exact .exited code hw
  | exhausted hw => exact .exhausted hw

theorem mapError {E' : ScriptError → ScriptError → Prop} {x x' : Script α}
    {f f' : ScriptError → ScriptError} (hE : ∀ {e e' : ScriptError}, E e e' → E' (f e) (f' e'))
    (hx : Related E R x x') : Related E' R (x.mapError f) (x'.mapError f') := by
  intro w w' hw
  have h := hx hw
  unfold Script.mapError
  generalize x w = o, x' w' = o' at h ⊢
  cases h with
  | done a hw => exact .done a hw
  | failed he hw => exact .failed (hE he) hw
  | exited code hw => exact .exited code hw
  | exhausted hw => exact .exhausted hw

theorem within {x x' : Script α} {frame frame' : Frame}
    (hE : ∀ {e e' : ScriptError}, E e e' → E (e.within frame) (e'.within frame'))
    (hx : Related E R x x') : Related E R (x.within frame) (x'.within frame') :=
  hx.mapError hE

/-- Only the second run is inside one more frame. -/
theorem within_right {E' : ScriptError → ScriptError → Prop} {x x' : Script α} {frame : Frame}
    (hE : ∀ {e e' : ScriptError}, E e e' → E' e (e'.within frame)) (hx : Related E R x x') :
    Related E' R x (x'.within frame) := by
  have h : Related E' R (x.mapError id) (x'.within frame) := hx.mapError fun he => hE he
  rwa [mapError_id] at h

theorem quietly {x x' : Script α} (hx : Related E R x x') : Related E R x.quietly x'.quietly := by
  intro w w' hw
  have h := hx hw
  unfold Script.quietly
  generalize x w = o, x' w' = o' at h ⊢
  cases h with
  | done a hw => exact .done () hw
  | failed he hw => exact .done () hw
  | exited code hw => exact .exited code hw
  | exhausted hw => exact .exhausted hw

theorem afterwards {x x' : Script α} {f : World → World}
    (hf : ∀ {w w' : World}, R w w' → R (f w) (f w')) (hx : Related E R x x') :
    Related E R (x.afterwards f) (x'.afterwards f) := by
  intro w w' hw
  have h := hx hw
  unfold Script.afterwards
  generalize x w = o, x' w' = o' at h ⊢
  cases h with
  | done a hw => exact .done a (hf hw)
  | failed he hw => exact .failed he (hf hw)
  | exited code hw => exact .exited code (hf hw)
  | exhausted hw => exact .exhausted (hf hw)

end Related

/-- Where worlds that are related look alike, and changes keep them related, every run that is put
together ends alike from worlds that are related. -/
theorem isClosed_related {R : World → World → Prop}
    (hread : ∀ {α : Type} {f : World → α}, World.Blind f → ∀ {w w' : World}, R w w' → f w = f w')
    (hchange : ∀ {f : World → World}, World.Change f → ∀ {w w' : World}, R w w' → R (f w) (f w')) :
    IsClosed fun x => Related Eq R x x where
  pure a := .pure a
  bind hx hf := .bind hx hf
  fail _ := .fail rfl
  exit code _ _ hw := .exited code hw
  exhausted hw := .exhausted hw
  read hf w w' hw := by
    rw [read_apply, read_apply, hread hf hw]
    exact .done _ hw
  change hf _ _ hw := .done () (hchange hf hw)
  mapError f hx := hx.mapError (congrArg f)
  quietly hx := hx.quietly
  afterwards hf hx := hx.afterwards (hchange hf)

end Script

/-! ### Errors that differ in the texts of lines -/

/-- A frame without the text of its line. -/
def Frame.shape : Frame → Frame
  | argument index _ => argument index ""
  | command name _ => command name ""
  | line number _ => line number ""
  | frame => frame

/-- Errors of the same kind that took the same path, the texts of lines aside. -/
structure ScriptError.Alike (e e' : ScriptError) : Prop where
  kind : e.kind = e'.kind
  path : e.frames.map Frame.shape = e'.frames.map Frame.shape

namespace ScriptError.Alike

theorem refl (e : ScriptError) : e.Alike e :=
  ⟨rfl, rfl⟩

theorem within {e e' : ScriptError} (h : e.Alike e') {frame frame' : Frame}
    (hf : frame.shape = frame'.shape) : (e.within frame).Alike (e'.within frame') where
  kind := h.kind
  path := by simp [ScriptError.within, hf, h.path]

end ScriptError.Alike

namespace Evaluation
open Script (Related)

theorem arguments_alike (eval : Evaluator) (h : Handle) (pre : PreEvaluation) (line line' : String)
    (position : Nat) (tokens : List Token) :
    Related ScriptError.Alike Eq (arguments eval h pre line position tokens)
      (arguments eval h pre line' position tokens) := by
  induction tokens generalizing position with
  | nil => exact .pure []
  | cons t tokens ih =>
    cases t with
    | null => exact .bind (ih _) fun _ => .pure _
    | word raw =>
      refine .bind (.within (fun he => he.within rfl) (.refl .refl _)) fun v => ?_
      exact .bind (ih _) fun _ => .pure _

theorem dispatch_alike (engine : Engine) (fuel : Nat) (waiting : Script Unit) (eval : Evaluator)
    (h : Handle) (line line' name : String) (tokens : List Token) :
    Related ScriptError.Alike Eq (dispatch engine fuel waiting eval h line name tokens)
      (dispatch engine fuel waiting eval h line' name tokens) := by
  refine .bind (.refl .refl _) fun searchOrder => ?_
  cases engine.registry.resolve? searchOrder name with
  | none => exact .refl .refl _
  | some command =>
    refine .bind (arguments_alike ..) fun args => ?_
    exact .within (fun he => he.within rfl) (.refl .refl _)

theorem evaluateTokens_alike (engine : Engine) (fuel : Nat) (waiting : Script Unit)
    (lower : Option Evaluator) (h : Handle) (line line' : String) (first : Token)
    (rest : List Token) :
    Related ScriptError.Alike Eq (evaluateTokens engine fuel waiting lower h line first rest)
      (evaluateTokens engine fuel waiting lower h line' first rest) := by
  have hmalformed : ∀ s s' : String, Related (α := Value) ScriptError.Alike Eq
      (.failWith (.malformed s)) (.failWith (.malformed s')) := fun s s' => .fail ⟨rfl, rfl⟩
  unfold evaluateTokens
  cases loneReference? (first :: rest) with
  | some reference => exact .refl .refl _
  | none =>
    cases first with
    | null => exact hmalformed _ _
    | word name =>
      dsimp only
      split
      · exact hmalformed _ _
      · cases lower with
        | none => exact .refl .refl _
        | some eval => exact dispatch_alike ..

/-- What a line evaluates to rests on its tokens. -/
theorem evaluateLevel_of_scan_eq {line line' : String} (hs : Token.scan line = Token.scan line')
    (engine : Engine) (fuel : Nat) (waiting : Script Unit) (lower : Option Evaluator) (h : Handle) :
    Related ScriptError.Alike Eq (evaluateLevel engine fuel waiting lower h line)
      (evaluateLevel engine fuel waiting lower h line') := by
  unfold evaluateLevel
  refine .bind (.refl .refl _) fun ending => ?_
  rw [hs]
  cases ending with
  | some v => exact .pure v
  | none =>
    cases Token.scan line' with
    | nil => exact .pure _
    | cons first rest =>
      dsimp only
      split
      · exact .pure _
      · exact evaluateTokens_alike ..

end Evaluation

/-! ### Levels -/

namespace Engine
open Evaluation Script

/-- How the launched lines that wait are run inside an evaluation. -/
def waiting (engine : Engine) : (fuel : Nat) → Script Unit
  | 0 => Evaluation.settle (fun _ _ => .exhausted) 0
  | fuel + 1 => Evaluation.settle (engine.evaluate fuel recursionLimit) (fuel + 1)

theorem evaluate_eq (engine : Engine) (fuel levels : Nat) :
    engine.evaluate fuel levels = evaluateAt engine fuel (engine.waiting fuel) levels := by
  funext h line
  cases fuel <;> rfl

theorem evaluate_zero (engine : Engine) (fuel : Nat) (h : Handle) (line : String) :
    engine.evaluate fuel 0 h line =
      evaluateLevel engine fuel (engine.waiting fuel) none h line := by
  rw [evaluate_eq, evaluateAt]

theorem evaluate_succ (engine : Engine) (fuel levels : Nat) (h : Handle) (line : String) :
    engine.evaluate fuel (levels + 1) h line =
      evaluateLevel engine fuel (engine.waiting fuel) (some (engine.evaluate fuel levels)) h
        line := by
  rw [evaluate_eq, evaluateAt, evaluate_eq]

theorem evaluate_of_scan_eq {line line' : String} (hs : Token.scan line = Token.scan line')
    (engine : Engine) (fuel levels : Nat) (h : Handle) :
    Related ScriptError.Alike Eq (engine.evaluate fuel levels h line)
      (engine.evaluate fuel levels h line') := by
  cases levels with
  | zero =>
    rw [evaluate_zero, evaluate_zero]
    exact evaluateLevel_of_scan_eq hs ..
  | succ levels =>
    rw [evaluate_succ, evaluate_succ]
    exact evaluateLevel_of_scan_eq hs ..

end Engine
end BraceScript
