import BraceScript.Error
import BraceScript.World

/-!
# Running in a world

A `Script α` is a run that starts in a world and ends in another: with a value, with an error, with
the whole program's exit, or without an answer because it would have taken more passes of a loop or
more launches inside one another than it was given. What a run did before it failed stays done.
-/

namespace BraceScript

/-- How a run ends, and in which world. -/
inductive Outcome (α : Type) where
  | done (value : α) (world : World)
  | failed (error : ScriptError) (world : World)
  /-- The program is to exit with a code. -/
  | exited (code : Int32) (world : World)
  /-- The bound on passes and launches was reached. -/
  | exhausted (world : World)
deriving Inhabited

/-- The world in which a run ends. -/
def Outcome.world {α : Type} : Outcome α → World
  | done _ w => w
  | failed _ w => w
  | exited _ w => w
  | exhausted w => w

/-- The same ending in a world that has been changed. -/
def Outcome.mapWorld {α : Type} (f : World → World) : Outcome α → Outcome α
  | done a w => done a (f w)
  | failed e w => failed e (f w)
  | exited code w => exited code (f w)
  | exhausted w => exhausted (f w)

/-- A run that starts in a world. -/
def Script (α : Type) := World → Outcome α

namespace Script
variable {α β : Type}

/-- The run that does nothing and ends with a value. -/
def done (a : α) : Script α :=
  fun w => .done a w

/-- One run after another. -/
def andThen (x : Script α) (f : α → Script β) : Script β :=
  fun w =>
    match x w with
    | .done a w => f a w
    | .failed e w => .failed e w
    | .exited code w => .exited code w
    | .exhausted w => .exhausted w

instance : Monad Script where
  pure := done
  bind := andThen

/-- The run that fails. -/
def fail (e : ScriptError) : Script α :=
  fun w => .failed e w

/-- The run that fails with a cause. -/
def failWith (cause : Cause) : Script α :=
  fail ⟨cause, []⟩

/-- The run that fails with a command's complaint about its arguments. -/
def complain (command : String) (c : Complaint) : Script α :=
  fail (.complaint command c)

/-- An answer that may be a command's complaint. -/
def orComplain (command : String) : Except Complaint α → Script α
  | .ok a => done a
  | .error c => complain command c

/-- The run that exits the program. -/
def exit (code : Int32) : Script α :=
  fun w => .exited code w

/-- The run that has been given too little. -/
def exhausted : Script α :=
  fun w => .exhausted w

/-- A value read off the world. -/
def read (f : World → α) : Script α :=
  fun w => .done (f w) w

/-- A change of the world. -/
def change (f : World → World) : Script Unit :=
  fun w => .done () (f w)

/-- A change of the world that gives a value. -/
def step (f : World → α × World) : Script α :=
  fun w =>
    match f w with
    | (a, w) => .done a w

/-- The run with its error, if it fails, inside one more frame. -/
def within (x : Script α) (frame : Frame) : Script α :=
  fun w =>
    match x w with
    | .failed e w => .failed (e.within frame) w
    | outcome => outcome

/-- The run with its result and its error, if it fails, dropped. -/
def quietly (x : Script α) : Script Unit :=
  fun w =>
    match x w with
    | .done _ w => .done () w
    | .failed _ w => .done () w
    | .exited code w => .exited code w
    | .exhausted w => .exhausted w

/-! ### One equation per run -/

@[simp] theorem pure_apply (a : α) (w : World) : (pure a : Script α) w = .done a w := rfl

@[simp] theorem bind_apply (x : Script α) (f : α → Script β) (w : World) :
    (x >>= f) w = match x w with
      | .done a w => f a w
      | .failed e w => .failed e w
      | .exited code w => .exited code w
      | .exhausted w => .exhausted w := rfl

@[simp] theorem fail_apply (e : ScriptError) (w : World) :
    (fail e : Script α) w = .failed e w := rfl

@[simp] theorem exit_apply (code : Int32) (w : World) :
    (exit code : Script α) w = .exited code w := rfl

@[simp] theorem exhausted_apply (w : World) : (exhausted : Script α) w = .exhausted w := rfl

@[simp] theorem read_apply (f : World → α) (w : World) : read f w = .done (f w) w := rfl

@[simp] theorem change_apply (f : World → World) (w : World) : change f w = .done () (f w) := rfl

@[simp] theorem step_apply (f : World → α × World) (w : World) :
    step f w = .done (f w).1 (f w).2 := rfl

@[simp] theorem within_apply (x : Script α) (frame : Frame) (w : World) :
    within x frame w = match x w with
      | .failed e w => .failed (e.within frame) w
      | outcome => outcome := rfl

theorem andThen_done (x : Script α) : andThen x done = x := by
  funext w; simp only [andThen]; cases x w <;> rfl

theorem andThen_assoc {γ : Type} (x : Script α) (f : α → Script β) (g : β → Script γ) :
    andThen (andThen x f) g = andThen x fun a => andThen (f a) g := by
  funext w; simp only [andThen]; cases x w <;> rfl

instance : LawfulMonad Script :=
  LawfulMonad.mk' Script (fun x => andThen_done x) (fun _ _ => rfl) andThen_assoc

end Script
end BraceScript
