import BraceScript.Proofs.EvaluationClosure
import BraceScript.Proofs.RelatedRuns

/-!
# The last result is never looked at

A session keeps its last result for those who ask for it; no command does. From worlds that differ
in last results only, a line evaluates to the same value or the same error, and leaves worlds that
differ in last results only (`Engine.ignoresLast_evaluate`), as long as the commands of the host
program do not look either.
-/

namespace BraceScript

namespace World

/-- The worlds are the same up to the last results of their sessions. -/
def SameButLast (w w' : World) : Prop :=
  w.forgetLast = w'.forgetLast

namespace SameButLast
variable {w w' : World}

theorem refl (w : World) : w.SameButLast w :=
  rfl

theorem read_eq {α : Type} {f : World → α} (hf : Blind f) (h : w.SameButLast w') : f w = f w' := by
  rw [← hf w, ← hf w', h]

end SameButLast

theorem forgetLast_modifySession {f : Session → Session}
    (hf : ∀ s : Session, (f s.forgetLast).forgetLast = (f s).forgetLast) (w : World) (id : Nat) :
    (w.forgetLast.modifySession id f).forgetLast = (w.modifySession id f).forgetLast := by
  have hsessions : ((w.sessions.map Session.forgetLast).modify id f).map Session.forgetLast =
      (w.sessions.modify id f).map Session.forgetLast := by
    refine Array.ext (by simp) fun i hi hi' => ?_
    simp only [Array.getElem_map, Array.getElem_modify]
    split
    · exact hf _
    · rfl
  simp only [forgetLast, modifySession, hsessions]

theorem forgetLast_setLast (w : World) (id : Nat) (v : Value) :
    (w.setLast id v).forgetLast = w.forgetLast := by
  have hsessions : (w.sessions.modify id ({ · with last := v })).map Session.forgetLast =
      w.sessions.map Session.forgetLast := by
    refine Array.ext (by simp) fun i hi hi' => ?_
    simp only [Array.getElem_map, Array.getElem_modify]
    split <;> rfl
  simp only [forgetLast, setLast, modifySession, hsessions]

/-- Last results do not show in what a change makes of the rest of the world. -/
theorem Change.forgetLast {f : World → World} (hf : Change f) (w : World) :
    (f w.forgetLast).forgetLast = (f w).forgetLast := by
  -- a change that does not touch the sessions commutes with forgetting
  have hrest : f w.forgetLast = (f w).forgetLast →
      (f w.forgetLast).forgetLast = (f w).forgetLast := by
    intro h
    rw [h]
    simp [World.forgetLast, Session.forgetLast]
  cases hf with
  | setVariable => exact forgetLast_modifySession (fun _ => rfl) w _
  | removeVariable => exact forgetLast_modifySession (fun _ => rfl) w _
  | terminate => exact forgetLast_modifySession (fun _ => rfl) w _
  | setLast => exact forgetLast_modifySession (fun _ => rfl) w _
  | closeAside before task =>
    refine hrest ?_
    have hwritten : w.forgetLast.written = w.written := rfl
    simp only [World.closeAside, hwritten]
    split <;> rfl
  | _ => exact hrest rfl

theorem SameButLast.change {f : World → World} (hf : Change f) {w w' : World}
    (h : w.SameButLast w') : (f w).SameButLast (f w') := by
  rw [SameButLast, ← hf.forgetLast w, ← hf.forgetLast w', h]

end World

namespace Script
open World (SameButLast)

/-- The run neither looks at last results nor shows them. -/
def IgnoresLast {α : Type} (x : Script α) : Prop :=
  Related Eq SameButLast x x

theorem isClosed_ignoresLast : IsClosed IgnoresLast :=
  isClosed_related (fun hf _ _ hw => hw.read_eq hf) fun hf _ _ hw => hw.change hf

end Script

/-- A line evaluates alike in worlds that differ in last results only. -/
theorem Engine.ignoresLast_evaluate {engine : Engine}
    (hcustoms : engine.registry.CustomsHave Script.IgnoresLast) (fuel levels : Nat) (h : Handle)
    (line : String) : (engine.evaluate fuel levels h line).IgnoresLast :=
  Script.isClosed_ignoresLast.evaluate hcustoms fuel levels h line

end BraceScript
