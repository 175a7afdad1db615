import BraceScript.Proofs.ScriptSequence
import Mathlib.Data.List.Chain

/-!
# Terminated sessions

A session that is terminated stays so, and its terminating value stands. Whatever is asked of the
sessions of a world changes it in steps, each of which is one of the operations that a session
offers (`World.Step`); every evaluation goes from world to world by such steps, and so do the shell
and the script around it. No step alters a terminating value, so none is altered at any moment of
any run (`World.Leads.exists_passage`).

What is asked of a session after its end is refused: it gives the terminating value, and leaves the
world exactly as it was.
-/

namespace BraceScript

/-! ### Steps of a world -/

namespace World

/-- One change of the world by an operation that a session offers. -/
inductive Step : World → World → Prop
  | change {f : World → World} (hf : Change f) (w : World) : Step w (f w)
  | setSearchOrder (id : Nat) (names : List String) (w : World) :
    Step w (w.setSearchOrder id names)

/-- Steps lead from the one world to the other. -/
def Leads : World → World → Prop :=
  Relation.ReflTransGen Step

/-- The terminating values of the first world stand in the second. -/
def KeepsEndings (w w' : World) : Prop :=
  ∀ ⦃id : Nat⦄ ⦃v : Value⦄, w.ending id = some v → w'.ending id = some v

instance : Trans KeepsEndings KeepsEndings KeepsEndings where
  trans h h' _ _ hended := h' (h hended)

theorem keepsEndings_of_sessions_eq {w w' : World} (h : w'.sessions = w.sessions) :
    w.KeepsEndings w' := by
  intro id v hended
  rw [← hended, ending, ending, session, session, h]

theorem keepsEndings_modifySession {f : Session → Session}
    (hf : ∀ {s : Session} {v : Value}, s.ending = some v → (f s).ending = some v) (w : World)
    (id : Nat) : w.KeepsEndings (w.modifySession id f) := by
  intro id' v hended
  rw [ending]
  rcases session_modifySession_cases w id f id' with hsession | ⟨-, hsession⟩
  · rw [hsession]
    exact hended
  · rw [hsession]
    exact hf hended

theorem Change.keepsEndings {f : World → World} (hf : Change f) (w : World) :
    w.KeepsEndings (f w) := by
  cases hf with
  | setVariable id name v =>
    exact keepsEndings_modifySession (f := (·.setVariable name v)) (fun h => h) w id
  | removeVariable id name =>
    exact keepsEndings_modifySession (f := (·.removeVariable name)) (fun h => h) w id
  | terminate id v =>
    refine keepsEndings_modifySession (f := (·.terminate v)) (fun h => ?_) w id
    simp [Session.terminate, h]
  | setLast id v =>
    exact keepsEndings_modifySession (f := ({ · with last := v })) (fun h => h) w id
  | closeAside before task =>
    exact keepsEndings_of_sessions_eq (w.sessions_closeAside before task)
  | _ => exact keepsEndings_of_sessions_eq rfl

theorem Step.keepsEndings {w w' : World} (h : Step w w') : w.KeepsEndings w' := by
  cases h with
  | change hf => exact hf.keepsEndings w
  | setSearchOrder id names =>
    exact keepsEndings_modifySession (f := ({ · with searchOrder := names })) (fun h => h) w id

/-- The worlds through which steps lead, from the first to the last. -/
structure Passage (w w' : World) (moments : List World) : Prop where
  starts : moments.head? = some w
  ends : moments.getLast? = some w'
  steps : moments.IsChain Step

theorem Passage.pairwise {w w' : World} {moments : List World} (h : Passage w w' moments) :
    moments.Pairwise KeepsEndings :=
  (h.steps.imp fun _ _ => Step.keepsEndings).pairwise

namespace Leads

theorem refl (w : World) : Leads w w :=
  Relation.ReflTransGen.refl

theorem trans {w w₁ w₂ : World} (h : Leads w w₁) (h' : Leads w₁ w₂) : Leads w w₂ :=
  Relation.ReflTransGen.trans h h'

theorem change {f : World → World} (hf : Change f) (w : World) : Leads w (f w) :=
  .single (.change hf w)

theorem keepsEndings {w w' : World} (h : Leads w w') : w.KeepsEndings w' := by
  induction h with
  | refl => exact keepsEndings_of_sessions_eq rfl
  | tail _ hstep ih => exact fun _ _ hended => hstep.keepsEndings (ih hended)

theorem exists_passage {w w' : World} (h : Leads w w') : ∃ moments, Passage w w' moments := by
  obtain ⟨l, hchain, hlast⟩ := List.exists_isChain_cons_of_relationReflTransGen h
  exact ⟨w :: l, rfl, by rw [List.getLast?_eq_some_getLast (List.cons_ne_nil _ _), hlast], hchain⟩

end Leads
end World

/-! ### Runs go by steps -/

namespace Script
open World (Leads)

/-- The run changes the world by steps. -/
def Walks {α : Type} (x : Script α) : Prop :=
  ∀ w, Leads w (x w).world

namespace Walks
variable {α β : Type}

theorem bind {x : Script α} {f : α → Script β} (hx : x.Walks) (hf : ∀ a, (f a).Walks) :
    (x >>= f).Walks := by
  intro w
  have h := hx w
  rw [bind_apply]
  generalize x w = o at h ⊢
  cases o with
  | done a w₁ => exact h.trans (hf a w₁)
  | failed e w₁ => exact h
  | exited code w₁ => exact h
  | exhausted w₁ => exact h

theorem of_world_eq {x : Script α} {y : Script β} (hx : x.Walks)
    (hworld : ∀ w, (y w).world = (x w).world) : y.Walks := by
  intro w
  rw [hworld]
  exact hx w

theorem mapError {x : Script α} (hx : x.Walks) (f : ScriptError → ScriptError) :
    (x.mapError f).Walks := by
  refine hx.of_world_eq fun w => ?_
  unfold Script.mapError
  cases x w <;> rfl

theorem quietly {x : Script α} (hx : x.Walks) : x.quietly.Walks := by
  refine hx.of_world_eq fun w => ?_
  unfold Script.quietly
  cases x w <;> rfl

theorem afterwards {x : Script α} {f : World → World} (hf : World.Change f) (hx : x.Walks) :
    (x.afterwards f).Walks := by
  intro w
  have hworld : ((x.afterwards f) w).world = f (x w).world := by
    unfold Script.afterwards
    cases x w <;> rfl
  rw [hworld]
  exact (hx w).trans (.change hf _)

end Walks

theorem isClosed_walks : IsClosed Walks where
  pure _ w := .refl w
  bind := .bind
  fail _ w := .refl w
  exit _ w := .refl w
  exhausted w := .refl w
  read _ w := .refl w
  change hf w := .change hf w
  mapError f hx := hx.mapError f
  quietly := .quietly
  afterwards := .afterwards

end Script

/-! ### The shell and the script go by steps -/

section
open World (Leads)
variable {eval : Evaluator} {h : Handle}

theorem Shell.leads_reply (heval : ∀ line, (eval h line).Walks) (line : String) (w : World) :
    Leads w (reply eval h line w).2 := by
  have hline := heval (Text.dropLineEnd line) w
  rw [reply]
  generalize eval h (Text.dropLineEnd line) w = o at hline ⊢
  cases o with
  | done v w₁ =>
    have hshown : Leads w₁ (if w₁.environment.isEnabled Environment.echo then
        w₁.write .shell (w₁.display v ++ "\n") else w₁) := by
      split
      · exact .change (.write _ _) w₁
      · exact .refl w₁
    exact (hline.trans hshown).trans (.change (.setLast h.session v) _)
  | failed e w₁ => exact hline.trans (.change (.write _ _) w₁)
  | exited code w₁ => exact hline
  | exhausted w₁ => exact hline

theorem Shell.leads_run (heval : ∀ line, (eval h line).Walks) (place : Place) (input : Input)
    (w : World) : Leads w (run eval place h input w).2 := by
  induction input generalizing w with
  | nil =>
    rw [run]
    split
    · exact .refl w
    · exact .change (.write _ _) w
  | cons line rest ih =>
    have hprompt : Leads w (w.write .shell (prompt place w)) := .change (.write _ _) w
    cases line with
    | none =>
      rw [run]
      split
      · exact .refl w
      · exact hprompt
    | some s =>
      have hreply := hprompt.trans (leads_reply heval s _)
      rw [run]
      split
      · exact .refl w
      split
      · rename_i w₁ hended
        rw [hended] at hreply
        exact hreply.trans (ih w₁)
      · rename_i halt w₁ hended
        rwa [hended] at hreply

theorem ScriptFile.leads_perform (heval : ∀ line, (eval h line).Walks) (number : Nat)
    (line : String) (w : World) : Leads w (perform eval h number line w).2 := by
  have hline := heval line w
  rw [perform]
  generalize eval h line w = o at hline ⊢
  cases o with
  | done v w₁ => exact hline.trans (.change (.setLast h.session v) w₁)
  | failed e w₁ =>
    exact (hline.trans (.change (.write _ _) w₁)).trans (.change (.write _ _) _)
  | exited code w₁ => exact hline
  | exhausted w₁ => exact hline

theorem ScriptFile.leads_runFrom (heval : ∀ line, (eval h line).Walks) (place : Place)
    (number executed : Nat) (lines : List String) (input : Input) (w : World) :
    Leads w (runFrom eval place h number executed lines input w).2 := by
  induction lines generalizing number executed input w with
  | nil => exact .refl w
  | cons line lines ih =>
    rw [runFrom]
    split
    · exact .refl w
    cases lineKind line with
    | skipped => exact ih _ _ _ w
    | shell =>
      have hshell := Shell.leads_run heval place input w
      dsimp only
      split
      · rename_i rest w₁ hended
        rw [hended] at hshell
        exact hshell.trans (ih _ _ rest w₁)
      · rename_i halt w₁ hended
        rwa [hended] at hshell
    | code =>
      have hline := leads_perform heval number line w
      dsimp only
      split
      · rename_i w₁ hended
        rw [hended] at hline
        exact hline.trans (ih _ _ _ w₁)
      · rename_i w₁ hended
        rwa [hended] at hline
      · rename_i halt w₁ hended
        rwa [hended] at hline

end

/-! ### What is asked of a session -/

/-- What can be asked of a session, and that the launched lines be waited for. -/
inductive Request where
  | terminate (v : Value)
  | line (line : String)
  | sequence (lines : List String)
  | deferred (raw : String)
  | script (source : String) (input : Input)
  | shell (input : Input)
  | wait

namespace Request
open Evaluation
open World (Leads)

/-- The world that a request leaves, however it ends. -/
def leave (engine : Engine) (fuel levels : Nat) (h : Handle) : Request → World → World
  | terminate v, w => (w.terminate h.session v).2
  | line s, w => (engine.evaluate fuel levels h s w).world
  | sequence lines, w => (Evaluation.sequence (engine.evaluate fuel levels) h lines w).world
  | deferred raw, w => (Evaluation.deferred (engine.evaluate fuel levels) h (.text raw) w).world
  | script source input, w =>
    (ScriptFile.run (engine.evaluate fuel levels) engine.place h source input w).2
  | shell input, w => (Shell.run (engine.evaluate fuel levels) engine.place h input w).2
  | wait, w => (engine.waiting fuel w).world

/-- The world that some requests leave, one after another, each on a handle. -/
def leaveAll (engine : Engine) (fuel levels : Nat) (history : List (Handle × Request))
    (w : World) : World :=
  history.foldl (fun w asked => asked.2.leave engine fuel levels asked.1 w) w

variable {engine : Engine}

theorem leaveAll_append (fuel levels : Nat) (history later : List (Handle × Request)) (w : World) :
    leaveAll engine fuel levels (history ++ later) w =
      leaveAll engine fuel levels later (leaveAll engine fuel levels history w) :=
  List.foldl_append

theorem leads_leave (hcustoms : engine.registry.CustomsHave Script.Walks) (fuel levels : Nat)
    (h : Handle) (request : Request) (w : World) :
    Leads w (request.leave engine fuel levels h w) := by
  have heval : ∀ fuel levels h line, (engine.evaluate fuel levels h line).Walks :=
    Script.isClosed_walks.evaluate hcustoms
  cases request with
  | terminate v => exact .change (.terminate h.session v) w
  | line s => exact heval fuel levels h s w
  | sequence lines =>
    exact Script.isClosed_walks.sequenceFrom (heval fuel levels) h 1 .null lines w
  | deferred raw => exact heval fuel levels h _ w
  | script source input => exact ScriptFile.leads_runFrom (heval fuel levels h) _ 1 0 _ input w
  | shell input => exact Shell.leads_run (heval fuel levels h) _ input w
  | wait =>
    cases fuel with
    | zero =>
      exact settle_of_isClosed Script.isClosed_walks
        (fun _ _ => Script.isClosed_walks.exhausted) 0 w
    | succ fuel =>
      exact settle_of_isClosed Script.isClosed_walks (heval fuel recursionLimit) (fuel + 1) w

theorem leads_leaveAll (hcustoms : engine.registry.CustomsHave Script.Walks) (fuel levels : Nat)
    (history : List (Handle × Request)) (w : World) :
    Leads w (leaveAll engine fuel levels history w) := by
  induction history generalizing w with
  | nil => exact .refl w
  | cons asked history ih =>
    exact (leads_leave hcustoms fuel levels asked.1 asked.2 w).trans (ih _)

end Request

/-! ### After the end -/

theorem Value.eq_text_of_text? {v : Value} {s : String} (h : v.text? = some s) : v = .text s := by
  cases v with
  | text s' => exact congrArg Value.text (Option.some.inj h)
  | _ => cases h

theorem Session.terminate_of_ending {s : Session} {v : Value} (hended : s.ending = some v)
    (u : Value) : s.terminate u = s := by
  rw [terminate, hended, Option.getD_some, ← hended]

namespace World
variable {w : World} {id : Nat} {v : Value}

theorem terminate_of_ending (hended : w.ending id = some v) (u : Value) :
    w.terminate id u = (v, w) := by
  have hid : id < w.sessions.size := by
    by_contra hid
    simp [ending, session, hid] at hended
  have hsession : w.sessions[id].ending = some v := by
    simpa [ending, session, hid] using hended
  have hsessions : w.sessions.modify id (·.terminate u) = w.sessions := by
    refine Array.ext (by simp) fun i hi hi' => ?_
    rw [Array.getElem_modify]
    split
    · rename_i heq
      subst heq
      exact Session.terminate_of_ending hsession u
    · rfl
  rw [terminate, modifySession, hsessions, hended, Option.getD_some]

end World

section
variable {engine : Engine} {eval : Evaluator} {place : Place} {h : Handle} {w : World} {v : Value}

theorem Evaluation.evaluateLevel_of_ending (hended : w.ending h.session = some v) (fuel : Nat)
    (waiting : Script Unit) (lower : Option Evaluator) (line : String) :
    evaluateLevel engine fuel waiting lower h line w = .done v w := by
  rw [evaluateLevel, Script.bind_apply, Script.read_apply, hended]
  rfl

theorem Engine.evaluate_of_ending (hended : w.ending h.session = some v) (fuel levels : Nat)
    (line : String) : engine.evaluate fuel levels h line w = .done v w := by
  cases levels with
  | zero => rw [evaluate_zero, Evaluation.evaluateLevel_of_ending hended]
  | succ levels => rw [evaluate_succ, Evaluation.evaluateLevel_of_ending hended]

theorem Shell.run_of_ending (hended : w.ending h.session = some v) (input : Input) :
    run eval place h input w = (.ok input, w) := by
  cases input with
  | nil => rw [run, hended, Option.isSome_some, if_pos rfl]
  | cons line rest => cases line <;> rw [run, hended, Option.isSome_some, if_pos rfl]

theorem ScriptFile.runFrom_of_ending (hended : w.ending h.session = some v)
    (number executed : Nat) (lines : List String) (input : Input) :
    runFrom eval place h number executed lines input w = (.ok { executed }, w) := by
  cases lines with
  | nil => rw [runFrom]
  | cons line lines => rw [runFrom, hended, Option.isSome_some, if_pos rfl]

/-- A sequence at whose end the session is terminated gives the terminating value. -/
theorem Evaluation.eq_of_sequenceFrom_eq_done {number : Nat} {last r : Value}
    {lines : List String} {w' : World}
    (hdone : sequenceFrom eval h number last lines w = .done r w')
    (hended : w'.ending h.session = some v) : r = v := by
  induction lines generalizing number last w with
  | nil =>
    rw [sequenceFrom, Script.read_apply] at hdone
    obtain ⟨rfl, rfl⟩ := Outcome.done.inj hdone
    rw [hended, Option.getD_some]
  | cons line lines ih =>
    -- a line that terminates the session is noticed before the next line
    cases hnow : w.ending h.session with
    | some u =>
      rw [sequenceFrom_of_ending hnow] at hdone
      obtain ⟨rfl, rfl⟩ := Outcome.done.inj hdone
      exact Option.some.inj (hnow.symm.trans hended)
    | none =>
      cases hblank : Text.isAllBlank line with
      | true => exact ih (sequenceFrom_of_blank hnow hblank number last lines ▸ hdone)
      | false =>
        rw [sequenceFrom_of_not_blank hnow hblank] at hdone
        split at hdone
        · exact ih hdone
        all_goals cases hdone

end

/-- Whatever is asked of a session gives the value with which it is terminated, and changes nothing:
a script runs no line, and a shell reads and writes nothing. -/
structure World.Refuses (engine : Engine) (h : Handle) (v : Value) (w : World) : Prop where
  terminate (u : Value) : w.terminate h.session u = (v, w)
  line (fuel levels : Nat) (s : String) : engine.evaluate fuel levels h s w = .done v w
  sequence (fuel levels : Nat) (lines : List String) :
    Evaluation.sequence (engine.evaluate fuel levels) h lines w = .done v w
  deferred (fuel levels : Nat) (raw : String) :
    Evaluation.deferred (engine.evaluate fuel levels) h (.text raw) w = .done v w
  script (fuel levels : Nat) (source : String) (input : Input) :
    ScriptFile.run (engine.evaluate fuel levels) engine.place h source input w =
      (.ok { executed := 0, failedAt := none }, w)
  shell (fuel levels : Nat) (input : Input) :
    Shell.run (engine.evaluate fuel levels) engine.place h input w = (.ok input, w)

theorem World.refuses_of_ending {h : Handle} {v : Value} {w : World}
    (hended : w.ending h.session = some v) (engine : Engine) : w.Refuses engine h v where
  terminate u := terminate_of_ending hended u
  line fuel levels s := Engine.evaluate_of_ending hended fuel levels s
  sequence _ _ lines := Evaluation.sequenceFrom_of_ending hended 1 .null lines
  deferred fuel levels _ := Engine.evaluate_of_ending hended fuel levels _
  script _ _ _ input := ScriptFile.runFrom_of_ending hended 1 0 _ input
  shell _ _ input := Shell.run_of_ending hended input

namespace Request

/-- Termination is final. Whatever has been asked of the sessions of a world, of which lines may
nest, loop, run blocks, launch lines and terminate sessions anywhere: the world went through
moments, each a step from the one before, and a terminating value of one moment stands in all later
ones; it stands whatever is asked from then on; what is asked of a terminated session is refused;
and a sequence of lines at whose end the session is terminated gives the terminating value. The
commands of the host program must change the world by the operations that a session offers. -/
theorem endings_are_final {engine : Engine}
    (hcustoms : engine.registry.CustomsHave Script.Walks) (fuel levels : Nat)
    (history : List (Handle × Request)) (w₀ : World) :
    (∃ moments, World.Passage w₀ (leaveAll engine fuel levels history w₀) moments ∧
      moments.Pairwise World.KeepsEndings) ∧
    (∀ later, (leaveAll engine fuel levels history w₀).KeepsEndings
      (leaveAll engine fuel levels (history ++ later) w₀)) ∧
    (∀ (h : Handle) (v : Value),
      (leaveAll engine fuel levels history w₀).ending h.session = some v →
        (leaveAll engine fuel levels history w₀).Refuses engine h v) ∧
    ∀ (fuel' levels' : Nat) (h : Handle) (lines : List String) (r v : Value) (w' : World),
      Evaluation.sequence (engine.evaluate fuel' levels') h lines
        (leaveAll engine fuel levels history w₀) = .done r w' →
      w'.ending h.session = some v → r = v := by
  refine ⟨?_, fun later => ?_, fun h v hended => World.refuses_of_ending hended engine, ?_⟩
  · obtain ⟨moments, hpassage⟩ :=
      (leads_leaveAll hcustoms fuel levels history w₀).exists_passage
    exact ⟨moments, hpassage, hpassage.pairwise⟩
  · rw [leaveAll_append]
    exact (leads_leaveAll hcustoms fuel levels later _).keepsEndings
  · intro fuel' levels' h lines r v w' hdone hended
    exact Evaluation.eq_of_sequenceFrom_eq_done hdone hended

/-- A line that is deferred terminates the session inside an argument; then another line tries to
terminate it anew. -/
def exitTwice : List (Handle × Request) :=
  [({ session := 0 }, .line "RunIf true StoreValue a \x7bExit first\x7d"),
    ({ session := 0 }, .sequence ["Exit second"])]

/-- The first of two terminating values stands, and the session refuses what is asked of it. -/
theorem endings_are_final_exitTwice :
    (leaveAll (Program.standardEngine default) 1 3 exitTwice (.start {})).ending 0 =
      some (.text "first") ∧
    (leaveAll (Program.standardEngine default) 1 3 exitTwice (.start {})).Refuses
      (Program.standardEngine default) { session := 0 } (.text "first") := by
  have htext : ((leaveAll (Program.standardEngine default) 1 3 exitTwice (.start {})).ending 0).bind
      Value.text? = some "first" := by decide +kernel
  have hended : (leaveAll (Program.standardEngine default) 1 3 exitTwice (.start {})).ending 0 =
      some (.text "first") := by
    obtain ⟨v, hv, hfirst⟩ := Option.bind_eq_some_iff.1 htext
    rw [hv, Value.eq_text_of_text? hfirst]
  have hfinal := @endings_are_final (Program.standardEngine default)
    (Registry.customsHave_standard _) 1 3 exitTwice (.start {})
  exact ⟨hended, hfinal.2.2.1 { session := 0 } _ hended⟩

end Request

end BraceScript
