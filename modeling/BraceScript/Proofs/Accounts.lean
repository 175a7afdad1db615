import BraceScript.Proofs.Events
import BraceScript.Proofs.ModestChanges
import BraceScript.Proofs.ScriptSequence

/-!
# Accounts of an evaluation

An account relates the tasks that a run has in hand, the world it starts in, its events, the world
it leaves, and the tasks in its value. Accounts are put together like runs (`IsAccount`): a calm
change has no events, a leaf command that answers is one event, one account goes on where another
ends, a start counts one run of its block, a launch gives the next number, and what a launched line
writes aside is not part of the output. An account that does not look at what is stored holds of
every modest change (`IsModestAccount`), and so of every leaf command.

Whatever is such an account holds between every evaluation and its log (`IsAccount.evaluate`,
`IsAccount.waiting`). The proof goes through the evaluator function by function, as the log does.
-/

namespace BraceScript

/-- The number of the launch, where the event is one. -/
def Event.task? : Event → Option Nat
  | executed _ (.control .asynchronize) (_ :: _) w => some (w.launches.size + 1)
  | _ => none

abbrev Account :=
  (known : List Nat) → World → List Event → World → (given : List Nat) → Prop

/-- The relation follows the way in which runs are put together. -/
structure IsAccount (A : Account) : Prop where
  calm {known given : List Nat} {w w' : World} (hw : w.Calm known w')
    (hgiven : given ⊆ known ++ w.tasks) : A known w [] w' given
  answered {place : Place} {h : Handle} {command : Leaf} {args : List Value} {v : Value}
    {w w' : World} : command.Does place h args w v w' →
      A (Value.itemTasks args) w [.executed h (.leaf command) args w] w' v.tasks
  trans {known given given' : List Nat} {w w₁ w₂ : World} {es es' : List Event} :
    A known w es w₁ given → A (given ++ known) w₁ es' w₂ given' → A known w (es ++ es') w₂ given'
  mono {known known' given given' : List Nat} {w w' : World} {es : List Event} :
    known ⊆ known' → given' ⊆ given → A known w es w' given → A known' w es w' given'
  started {known given : List Nat} {w w' : World} {es : List Event} (id : Nat) :
    A known (w.countRun id) es w' given → A known w (.started id w :: es) w' given
  executed {known given : List Nat} {w w' : World} {es : List Event} {h : Handle}
    {command : Command} {args : List Value} :
    (Event.executed h command args w).task? = none → A known w es w' given →
      A known w (.executed h command args w :: es) w' given
  launched {known : List Nat} {w : World} (h : Handle) (args : List Value) : args ≠ [] →
    A known w [.executed h (.control .asynchronize) args w] (w.launch h (w.joinSource args)).2
      [w.launches.size + 1]
  aside {given : List Nat} {w w' : World} {es : List Event} (task : Nat) :
    A [] { w with written := #[] } es w' given → A [] w es (w'.closeAside w.written task) []

/-- An account that every modest change has. -/
structure IsModestAccount (A : Account) : Prop extends IsAccount A where
  modest {known given : List Nat} {w w' : World} (hw : w.Modest known w')
    (hgiven : given ⊆ known ++ w.tasks) : A known w [] w' given
  calm hw hgiven := modest hw.toModest hgiven
  answered hdoes := executed rfl (modest hdoes.modest.1 hdoes.modest.2)

/-- The tasks in the value of a run, where it ends with one. -/
def Outcome.given {α : Type} (tasks : α → List Nat) : Outcome α → List Nat
  | done a _ => tasks a
  | _ => []

/-- The account holds between the run and its log, from every world. -/
def Script.Accounted {α : Type} (A : Account) (known : List Nat) (tasks : α → List Nat)
    (x : Script α) (log : Log) : Prop :=
  ∀ w, A known w (log w) (x w).world ((x w).given tasks)

/-- A value without tasks. -/
def noTasks {α : Type} (_ : α) : List Nat := []

namespace Outcome
variable {α : Type}

theorem given_noTasks (o : Outcome α) : o.given noTasks = [] := by
  cases o <;> rfl

theorem world_mapWorld (o : Outcome α) (f : World → World) : (o.mapWorld f).world = f o.world := by
  cases o <;> rfl

end Outcome

namespace Log
variable {α β : Type}

theorem andThen_nothing (log : Log) (x : Script α) : (log.andThen x fun _ => nothing) = log := by
  funext w
  rw [andThen]
  cases x w <;> exact List.append_nil _

theorem andThen_within (log : Log) (x : Script α) (frame : Frame) (next : α → Log) :
    log.andThen (x.within frame) next = log.andThen x next := by
  funext w
  rw [andThen, andThen, Script.within_apply]
  cases x w <;> rfl

end Log

namespace IsAccount
open Evaluation

variable {A : Account} {α β : Type} {known : List Nat} {t : α → List Nat}

/-! ### Ways of putting runs together -/

theorem quiet (hA : IsAccount A) {x : Script α}
    (hx : ∀ w, w.Calm known (x w).world ∧ (x w).given t ⊆ known ++ w.tasks) :
    x.Accounted A known t .nothing :=
  fun w => hA.calm (hx w).1 (hx w).2

theorem same (hA : IsAccount A) (w : World) : A known w [] w [] :=
  hA.calm (.refl known w) (List.nil_subset _)

theorem pure (hA : IsAccount A) {a : α} (ha : t a ⊆ known) :
    (Pure.pure a : Script α).Accounted A known t .nothing :=
  hA.quiet fun w => ⟨.refl known w, List.subset_append_of_subset_left _ ha⟩

theorem fail (hA : IsAccount A) (e : ScriptError) :
    (Script.fail e : Script α).Accounted A known t .nothing :=
  fun w => hA.same w

theorem read (hA : IsAccount A) {f : World → α} (hf : ∀ w, t (f w) ⊆ known ++ w.tasks) :
    (Script.read f).Accounted A known t .nothing :=
  hA.quiet fun w => ⟨.refl known w, hf w⟩

theorem change (hA : IsAccount A) {f : World → World} (hf : ∀ w : World, w.Calm known (f w)) :
    (Script.change f).Accounted A known noTasks .nothing :=
  hA.quiet fun w => ⟨hf w, List.nil_subset _⟩

theorem known_mono (hA : IsAccount A) {known' : List Nat} (hknown : known ⊆ known') {x : Script α}
    {log : Log} (hx : x.Accounted A known t log) : x.Accounted A known' t log :=
  fun w => hA.mono hknown (fun _ h => h) (hx w)

theorem of_nil (hA : IsAccount A) {x : Script α} {log : Log} (hx : x.Accounted A [] t log) :
    x.Accounted A known t log :=
  hA.known_mono (List.nil_subset known) hx

theorem bind (hA : IsAccount A) {t' : β → List Nat} {x : Script α} {f : α → Script β}
    {log : Log} {next : α → Log} (hx : x.Accounted A known t log)
    (hf : ∀ a, (f a).Accounted A (t a ++ known) t' (next a)) :
    (x >>= f).Accounted A known t' (log.andThen x next) := by
  intro w
  have hfirst := hx w
  rw [Log.andThen, Script.bind_apply]
  generalize x w = o at hfirst ⊢
  cases o with
  | done a w₁ => exact hA.trans hfirst (hf a w₁)
  | failed e w₁ => exact hA.trans hfirst (hA.same w₁)
  | exited code w₁ => exact hA.trans hfirst (hA.same w₁)
  | exhausted w₁ => exact hA.trans hfirst (hA.same w₁)

/-- What follows has no events. -/
theorem bind_quiet (hA : IsAccount A) {t' : β → List Nat} {x : Script α} {f : α → Script β}
    {log : Log} (hx : x.Accounted A known t log)
    (hf : ∀ a, (f a).Accounted A (t a ++ known) t' .nothing) :
    (x >>= f).Accounted A known t' log := by
  rw [← log.andThen_nothing x]
  exact hA.bind hx hf

/-- What comes before has no events and leaves the world as it was. -/
theorem after_read (hA : IsAccount A) {t' : β → List Nat} {g : World → α} {f : α → Script β}
    {n : α → Log} (hg : ∀ w, t (g w) ⊆ known ++ w.tasks)
    (hf : ∀ a, (f a).Accounted A (t a ++ known) t' (n a)) :
    (Script.read g >>= f).Accounted A known t' fun w => n (g w) w :=
  hA.bind (hA.read hg) hf

theorem of_world_eq (hA : IsAccount A) {t' : β → List Nat} {x : Script α} {y : Script β}
    {log : Log} (hx : x.Accounted A known t log) (hworld : ∀ w, (y w).world = (x w).world)
    (hgiven : ∀ w, (y w).given t' ⊆ (x w).given t) : y.Accounted A known t' log := by
  intro w
  rw [hworld]
  exact hA.mono (fun _ h => h) (hgiven w) (hx w)

theorem mapError (hA : IsAccount A) {x : Script α} {log : Log} (f : ScriptError → ScriptError)
    (hx : x.Accounted A known t log) : (x.mapError f).Accounted A known t log := by
  refine hA.of_world_eq hx (fun w => ?_) fun w => ?_
  · rw [Script.mapError]
    cases x w <;> rfl
  · rw [Script.mapError]
    cases x w <;> exact fun _ h => h

theorem within (hA : IsAccount A) {x : Script α} {log : Log} (frame : Frame)
    (hx : x.Accounted A known t log) : (x.within frame).Accounted A known t log :=
  hA.mapError (·.within frame) hx

theorem quietly (hA : IsAccount A) {x : Script α} {log : Log}
    (hx : x.Accounted A known t log) : x.quietly.Accounted A known noTasks log := by
  refine hA.of_world_eq hx (fun w => ?_) fun w => ?_
  · rw [Script.quietly]
    cases x w <;> rfl
  · rw [Script.quietly]
    cases x w <;> exact List.nil_subset _

/-! ### Tokens, sequences and blocks -/

variable {eval : Evaluator} {log : Logger}

/-- The account holds of every line. -/
def Lines (A : Account) (eval : Evaluator) (log : Logger) : Prop :=
  ∀ h line, (eval h line).Accounted A [] Value.tasks (log h line)

theorem resolve (hA : IsAccount A) (heval : Lines A eval log) (h : Handle)
    (reference : Token.Reference) :
    (resolve eval h reference).Accounted A [] Value.tasks (resolveLog log h reference) := by
  cases reference with
  | nested line => exact heval h line
  | named name =>
    refine hA.quiet fun w => ?_
    show w.Calm [] (lookUp h name w).world ∧ _
    rw [Evaluation.resolve, lookUp]
    cases hv : w.valueOf? h.session name with
    | none => exact ⟨.refl _ w, List.nil_subset _⟩
    | some v => exact ⟨.refl _ w, World.tasks_subset_of_valueOf? hv⟩

theorem argument (hA : IsAccount A) (heval : Lines A eval log) (h : Handle) (pre : PreEvaluation)
    (position : Nat) (t : Token) :
    (argument eval h pre position t).Accounted A [] Value.tasks
      (argumentLog log h pre position t) := by
  have htext : ∀ s : String, (Pure.pure (.text s) : Script Value).Accounted A [] Value.tasks
      .nothing := fun s => hA.pure (List.nil_subset _)
  cases t with
  | null => exact hA.pure (List.nil_subset _)
  | word raw =>
    rw [Evaluation.argument, substitute, argumentLog]
    split
    · cases Token.reference? raw with
      | some reference => exact hA.resolve heval h reference
      | none => exact htext raw
    · exact htext raw

theorem arguments (hA : IsAccount A) (heval : Lines A eval log) (h : Handle) (pre : PreEvaluation)
    (line : String) (position : Nat) (tokens : List Token) :
    (arguments eval h pre line position tokens).Accounted A known Value.itemTasks
      (argumentsLog eval log h pre position tokens) := by
  -- the tasks in hand grow by those of each value, so the induction is over all of them
  induction tokens generalizing position known with
  | nil => exact hA.pure (List.nil_subset _)
  | cons t tokens ih =>
    rw [arguments_cons, argumentsLog, ← Log.andThen_within _ _ (.argument position line)]
    refine hA.bind (hA.within _ (hA.of_nil (hA.argument heval h pre position t))) fun v => ?_
    refine hA.bind_quiet (ih (position + 1)) fun vs => hA.pure ?_
    rw [Value.itemTasks]
    refine List.append_subset.2 ⟨?_, List.subset_append_left _ _⟩
    exact List.subset_append_of_subset_right _ (List.subset_append_left _ _)

theorem deferred (hA : IsAccount A) (heval : Lines A eval log) (h : Handle) (v : Value) :
    (deferred eval h v).Accounted A v.tasks Value.tasks (deferredLog log h v) := by
  cases v with
  | text raw => exact heval h _
  | _ => exact hA.pure fun _ h => h

theorem sequenceFrom (hA : IsAccount A) (heval : Lines A eval log) (h : Handle) (number : Nat)
    {last : Value} (hlast : last.tasks ⊆ known) (lines : List String) :
    (sequenceFrom eval h number last lines).Accounted A known Value.tasks
      (sequenceLog eval log h lines) := by
  induction lines generalizing number last known with
  | nil =>
    refine hA.read fun w => ?_
    cases hended : w.ending h.session with
    | none => exact List.subset_append_of_subset_left _ hlast
    | some v => exact List.subset_append_of_subset_right _ (World.tasks_subset_of_ending hended)
  | cons line lines ih =>
    intro w
    cases hended : w.ending h.session with
    | some v =>
      simp only [sequenceFrom_of_ending hended, sequenceLog, hended, Option.isSome_some, if_true]
      refine hA.calm (.refl known w) ?_
      exact List.subset_append_of_subset_right _ (World.tasks_subset_of_ending hended)
    | none =>
      cases hblank : Text.isAllBlank line with
      | true =>
        simp only [sequenceFrom_of_blank hended hblank, sequenceLog, hended, hblank, if_true,
          Option.isSome_none, Bool.false_eq_true, if_false]
        exact ih (number + 1) hlast w
      | false =>
        have hline : A known w _ _ _ := hA.of_nil (heval h line) w
        simp only [sequenceFrom_of_not_blank hended hblank, sequenceLog, hended, hblank,
          Option.isSome_none, Bool.false_eq_true, if_false, Log.andThen]
        generalize eval h line w = o at hline ⊢
        cases o with
        | done v w₁ =>
          have hv : v.tasks ⊆ v.tasks ++ known := List.subset_append_left _ _
          have hset : A (v.tasks ++ known) w₁ [] (w₁.setLast h.session v) [] :=
            hA.calm (.setLast w₁ h.session hv) (List.nil_subset _)
          exact hA.trans hline (hA.trans hset (ih (number + 1) hv _))
        | failed e w₁ => exact hA.trans hline (hA.same w₁)
        | exited code w₁ => exact hA.trans hline (hA.same w₁)
        | exhausted w₁ => exact hA.trans hline (hA.same w₁)

theorem sequence (hA : IsAccount A) (heval : Lines A eval log) (h : Handle)
    (lines : List String) :
    (sequence eval h lines).Accounted A [] Value.tasks (sequenceLog eval log h lines) :=
  hA.sequenceFrom heval h 1 (List.nil_subset _) lines

theorem runBlock (hA : IsAccount A) (heval : Lines A eval log) (h : Handle) (id : Nat) :
    (runBlock eval h id).Accounted A [] Value.tasks (blockLog eval log h id) := by
  intro w
  exact hA.started id (hA.within _ (hA.sequence heval _ _) (w.countRun id))

theorem runBound (hA : IsAccount A) (heval : Lines A eval log) (id : Nat) :
    (runBound eval id).Accounted A [] Value.tasks (boundLog eval log id) := by
  intro w
  rw [Evaluation.runBound, boundLog, Script.bind_apply, Script.read_apply]
  dsimp only
  rw [Script.bind_apply, Script.read_apply]
  cases liveHandle? w (w.block id) with
  | some h => exact hA.runBlock heval h id w
  | none => exact hA.same w

theorem openBlock (hA : IsAccount A) (h : Handle) (name : String) :
    (openBlock h name).Accounted A known noTasks .nothing := by
  intro w
  rw [Evaluation.openBlock]
  cases w.valueOf? h.session (Block.slot name) with
  | none => exact hA.calm (.makeBlock known w h.session name) (List.nil_subset _)
  | some v => cases v <;> exact hA.same w

/-! ### Host calls -/

/-- The account holds of what the host adds: its commands, which have no events of their own, and
its methods, which take the target and the arguments and give a value. -/
structure Host (A : Account) (engine : Engine) : Prop where
  custom {searchOrder : List String} {name qualified : String} {pre : PreEvaluation}
    {run : Handle → List Value → Script Value} :
    engine.registry.resolve? searchOrder name = some (qualified, .custom pre run) →
      ∀ h args, (run h args).Accounted A (Value.itemTasks args) Value.tasks .nothing
  compute {target : Value} {method : String} {args : List Value} {call : Catalog.Call}
    {run : Array Block → Value → List HostArgument → Except HostFault Value} :
    engine.hosts.resolve target method args = .ok call → call.method.action = .compute run →
      ∀ {w : World} {v : Value}, run w.blocks target call.arguments = .ok v →
        A (target.tasks ++ Value.itemTasks args) w [] w v.tasks

variable {engine : Engine}

theorem invoke (hA : IsAccount A) (hhost : Host A engine) (heval : Lines A eval log)
    (target : Value) (method : String) (args : List Value) :
    (invoke eval engine.hosts target method args).Accounted A
      (target.tasks ++ Value.itemTasks args) Value.tasks
      (invokeLog eval log engine.hosts target method args) := by
  rw [invokeLog]
  cases hresolve : engine.hosts.resolve target method args with
  | error e =>
    rw [Evaluation.invoke, hresolve]
    exact hA.fail e
  | ok call =>
    dsimp only
    cases haction : call.method.action with
    | compute run =>
      intro w
      rw [invoke_compute hresolve haction]
      cases hv : run w.blocks target call.arguments with
      | ok v => exact hhost.compute hresolve haction hv
      | error fault => exact hA.same w
    | runBlock =>
      cases target with
      | block id =>
        rw [invoke_block hresolve haction]
        exact hA.of_nil (hA.mapError _ (hA.runBound heval id))
      | _ =>
        rw [Evaluation.invoke, hresolve]
        dsimp only
        rw [haction]
        exact hA.fail _
    | isAlive =>
      rw [Evaluation.invoke, hresolve]
      dsimp only
      rw [haction]
      cases target with
      | task id => exact hA.read fun _ => List.nil_subset _
      | _ => exact hA.fail _

/-! ### Control commands -/

theorem test (hA : IsAccount A) (heval : Lines A eval log) (h : Handle) (condition : Value) :
    (test eval h condition).Accounted A [] noTasks (deferredLog log h condition) := by
  cases condition with
  | boolean b => exact hA.pure (List.nil_subset _)
  | text raw =>
    refine hA.bind_quiet (hA.within _ (hA.deferred heval h (.text raw))) fun v => ?_
    cases v with
    | boolean b => exact hA.pure (List.nil_subset _)
    | _ => exact hA.fail _
  | _ => exact hA.fail _

theorem passes (hA : IsAccount A) (h : Handle) {condition : Script Bool} {conditionLog : Log}
    {body : Nat → Script Value} {bodyLog : Nat → Log}
    (hcondition : condition.Accounted A [] noTasks conditionLog)
    (hbody : ∀ number, (body number).Accounted A [] Value.tasks (bodyLog number))
    (number fuel : Nat) :
    (passes h condition body number fuel).Accounted A known noTasks
      (passesLog h condition conditionLog body bodyLog number fuel) := by
  induction fuel generalizing number known with
  | zero => exact fun w => hA.same w
  | succ fuel ih =>
    have hpass : (do
        if ← condition then
          let _ ← body number
          Evaluation.passes h condition body (number + 1) fuel
        else return ()).Accounted A known noTasks
        (conditionLog.andThen condition fun holds =>
          if holds then (bodyLog number).andThen (body number) fun _ =>
            passesLog h condition conditionLog body bodyLog (number + 1) fuel
          else .nothing) := by
      refine hA.bind (hA.of_nil hcondition) fun holds => ?_
      split
      · exact hA.bind (hA.of_nil (hbody number)) fun _ => ih (number + 1)
      · exact hA.pure (List.nil_subset _)
    intro w
    rw [Evaluation.passes, passesLog, Script.bind_apply, Script.read_apply]
    dsimp only
    split
    · exact hA.same w
    · exact hpass w

theorem pass (hA : IsAccount A) (heval : Lines A eval log) {waiting : Script Unit}
    {waitingLog : Log} (hwaiting : waiting.Accounted A [] noTasks waitingLog) (h : Handle)
    (body : String) (number : Nat) :
    (pass eval waiting h body number).Accounted A [] Value.tasks
      (passLog eval log waitingLog h body number) := by
  rw [Evaluation.pass, passLog, ← Log.andThen_within _ _ .body]
  refine hA.bind (hA.within _ (heval h body)) fun v => ?_
  dsimp only
  split
  · refine hA.bind_quiet (hA.of_nil hwaiting) fun _ => hA.pure ?_
    exact List.subset_append_left _ _
  · exact hA.pure (List.subset_append_left _ _)

theorem runLoop (hA : IsAccount A) (heval : Lines A eval log) {waiting : Script Unit}
    {waitingLog : Log} (hwaiting : waiting.Accounted A [] noTasks waitingLog) (fuel : Nat)
    (h : Handle) (args : List Value) :
    (runLoop eval waiting fuel h args).Accounted A [] Value.tasks
      (loopLog eval log waiting waitingLog fuel h args) := by
  match args with
  | [] => exact hA.fail _
  | [_] => exact hA.fail _
  | condition :: first :: rest =>
    refine hA.after_read (t := noTasks)
      (n := fun body => passesLog h (Evaluation.test eval h condition)
        (deferredLog log h condition) (Evaluation.pass eval waiting h body)
        (passLog eval log waitingLog h body) 1 fuel) (fun _ => List.nil_subset _) fun body => ?_
    refine hA.bind_quiet (t := noTasks) ?_ fun _ => hA.pure (List.nil_subset _)
    exact hA.passes h (hA.test heval h condition) (hA.pass heval hwaiting h body) 1 fuel

theorem runBlockAction (hA : IsAccount A) (h : Handle) (name : String) {action : String}
    (haction : action ≠ "run") (code : List Value) :
    (runBlockAction eval h name action code).Accounted A [] Value.tasks .nothing := by
  have hopen : (Evaluation.openBlock h name).Accounted A [] noTasks .nothing := hA.openBlock h name
  unfold Evaluation.runBlockAction
  split
  · refine hA.bind_quiet (t := noTasks) ?_ fun _ => hA.pure (List.nil_subset _)
    exact hA.quiet fun w => ⟨.makeBlock [] w h.session name, List.nil_subset _⟩
  · refine hA.bind_quiet (t := noTasks) ?_ fun _ => hA.pure (List.nil_subset _)
    exact hA.change fun w => .removeVariable [] w h.session _
  · refine hA.read fun w => ?_
    refine Value.itemTasks_subset fun v hv => ?_
    obtain ⟨s, -, rfl⟩ := List.mem_map.1 hv
    exact List.nil_subset _
  · split
    · exact hA.fail _
    · refine hA.bind_quiet hopen fun id => ?_
      refine hA.bind_quiet (t := noTasks) (hA.read fun _ => List.nil_subset _) fun line => ?_
      refine hA.bind_quiet (hA.change fun w => ?_) fun _ => hA.pure (List.nil_subset _)
      exact .modifyBlock _ (f := (·.push line)) (fun _ => rfl)
        (fun b => List.prefix_append b.lines [line]) (fun _ => rfl) w id
  · refine hA.bind_quiet hopen fun id => ?_
    refine hA.bind_quiet (hA.change fun w => ?_) fun _ => hA.pure (List.nil_subset _)
    exact .modifyBlock _ (f := ({ · with bound := some h })) (fun _ => rfl)
      (fun _ => List.prefix_rfl) (fun _ => rfl) w id
  · exact hA.bind_quiet hopen fun _ => hA.pure (List.nil_subset _)
  · exact absurd rfl haction
  · exact hA.fail _

theorem runCodeblock (hA : IsAccount A) (heval : Lines A eval log) (h : Handle)
    (args : List Value) :
    (runCodeblock eval h args).Accounted A [] Value.tasks (codeblockLog eval log h args) := by
  unfold codeblockLog
  split
  · rename_i name code
    exact hA.bind (hA.openBlock h name) fun id => hA.of_nil (hA.runBlock heval h id)
  · rename_i hrun
    by_cases hargs : ∃ name action code, args = .text name :: .text action :: code
    · obtain ⟨name, action, code, rfl⟩ := hargs
      rw [runCodeblock_text]
      exact hA.runBlockAction h name (fun haction => hrun name code (by rw [haction])) code
    · have hshape : ∀ name action code, args ≠ .text name :: .text action :: code :=
        fun name action code heq => hargs ⟨name, action, code, heq⟩
      obtain ⟨e, hfail⟩ := exists_runCodeblock_eq_fail hshape
      rw [hfail]
      exact hA.fail e

theorem runRunIf (hA : IsAccount A) (heval : Lines A eval log) (h : Handle) (args : List Value) :
    (runRunIf eval h args).Accounted A [] Value.tasks (runIfLog log h args) := by
  match args with
  | [] => exact hA.fail _
  | [_] => exact hA.fail _
  | condition :: first :: rest =>
    rw [runRunIf_eq, runIfLog]
    cases Leaf.truth condition with
    | error c => exact hA.fail _
    | ok holds =>
      cases holds with
      | false => exact hA.pure (List.nil_subset _)
      | true => exact hA.after_read (t := noTasks) (fun _ => List.nil_subset _) (heval h)

theorem runInvoke (hA : IsAccount A) (hhost : Host A engine) (heval : Lines A eval log)
    (args : List Value) :
    (runInvoke eval engine.hosts args).Accounted A (Value.itemTasks args) Value.tasks
      (methodLog eval log engine.hosts args) := by
  unfold methodLog
  split
  · rename_i target method args
    rw [runInvoke_text]
    exact hA.invoke hhost heval target method args
  · rename_i hargs
    obtain ⟨e, hfail⟩ := exists_runInvoke_eq_fail hargs
    rw [hfail]
    exact hA.fail e

theorem leaf (hA : IsAccount A) (place : Place) (h : Handle) (command : Leaf) (args : List Value) :
    (command.run place h args).Accounted A (Value.itemTasks args) Value.tasks
      fun w => [.executed h (.leaf command) args w] := by
  intro w
  have hsame : A (Value.itemTasks args) w [.executed h (.leaf command) args w] w [] :=
    hA.executed rfl (hA.same w)
  exact (Leaf.run_checksFirst place h command args w).elim
    (P := fun o => A (Value.itemTasks args) w _ o.world (o.given Value.tasks))
    (fun _ _ hdoes => hA.answered hdoes) (fun _ => hsame) (fun _ => hsame) hsame

/-! ### Lines -/

/-- A command and, before that, the event of its execution. -/
theorem execute (hA : IsAccount A) (hhost : Host A engine) (heval : Lines A eval log) (fuel : Nat)
    {waiting : Script Unit} {waitingLog : Log}
    (hwaiting : waiting.Accounted A [] noTasks waitingLog) {searchOrder : List String}
    {name qualified : String} {command : Command}
    (hresolve : engine.registry.resolve? searchOrder name = some (qualified, command)) (h : Handle)
    (args : List Value) :
    (execute engine fuel waiting eval h command args).Accounted A (Value.itemTasks args) Value.tasks
      fun w => .executed h command args w ::
        commandLog engine fuel waiting waitingLog eval log h command args w := by
  intro w
  cases command with
  | leaf command => exact hA.leaf engine.place h command args w
  | custom pre run => exact hA.executed rfl (hhost.custom hresolve h args w)
  | control command =>
    cases command with
    | loop => exact hA.executed rfl (hA.of_nil (hA.runLoop heval hwaiting fuel h args) w)
    | codeblock => exact hA.executed rfl (hA.of_nil (hA.runCodeblock heval h args) w)
    | runIf => exact hA.executed rfl (hA.of_nil (hA.runRunIf heval h args) w)
    | asynchronize =>
      cases args with
      | nil => exact hA.executed rfl (hA.same w)
      | cons first rest => exact hA.launched h (first :: rest) (List.cons_ne_nil _ _)
    | invokeMethodOf => exact hA.executed rfl (hA.runInvoke hhost heval args w)

theorem dispatch (hA : IsAccount A) (hhost : Host A engine) (heval : Lines A eval log)
    (fuel : Nat) {waiting : Script Unit} {waitingLog : Log}
    (hwaiting : waiting.Accounted A [] noTasks waitingLog) (h : Handle) (line name : String)
    (tokens : List Token) :
    (dispatch engine fuel waiting eval h line name tokens).Accounted A [] Value.tasks
      (dispatchLog engine fuel waiting waitingLog eval log h line name tokens) := by
  intro w
  rw [Evaluation.dispatch, dispatchLog, Script.bind_apply, Script.read_apply]
  dsimp only
  cases hresolve : engine.registry.resolve? (w.session h.session).searchOrder name with
  | none => exact hA.same w
  | some found =>
    obtain ⟨qualified, command⟩ := found
    refine hA.bind (hA.arguments heval h command.preEvaluation line 0 tokens)
      (fun args => hA.within _ ?_) w
    exact hA.known_mono (List.subset_append_left _ _)
      (hA.execute hhost heval fuel hwaiting hresolve h args)

theorem guarded (hA : IsAccount A) {lower : Option (Evaluator × Logger)}
    (hlower : ∀ {eval log}, lower = some (eval, log) → Lines A eval log)
    {run : Evaluator → Script Value} {runLog : Evaluator → Logger → Log}
    (hrun : ∀ {eval log}, Lines A eval log →
      (run eval).Accounted A [] Value.tasks (runLog eval log)) :
    (guarded (lower.map Prod.fst) run).Accounted A [] Value.tasks (guardedLog lower runLog) := by
  cases lower with
  | none => exact hA.fail _
  | some inner => exact hrun (hlower rfl)

theorem evaluateLevel (hA : IsAccount A) (hhost : Host A engine)
    (lower : Option (Evaluator × Logger))
    (hlower : ∀ {eval log}, lower = some (eval, log) → Lines A eval log) (fuel : Nat)
    {waiting : Script Unit} {waitingLog : Log}
    (hwaiting : waiting.Accounted A [] noTasks waitingLog) (h : Handle) (line : String) :
    (evaluateLevel engine fuel waiting (lower.map Prod.fst) h line).Accounted A [] Value.tasks
      (lineLog engine fuel waiting waitingLog lower h line) := by
  intro w
  rw [Evaluation.evaluateLevel, lineLog, Script.bind_apply, Script.read_apply]
  dsimp only
  cases hended : w.ending h.session with
  | some v => exact hA.calm (.refl _ w) (World.tasks_subset_of_ending hended)
  | none =>
    simp only [Option.isSome_none, Bool.false_eq_true, if_false]
    cases Token.scan line with
    | nil => exact hA.same w
    | cons first rest =>
      dsimp only
      split
      · exact hA.same w
      unfold evaluateTokens
      cases loneReference? (first :: rest) with
      | some reference => exact hA.guarded hlower (fun heval => hA.resolve heval h reference) w
      | none =>
        cases first with
        | null => exact hA.same w
        | word name =>
          dsimp only
          split
          · exact hA.same w
          · exact hA.guarded hlower
              (fun heval => hA.dispatch hhost heval fuel hwaiting h line name rest) w

theorem evaluateAt (hA : IsAccount A) (hhost : Host A engine) (fuel : Nat) {waiting : Script Unit}
    {waitingLog : Log} (hwaiting : waiting.Accounted A [] noTasks waitingLog) (levels : Nat) :
    Lines A (evaluateAt engine fuel waiting levels)
      (logAt engine fuel waiting waitingLog levels) := by
  induction levels with
  | zero =>
    refine hA.evaluateLevel hhost none (fun hnone => ?_) fuel hwaiting
    cases hnone
  | succ levels ih =>
    refine hA.evaluateLevel hhost (some (_, _)) (fun hsome => ?_) fuel hwaiting
    obtain ⟨rfl, rfl⟩ := Prod.mk.inj (Option.some.inj hsome)
    exact ih

/-! ### Launched lines -/

theorem runLaunched (hA : IsAccount A) (heval : Lines A eval log) (task : Nat) (launch : Launch) :
    (runLaunched eval task launch).Accounted A [] noTasks (launchedLog log launch) := by
  have hquiet := hA.quietly (heval launch.handle launch.line)
  intro w
  rw [Outcome.given_noTasks]
  simp only [Evaluation.runLaunched, launchedLog]
  split
  · rw [Outcome.world_mapWorld]
    exact hA.aside task (hquiet { w with written := #[] })
  · have hrun := hquiet w
    rw [Outcome.given_noTasks] at hrun
    rw [Outcome.world_mapWorld, ← List.append_nil (log _ _ w)]
    exact hA.trans hrun (hA.calm (.endLaunch _ _ task) (List.nil_subset _))

theorem settle (hA : IsAccount A) (heval : Lines A eval log) (fuel : Nat) :
    (settle eval fuel).Accounted A [] noTasks (settleLog eval log fuel) := by
  induction fuel with
  | zero =>
    intro w
    rw [Outcome.given_noTasks]
    show A [] w [] (if w.hasWaiting then _ else _ : Outcome Unit).world _
    split <;> exact hA.same w
  | succ fuel ih =>
    intro w
    simp only [Evaluation.settle, settleLog]
    cases hnext : w.startNext? with
    | none => exact hA.same w
    | some next =>
      obtain ⟨⟨task, launch⟩, w₁⟩ := next
      have hstart : A [] w [] w₁ [] := hA.calm (.startNext [] hnext) (List.nil_subset _)
      have hrun := hA.bind (hA.runLaunched heval task launch) (fun _ => hA.of_nil ih) w₁
      have hboth := hA.trans hstart hrun
      exact hboth

/-! ### Every evaluation -/

theorem waiting_zero (hA : IsAccount A) (engine : Engine) :
    (engine.waiting 0).Accounted A [] noTasks (engine.waitingLog 0) := by
  have hexhausted : Lines A (fun _ _ => .exhausted) fun _ _ => .nothing :=
    fun _ _ w => hA.same w
  exact hA.settle hexhausted 0

/-- The account holds between the evaluation of a line and its log. -/
theorem evaluate (hA : IsAccount A) (hhost : Host A engine) (fuel levels : Nat) :
    Lines A (engine.evaluate fuel levels) (engine.log fuel levels) := by
  rw [Engine.evaluate_eq, Engine.log_eq]
  induction fuel generalizing levels with
  | zero => exact hA.evaluateAt hhost 0 (hA.waiting_zero engine) levels
  | succ fuel ih =>
    refine hA.evaluateAt hhost (fuel + 1) (hA.settle ?_ (fuel + 1)) levels
    rw [Engine.evaluate_eq, Engine.log_eq]
    exact ih recursionLimit

/-- The account holds between the run of the launched lines that wait and its log. -/
theorem waiting (hA : IsAccount A) (hhost : Host A engine) (fuel : Nat) :
    (engine.waiting fuel).Accounted A [] noTasks (engine.waitingLog fuel) := by
  cases fuel with
  | zero => exact hA.waiting_zero engine
  | succ fuel => exact hA.settle (hA.evaluate hhost fuel recursionLimit) (fuel + 1)

end IsAccount
end BraceScript
