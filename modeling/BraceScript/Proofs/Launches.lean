import BraceScript.Proofs.Endings
import BraceScript.Proofs.HostMethods

/-!
# Launched lines

A launch gives a task and nothing more: its line runs later, and if it fails, that stays with it.
The evaluation that runs launched lines on its way is the same as if none of them could fail
(`Evaluation.settle_hushed`).

Tasks are numbered in the order of the launches. No other command makes a task, so the tasks that
sessions hold, at any depth of their values, come from launches (`Launching`); and the number of a
launch is above all those before it. So no task is given twice over a whole run, from the first
request to the last (`Engine.launches_are_fresh`).
-/

namespace BraceScript

/-! ### Failures of launched lines -/

namespace Evaluation

/-- The evaluator with failures made into values. -/
def hushed (eval : Evaluator) : Evaluator :=
  fun h line w =>
    match eval h line w with
    | .failed _ w => .done .null w
    | outcome => outcome

theorem quietly_hushed (eval : Evaluator) (h : Handle) (line : String) :
    (hushed eval h line).quietly = (eval h line).quietly := by
  funext w
  rw [Script.quietly, Script.quietly, hushed]
  cases eval h line w <;> rfl

theorem runLaunched_hushed (eval : Evaluator) (task : Nat) (launch : Launch) :
    runLaunched (hushed eval) task launch = runLaunched eval task launch := by
  funext w
  rw [runLaunched, runLaunched, quietly_hushed]

/-- Whether launched lines fail makes no difference. -/
theorem settle_hushed (eval : Evaluator) (fuel : Nat) :
    settle (hushed eval) fuel = settle eval fuel := by
  induction fuel with
  | zero => rfl
  | succ fuel ih =>
    funext w
    rw [settle, settle, ih]
    simp only [runLaunched_hushed]

end Evaluation

/-! ### The account of the launches -/

/-- The world of the moment. -/
def Event.world : Event → World
  | executed _ _ _ w => w
  | started _ w => w

/-- The numbers of the launches, in order. -/
def Event.launched (es : List Event) : List Nat :=
  es.filterMap Event.task?

/-- At each launch the sessions hold no tasks but some of `held` and those launched before. -/
def Event.Traced : (held : List Nat) → List Event → Prop
  | _, [] => True
  | held, e :: es =>
    (e.task?.isSome → e.world.tasks ⊆ held) ∧ Traced (held ++ e.task?.toList) es

namespace Event

theorem launched_append (es es' : List Event) :
    launched (es ++ es') = launched es ++ launched es' :=
  List.filterMap_append

theorem launched_cons (e : Event) (es : List Event) :
    launched (e :: es) = e.task?.toList ++ launched es := by
  rw [launched, List.filterMap_cons]
  cases e.task? <;> rfl

theorem Traced.mono {held held' : List Nat} (hheld : held ⊆ held') {es : List Event}
    (h : Traced held es) : Traced held' es := by
  induction es generalizing held held' with
  | nil => trivial
  | cons e es ih =>
    refine ⟨fun hlaunch => List.Subset.trans (h.1 hlaunch) hheld, ih ?_ h.2⟩
    exact List.append_subset.2
      ⟨List.subset_append_of_subset_left _ hheld, List.subset_append_right _ _⟩

theorem Traced.append {held : List Nat} {es es' : List Event} (h : Traced held es)
    (h' : Traced (held ++ launched es) es') : Traced held (es ++ es') := by
  induction es generalizing held with
  | nil => simpa [launched] using h'
  | cons e es ih =>
    refine ⟨h.1, ih h.2 ?_⟩
    rwa [launched_cons, ← List.append_assoc] at h'

theorem Traced.subset {held : List Nat} {before after : List Event} {e : Event}
    (h : Traced held (before ++ e :: after)) (he : e.task?.isSome) :
    e.world.tasks ⊆ held ++ launched before := by
  induction before generalizing held with
  | nil => exact List.subset_append_of_subset_left _ (h.1 he)
  | cons e' before ih =>
    rw [launched_cons, ← List.append_assoc]
    exact ih h.2

end Event

/-- Launches are numbered one after another, and the tasks held afterwards, in the world and in the
value that is given, come from them or were there before; so it is at the moment of each launch. -/
structure Launching (known : List Nat) (w : World) (es : List Event) (w' : World)
    (given : List Nat) : Prop where
  size : w'.launches.size = w.launches.size + (Event.launched es).length
  numbers : Event.launched es =
    List.range' (w.launches.size + 1) (Event.launched es).length
  held : w'.tasks ⊆ known ++ w.tasks ++ Event.launched es
  given : given ⊆ known ++ w.tasks ++ Event.launched es
  traced : Event.Traced (known ++ w.tasks) es

namespace Launching
variable {known known' given given' : List Nat} {w w' w₁ w₂ : World} {es es' : List Event}

theorem trans (h : Launching known w es w₁ given)
    (h' : Launching (given ++ known) w₁ es' w₂ given') :
    Launching known w (es ++ es') w₂ given' := by
  -- what the second run has in hand or finds comes from the first, or from before
  have hbetween : given ++ known ++ w₁.tasks ⊆ known ++ w.tasks ++ Event.launched es := by
    have hknown : known ⊆ known ++ w.tasks ++ Event.launched es :=
      List.subset_append_of_subset_left _ (List.subset_append_left _ _)
    exact List.append_subset.2 ⟨List.append_subset.2 ⟨h.given, hknown⟩, h.held⟩
  have hall : given ++ known ++ w₁.tasks ++ Event.launched es' ⊆
      known ++ w.tasks ++ (Event.launched es ++ Event.launched es') := by
    rw [← List.append_assoc]
    exact List.append_subset.2
      ⟨List.subset_append_of_subset_left _ hbetween, List.subset_append_right _ _⟩
  constructor
  · rw [h'.size, h.size, Event.launched_append, List.length_append, Nat.add_assoc]
  · have hnumbers := h'.numbers
    rw [h.size] at hnumbers
    calc Event.launched (es ++ es')
        = Event.launched es ++ Event.launched es' := Event.launched_append es es'
      _ = List.range' (w.launches.size + 1) (Event.launched es).length ++
            List.range' (w.launches.size + 1 + (Event.launched es).length)
              (Event.launched es').length := by
          rw [← h.numbers, Nat.add_right_comm, ← hnumbers]
      _ = List.range' (w.launches.size + 1) (Event.launched (es ++ es')).length := by
          rw [List.range'_append_1, Event.launched_append, List.length_append]
  · rw [Event.launched_append]
    exact List.Subset.trans h'.held hall
  · rw [Event.launched_append]
    exact List.Subset.trans h'.given hall
  · exact h.traced.append (h'.traced.mono hbetween)

theorem mono (hknown : known ⊆ known') (hgiven : given' ⊆ given)
    (h : Launching known w es w' given) : Launching known' w es w' given' := by
  have hheld : known ++ w.tasks ⊆ known' ++ w.tasks :=
    List.append_subset.2
      ⟨List.subset_append_of_subset_left _ hknown, List.subset_append_right _ _⟩
  have hall : known ++ w.tasks ++ Event.launched es ⊆ known' ++ w.tasks ++ Event.launched es :=
    List.append_subset.2
      ⟨List.subset_append_of_subset_left _ hheld, List.subset_append_right _ _⟩
  exact ⟨h.size, h.numbers, List.Subset.trans h.held hall,
    List.Subset.trans hgiven (List.Subset.trans h.given hall), h.traced.mono hheld⟩

/-- No event, no launch, and no task that was not there. -/
theorem quiet (hsize : w'.launches.size = w.launches.size) (hheld : w'.tasks ⊆ known ++ w.tasks)
    (hgiven : given ⊆ known ++ w.tasks) : Launching known w [] w' given where
  size := hsize
  numbers := rfl
  held := List.subset_append_of_subset_left _ hheld
  given := List.subset_append_of_subset_left _ hgiven
  traced := trivial

/-- An event that is no launch. -/
theorem event {e : Event} (he : e.task? = none) (h : Launching known w es w' given) :
    Launching known w (e :: es) w' given := by
  have hcons : Event.launched (e :: es) = Event.launched es := by
    rw [Event.launched_cons, he]
    rfl
  exact
    { size := by rw [hcons]; exact h.size
      numbers := by rw [hcons]; exact h.numbers
      held := by rw [hcons]; exact h.held
      given := by rw [hcons]; exact h.given
      traced := by simpa [Event.Traced, he] using h.traced }

/-- Only sessions and launches matter. -/
theorem congr (h : Launching known w es w' given) (hsessions : w₁.sessions = w.sessions)
    (hlaunches : w₁.launches = w.launches) (hsessions' : w₂.sessions = w'.sessions)
    (hsize' : w₂.launches.size = w'.launches.size) : Launching known w₁ es w₂ given := by
  have htasks : w₁.tasks = w.tasks := by rw [World.tasks, World.tasks, hsessions]
  have htasks' : w₂.tasks = w'.tasks := by rw [World.tasks, World.tasks, hsessions']
  exact
    { size := by rw [hlaunches, hsize']; exact h.size
      numbers := by rw [hlaunches]; exact h.numbers
      held := by rw [htasks, htasks']; exact h.held
      given := by rw [htasks]; exact h.given
      traced := by rw [htasks]; exact h.traced }

end Launching

theorem isAccount_launching : IsModestAccount Launching where
  modest hw hgiven := .quiet hw.launches hw.tasks hgiven
  trans h h' := h.trans h'
  mono hknown hgiven h := h.mono hknown hgiven
  started id h := .event rfl (h.congr rfl rfl rfl rfl)
  executed he h := h.event he
  launched {known w} h args hargs := by
    have hnumber : Event.launched [.executed h (.control .asynchronize) args w] =
        [w.launches.size + 1] := by
      cases args with
      | nil => exact absurd rfl hargs
      | cons first rest => rfl
    exact
      { size := by rw [hnumber]; simp [World.launch]
        numbers := by rw [hnumber]; rfl
        held := List.subset_append_of_subset_left _ (List.subset_append_right _ _)
        given := by rw [hnumber]; exact List.subset_append_right _ _
        traced := ⟨fun _ => List.subset_append_right _ _, trivial⟩ }
  aside {given w w' es} task h := by
    have hsame : Launching [] w es (w'.closeAside w.written task) given := by
      refine h.congr rfl rfl (w'.sessions_closeAside w.written task) ?_
      rw [World.closeAside]
      split
      · simp [World.endLaunch]
      · rfl
    exact hsame.mono (fun _ h => h) (List.nil_subset _)

/-- What the host adds makes no tasks: its commands launch no lines, and the tasks that they store
or give, and those that its methods give, are ones that they were given or found. -/
structure Engine.PassesOnTasks (engine : Engine) : Prop where
  custom {searchOrder : List String} {name qualified : String} {pre : PreEvaluation}
    {run : Handle → List Value → Script Value} :
    engine.registry.resolve? searchOrder name = some (qualified, .custom pre run) →
      ∀ h args w, (run h args w).world.launches.size = w.launches.size ∧
        (run h args w).world.tasks ⊆ Value.itemTasks args ++ w.tasks ∧
        (run h args w).given Value.tasks ⊆ Value.itemTasks args ++ w.tasks
  methods : engine.hosts.PassesOnTasks

theorem Engine.PassesOnTasks.host {engine : Engine} (hengine : engine.PassesOnTasks) :
    IsAccount.Host Launching engine where
  custom hresolve h args w := by
    obtain ⟨hsize, hheld, hgiven⟩ := hengine.custom hresolve h args w
    exact .quiet hsize hheld hgiven
  compute hresolve haction _ _ hv :=
    .quiet rfl (List.subset_append_right _ _)
      (List.subset_append_of_subset_left _ (hengine.methods hresolve haction hv))

theorem Program.passesOnTasks_standardEngine (place : Place) :
    (standardEngine place).PassesOnTasks where
  custom hresolve h args _ :=
    (Registry.customsHave_standard (fun _ => False) hresolve h args).elim
  methods := Catalog.passesOnTasks_standard

/-! ### The shell and the script -/

/-- The events of a shell that reads some input. -/
def Shell.runLog (eval : Evaluator) (log : Logger) (place : Place) (h : Handle) : Input → Log
  | [], _ => []
  | line :: rest, w =>
    if (w.ending h.session).isSome then []
    else
      match line with
      | none => []
      | some s =>
        log h (Text.dropLineEnd s) (w.write .shell (prompt place w)) ++
          match reply eval h s (w.write .shell (prompt place w)) with
          | (.ok (), w) => runLog eval log place h rest w
          | (.error _, _) => []

/-- The events of the lines of a script, the first having a number. -/
def ScriptFile.runFromLog (eval : Evaluator) (log : Logger) (place : Place) (h : Handle) :
    (number : Nat) → List String → Input → Log
  | _, [], _, _ => []
  | number, line :: lines, input, w =>
    if (w.ending h.session).isSome then []
    else
      match lineKind line with
      | .skipped => runFromLog eval log place h (number + 1) lines input w
      | .shell =>
        Shell.runLog eval log place h input w ++
          match Shell.run eval place h input w with
          | (.ok rest, w) => runFromLog eval log place h (number + 1) lines rest w
          | (.error _, _) => []
      | .code =>
        log h line w ++
          match perform eval h number line w with
          | (.ok true, w) => runFromLog eval log place h (number + 1) lines input w
          | _ => []

/-- What is written makes no difference to the account. -/
def Account.IgnoresOutput (A : Account) : Prop :=
  ∀ (known : List Nat) (w : World) (channel : Channel) (s : String),
    A known w [] (w.write channel s) []

namespace IsAccount
variable {A : Account} {eval : Evaluator} {log : Logger} {h : Handle}

/-- Something without events follows. -/
theorem thenQuiet (hA : IsAccount A) {known given given' : List Nat} {w w₁ w₂ : World}
    {es : List Event} (h : A known w es w₁ given) (h' : A (given ++ known) w₁ [] w₂ given') :
    A known w es w₂ given' := by
  have hboth := hA.trans h h'
  rwa [List.append_nil] at hboth

theorem reply (hA : IsAccount A) (houtput : A.IgnoresOutput) (heval : Lines A eval log)
    (line : String) (w : World) :
    A [] w (log h (Text.dropLineEnd line) w) (Shell.reply eval h line w).2 [] := by
  have hline := heval h (Text.dropLineEnd line) w
  rw [Shell.reply]
  generalize eval h (Text.dropLineEnd line) w = o at hline ⊢
  cases o with
  | done v w₁ =>
    have hshown : A (v.tasks ++ []) w₁ []
        (if w₁.environment.isEnabled Environment.echo then
          w₁.write .shell (w₁.display v ++ "\n") else w₁) [] := by
      split
      · exact houtput _ w₁ _ _
      · exact hA.same w₁
    have hv : v.tasks ⊆ [] ++ (v.tasks ++ []) := List.subset_append_left _ _
    exact hA.thenQuiet hline
      (hA.thenQuiet hshown (hA.calm (.setLast _ h.session hv) (List.nil_subset _)))
  | failed e w₁ => exact hA.thenQuiet hline (houtput _ w₁ _ _)
  | exited code w₁ => exact hline
  | exhausted w₁ => exact hline

theorem shell (hA : IsAccount A) (houtput : A.IgnoresOutput) (heval : Lines A eval log)
    (place : Place) (input : Input) (w : World) :
    A [] w (Shell.runLog eval log place h input w) (Shell.run eval place h input w).2 [] := by
  induction input generalizing w with
  | nil =>
    rw [Shell.run, Shell.runLog]
    split
    · exact hA.same w
    · exact houtput [] w _ _
  | cons line rest ih =>
    have hprompt := houtput [] w .shell (Shell.prompt place w)
    cases line with
    | none =>
      rw [Shell.run, Shell.runLog]
      split
      · exact hA.same w
      · exact hprompt
    | some s =>
      have hreply := hA.trans hprompt (hA.reply (h := h) houtput heval s _)
      rw [Shell.run, Shell.runLog]
      split
      · exact hA.same w
      cases hended : Shell.reply eval h s (w.write .shell (Shell.prompt place w)) with
      | mk result w₁ =>
        rw [hended] at hreply
        cases result with
        | ok _ => exact hA.trans hreply (ih w₁)
        | error halt => exact hA.trans hreply (hA.same w₁)

theorem perform (hA : IsAccount A) (houtput : A.IgnoresOutput) (heval : Lines A eval log)
    (number : Nat) (line : String) (w : World) :
    A [] w (log h line w) (ScriptFile.perform eval h number line w).2 [] := by
  have hline := heval h line w
  rw [ScriptFile.perform]
  generalize eval h line w = o at hline ⊢
  cases o with
  | done v w₁ =>
    have hv : v.tasks ⊆ v.tasks ++ [] := List.subset_append_left _ _
    exact hA.thenQuiet hline (hA.calm (.setLast w₁ h.session hv) (List.nil_subset _))
  | failed e w₁ =>
    exact hA.thenQuiet (hA.thenQuiet hline (houtput _ w₁ _ _)) (houtput _ _ _ _)
  | exited code w₁ => exact hline
  | exhausted w₁ => exact hline

theorem script (hA : IsAccount A) (houtput : A.IgnoresOutput) (heval : Lines A eval log)
    (place : Place) (number executed : Nat) (lines : List String) (input : Input) (w : World) :
    A [] w (ScriptFile.runFromLog eval log place h number lines input w)
      (ScriptFile.runFrom eval place h number executed lines input w).2 [] := by
  induction lines generalizing number executed input w with
  | nil => exact hA.same w
  | cons line lines ih =>
    rw [ScriptFile.runFrom, ScriptFile.runFromLog]
    split
    · exact hA.same w
    cases ScriptFile.lineKind line with
    | skipped => exact ih _ _ _ w
    | shell =>
      have hshell := hA.shell (h := h) houtput heval place input w
      dsimp only
      cases hended : Shell.run eval place h input w with
      | mk result w₁ =>
        rw [hended] at hshell
        cases result with
        | ok rest => exact hA.trans hshell (ih _ _ rest w₁)
        | error halt => exact hA.trans hshell (hA.same w₁)
    | code =>
      have hline := hA.perform (h := h) houtput heval number line w
      dsimp only
      cases hended : ScriptFile.perform eval h number line w with
      | mk result w₁ =>
        rw [hended] at hline
        cases result with
        | error halt => exact hA.trans hline (hA.same w₁)
        | ok succeeded =>
          cases succeeded with
          | true => exact hA.trans hline (ih _ _ input w₁)
          | false => exact hA.trans hline (hA.same w₁)

end IsAccount

/-! ### Runs -/

namespace Request

/-- The tasks in a value that comes with the request. -/
def brings : Request → List Nat
  | terminate v => v.tasks
  | _ => []

/-- What happens while a request is met. -/
def log (engine : Engine) (fuel levels : Nat) (h : Handle) : Request → Log
  | terminate _ => .nothing
  | line s => engine.log fuel levels h s
  | sequence lines =>
    Evaluation.sequenceLog (engine.evaluate fuel levels) (engine.log fuel levels) h lines
  | deferred raw => Evaluation.deferredLog (engine.log fuel levels) h (.text raw)
  | script source input =>
    ScriptFile.runFromLog (engine.evaluate fuel levels) (engine.log fuel levels) engine.place h 1
      (Text.lines source) input
  | shell input =>
    Shell.runLog (engine.evaluate fuel levels) (engine.log fuel levels) engine.place h input
  | wait => engine.waitingLog fuel

theorem accounted_leave {A : Account} (hA : IsAccount A) (houtput : A.IgnoresOutput)
    {engine : Engine} (hhost : IsAccount.Host A engine) (fuel levels : Nat) (h : Handle)
    (request : Request) (w : World) :
    A request.brings w (request.log engine fuel levels h w)
      (request.leave engine fuel levels h w) [] := by
  have heval := hA.evaluate hhost fuel levels
  have hnone : ∀ {given : List Nat} {es : List Event} {w' : World}, A [] w es w' given →
      A [] w es w' [] := fun h => hA.mono (fun _ h => h) (List.nil_subset _) h
  cases request with
  | terminate v => exact hA.calm (.terminate w h.session fun _ h => h) (List.nil_subset _)
  | line s => exact hnone (heval h s w)
  | sequence lines => exact hnone (hA.sequence heval h lines w)
  | deferred raw => exact hnone (heval h _ w)
  | script source input => exact hA.script houtput heval _ 1 0 _ input w
  | shell input => exact hA.shell houtput heval _ input w
  | wait => exact hnone (hA.waiting hhost fuel w)

end Request

/-- A run from a world on: requests one after another, with all that happens. A value that comes
with a request has no tasks but those that are known from the run. -/
inductive Run (engine : Engine) (w₀ : World) : List Event → World → Prop
  | start : Run engine w₀ [] w₀
  | ask {es : List Event} {w : World} (hrun : Run engine w₀ es w) (fuel levels : Nat) (h : Handle)
    (request : Request) (hbrings : request.brings ⊆ w₀.tasks ++ Event.launched es) :
    Run engine w₀ (es ++ request.log engine fuel levels h w)
      (request.leave engine fuel levels h w)

theorem ignoresOutput_launching : Account.IgnoresOutput Launching :=
  fun _ _ _ _ => .quiet rfl (List.subset_append_right _ _) (List.nil_subset _)

theorem Run.launching {engine : Engine} (hengine : engine.PassesOnTasks) {w₀ w : World}
    {es : List Event} (hrun : Run engine w₀ es w) : Launching [] w₀ es w [] := by
  induction hrun with
  | start => exact isAccount_launching.same w₀
  | @ask es w hrun fuel levels h request hbrings ih =>
    -- all tasks of the run so far are at hand for the next request
    have hknown : Launching [] w₀ es w (w₀.tasks ++ Event.launched es) :=
      { ih with given := fun _ h => h }
    have hnext := request.accounted_leave isAccount_launching.toIsAccount ignoresOutput_launching
      hengine.host fuel levels h w
    exact hknown.trans (hnext.mono (List.subset_append_of_subset_left _ hbrings) fun _ h => h)

/-- The tasks that the sessions hold come from launches that have been made. -/
def World.TasksLaunched (w : World) : Prop :=
  ∀ k ∈ w.tasks, k ≤ w.launches.size

namespace Launching
variable {w₀ w : World} {es before after : List Event} {e : Event} {k : Nat}

/-- The number of a launch is above all those launched before it, and above all those there were
at the start. -/
theorem lt_of_launch (h : Launching [] w₀ es w []) (hw₀ : w₀.TasksLaunched)
    (hes : es = before ++ e :: after) (hk : e.task? = some k) :
    ∀ k' ∈ w₀.tasks ++ Event.launched before, k' < k := by
  have hlaunched : Event.launched es = Event.launched before ++ k :: Event.launched after := by
    rw [hes, Event.launched_append, Event.launched_cons, hk]
    rfl
  have hmem : k ∈ Event.launched es := by simp [hlaunched]
  have hpairwise : (Event.launched es).Pairwise (· < ·) := by
    rw [h.numbers]
    exact List.pairwise_lt_range'
  intro k' hk'
  rcases List.mem_append.1 hk' with hk' | hk'
  · have hstart := hw₀ k' hk'
    rw [h.numbers] at hmem
    have hfirst := (List.mem_range'_1.1 hmem).1
    omega
  · rw [hlaunched] at hpairwise
    exact (List.pairwise_append.1 hpairwise).2.2 k' hk' k List.mem_cons_self

theorem not_mem_of_launch (h : Launching [] w₀ es w []) (hw₀ : w₀.TasksLaunched)
    (hes : es = before ++ e :: after) (hk : e.task? = some k) :
    k ∉ e.world.tasks ∧ k ∉ w₀.tasks ++ Event.launched before := by
  have hlt := h.lt_of_launch hw₀ hes hk
  have htraced := h.traced
  rw [hes] at htraced
  have hheld : e.world.tasks ⊆ w₀.tasks ++ Event.launched before :=
    htraced.subset (by rw [hk]; rfl)
  exact ⟨fun hmem => Nat.lt_irrefl k (hlt k (hheld hmem)), fun hmem => Nat.lt_irrefl k (hlt k hmem)⟩

/-- Different launches have different numbers. -/
theorem index_eq_iff (h : Launching [] w₀ es w []) {i j a b : Nat}
    (ha : (Event.launched es)[i]? = some a) (hb : (Event.launched es)[j]? = some b) :
    a = b ↔ i = j := by
  rw [h.numbers] at ha hb
  obtain ⟨hi, ha⟩ := List.getElem?_eq_some_iff.1 ha
  obtain ⟨hj, hb⟩ := List.getElem?_eq_some_iff.1 hb
  rw [List.getElem_range'] at ha hb
  omega

end Launching

namespace Engine
open Evaluation

/-- A launch of a line gives a task at once. A line that fails after its launch fails for itself: it
could as well give a value, and to run the lines that wait never fails. Over a whole run the task of
a launch is one that no session held, in no variable, last result or terminating value and at no
depth of a value, and that no launch before gave; all tasks that are held come from launches; and
two tasks are equal where they come from the same launch, and only there. -/
theorem launches_are_fresh {engine : Engine} (hengine : engine.PassesOnTasks) {w₀ : World}
    (hw₀ : w₀.TasksLaunched) :
    (∀ fuel waiting eval h args w, args ≠ [] →
      execute engine fuel waiting eval h (.control .asynchronize) args w =
        .done (.task (w.launches.size + 1)) (w.launch h (w.joinSource args)).2) ∧
    (∀ fuel levels, engine.evaluate (fuel + 1) levels =
      evaluateAt engine (fuel + 1)
        (Evaluation.settle (hushed (engine.evaluate fuel recursionLimit)) (fuel + 1)) levels) ∧
    (∀ eval fuel w e w', Evaluation.settle eval fuel w ≠ .failed e w') ∧
    ∀ es w, Run engine w₀ es w →
      w.launches.size = w₀.launches.size + (Event.launched es).length ∧
      (∀ before e after k, es = before ++ e :: after → e.task? = some k →
        k ∉ e.world.tasks ∧ k ∉ w₀.tasks ++ Event.launched before) ∧
      w.tasks ⊆ w₀.tasks ++ Event.launched es ∧
      ∀ i j a b : Nat, (Event.launched es)[i]? = some a → (Event.launched es)[j]? = some b →
        ((Value.task a).same (.task b) = true ↔ i = j) := by
  refine ⟨?_, ?_, settle_ne_failed, ?_⟩
  · intro fuel waiting eval h args w hargs
    cases args with
    | nil => exact absurd rfl hargs
    | cons first rest => rfl
  · intro fuel levels
    rw [settle_hushed, evaluate_eq]
    rfl
  · intro es w hrun
    have hlaunching := hrun.launching hengine
    refine ⟨hlaunching.size, ?_, hlaunching.held, ?_⟩
    · intro before e after k hes hk
      exact hlaunching.not_mem_of_launch hw₀ hes hk
    · intro i j a b ha hb
      rw [← hlaunching.index_eq_iff ha hb]
      simp [Value.same]

/-- The launched line launches another, which names no command. -/
theorem launches_are_fresh_nested :
    ∃ es w, Run (Program.standardEngine default) (World.start {}) es w ∧
      Event.launched es = [1, 2] ∧ w.launches.size = 2 ∧ w.tasks ⊆ [1, 2] ∧
      (Value.task 1).same (.task 2) = false := by
  have hstart : (World.start {}).TasksLaunched := fun _ h => absurd h List.not_mem_nil
  obtain ⟨es, w, hrun, hes⟩ : ∃ es w, Run (Program.standardEngine default) (World.start {}) es w ∧
      Event.launched es = [1, 2] :=
    ⟨_, _, (Run.start.ask 1 2 { session := 0 }
      (.line "StoreValue t \x7bAsynchronize Asynchronize Nope\x7d") (List.nil_subset _)).ask
      3 2 { session := 0 } .wait (List.nil_subset _), by decide +kernel⟩
  obtain ⟨hsize, -, hheld, hsame⟩ :=
    (launches_are_fresh (Program.passesOnTasks_standardEngine default) hstart).2.2.2 es w hrun
  rw [hes] at hsize hheld hsame
  have hdifferent := hsame 0 1 1 2 rfl rfl
  exact ⟨es, w, hrun, hes, hsize, hheld, by simpa using hdifferent⟩

end Engine
end BraceScript
