import BraceScript.Proofs.Closure

/-!
# Evaluations side by side

Two runs that do the same things one after another, where each thing of the one is related to that
of the other, are related (`Script.IsCongruence`). The evaluator is such a run: one lemma for each
of its functions says that from related evaluators it makes related runs, and from there the
relation goes up the levels (`evaluateAt_congr`).

A property of single runs is a relation between a run and itself. So a closed property holds of
every evaluation (`IsClosed.evaluate`), through the launched lines up the fuel.
-/

namespace BraceScript

namespace Script
open World (Blind Change)

/-- A relation between runs that all have that do one thing after another, where the things are
related one by one. -/
structure IsCongruence (R : {α : Type} → Script α → Script α → Prop) : Prop where
  pure {α : Type} (a : α) : R (pure a : Script α) (Pure.pure a)
  bind {α β : Type} {x x' : Script α} {f f' : α → Script β} :
    R x x' → (∀ a, R (f a) (f' a)) → R (x >>= f) (x' >>= f')
  fail {α : Type} (e : ScriptError) : R (fail e : Script α) (.fail e)
  exit {α : Type} (code : Int32) : R (exit code : Script α) (.exit code)
  read {α : Type} {f : World → α} : Blind f → R (read f) (.read f)
  change {f : World → World} : Change f → R (change f) (.change f)
  mapError {α : Type} {x x' : Script α} (f : ScriptError → ScriptError) :
    R x x' → R (x.mapError f) (x'.mapError f)

namespace IsCongruence
variable {R : {α : Type} → Script α → Script α → Prop}

theorem within {α : Type} (hR : IsCongruence R) {x x' : Script α} (frame : Frame) (hx : R x x') :
    R (x.within frame) (x'.within frame) :=
  hR.mapError (·.within frame) hx

/-- What a run has that is related to itself. -/
theorem isBuilt (hR : IsCongruence R) : IsBuilt fun x => R x x where
  pure := hR.pure
  bind := hR.bind
  fail := hR.fail
  exit := hR.exit
  read := hR.read
  change := hR.change
  mapError := hR.mapError

end IsCongruence

/-- Runs that are the same, and have a property. -/
theorem IsBuilt.isCongruence {P : {α : Type} → Script α → Prop} (hP : IsBuilt P) :
    IsCongruence fun x x' => x = x' ∧ P x where
  pure a := ⟨rfl, hP.pure a⟩
  bind := by
    rintro α β x x' f f' ⟨rfl, hx⟩ hf
    obtain rfl : f = f' := funext fun a => (hf a).1
    exact ⟨rfl, hP.bind hx fun a => (hf a).2⟩
  fail e := ⟨rfl, hP.fail e⟩
  exit code := ⟨rfl, hP.exit code⟩
  read hf := ⟨rfl, hP.read hf⟩
  change hf := ⟨rfl, hP.change hf⟩
  mapError f hx := ⟨congrArg (·.mapError f) hx.1, hP.mapError f hx.2⟩

end Script

namespace Evaluation
open Script (IsBuilt IsClosed IsCongruence)
open World (Blind Change)

/-! ### What evaluates nothing -/

section
variable {P : {α : Type} → Script α → Prop}

theorem lookUp_of_isBuilt (hP : IsBuilt P) (h : Handle) (name : String) : P (lookUp h name) := by
  refine hP.ofRead (World.blind_valueOf? h.session name) fun found => ?_
  cases found with
  | some v => exact ⟨pure v, hP.pure v, fun w hw => by rw [lookUp, hw]; rfl⟩
  | none =>
    exact ⟨.failWith (.variableNotFound name), hP.fail _, fun w hw => by rw [lookUp, hw]; rfl⟩

theorem makeBlock_of_isBuilt (hP : IsBuilt P) (session : Nat) (name : String) :
    P (Script.step (·.makeBlock session name)) := by
  have hmake : Script.step (·.makeBlock session name) = do
      let id ← Script.step (·.newBlock name)
      Script.change (·.setVariable session (Block.slot name) (.block id))
      return id := rfl
  rw [hmake]
  refine hP.bind (hP.step (fun _ => rfl) (.newBlock name)) fun id => ?_
  exact hP.bind (hP.change (.setVariable _ _ _)) fun _ => hP.pure id

theorem openBlock_of_isBuilt (hP : IsBuilt P) (h : Handle) (name : String) :
    P (openBlock h name) := by
  refine hP.ofRead (World.blind_valueOf? h.session (Block.slot name)) fun found => ?_
  cases found with
  | none =>
    exact ⟨_, makeBlock_of_isBuilt hP h.session name, fun w hw => by rw [openBlock, hw]; rfl⟩
  | some v =>
    cases v with
    | block id => exact ⟨pure id, hP.pure id, fun w hw => by rw [openBlock, hw]; rfl⟩
    | _ => exact ⟨_, hP.fail _, fun w hw => by rw [openBlock, hw]; rfl⟩

theorem blockWord_of_isBuilt (hP : IsBuilt P) (args : List Value) (index : Nat) (what : String) :
    P (blockWord args index what) := by
  unfold blockWord
  split
  · exact hP.pure _
  · exact hP.fail _

theorem runAsynchronize_of_isBuilt (hP : IsBuilt P) (h : Handle) (args : List Value) :
    P (runAsynchronize h args) := by
  unfold runAsynchronize
  split
  · exact hP.fail _
  · refine hP.bind (hP.read fun _ => rfl) fun line => ?_
    exact hP.bind (hP.step (fun _ => rfl) (.launch h line)) fun _ => hP.pure _

end

section
variable {R : {α : Type} → Script α → Script α → Prop} {eval eval' : Evaluator}

/-! ### Tokens to values -/

theorem resolve_congr (hR : IsCongruence R) (heval : ∀ h line, R (eval h line) (eval' h line))
    (h : Handle) (reference : Token.Reference) :
    R (resolve eval h reference) (resolve eval' h reference) := by
  cases reference with
  | named name => exact lookUp_of_isBuilt hR.isBuilt h name
  | nested line => exact heval h line

theorem arguments_congr (hR : IsCongruence R) (heval : ∀ h line, R (eval h line) (eval' h line))
    (h : Handle) (pre : PreEvaluation) (line : String) (position : Nat) (tokens : List Token) :
    R (arguments eval h pre line position tokens) (arguments eval' h pre line position tokens) := by
  have hsubstitute : ∀ position raw,
      R (substitute eval h pre position raw) (substitute eval' h pre position raw) := by
    intro position raw
    rw [substitute, substitute]
    split
    · split
      · exact resolve_congr hR heval h _
      · exact hR.pure _
    · exact hR.pure _
  induction tokens generalizing position with
  | nil => exact hR.pure []
  | cons t tokens ih =>
    cases t with
    | null => exact hR.bind (ih _) fun _ => hR.pure _
    | word raw =>
      refine hR.bind (hR.within _ (hsubstitute position raw)) fun v => ?_
      exact hR.bind (ih _) fun _ => hR.pure _

theorem deferred_congr (hR : IsCongruence R) (heval : ∀ h line, R (eval h line) (eval' h line))
    (h : Handle) (v : Value) : R (deferred eval h v) (deferred eval' h v) := by
  cases v with
  | text raw => exact heval h _
  | _ => exact hR.pure _

/-! ### Sequences and blocks -/

theorem sequenceFrom_congr (hR : IsCongruence R) (heval : ∀ h line, R (eval h line) (eval' h line))
    (h : Handle) (number : Nat) (last : Value) (lines : List String) :
    R (sequenceFrom eval h number last lines) (sequenceFrom eval' h number last lines) := by
  have hending := World.blind_ending h.session
  induction lines generalizing number last with
  | nil => exact hR.read fun w => congrArg (Option.getD · last) (hending w)
  | cons line lines ih =>
    rw [sequenceFrom, sequenceFrom]
    refine hR.bind (hR.read hending) fun ending => ?_
    cases ending with
    | some v => exact hR.pure v
    | none =>
      dsimp only
      split
      · exact ih _ _
      · refine hR.bind (hR.within _ (heval h line)) fun v => ?_
        exact hR.bind (hR.change (.setLast _ _)) fun _ => ih _ _

theorem runBlock_congr (hR : IsCongruence R) (heval : ∀ h line, R (eval h line) (eval' h line))
    (h : Handle) (id : Nat) : R (runBlock eval h id) (runBlock eval' h id) := by
  refine hR.bind (hR.read fun _ => rfl) fun block => ?_
  refine hR.bind (hR.change (.countRun id)) fun _ => ?_
  refine hR.bind (hR.read fun _ => rfl) fun inner => ?_
  exact hR.within _ (sequenceFrom_congr hR heval inner 1 .null block.lines)

theorem runBound_congr (hR : IsCongruence R) (heval : ∀ h line, R (eval h line) (eval' h line))
    (id : Nat) : R (runBound eval id) (runBound eval' id) := by
  refine hR.bind (hR.read fun _ => rfl) fun block => ?_
  refine hR.bind (hR.read (World.blind_liveHandle? block)) fun h => ?_
  cases h with
  | some h => exact runBlock_congr hR heval h id
  | none => exact hR.fail _

/-! ### Host calls -/

/-- A call that runs a block is the run of the block, with its error told in words. -/
theorem invoke_block {hosts : Catalog} {id : Nat} {method : String} {args : List Value}
    {call : Catalog.Call} (hresolve : hosts.resolve (.block id) method args = .ok call)
    (haction : call.method.action = .runBlock) (eval : Evaluator) :
    invoke eval hosts (.block id) method args =
      (runBound eval id).mapError fun e => ⟨call.cause (.failed e.trail), []⟩ := by
  funext w
  rw [invoke, hresolve]
  dsimp only
  rw [haction]
  dsimp only [Script.mapError]
  cases runBound eval id w <;> rfl

theorem invoke_congr (hR : IsCongruence R) (heval : ∀ h line, R (eval h line) (eval' h line))
    (hosts : Catalog) (target : Value) (method : String) (args : List Value) :
    R (invoke eval hosts target method args) (invoke eval' hosts target method args) := by
  cases hresolve : hosts.resolve target method args with
  | error e =>
    rw [invoke, invoke, hresolve]
    exact hR.fail e
  | ok call =>
    cases haction : call.method.action with
    | compute run =>
      have hblocks : Blind fun w => run w.blocks target call.arguments := fun _ => rfl
      rw [invoke, invoke, hresolve]
      dsimp only
      rw [haction]
      refine hR.bind (hR.read hblocks) fun found => ?_
      cases found with
      | ok v => exact hR.pure v
      | error fault => exact hR.fail ⟨call.cause fault, []⟩
    | runBlock =>
      cases target with
      | block id =>
        rw [invoke_block hresolve haction, invoke_block hresolve haction]
        exact hR.mapError _ (runBound_congr hR heval id)
      | _ =>
        rw [invoke, invoke, hresolve]
        dsimp only
        rw [haction]
        exact hR.fail _
    | isAlive =>
      rw [invoke, invoke, hresolve]
      dsimp only
      rw [haction]
      cases target with
      | task id => exact hR.read fun _ => rfl
      | _ => exact hR.fail _

/-! ### Control commands -/

theorem test_congr (hR : IsCongruence R) (heval : ∀ h line, R (eval h line) (eval' h line))
    (h : Handle) (condition : Value) : R (test eval h condition) (test eval' h condition) := by
  cases condition with
  | boolean b => exact hR.pure b
  | text raw =>
    refine hR.bind (hR.within _ (deferred_congr hR heval h _)) fun v => ?_
    cases v with
    | boolean b => exact hR.pure b
    | _ => exact hR.fail _
  | _ => exact hR.fail _

/-- The second loop may have passes to spare, if they can follow where the first has none left. -/
theorem passes_congr (hR : IsCongruence R) (h : Handle) {condition condition' : Script Bool}
    {body body' : Nat → Script Value} (hcondition : R condition condition')
    (hbody : ∀ number, R (body number) (body' number)) {spare : Nat}
    (hspare : ∀ number, R .exhausted (passes h condition' body' number spare))
    (number fuel : Nat) :
    R (passes h condition body number fuel) (passes h condition' body' number (fuel + spare)) := by
  induction fuel generalizing number with
  | zero =>
    rw [Nat.zero_add]
    exact hspare number
  | succ fuel ih =>
    have hending : Blind fun w => (w.ending h.session).isSome :=
      fun w => congrArg Option.isSome (World.blind_ending h.session w)
    rw [Nat.add_right_comm, passes, passes]
    refine hR.bind (hR.read hending) fun ended => ?_
    split
    · exact hR.pure ()
    · refine hR.bind hcondition fun holds => ?_
      split
      · exact hR.bind (hbody number) fun _ => ih _
      · exact hR.pure ()

theorem runLoop_congr (hR : IsCongruence R) (heval : ∀ h line, R (eval h line) (eval' h line))
    {waiting waiting' : Script Unit} (hwaiting : R waiting waiting') (fuel spare : Nat)
    (hspare : ∀ h condition body number, R .exhausted (passes h condition body number spare))
    (h : Handle) (args : List Value) :
    R (runLoop eval waiting fuel h args) (runLoop eval' waiting' (fuel + spare) h args) := by
  unfold runLoop
  split
  · rename_i condition first rest
    refine hR.bind (hR.read fun _ => rfl) fun body => ?_
    have hpass : ∀ number,
        R (pass eval waiting h body number) (pass eval' waiting' h body number) := by
      intro number
      refine hR.bind (hR.within _ (heval h body)) fun v => ?_
      dsimp only
      split
      · exact hR.bind hwaiting fun _ => hR.pure v
      · exact hR.pure v
    have htest := test_congr hR heval h condition
    exact hR.bind (passes_congr hR h htest hpass (hspare h _ _) 1 fuel) fun _ => hR.pure Value.null
  · exact hR.fail _

theorem runBlockAction_congr (hR : IsCongruence R)
    (heval : ∀ h line, R (eval h line) (eval' h line)) (h : Handle) (name action : String)
    (code : List Value) :
    R (runBlockAction eval h name action code) (runBlockAction eval' h name action code) := by
  have hopen := openBlock_of_isBuilt hR.isBuilt h name
  unfold runBlockAction
  split
  · exact hR.bind (makeBlock_of_isBuilt hR.isBuilt h.session name) fun _ => hR.pure _
  · exact hR.bind (hR.change (.removeVariable _ _)) fun _ => hR.pure _
  · refine hR.read fun w => ?_
    exact congrArg (fun names => Value.list (names.map .text)) (World.blind_blockNames h.session w)
  · split
    · exact hR.fail _
    · refine hR.bind hopen fun id => hR.bind (hR.read fun _ => rfl) fun line => ?_
      exact hR.bind (hR.change (.addLine id line)) fun _ => hR.pure _
  · refine hR.bind hopen fun id => ?_
    exact hR.bind (hR.change (.bindBlock id h)) fun _ => hR.pure _
  · exact hR.bind hopen fun _ => hR.pure _
  · exact hR.bind hopen fun id => runBlock_congr hR heval h id
  · exact hR.fail _

theorem runCodeblock_congr (hR : IsCongruence R)
    (heval : ∀ h line, R (eval h line) (eval' h line)) (h : Handle) (args : List Value) :
    R (runCodeblock eval h args) (runCodeblock eval' h args) := by
  have hword := blockWord_of_isBuilt hR.isBuilt args
  unfold runCodeblock
  split
  · exact hR.fail _
  · refine hR.bind (hword _ _) fun name => hR.bind (hword _ _) fun action => ?_
    exact runBlockAction_congr hR heval h name action _

theorem runRunIf_congr (hR : IsCongruence R) (heval : ∀ h line, R (eval h line) (eval' h line))
    (h : Handle) (args : List Value) : R (runRunIf eval h args) (runRunIf eval' h args) := by
  refine hR.bind (hR.isBuilt.orComplain _ _) fun _ => ?_
  refine hR.bind (hR.isBuilt.orComplain _ _) fun holds => ?_
  split
  · exact hR.bind (hR.read fun _ => rfl) fun line => heval h line
  · exact hR.pure _

theorem runInvoke_congr (hR : IsCongruence R) (heval : ∀ h line, R (eval h line) (eval' h line))
    (hosts : Catalog) (args : List Value) :
    R (runInvoke eval hosts args) (runInvoke eval' hosts args) := by
  refine hR.bind (hR.isBuilt.orComplain _ _) fun _ => ?_
  refine hR.bind (hR.isBuilt.orComplain _ _) fun method => ?_
  exact invoke_congr hR heval hosts _ method _

end

/-! ### Launched lines -/

section
variable {P : {α : Type} → Script α → Prop} {eval : Evaluator}

theorem runLaunched_of_isClosed (hP : IsClosed P) (heval : ∀ h line, P (eval h line)) (task : Nat)
    (launch : Launch) : P (runLaunched eval task launch) := by
  have hquiet : P (eval launch.handle launch.line).quietly := hP.quietly (heval _ _)
  have hread : runLaunched eval task launch = (do
      if ← Script.read World.keepsOutput then
        let before ← Script.read World.written
        Script.change fun w => { w with written := #[] }
        (eval launch.handle launch.line).quietly.afterwards (·.closeAside before task)
      else (eval launch.handle launch.line).quietly.afterwards (·.endLaunch task)) := by
    funext w
    rw [runLaunched, Script.bind_apply, Script.read_apply]
    cases hkeeps : w.keepsOutput <;> simp [hkeeps, Script.afterwards]
  rw [hread]
  refine hP.bind (hP.read fun _ => rfl) fun keeps => ?_
  split
  · refine hP.bind (hP.read fun _ => rfl) fun before => ?_
    refine hP.bind (hP.change .putAside) fun _ => ?_
    exact hP.afterwards (.closeAside before task) hquiet
  · exact hP.afterwards (.endLaunch task) hquiet

theorem settle_of_isClosed (hP : IsClosed P) (heval : ∀ h line, P (eval h line)) (fuel : Nat) :
    P (settle eval fuel) := by
  induction fuel with
  | zero =>
    have hread : settle eval 0 = (do
        if ← Script.read World.hasWaiting then Script.exhausted else return ()) := by
      funext w
      rw [settle, Script.bind_apply, Script.read_apply]
      cases hwaits : w.hasWaiting <;> simp [hwaits]
    rw [hread]
    refine hP.bind (hP.read fun _ => rfl) fun waits => ?_
    split
    · exact hP.exhausted
    · exact hP.pure ()
  | succ fuel ih =>
    have hnext : Blind fun w => (w.launches[w.started]?, w.started) := fun _ => rfl
    refine hP.ofRead hnext fun next => ?_
    obtain ⟨launch, started⟩ := next
    cases launch with
    | none =>
      refine ⟨pure (), hP.pure (), fun w hw => ?_⟩
      obtain ⟨hlaunch, -⟩ := Prod.mk.inj hw
      simp [settle, World.startNext?, hlaunch]
    | some launch =>
      have hrun : P (runLaunched eval (started + 1) launch >>= fun _ => settle eval fuel) :=
        hP.bind (runLaunched_of_isClosed hP heval _ _) fun _ => ih
      refine ⟨_, hP.bind (hP.change .startNext) fun _ => hrun, fun w hw => ?_⟩
      obtain ⟨hlaunch, rfl⟩ := Prod.mk.inj hw
      have hstart : w.startNext? =
          some ((w.started + 1, launch), { w with started := w.started + 1 }) := by
        simp [World.startNext?, hlaunch]
      rw [settle]
      dsimp only
      rw [hstart]
      rfl

end

theorem runLaunched_ne_failed (eval : Evaluator) (task : Nat) (launch : Launch) (w : World)
    (e : ScriptError) (w' : World) : runLaunched eval task launch w ≠ .failed e w' := by
  have hquiet : ∀ w₁ e' w₂, (eval launch.handle launch.line).quietly w₁ ≠ .failed e' w₂ := by
    intro w₁ e' w₂
    rw [Script.quietly]
    cases eval launch.handle launch.line w₁ <;> simp
  have hmap : ∀ (o : Outcome Unit) (f : World → World), (∀ e' w₂, o ≠ .failed e' w₂) →
      o.mapWorld f ≠ .failed e w' := by
    intro o f ho
    cases o with
    | failed e' w₂ => exact absurd rfl (ho e' w₂)
    | _ => simp [Outcome.mapWorld]
  simp only [runLaunched]
  split
  · exact hmap _ _ (hquiet _)
  · exact hmap _ _ (hquiet _)

theorem settle_ne_failed (eval : Evaluator) (fuel : Nat) (w : World) (e : ScriptError)
    (w' : World) : settle eval fuel w ≠ .failed e w' := by
  induction fuel generalizing w with
  | zero =>
    simp only [settle]
    split <;> simp
  | succ fuel ih =>
    simp only [settle]
    split
    · simp
    · rename_i task launch w₁ _
      have hlaunched := runLaunched_ne_failed eval task launch w₁
      simp only [Script.andThen]
      cases ho : runLaunched eval task launch w₁ with
      | done u w₂ => exact ih w₂
      | failed e₁ w₂ => exact absurd ho (hlaunched e₁ w₂)
      | exited code w₂ => simp
      | exhausted w₂ => simp

end Evaluation

/-! ### Commands of the host program -/

/-- Is it a command of the host program? -/
def Command.isCustom : Command → Bool
  | custom _ _ => true
  | _ => false

namespace Registry

/-- All commands of the host program have a property. -/
def CustomsHave (r : Registry) (P : {α : Type} → Script α → Prop) : Prop :=
  ∀ {searchOrder : List String} {name qualified : String} {pre : PreEvaluation}
    {run : Handle → List Value → Script Value},
    r.resolve? searchOrder name = some (qualified, .custom pre run) → ∀ h args, P (run h args)

theorem mem_of_resolve? {r : Registry} {searchOrder : List String} {name qualified : String}
    {command : Command} (hresolve : r.resolve? searchOrder name = some (qualified, command)) :
    (qualified, command) ∈ r.commands := by
  obtain ⟨_, -, hvalue⟩ := Option.bind_eq_some_iff.1 hresolve
  obtain ⟨command', hcommand, heq⟩ := Option.map_eq_some_iff.1 hvalue
  obtain ⟨rfl, rfl⟩ := Prod.mk.inj heq
  exact Table.mem_of_value?_eq_some hcommand

/-- All commands have a property. -/
def All (r : Registry) (p : Command → Prop) : Prop :=
  ∀ entry ∈ r.commands, p entry.2

theorem all_empty (p : Command → Prop) : ({} : Registry).All p := by
  intro entry hentry
  cases hentry

theorem All.addAll {p : Command → Prop} {r : Registry} (hr : r.All p) (space : String)
    {commands : List Command} (hcommands : ∀ command ∈ commands, p command) :
    (r.addAll space commands).All p := by
  induction commands generalizing r with
  | nil => exact hr
  | cons command commands ih =>
    have hadd : (r.add (space ++ "." ++ addAll.bareName command) command).All p := by
      intro entry hentry
      rcases Table.eq_or_mem_of_mem_put hentry with heq | hmem
      · rw [heq]
        exact hcommands command (by simp)
      · exact hr entry hmem
    exact ih hadd fun c hc => hcommands c (by simp [hc])

theorem customsHave_of_not_isCustom {r : Registry} (hr : r.All (·.isCustom = false))
    (P : {α : Type} → Script α → Prop) : r.CustomsHave P := by
  intro searchOrder name qualified pre run hresolve
  exact absurd (hr _ (mem_of_resolve? hresolve)) (by simp [Command.isCustom])

/-- Among the built-in commands there is none of a host program. -/
theorem customsHave_standard (P : {α : Type} → Script α → Prop) : standard.CustomsHave P := by
  refine customsHave_of_not_isCustom ?_ P
  exact (((all_empty _).addAll _ (by decide)).addAll _ (by decide)).addAll _ (by decide)

end Registry

/-! ### Lines -/

namespace Evaluation
open Script (IsClosed IsCongruence)

variable {R : {α : Type} → Script α → Script α → Prop} {engine : Engine} {fuel fuel' : Nat}
  {waiting waiting' : Script Unit}

/-- From related evaluators every command of the engine makes related runs. -/
def CommandsRelated (R : {α : Type} → Script α → Script α → Prop) (engine : Engine)
    (fuel fuel' : Nat) (waiting waiting' : Script Unit) : Prop :=
  ∀ {eval eval' : Evaluator}, (∀ h line, R (eval h line) (eval' h line)) →
    ∀ {searchOrder : List String} {name qualified : String} {command : Command},
      engine.registry.resolve? searchOrder name = some (qualified, command) →
      ∀ h args, R (execute engine fuel waiting eval h command args)
        (execute engine fuel' waiting' eval' h command args)

/-- Loops apart, the built-in commands make related runs. -/
theorem commandsRelated (hR : IsCongruence R)
    (hcustoms : engine.registry.CustomsHave fun x => R x x)
    (hloop : ∀ {eval eval' : Evaluator}, (∀ h line, R (eval h line) (eval' h line)) →
      ∀ {searchOrder : List String} {name qualified : String},
        engine.registry.resolve? searchOrder name = some (qualified, .control .loop) →
        ∀ h args, R (runLoop eval waiting fuel h args) (runLoop eval' waiting' fuel' h args)) :
    CommandsRelated R engine fuel fuel' waiting waiting' := by
  intro eval eval' heval searchOrder name qualified command hresolve h args
  cases command with
  | leaf command => exact Leaf.run_of_isBuilt hR.isBuilt engine.place h command args
  | custom pre run => exact hcustoms hresolve h args
  | control command =>
    cases command with
    | loop => exact hloop heval hresolve h args
    | codeblock => exact runCodeblock_congr hR heval h args
    | asynchronize => exact runAsynchronize_of_isBuilt hR.isBuilt h args
    | runIf => exact runRunIf_congr hR heval h args
    | invokeMethodOf => exact runInvoke_congr hR heval engine.hosts args

/-- Loops that have the same fuel make related runs too. -/
theorem commandsRelated_of_exhausted (hR : IsCongruence R)
    (hexhausted : R (α := Unit) .exhausted .exhausted)
    (hcustoms : engine.registry.CustomsHave fun x => R x x) (hwaiting : R waiting waiting') :
    CommandsRelated R engine fuel fuel waiting waiting' :=
  commandsRelated hR hcustoms fun heval _ _ _ _ h args =>
    runLoop_congr hR heval hwaiting fuel 0 (fun _ _ _ _ => hexhausted) h args

theorem dispatch_congr (hR : IsCongruence R)
    (hcommands : CommandsRelated R engine fuel fuel' waiting waiting') {eval eval' : Evaluator}
    (heval : ∀ h line, R (eval h line) (eval' h line)) (h : Handle) (line name : String)
    (tokens : List Token) :
    R (dispatch engine fuel waiting eval h line name tokens)
      (dispatch engine fuel' waiting' eval' h line name tokens) := by
  refine hR.bind (hR.read (World.blind_searchOrder h.session)) fun searchOrder => ?_
  cases hresolve : engine.registry.resolve? searchOrder name with
  | none => exact hR.fail _
  | some found =>
    obtain ⟨qualified, command⟩ := found
    refine hR.bind (arguments_congr hR heval ..) fun args => hR.within _ ?_
    exact hcommands heval hresolve h args

/-- Lines are related where the runs that need a level more are. -/
theorem evaluateLevel_congr (hR : IsCongruence R)
    (hcommands : CommandsRelated R engine fuel fuel' waiting waiting')
    {lower lower' : Option Evaluator}
    (hguarded : ∀ {run run' : Evaluator → Script Value},
      (∀ {eval eval' : Evaluator}, (∀ h line, R (eval h line) (eval' h line)) →
        R (run eval) (run' eval')) → R (guarded lower run) (guarded lower' run'))
    (h : Handle) (line : String) :
    R (evaluateLevel engine fuel waiting lower h line)
      (evaluateLevel engine fuel' waiting' lower' h line) := by
  refine hR.bind (hR.read (World.blind_ending h.session)) fun ending => ?_
  cases ending with
  | some v => exact hR.pure v
  | none =>
    cases Token.scan line with
    | nil => exact hR.pure _
    | cons first rest =>
      dsimp only
      split
      · exact hR.pure _
      unfold evaluateTokens
      split
      · exact hguarded fun heval => resolve_congr hR heval h _
      · cases first with
        | null => exact hR.fail _
        | word name =>
          dsimp only
          split
          · exact hR.fail _
          · exact hguarded fun heval => dispatch_congr hR hcommands heval h line name rest

theorem evaluateAt_congr (hR : IsCongruence R)
    (hcommands : CommandsRelated R engine fuel fuel' waiting waiting') (levels : Nat) (h : Handle)
    (line : String) :
    R (evaluateAt engine fuel waiting levels h line)
      (evaluateAt engine fuel' waiting' levels h line) := by
  induction levels generalizing h line with
  | zero =>
    rw [evaluateAt, evaluateAt]
    refine evaluateLevel_congr hR hcommands ?_ h line
    intro run run' _
    exact hR.fail _
  | succ levels ih =>
    rw [evaluateAt, evaluateAt]
    refine evaluateLevel_congr hR hcommands ?_ h line
    intro run run' hrun
    exact hrun ih

end Evaluation

namespace Script.IsClosed
open Evaluation

variable {P : {α : Type} → Script α → Prop} {engine : Engine}

theorem sequenceFrom {eval : Evaluator} (hP : IsClosed P) (heval : ∀ h line, P (eval h line))
    (h : Handle) (number : Nat) (last : Value) (lines : List String) :
    P (sequenceFrom eval h number last lines) :=
  (sequenceFrom_congr hP.isCongruence (fun h line => ⟨rfl, heval h line⟩) h number last lines).2

theorem evaluateAt (hP : IsClosed P) (hcustoms : engine.registry.CustomsHave P)
    {waiting : Script Unit} (hwaiting : P waiting) (fuel levels : Nat) (h : Handle)
    (line : String) : P (evaluateAt engine fuel waiting levels h line) := by
  have hcommands : CommandsRelated (fun x x' => x = x' ∧ P x) engine fuel fuel waiting waiting :=
    commandsRelated_of_exhausted hP.isCongruence ⟨rfl, hP.exhausted⟩
      (fun hresolve h args => ⟨rfl, hcustoms hresolve h args⟩) ⟨rfl, hwaiting⟩
  exact (evaluateAt_congr hP.isCongruence hcommands levels h line).2

/-- A closed property that the commands of the host program have holds of every evaluation. -/
theorem evaluate (hP : IsClosed P) (hcustoms : engine.registry.CustomsHave P)
    (fuel levels : Nat) (h : Handle) (line : String) : P (engine.evaluate fuel levels h line) := by
  induction fuel generalizing levels h line with
  | zero =>
    exact hP.evaluateAt hcustoms (settle_of_isClosed hP (fun _ _ => hP.exhausted) 0) 0 levels h line
  | succ fuel ih =>
    exact hP.evaluateAt hcustoms (settle_of_isClosed hP (ih recursionLimit) (fuel + 1)) (fuel + 1)
      levels h line

end Script.IsClosed
end BraceScript
