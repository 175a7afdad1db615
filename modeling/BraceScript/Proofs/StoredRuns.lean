import BraceScript.Proofs.HostMethods
import BraceScript.Proofs.MapStore
import BraceScript.Proofs.ValueEquality

/-!
# The values of a run are in its store

A run keeps a store (`Script.Keeps`) when it takes a world that holds a store to one that holds a
store which goes on from that, and its value is in the new one. Stores only go on, so what has been
found in one is in all later ones, and what a run has in hand may be used wherever it goes.

Every part of the evaluator keeps stores, given that what the host adds does
(`Engine.KeepsStores`); so does every evaluation (`Engine.keeps_evaluate`). Hence all values that
the sessions hold at any time are in one store, from the start on
(`Program.exists_store_afterLines`), and comparing them with each other obeys the laws that hold in
a store (`Program.same_afterLines`).
-/

namespace BraceScript
open Value (In)

namespace World

theorem Holds.initial {environment : Environment} (h : (Table.keys environment.settings).Nodup)
    (searchOrder : List String) (sessions : Nat) :
    (World.initial environment searchOrder sessions).Holds [] := by
  refine ⟨rfl, fun id => ?_, h⟩
  have hempty : ∀ names, Session.Holds [] { searchOrder := names } := fun names =>
    ⟨List.forall_mem_nil _, .null, fun _ hended => by cases hended⟩
  by_cases hid : id < sessions
  · simpa [session, World.initial, hid] using hempty searchOrder
  · simpa [session, World.initial, hid] using hempty []

namespace Holds
variable {store : List (Table Value)} {w w' : World}

theorem valueOf? (hw : w.Holds store) {id : Nat} {name : String} {v : Value}
    (h : w.valueOf? id name = some v) : In store v :=
  (hw.sessions id).bindings _ (Table.mem_of_value?_eq_some h)

theorem ending (hw : w.Holds store) {id : Nat} {v : Value} (h : w.ending id = some v) :
    In store v :=
  (hw.sessions id).ending v h

theorem makeBlock (hw : w.Holds store) (session : Nat) (name : String) :
    (w.makeBlock session name).2.Holds store := by
  have hnew : (w.newBlock name).2.Holds store := hw.congr rfl rfl rfl
  exact hnew.setVariable session (Block.slot name) (.block _)

theorem endLaunch (hw : w.Holds store) (task : Nat) : (w.endLaunch task).Holds store :=
  hw.congr rfl rfl rfl

theorem closeAside (hw : w.Holds store) (before : Array Written) (task : Nat) :
    (w.closeAside before task).Holds store := by
  rw [World.closeAside]
  split <;> exact hw.congr rfl rfl rfl

theorem startNext (hw : w.Holds store) {next : Nat × Launch}
    (h : w.startNext? = some (next, w')) : w'.Holds store := by
  obtain ⟨launch, -, heq⟩ := Option.map_eq_some_iff.1 h
  obtain ⟨-, rfl⟩ := Prod.mk.inj heq
  exact hw.congr rfl rfl rfl

end Holds
end World

namespace Script
variable {α β : Type} {store store' : List (Table Value)}
  {Q : List (Table Value) → α → Prop} {Q' : List (Table Value) → β → Prop}

/-- From a world that holds a store the run ends in one that holds a store which goes on from it,
and `Q` holds there of its value. Stores that come before `store` need not be considered. -/
def Keeps (store : List (Table Value)) (Q : List (Table Value) → α → Prop) (x : Script α) : Prop :=
  ∀ store₁ w, store <+: store₁ → w.Holds store₁ →
    ∃ store₂, store₁ <+: store₂ ∧ (x w).world.Holds store₂ ∧
      ∀ a w', x w = .done a w' → Q store₂ a

/-- Nothing is said of a value. -/
def anyValue {α : Type} (_ : List (Table Value)) (_ : α) : Prop := True

namespace Keeps

theorem mono {x : Script α} (hstore : store <+: store') (hx : x.Keeps store Q) :
    x.Keeps store' Q :=
  fun store₁ w hle hw => hx store₁ w (hstore.trans hle) hw

/-- The run builds no maps. -/
theorem of_holds {x : Script α}
    (hx : ∀ store₁ w, store <+: store₁ → w.Holds store₁ →
      (x w).world.Holds store₁ ∧ ∀ a w', x w = .done a w' → Q store₁ a) : x.Keeps store Q :=
  fun store₁ w hle hw => ⟨store₁, List.prefix_rfl, hx store₁ w hle hw⟩

theorem pure {a : α} (ha : ∀ store₁, store <+: store₁ → Q store₁ a) :
    (Pure.pure a : Script α).Keeps store Q := by
  refine of_holds fun store₁ w hle hw => ⟨hw, fun a' w' h => ?_⟩
  cases h
  exact ha store₁ hle

theorem value {v : Value} (hv : In store v) : (Pure.pure v : Script Value).Keeps store In :=
  pure fun _ hle => hv.mono hle

theorem fail (e : ScriptError) : (Script.fail e : Script α).Keeps store Q :=
  of_holds fun _ _ _ hw => ⟨hw, fun _ _ h => by cases h⟩

theorem exhausted : (Script.exhausted : Script α).Keeps store Q :=
  of_holds fun _ _ _ hw => ⟨hw, fun _ _ h => by cases h⟩

theorem read {f : World → α} (hf : ∀ store₁ w, store <+: store₁ → w.Holds store₁ → Q store₁ (f w)) :
    (Script.read f).Keeps store Q := by
  refine of_holds fun store₁ w hle hw => ⟨hw, fun a w' h => ?_⟩
  cases h
  exact hf store₁ w hle hw

theorem change {f : World → World}
    (hf : ∀ store₁ w, store <+: store₁ → w.Holds store₁ → (f w).Holds store₁) :
    (Script.change f).Keeps store anyValue :=
  of_holds fun store₁ w hle hw => ⟨hf store₁ w hle hw, fun _ _ _ => trivial⟩

theorem bind {x : Script α} {f : α → Script β} (hx : x.Keeps store Q)
    (hf : ∀ store₁ a, store <+: store₁ → Q store₁ a → (f a).Keeps store₁ Q') :
    (x >>= f).Keeps store Q' := by
  intro store₁ w hle hw
  obtain ⟨store₂, hle₂, hw₂, hvalue⟩ := hx store₁ w hle hw
  rw [bind_apply]
  cases hrun : x w with
  | done a w₁ =>
    rw [hrun] at hw₂
    obtain ⟨store₃, hle₃, hend⟩ :=
      hf store₂ a (hle.trans hle₂) (hvalue a w₁ hrun) store₂ w₁ List.prefix_rfl hw₂
    exact ⟨store₃, hle₂.trans hle₃, hend⟩
  | failed e w₁ =>
    rw [hrun] at hw₂
    exact ⟨store₂, hle₂, hw₂, fun _ _ h => by cases h⟩
  | exited code w₁ =>
    rw [hrun] at hw₂
    exact ⟨store₂, hle₂, hw₂, fun _ _ h => by cases h⟩
  | exhausted w₁ =>
    rw [hrun] at hw₂
    exact ⟨store₂, hle₂, hw₂, fun _ _ h => by cases h⟩

/-- What comes after a value of which nothing is said. -/
theorem andThen {x : Script α} {f : α → Script β} (hx : x.Keeps store anyValue)
    (hf : ∀ a, (f a).Keeps store Q') : (x >>= f).Keeps store Q' :=
  hx.bind fun _ a hle _ => (hf a).mono hle

/-- What comes after the world has been looked at. -/
theorem after_read {g : World → α} {f : α → Script β} (hf : ∀ a, (f a).Keeps store Q') :
    (Script.read g >>= f).Keeps store Q' :=
  (read fun _ _ _ _ => trivial).andThen hf

theorem of_world_eq {x : Script α} {y : Script β} (hx : x.Keeps store Q)
    (hworld : ∀ w, (y w).world = (x w).world)
    (hvalue : ∀ store₁ w b w', (∀ a w', x w = .done a w' → Q store₁ a) → y w = .done b w' →
      Q' store₁ b) : y.Keeps store Q' := by
  intro store₁ w hle hw
  obtain ⟨store₂, hle₂, hw₂, hx⟩ := hx store₁ w hle hw
  exact ⟨store₂, hle₂, by rwa [hworld], fun b w' h => hvalue store₂ w b w' hx h⟩

theorem mapError {x : Script α} (f : ScriptError → ScriptError) (hx : x.Keeps store Q) :
    (x.mapError f).Keeps store Q := by
  refine hx.of_world_eq (fun w => ?_) fun store₁ w a w' hvalue h => ?_
  · rw [Script.mapError]
    cases x w <;> rfl
  · rw [Script.mapError] at h
    cases hrun : x w with
    | done a' w₁ =>
      rw [hrun] at h
      cases h
      exact hvalue a w' hrun
    | _ =>
      rw [hrun] at h
      cases h

theorem within {x : Script α} (frame : Frame) (hx : x.Keeps store Q) :
    (x.within frame).Keeps store Q :=
  hx.mapError (·.within frame)

theorem quietly {x : Script α} (hx : x.Keeps store Q) : x.quietly.Keeps store anyValue := by
  refine hx.of_world_eq (fun w => ?_) fun _ _ _ _ _ _ => trivial
  rw [Script.quietly]
  cases x w <;> rfl

end Keeps
end Script

namespace Evaluation
open Script (anyValue)

variable {store : List (Table Value)} {eval : Evaluator}

/-- The run of every line keeps every store. -/
def LinesKeep (eval : Evaluator) : Prop :=
  ∀ h line store, (eval h line).Keeps store In

/-! ### Tokens, sequences and blocks -/

theorem LinesKeep.resolve (heval : LinesKeep eval) (h : Handle) (reference : Token.Reference) :
    (resolve eval h reference).Keeps store In := by
  cases reference with
  | nested line => exact heval h line store
  | named name =>
    refine .of_holds fun store₁ w _ hw => ?_
    rw [Evaluation.resolve, lookUp]
    cases hv : w.valueOf? h.session name with
    | none => exact ⟨hw, fun _ _ h => by cases h⟩
    | some v =>
      refine ⟨hw, fun a w' h => ?_⟩
      cases h
      exact hw.valueOf? hv

theorem LinesKeep.substitute (heval : LinesKeep eval) (h : Handle) (pre : PreEvaluation)
    (position : Nat) (raw : String) : (substitute eval h pre position raw).Keeps store In := by
  rw [Evaluation.substitute]
  split
  · cases Token.reference? raw with
    | some reference => exact heval.resolve h reference
    | none => exact .value (.text raw)
  · exact .value (.text raw)

theorem LinesKeep.arguments (heval : LinesKeep eval) (h : Handle) (pre : PreEvaluation)
    (line : String) (position : Nat) (tokens : List Token) :
    (arguments eval h pre line position tokens).Keeps store
      fun store₁ vs => ∀ v ∈ vs, In store₁ v := by
  -- the values found so far stay in the store of the rest
  induction tokens generalizing position store with
  | nil => exact .pure fun _ _ => List.forall_mem_nil _
  | cons t tokens ih =>
    cases t with
    | null =>
      refine .bind (ih (position + 1)) fun store₁ vs _ hvs => .pure fun store₂ hle => ?_
      simp only [List.forall_mem_cons]
      exact ⟨.null, fun v hv => (hvs v hv).mono hle⟩
    | word raw =>
      refine .bind (.within _ (heval.substitute h pre position raw)) fun store₁ v _ hv => ?_
      refine .bind (ih (position + 1)) fun store₂ vs hle hvs => .pure fun store₃ hle' => ?_
      simp only [List.forall_mem_cons]
      exact ⟨hv.mono (hle.trans hle'), fun v hv => (hvs v hv).mono hle'⟩

theorem LinesKeep.deferred (heval : LinesKeep eval) (h : Handle) {v : Value} (hv : In store v) :
    (deferred eval h v).Keeps store In := by
  cases v with
  | text raw => exact heval h _ store
  | _ => exact .value hv

theorem LinesKeep.sequenceFrom (heval : LinesKeep eval) (h : Handle) (number : Nat) {last : Value}
    (hlast : In store last) (lines : List String) :
    (sequenceFrom eval h number last lines).Keeps store In := by
  induction lines generalizing number last store with
  | nil => exact .read fun store₁ w hle hw => hw.ending_getD h.session (hlast.mono hle)
  | cons line lines ih =>
    rw [Evaluation.sequenceFrom]
    refine .bind (.read (Q := fun store₁ ended => ∀ v, ended = some v → In store₁ v)
      fun store₁ w _ hw v hended => hw.ending hended) fun store₁ ended hle hended => ?_
    cases ended with
    | some v => exact .value (hended v rfl)
    | none =>
      dsimp only
      split
      · exact ih (number + 1) (hlast.mono hle)
      · refine .bind (.within _ (heval h line store₁)) fun store₂ v _ hv => ?_
        refine .andThen (.change fun store₃ w hle hw => ?_) fun _ => ih (number + 1) hv
        exact hw.setLast h.session (hv.mono hle)

theorem LinesKeep.runBlock (heval : LinesKeep eval) (h : Handle) (id : Nat) :
    (runBlock eval h id).Keeps store In := by
  refine .after_read fun block => .andThen (.change fun _ w _ hw => ?_) fun _ =>
    .after_read fun inner => .within _ (heval.sequenceFrom inner 1 .null block.lines)
  exact hw.congr rfl rfl rfl

theorem LinesKeep.runBound (heval : LinesKeep eval) (id : Nat) :
    (runBound eval id).Keeps store In := by
  refine .after_read fun block => .after_read fun bound => ?_
  cases bound with
  | some h => exact heval.runBlock h id
  | none => exact .fail _

theorem keeps_openBlock (h : Handle) (name : String) :
    (openBlock h name).Keeps store anyValue := by
  refine .of_holds fun store₁ w _ hw => ⟨?_, fun _ _ _ => trivial⟩
  rw [openBlock]
  cases w.valueOf? h.session (Block.slot name) with
  | none => exact hw.makeBlock h.session name
  | some v => cases v <;> exact hw

end Evaluation

/-! ### What the host adds -/

/-- What the host adds keeps stores: its commands do, and what its methods compute is in the store
of the target and the arguments. -/
structure Engine.KeepsStores (engine : Engine) : Prop where
  custom {searchOrder : List String} {name qualified : String} {pre : PreEvaluation}
    {run : Handle → List Value → Script Value} :
    engine.registry.resolve? searchOrder name = some (qualified, .custom pre run) →
      ∀ h args store, (∀ v ∈ args, In store v) → (run h args).Keeps store In
  compute {target : Value} {method : String} {args : List Value} {call : Catalog.Call}
    {run : Array Block → Value → List HostArgument → Except HostFault Value} :
    engine.hosts.resolve target method args = .ok call → call.method.action = .compute run →
      ∀ {blocks : Array Block} {v : Value} {store : List (Table Value)}, In store target →
        (∀ v ∈ args, In store v) → run blocks target call.arguments = .ok v → In store v

theorem Host.Part.in_store {store : List (Table Value)} {target v : Value}
    (h : Host.Part target v) (htarget : In store target) : In store v := by
  cases h with
  | null => exact .null
  | boolean b => exact .boolean b
  | integer n => exact .integer n
  | float x => exact .float x
  | text s => exact .text s
  | texts ss =>
    refine .list fun item hitem => ?_
    obtain ⟨s, -, rfl⟩ := List.mem_map.1 hitem
    exact .text s
  | entry heq hentry =>
    subst heq
    exact htarget.of_map.2.2 _ hentry
  | item heq hitem =>
    subst heq
    exact htarget.of_list _ hitem

theorem Program.keepsStores_standardEngine (place : Place) :
    (standardEngine place).KeepsStores where
  custom hresolve h args _ :=
    (Registry.customsHave_standard (fun _ => False) hresolve h args).elim
  compute hresolve haction _ _ _ htarget _ hv :=
    (Catalog.part_of_resolve_standard hresolve haction hv).in_store htarget

namespace Evaluation
open Script (anyValue)

variable {store : List (Table Value)} {eval : Evaluator} {engine : Engine}

theorem LinesKeep.invoke (heval : LinesKeep eval) (hengine : engine.KeepsStores) {target : Value}
    (htarget : In store target) (method : String) {args : List Value}
    (hargs : ∀ v ∈ args, In store v) :
    (invoke eval engine.hosts target method args).Keeps store In := by
  cases hresolve : engine.hosts.resolve target method args with
  | error e =>
    rw [Evaluation.invoke, hresolve]
    exact .fail e
  | ok call =>
    cases haction : call.method.action with
    | compute run =>
      refine .of_holds fun store₁ w hle hw => ?_
      rw [invoke_compute hresolve haction]
      cases hv : run w.blocks target call.arguments with
      | error fault => exact ⟨hw, fun _ _ h => by cases h⟩
      | ok v =>
        refine ⟨hw, fun a w' h => ?_⟩
        cases h
        exact hengine.compute hresolve haction (htarget.mono hle)
          (fun v hv => (hargs v hv).mono hle) hv
    | runBlock =>
      cases target with
      | block id =>
        rw [invoke_block hresolve haction]
        exact .mapError _ (heval.runBound id)
      | _ =>
        rw [Evaluation.invoke, hresolve]
        dsimp only
        rw [haction]
        exact .fail _
    | isAlive =>
      rw [Evaluation.invoke, hresolve]
      dsimp only
      rw [haction]
      cases target with
      | task id => exact .read fun _ _ _ _ => .boolean _
      | _ => exact .fail _

/-! ### Control commands -/

theorem LinesKeep.test (heval : LinesKeep eval) (h : Handle) (condition : Value) :
    (test eval h condition).Keeps store anyValue := by
  cases condition with
  | boolean b => exact .pure fun _ _ => trivial
  | text raw =>
    refine .bind (.within _ (heval.deferred h (.text raw))) fun store₁ v _ _ => ?_
    cases v with
    | boolean b => exact .pure fun _ _ => trivial
    | _ => exact .fail _
  | _ => exact .fail _

theorem keeps_passes (h : Handle) {condition : Script Bool} {body : Nat → Script Value}
    (hcondition : ∀ store, condition.Keeps store anyValue)
    (hbody : ∀ number store, (body number).Keeps store In) (number fuel : Nat) :
    (passes h condition body number fuel).Keeps store anyValue := by
  induction fuel generalizing number store with
  | zero => exact .exhausted
  | succ fuel ih =>
    refine .after_read fun ended => ?_
    split
    · exact .pure fun _ _ => trivial
    · refine .andThen (hcondition store) fun holds => ?_
      split
      · exact .bind (hbody number store) fun _ _ _ _ => ih (number + 1)
      · exact .pure fun _ _ => trivial

theorem LinesKeep.pass (heval : LinesKeep eval) {waiting : Script Unit}
    (hwaiting : ∀ store, waiting.Keeps store anyValue) (h : Handle) (body : String)
    (number : Nat) : (pass eval waiting h body number).Keeps store In := by
  refine .bind (.within _ (heval h body store)) fun store₁ v _ hv => ?_
  dsimp only
  split
  · exact .andThen (hwaiting store₁) fun _ => .value hv
  · exact .value hv

theorem LinesKeep.runLoop (heval : LinesKeep eval) {waiting : Script Unit}
    (hwaiting : ∀ store, waiting.Keeps store anyValue) (fuel : Nat) (h : Handle)
    (args : List Value) : (runLoop eval waiting fuel h args).Keeps store In := by
  match args with
  | [] => exact .fail _
  | [_] => exact .fail _
  | condition :: first :: rest =>
    refine .after_read fun body => .andThen (keeps_passes h (fun _ => heval.test h condition)
      (fun number _ => heval.pass hwaiting h body number) 1 fuel) fun _ => .value .null

theorem LinesKeep.runBlockAction (heval : LinesKeep eval) (h : Handle) (name action : String)
    (code : List Value) : (runBlockAction eval h name action code).Keeps store In := by
  have hopen : ∀ {f : Nat → Script Value}, (∀ id, (f id).Keeps store In) →
      (openBlock h name >>= f).Keeps store In := fun hf => .andThen (keeps_openBlock h name) hf
  have hmodify : ∀ (id : Nat) (f : Block → Block) {store},
      (Script.change (·.modifyBlock id f)).Keeps store anyValue :=
    fun id f => .change fun _ _ _ hw => hw.congr rfl rfl rfl
  unfold Evaluation.runBlockAction
  split
  · refine .andThen ?_ fun id => .value (.block id)
    exact .of_holds fun _ w _ hw => ⟨hw.makeBlock h.session name, fun _ _ _ => trivial⟩
  · refine .andThen (.change fun _ w _ hw => ?_) fun _ => .value .null
    exact hw.removeVariable h.session (Block.slot name)
  · refine .read fun _ w _ _ => .list fun item hitem => ?_
    obtain ⟨s, -, rfl⟩ := List.mem_map.1 hitem
    exact .text s
  · split
    · exact .fail _
    · exact hopen fun id => .after_read fun line => .andThen (hmodify id _) fun _ =>
        .value (.block id)
  · exact hopen fun id => .andThen (hmodify id _) fun _ => .value (.block id)
  · exact hopen fun id => .value (.block id)
  · exact hopen fun id => heval.runBlock h id
  · exact .fail _

theorem LinesKeep.runCodeblock (heval : LinesKeep eval) (h : Handle) (args : List Value) :
    (runCodeblock eval h args).Keeps store In := by
  by_cases hargs : ∃ name action code, args = .text name :: .text action :: code
  · obtain ⟨name, action, code, rfl⟩ := hargs
    rw [runCodeblock_text]
    exact heval.runBlockAction h name action code
  · obtain ⟨e, hfail⟩ := exists_runCodeblock_eq_fail fun name action code heq =>
      hargs ⟨name, action, code, heq⟩
    rw [hfail]
    exact .fail e

theorem keeps_runAsynchronize (h : Handle) (args : List Value) :
    (runAsynchronize h args).Keeps store In := by
  rw [runAsynchronize]
  split
  · exact .fail _
  · refine .after_read fun line => .andThen ?_ fun task => .value (.task task)
    exact .of_holds fun _ w _ hw => ⟨hw.congr rfl rfl rfl, fun _ _ _ => trivial⟩

theorem LinesKeep.runRunIf (heval : LinesKeep eval) (h : Handle) (args : List Value) :
    (runRunIf eval h args).Keeps store In := by
  match args with
  | [] => exact .fail _
  | [_] => exact .fail _
  | condition :: first :: rest =>
    rw [runRunIf_eq]
    cases Leaf.truth condition with
    | error c => exact .fail _
    | ok holds =>
      cases holds with
      | false => exact .value .null
      | true => exact .after_read fun line => heval h line store

theorem LinesKeep.runInvoke (heval : LinesKeep eval) (hengine : engine.KeepsStores)
    {args : List Value} (hargs : ∀ v ∈ args, In store v) :
    (runInvoke eval engine.hosts args).Keeps store In := by
  by_cases hshape : ∃ target method rest, args = target :: .text method :: rest
  · obtain ⟨target, method, rest, rfl⟩ := hshape
    simp only [List.forall_mem_cons] at hargs
    rw [runInvoke_text]
    exact heval.invoke hengine hargs.1 method hargs.2.2
  · obtain ⟨e, hfail⟩ := exists_runInvoke_eq_fail fun target method rest heq =>
      hshape ⟨target, method, rest, heq⟩
    rw [hfail]
    exact .fail e

theorem keeps_leaf (place : Place) (h : Handle) (command : Leaf) {args : List Value}
    (hargs : ∀ v ∈ args, In store v) : (command.run place h args).Keeps store In := by
  intro store₁ w hle hw
  have hargs₁ : ∀ v ∈ args, In store₁ v := fun v hv => (hargs v hv).mono hle
  refine (Leaf.run_checksFirst place h command args w).elim
    (P := fun o => ∃ store', store₁ <+: store' ∧ o.world.Holds store' ∧
      ∀ v w', o = .done v w' → In store' v)
    (fun v w' hdoes => ?_) (fun _ => ?_) (fun _ => ?_) ?_
  · obtain ⟨store₂, hle₂, hw', hv⟩ := hdoes.keeps hw hargs₁
    refine ⟨store₂, hle₂, hw', fun a w'' h => ?_⟩
    cases h
    exact hv
  all_goals exact ⟨store₁, List.prefix_rfl, hw, fun _ _ h => by cases h⟩

/-! ### Lines -/

theorem LinesKeep.execute (heval : LinesKeep eval) (hengine : engine.KeepsStores) (fuel : Nat)
    {waiting : Script Unit} (hwaiting : ∀ store, waiting.Keeps store anyValue)
    {searchOrder : List String} {name qualified : String} {command : Command}
    (hresolve : engine.registry.resolve? searchOrder name = some (qualified, command)) (h : Handle)
    {args : List Value} (hargs : ∀ v ∈ args, In store v) :
    (execute engine fuel waiting eval h command args).Keeps store In := by
  cases command with
  | leaf command => exact keeps_leaf engine.place h command hargs
  | custom pre run => exact hengine.custom hresolve h args store hargs
  | control command =>
    cases command with
    | loop => exact heval.runLoop hwaiting fuel h args
    | codeblock => exact heval.runCodeblock h args
    | asynchronize => exact keeps_runAsynchronize h args
    | runIf => exact heval.runRunIf h args
    | invokeMethodOf => exact heval.runInvoke hengine hargs

theorem LinesKeep.dispatch (heval : LinesKeep eval) (hengine : engine.KeepsStores) (fuel : Nat)
    {waiting : Script Unit} (hwaiting : ∀ store, waiting.Keeps store anyValue) (h : Handle)
    (line name : String) (tokens : List Token) :
    (dispatch engine fuel waiting eval h line name tokens).Keeps store In := by
  refine .after_read fun searchOrder => ?_
  cases hresolve : engine.registry.resolve? searchOrder name with
  | none => exact .fail _
  | some found =>
    obtain ⟨qualified, command⟩ := found
    refine .bind (heval.arguments h command.preEvaluation line 0 tokens) fun _ args _ hargs => ?_
    exact .within _ (heval.execute hengine fuel hwaiting hresolve h hargs)

theorem keeps_guarded {lower : Option Evaluator} (hlower : ∀ eval ∈ lower, LinesKeep eval)
    {run : Evaluator → Script Value} (hrun : ∀ eval, LinesKeep eval → (run eval).Keeps store In) :
    (guarded lower run).Keeps store In := by
  cases lower with
  | none => exact .fail _
  | some eval => exact hrun eval (hlower eval rfl)

theorem keeps_evaluateLevel (hengine : engine.KeepsStores) (fuel : Nat) {waiting : Script Unit}
    (hwaiting : ∀ store, waiting.Keeps store anyValue) {lower : Option Evaluator}
    (hlower : ∀ eval ∈ lower, LinesKeep eval) :
    LinesKeep (evaluateLevel engine fuel waiting lower) := by
  intro h line store
  refine .bind (.read (Q := fun store₁ ended => ∀ v, ended = some v → In store₁ v)
    fun store₁ w _ hw v hended => hw.ending hended) fun store₁ ended _ hended => ?_
  cases ended with
  | some v => exact .value (hended v rfl)
  | none =>
    dsimp only
    cases Token.scan line with
    | nil => exact .value (.integer 1)
    | cons first rest =>
      dsimp only
      split
      · exact .value (.integer 0)
      unfold evaluateTokens
      cases loneReference? (first :: rest) with
      | some reference => exact keeps_guarded hlower fun eval heval => heval.resolve h reference
      | none =>
        cases first with
        | null => exact .fail _
        | word name =>
          dsimp only
          split
          · exact .fail _
          · exact keeps_guarded hlower fun eval heval =>
              heval.dispatch hengine fuel hwaiting h line name rest

theorem keeps_evaluateAt (hengine : engine.KeepsStores) (fuel : Nat) {waiting : Script Unit}
    (hwaiting : ∀ store, waiting.Keeps store anyValue) (levels : Nat) :
    LinesKeep (evaluateAt engine fuel waiting levels) := by
  induction levels with
  | zero => exact keeps_evaluateLevel hengine fuel hwaiting fun eval h => by cases h
  | succ levels ih =>
    refine keeps_evaluateLevel hengine fuel hwaiting fun eval h => ?_
    obtain rfl := Option.some.inj h
    exact ih

/-! ### Launched lines -/

theorem LinesKeep.runLaunched (heval : LinesKeep eval) (task : Nat) (launch : Launch) :
    (runLaunched eval task launch).Keeps store anyValue := by
  intro store₁ w hle hw
  have hquiet := (heval launch.handle launch.line store).quietly
  simp only [Evaluation.runLaunched]
  split
  · obtain ⟨store₂, hle₂, hw₂, -⟩ := hquiet store₁ { w with written := #[] } hle
      (hw.congr rfl rfl rfl)
    rw [Outcome.world_mapWorld]
    exact ⟨store₂, hle₂, hw₂.closeAside _ task, fun _ _ _ => trivial⟩
  · obtain ⟨store₂, hle₂, hw₂, -⟩ := hquiet store₁ w hle hw
    rw [Outcome.world_mapWorld]
    exact ⟨store₂, hle₂, hw₂.endLaunch task, fun _ _ _ => trivial⟩

theorem LinesKeep.settle (heval : LinesKeep eval) (fuel : Nat) :
    (settle eval fuel).Keeps store anyValue := by
  induction fuel generalizing store with
  | zero =>
    refine .of_holds fun store₁ w _ hw => ⟨?_, fun _ _ _ => trivial⟩
    show (if w.hasWaiting then _ else _ : Outcome Unit).world.Holds store₁
    split <;> exact hw
  | succ fuel ih =>
    intro store₁ w hle hw
    simp only [Evaluation.settle]
    cases hnext : w.startNext? with
    | none => exact ⟨store₁, List.prefix_rfl, hw, fun _ _ _ => trivial⟩
    | some next =>
      obtain ⟨⟨task, launch⟩, w₁⟩ := next
      exact Script.Keeps.andThen (heval.runLaunched task launch) (fun _ => ih) store₁ w₁ hle
        (hw.startNext hnext)

end Evaluation

namespace Engine
open Evaluation
variable {engine : Engine}

/-- Every evaluation keeps every store. -/
theorem keeps_evaluate (hengine : engine.KeepsStores) (fuel levels : Nat) :
    LinesKeep (engine.evaluate fuel levels) := by
  rw [Engine.evaluate_eq]
  induction fuel generalizing levels with
  | zero =>
    have hnone : LinesKeep fun _ _ => .exhausted := fun _ _ _ => .exhausted
    exact keeps_evaluateAt hengine 0 (fun _ => hnone.settle 0) levels
  | succ fuel ih =>
    refine keeps_evaluateAt hengine (fuel + 1) (fun _ => LinesKeep.settle ?_ (fuel + 1)) levels
    rw [Engine.evaluate_eq]
    exact ih recursionLimit

/-- The world after some lines have been evaluated, each on its handle, however they ended. -/
def afterLines (engine : Engine) (fuel levels : Nat) : List (Handle × String) → World → World
  | [], w => w
  | (h, line) :: lines, w =>
    engine.afterLines fuel levels lines (engine.evaluate fuel levels h line w).world

theorem holds_afterLines (hengine : engine.KeepsStores) (fuel levels : Nat)
    (lines : List (Handle × String)) {store : List (Table Value)} {w : World}
    (hw : w.Holds store) :
    ∃ store', store <+: store' ∧ (engine.afterLines fuel levels lines w).Holds store' := by
  induction lines generalizing store w with
  | nil => exact ⟨store, List.prefix_rfl, hw⟩
  | cons first lines ih =>
    obtain ⟨h, line⟩ := first
    obtain ⟨store₁, hle, hw₁, -⟩ :=
      keeps_evaluate hengine fuel levels h line store store w List.prefix_rfl hw
    obtain ⟨store₂, hle₂, hw₂⟩ := ih hw₁
    exact ⟨store₂, hle.trans hle₂, hw₂⟩

end Engine

/-- Whatever lines are evaluated from the start, all values that the sessions hold are in one store.
-/
theorem Program.exists_store_afterLines (place : Place) {environment : Environment}
    (henvironment : (Table.keys environment.settings).Nodup) (searchOrder : List String)
    (sessions fuel levels : Nat) (lines : List (Handle × String)) :
    ∃ store, ((standardEngine place).afterLines fuel levels lines
      (.initial environment searchOrder sessions)).Holds store := by
  obtain ⟨store, -, hw⟩ := Engine.holds_afterLines (keepsStores_standardEngine place) fuel levels
    lines (.initial henvironment searchOrder sessions)
  exact ⟨store, hw⟩

/-- A session of the world has the value in a variable, as its last result, or as what it was
terminated with. -/
inductive World.HasValue (w : World) : Value → Prop
  | bound {id : Nat} {name : String} {v : Value} (h : (name, v) ∈ (w.session id).bindings) :
    HasValue w v
  | last (id : Nat) : HasValue w (w.session id).last
  | ending {id : Nat} {v : Value} (h : w.ending id = some v) : HasValue w v

theorem World.HasValue.in_store {w : World} {v : Value} (h : w.HasValue v)
    {store : List (Table Value)} (hw : w.Holds store) : In store v := by
  cases h with
  | bound h => exact (hw.sessions _).bindings _ h
  | last id => exact (hw.sessions id).last
  | ending h => exact hw.ending h

/-- Whatever lines are evaluated from the start, equality of the values that the sessions have is
symmetric and transitive, and two maps are equal exactly where they are one map or have the same
keys with equal values. Whether a value equals itself does not depend on how it came about
(`Value.same_self_iff`). -/
theorem Program.same_afterLines (place : Place) {environment : Environment}
    (henvironment : (Table.keys environment.settings).Nodup) (searchOrder : List String)
    (sessions fuel levels : Nat) (lines : List (Handle × String)) {w : World}
    (hw : (standardEngine place).afterLines fuel levels lines
      (.initial environment searchOrder sessions) = w) :
    (∀ a b, w.HasValue a → w.HasValue b → a.same b = true → b.same a = true) ∧
    (∀ a b c, w.HasValue a → w.HasValue b → w.HasValue c → a.same b = true → b.same c = true →
      a.same c = true) ∧
    ∀ i j as bs, w.HasValue (.map i as) → w.HasValue (.map j bs) →
      (Value.same (.map i as) (.map j bs) = true ↔ i = j ∨ Value.Alike as bs) := by
  obtain ⟨store, hstore⟩ :=
    exists_store_afterLines place henvironment searchOrder sessions fuel levels lines
  rw [hw] at hstore
  refine ⟨fun a b ha hb => ?_, fun a b c ha hb hc => ?_, fun i j as bs ha hb => ?_⟩
  · exact Value.same_symm (ha.in_store hstore) (hb.in_store hstore)
  · exact Value.same_trans (ha.in_store hstore) (hb.in_store hstore) (hc.in_store hstore)
  · exact Value.same_map_iff (ha.in_store hstore) (hb.in_store hstore)

end BraceScript
