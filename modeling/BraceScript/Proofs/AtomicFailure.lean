import BraceScript.Proofs.HostMethods

/-!
# Commands that fail and leave nothing behind

A command that evaluates nothing (`Command.StaysOut`) checks before it changes: if it fails, it
leaves the very world in which it was executed (`Evaluation.failed_leaves_world`), so that neither
variables nor blocks, results, settings or output tell that it was tried. For the leaf commands this
is what `Leaf.run_checksFirst` says, command by command.

The block command is the one with a change on its way: it makes a block that is missing. What it
does after that cannot fail.
-/

namespace BraceScript

/-- The command evaluates no line on the arguments: it is one of the namespaces `ks.commands` and
`ks.types`, a call of a method that does not run a block, or the block command with an action that
does not. -/
inductive Command.StaysOut (hosts : Catalog) : Command → List Value → Prop
  | general {command : Command} (hmem : command ∈ Registry.generalCommands ++ Registry.typeCommands)
    (hrunIf : command ≠ .control .runIf) (hinvoke : command ≠ .control .invokeMethodOf)
    (args : List Value) : StaysOut hosts command args
  | method {args : List Value} (hcall : ∀ target method rest call,
      args = target :: .text method :: rest → hosts.resolve target method rest = .ok call →
        call.method.action.runsBlock = false) : StaysOut hosts (.control .invokeMethodOf) args
  | block {args : List Value} (haction : args[1]?.bind Value.text? ≠ some "run") :
    StaysOut hosts (.control .codeblock) args

namespace Command

theorem eq_leaf_of_mem {command : Command}
    (hmem : command ∈ Registry.generalCommands ++ Registry.typeCommands)
    (hrunIf : command ≠ .control .runIf) (hinvoke : command ≠ .control .invokeMethodOf) :
    ∃ leaf, command = .leaf leaf := by
  have hall : ∀ c ∈ Registry.generalCommands ++ Registry.typeCommands,
      (∃ leaf, c = .leaf leaf) ∨ c = .control .runIf ∨ c = .control .invokeMethodOf := by
    simp [Registry.generalCommands, Registry.typeCommands]
  rcases hall command hmem with hleaf | heq | heq
  · exact hleaf
  · exact absurd heq hrunIf
  · exact absurd heq hinvoke

/-- On the standard classes every call stays out whose method is not called `run`. -/
theorem StaysOut.standard {target : Value} {method : String} {args : List Value}
    (hmethod : method ≠ "run") :
    StaysOut .standard (.control .invokeMethodOf) (target :: .text method :: args) := by
  refine .method fun target' method' rest call heq hresolve => ?_
  cases heq
  exact Catalog.not_runsBlock_of_resolve_standard hresolve hmethod

end Command

namespace Script

/-- The run leaves the world as it was if it fails. -/
def FailsInPlace {α : Type} (x : Script α) : Prop :=
  ∀ ⦃w : World⦄ ⦃e : ScriptError⦄ ⦃w' : World⦄, x w = .failed e w' → w' = w

namespace FailsInPlace
variable {α β : Type}

theorem fail (e : ScriptError) : (Script.fail e : Script α).FailsInPlace := by
  intro w e' w' h
  cases h
  rfl

/-- What cannot fail may follow. -/
theorem bind {x : Script α} {f : α → Script β} (hx : x.FailsInPlace)
    (hf : ∀ a w, ∃ b w', f a w = .done b w') : (x >>= f).FailsInPlace := by
  intro w e w' h
  rw [bind_apply] at h
  cases ho : x w with
  | done a w₁ =>
    obtain ⟨b, w₂, hdone⟩ := hf a w₁
    simp [ho, hdone] at h
  | failed e₁ w₁ =>
    rw [ho] at h
    cases h
    exact hx ho
  | exited code w₁ => simp [ho] at h
  | exhausted w₁ => simp [ho] at h

theorem of_done {x : Script α} (hx : ∀ w, ∃ a w', x w = .done a w') : x.FailsInPlace := by
  intro w e w' h
  obtain ⟨a, w₁, hdone⟩ := hx w
  rw [hdone] at h
  cases h

end FailsInPlace

/-- A check that comes after a change does not fail in place. -/
example : ¬ (Script.change (·.setVariable 0 "x" .null) >>= fun _ =>
    Script.complain "StoreValue" .storeForm : Script Value).FailsInPlace := by
  intro h
  have hworld := h (w := .start {}) rfl
  exact absurd (congrArg (fun w => (w.session 0).bindings.length) hworld) (by decide)

end Script

namespace Evaluation

theorem failsInPlace_leaf (place : Place) (h : Handle) (command : Leaf) (args : List Value) :
    (command.run place h args).FailsInPlace := by
  intro w e w' hfailed
  exact (Leaf.run_checksFirst place h command args w).failed hfailed

theorem failsInPlace_openBlock (h : Handle) (name : String) :
    (openBlock h name).FailsInPlace := by
  intro w e w' hfailed
  rw [openBlock] at hfailed
  split at hfailed
  · cases hfailed
  · cases hfailed
    rfl
  · cases hfailed

theorem failsInPlace_runBlockAction (eval : Evaluator) (h : Handle) (name : String)
    {action : String} (haction : action ≠ "run") (code : List Value) :
    (runBlockAction eval h name action code).FailsInPlace := by
  have hopen := failsInPlace_openBlock h name
  unfold runBlockAction
  split
  · exact .of_done fun _ => ⟨_, _, rfl⟩
  · exact .of_done fun _ => ⟨_, _, rfl⟩
  · exact .of_done fun _ => ⟨_, _, rfl⟩
  · split
    · exact .fail _
    · exact hopen.bind fun _ _ => ⟨_, _, rfl⟩
  · exact hopen.bind fun _ _ => ⟨_, _, rfl⟩
  · exact hopen.bind fun _ _ => ⟨_, _, rfl⟩
  · exact absurd rfl haction
  · exact .fail _

theorem failsInPlace_runCodeblock (eval : Evaluator) (h : Handle) {args : List Value}
    (haction : args[1]?.bind Value.text? ≠ some "run") :
    (runCodeblock eval h args).FailsInPlace := by
  by_cases hshape : ∃ name action code, args = .text name :: .text action :: code
  · obtain ⟨name, action, code, rfl⟩ := hshape
    rw [runCodeblock_text]
    exact failsInPlace_runBlockAction eval h name (fun heq => haction (congrArg some heq)) code
  · obtain ⟨e, hfail⟩ := exists_runCodeblock_eq_fail fun name action code heq =>
      hshape ⟨name, action, code, heq⟩
    rw [hfail]
    exact .fail e

theorem failsInPlace_invoke (eval : Evaluator) {hosts : Catalog} {target : Value}
    {method : String} {args : List Value}
    (hcall : ∀ call, hosts.resolve target method args = .ok call →
      call.method.action.runsBlock = false) :
    (invoke eval hosts target method args).FailsInPlace := by
  cases hresolve : hosts.resolve target method args with
  | error e =>
    rw [invoke, hresolve]
    exact .fail e
  | ok call =>
    have hruns := hcall call hresolve
    cases haction : call.method.action with
    | runBlock =>
      rw [haction] at hruns
      cases hruns
    | compute run =>
      intro w e w' hfailed
      rw [invoke_compute hresolve haction] at hfailed
      split at hfailed
      · cases hfailed
      · cases hfailed
        rfl
    | isAlive =>
      rw [invoke, hresolve]
      dsimp only
      rw [haction]
      cases target with
      | task id => exact .of_done fun _ => ⟨_, _, rfl⟩
      | _ => exact .fail _

theorem failsInPlace_runInvoke (eval : Evaluator) {hosts : Catalog} {args : List Value}
    (hcall : ∀ target method rest call, args = target :: .text method :: rest →
      hosts.resolve target method rest = .ok call → call.method.action.runsBlock = false) :
    (runInvoke eval hosts args).FailsInPlace := by
  by_cases hshape : ∃ target method rest, args = target :: .text method :: rest
  · obtain ⟨target, method, rest, rfl⟩ := hshape
    rw [runInvoke_text]
    exact failsInPlace_invoke eval fun call => hcall target method rest call rfl
  · obtain ⟨e, hfail⟩ := exists_runInvoke_eq_fail fun target method rest heq =>
      hshape ⟨target, method, rest, heq⟩
    rw [hfail]
    exact .fail e

/-- A command that evaluates nothing and fails leaves the world exactly as it was: the variables,
the blocks with their lines and counters, the last results, the terminating values, the namespaces
that are searched, the environment and what has been written. -/
theorem failed_leaves_world {engine : Engine} {command : Command} {args : List Value}
    (hcommand : command.StaysOut engine.hosts args) {fuel : Nat} {waiting : Script Unit}
    {eval : Evaluator} {h : Handle} {w w' : World} {e : ScriptError}
    (hfailed : execute engine fuel waiting eval h command args w = .failed e w') : w' = w := by
  cases hcommand with
  | general hmem hrunIf hinvoke =>
    obtain ⟨leaf, rfl⟩ := Command.eq_leaf_of_mem hmem hrunIf hinvoke
    exact failsInPlace_leaf engine.place h leaf args hfailed
  | method hcall => exact failsInPlace_runInvoke eval hcall hfailed
  | block haction => exact failsInPlace_runCodeblock eval h haction hfailed

/-- The world in which something else stands under the name of a block. -/
def takenName : World :=
  (World.start {}).setVariable 0 (Block.slot "b") (.integer 1)

/-- A command is tried there. -/
def attempt (command : Command) (args : List Value) : Outcome Value :=
  execute (Program.standardEngine default) 1 .exhausted (fun _ _ => .exhausted) { session := 0 }
    command args takenName

/-- Code cannot be added to a block whose name is taken, and the attempt leaves no trace; nor does
an index that is out of range. -/
theorem failed_leaves_world_takenName :
    (∃ e w', attempt (.control .codeblock) [.text "b", .text "add", .text "Print"] =
      .failed e w' ∧ w' = takenName) ∧
    ∃ e w', attempt (.control .invokeMethodOf) [.text "abc", .text "charAt", .integer 3] =
      .failed e w' ∧ w' = takenName := by
  have hadd : (Command.control .codeblock).StaysOut (Program.standardEngine default).hosts
      [.text "b", .text "add", .text "Print"] := .block (by decide)
  have hcharAt : (Command.control .invokeMethodOf).StaysOut (Program.standardEngine default).hosts
      [.text "abc", .text "charAt", .integer 3] := .standard (by decide)
  obtain ⟨e, w', hfailed⟩ : ∃ e w', attempt (.control .codeblock)
    [.text "b", .text "add", .text "Print"] = .failed e w' := ⟨_, _, rfl⟩
  obtain ⟨e₁, w₁, hfailed₁⟩ : ∃ e w', attempt (.control .invokeMethodOf)
    [.text "abc", .text "charAt", .integer 3] = .failed e w' := ⟨_, _, rfl⟩
  exact ⟨⟨e, w', hfailed, failed_leaves_world hadd hfailed⟩,
    ⟨e₁, w₁, hfailed₁, failed_leaves_world hcharAt hfailed₁⟩⟩

end Evaluation
end BraceScript
