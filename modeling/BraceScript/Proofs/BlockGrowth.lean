import BraceScript.Proofs.Accounts

/-!
# Blocks only grow

Whatever is evaluated, and however it ends, a block that was there before keeps its name and its
lines, may have more lines behind them, and has counted as many runs more as were started meanwhile
(`World.Grown`, `Engine.blocks_only_grow`). The starts are those of the log, so a run that fails and a
run inside a run of the same block are among them.

A run evaluates the lines that the block holds when it starts; and making or deleting a block under
a name changes what the name stands for, and no block that is there.
-/

namespace BraceScript

/-- Is a run of the block with a number started? -/
def Event.starts (id : Nat) : Event → Bool
  | started block _ => block = id
  | executed _ _ _ _ => false

/-- How many runs of a block some events start. -/
def Event.countStarts (es : List Event) (id : Nat) : Nat :=
  es.countP (Event.starts id)

/-! ### The account of the blocks -/

theorem World.Grown.countRun (w : World) (id : Nat) :
    w.Grown (fun id' => if id = id' then 1 else 0) (w.countRun id) :=
  .modifyBlock (f := fun b => { b with runs := b.runs + 1 }) (fun _ => rfl)
    (fun _ => List.prefix_rfl) (fun _ => rfl) w id

theorem World.blocks_closeAside (w : World) (before : Array Written) (task : Nat) :
    (w.closeAside before task).blocks = w.blocks := by
  rw [closeAside]
  split <;> rfl

/-- The blocks grow by the runs that the events start. -/
def growth : Account :=
  fun _ w es w' _ => w.Grown (Event.countStarts es) w'

theorem isAccount_growth : IsModestAccount growth where
  modest hw _ := hw.blocks
  trans {_ _ _ _ _ _ es es'} h h' := by
    have happend : Event.countStarts (es ++ es') =
        fun id => Event.countStarts es id + Event.countStarts es' id :=
      funext fun _ => List.countP_append
    rw [growth, happend]
    exact h.trans h'
  mono _ _ h := h
  started {_ _ w _ es} id h := by
    have hcons : Event.countStarts (.started id w :: es) =
        fun id' => (if id = id' then 1 else 0) + Event.countStarts es id' := by
      funext id'
      rw [Event.countStarts, List.countP_cons, Nat.add_comm]
      simp [Event.starts, Event.countStarts]
    rw [growth, hcons]
    exact (World.Grown.countRun w id).trans h
  executed _ h := h
  launched _ _ _ := .of_blocks_eq rfl
  aside {_ w w' _} task h := by
    have hbefore : w.Grown (fun _ => 0) { w with written := #[] } := .of_blocks_eq rfl
    have hafter : w'.Grown (fun _ => 0) (w'.closeAside w.written task) :=
      .of_blocks_eq (w'.blocks_closeAside w.written task)
    simpa [growth] using (hbefore.trans h).trans hafter

/-- The run lets the blocks that are there get lines, and starts no run of them. -/
def Script.LetsGrow {α : Type} (x : Script α) : Prop :=
  ∀ w : World, w.Grown (fun _ => 0) (x w).world

theorem host_growth {engine : Engine} (hcustoms : engine.registry.CustomsHave Script.LetsGrow) :
    IsAccount.Host growth engine where
  custom hresolve h args w := hcustoms hresolve h args w
  compute _ _ _ _ _ := .of_blocks_eq rfl

/-! ### Everything that is evaluated -/

/-- Something to evaluate: a line, a sequence, a loop by its arguments, a run of a block on a handle
or on the one it is bound to, a launched line, and all those that wait. -/
inductive Work where
  | line (h : Handle) (line : String)
  | sequence (h : Handle) (lines : List String)
  | loop (h : Handle) (args : List Value)
  | block (h : Handle) (id : Nat)
  | bound (id : Nat)
  | launched (task : Nat) (launch : Launch)
  | waiting

namespace Work
open Evaluation

/-- The world that the work leaves, however it ends. -/
def leave (engine : Engine) (fuel levels : Nat) : Work → World → World
  | line h s, w => (engine.evaluate fuel levels h s w).world
  | sequence h lines, w => (Evaluation.sequence (engine.evaluate fuel levels) h lines w).world
  | loop h args, w =>
    (runLoop (engine.evaluate fuel levels) (engine.waiting fuel) fuel h args w).world
  | block h id, w => (runBlock (engine.evaluate fuel levels) h id w).world
  | bound id, w => (runBound (engine.evaluate fuel levels) id w).world
  | launched task launch, w => (runLaunched (engine.evaluate fuel levels) task launch w).world
  | waiting, w => (engine.waiting fuel w).world

/-- What happens meanwhile. -/
def log (engine : Engine) (fuel levels : Nat) : Work → Log
  | line h s => engine.log fuel levels h s
  | sequence h lines => sequenceLog (engine.evaluate fuel levels) (engine.log fuel levels) h lines
  | loop h args =>
    loopLog (engine.evaluate fuel levels) (engine.log fuel levels) (engine.waiting fuel)
      (engine.waitingLog fuel) fuel h args
  | block h id => blockLog (engine.evaluate fuel levels) (engine.log fuel levels) h id
  | bound id => boundLog (engine.evaluate fuel levels) (engine.log fuel levels) id
  | launched _ launch => launchedLog (engine.log fuel levels) launch
  | waiting => engine.waitingLog fuel

theorem grown {engine : Engine} (hcustoms : engine.registry.CustomsHave Script.LetsGrow)
    (fuel levels : Nat) (work : Work) (w : World) :
    w.Grown (Event.countStarts (work.log engine fuel levels w))
      (work.leave engine fuel levels w) := by
  have hhost := host_growth hcustoms
  have heval := isAccount_growth.evaluate hhost fuel levels
  have hwaiting := isAccount_growth.waiting hhost fuel
  cases work with
  | line h s => exact heval h s w
  | sequence h lines => exact isAccount_growth.sequence heval h lines w
  | loop h args => exact isAccount_growth.runLoop heval hwaiting fuel h args w
  | block h id => exact isAccount_growth.runBlock heval h id w
  | bound id => exact isAccount_growth.runBound heval id w
  | launched task launch => exact isAccount_growth.runLaunched heval task launch w
  | waiting => exact hwaiting w

end Work

/-! ### Names of blocks -/

theorem Table.value?_eq_none_of_not_mem {α : Type} {key : String} {t : Table α}
    (h : key ∉ keys t) : value? key t = none := by
  rw [← has_iff_mem_keys, has] at h
  simpa using h

theorem Table.value?_remove_self {α : Type} {t : Table α} (ht : (keys t).Nodup) (key : String) :
    value? key (remove key t) = none := by
  induction t with
  | nil => rfl
  | cons entry t ih =>
    obtain ⟨k, v⟩ := entry
    have hnodup := List.nodup_cons.1 ht
    rw [remove]
    split
    · rename_i hkey
      exact value?_eq_none_of_not_mem (hkey ▸ hnodup.1)
    · rename_i hkey
      rw [value?, if_neg hkey]
      exact ih hnodup.2

namespace World

theorem block_makeBlock (w : World) (session : Nat) (name : String) {id : Nat}
    (hid : id < w.blocks.size) : (w.makeBlock session name).2.block id = w.block id := by
  simp [makeBlock, newBlock, setVariable, modifySession, block, Array.getElem?_push, hid,
    Nat.ne_of_lt hid]

theorem block_makeBlock_new (w : World) (session : Nat) (name : String) :
    (w.makeBlock session name).2.block w.blocks.size = { name } := by
  simp [makeBlock, newBlock, setVariable, modifySession, block]

theorem findBlock?_makeBlock {w : World} {session : Nat} (hsession : session < w.sessions.size)
    (name : String) :
    (w.makeBlock session name).2.findBlock? session name = some w.blocks.size := by
  have hself := session_modifySession (w := (w.newBlock name).2) hsession
    (·.setVariable (Block.slot name) (.block w.blocks.size))
  have hvalue : (w.makeBlock session name).2.valueOf? session (Block.slot name) =
      some (.block w.blocks.size) := by
    rw [valueOf?, show (w.makeBlock session name).2.session session = _ from hself]
    exact Table.value?_put_self _ _ _
  rw [findBlock?, hvalue]

theorem findBlock?_deleteBlock {w : World} {session : Nat}
    (hkeys : (Table.keys (w.session session).bindings).Nodup) (name : String) :
    (w.deleteBlock session name).findBlock? session name = none := by
  have hvalue : (w.deleteBlock session name).valueOf? session (Block.slot name) = none := by
    by_cases hsession : session < w.sessions.size
    · rw [valueOf?, deleteBlock, removeVariable, session_modifySession hsession]
      exact Table.value?_remove_self hkeys _
    · simp [valueOf?, deleteBlock, removeVariable, modifySession, World.session, hsession,
        Table.value?]
  rw [findBlock?, hvalue]

end World

namespace Engine
open Evaluation

/-- Blocks only grow: through whatever is evaluated each block keeps its name and its lines and
counts the runs of it that are started, no others. The block command makes a new block under a name
and leaves those there are alone, and so it does when it deletes one; and a run of a block is the
sequence of the lines that the block holds at its start. -/
theorem blocks_only_grow {engine : Engine}
    (hcustoms : engine.registry.CustomsHave Script.LetsGrow) (fuel levels : Nat) (w : World) :
    (∀ work : Work, w.Grown (Event.countStarts (work.log engine fuel levels w))
      (work.leave engine fuel levels w)) ∧
    (∀ waiting eval h name code, ∃ w',
      execute engine fuel waiting eval h (.control .codeblock)
        (.text name :: .text "make" :: code) w = .done (.block w.blocks.size) w' ∧
      (∀ id < w.blocks.size, w'.block id = w.block id) ∧
      w'.block w.blocks.size = { name } ∧
      (h.session < w.sessions.size → w'.findBlock? h.session name = some w.blocks.size)) ∧
    (∀ waiting eval h name code, ∃ w',
      execute engine fuel waiting eval h (.control .codeblock)
        (.text name :: .text "delete" :: code) w = .done .null w' ∧
      w'.blocks = w.blocks ∧
      ((Table.keys (w.session h.session).bindings).Nodup →
        w'.findBlock? h.session name = none)) ∧
    ∀ eval h id, runBlock eval h id w =
      ((sequence eval (w.enterBlock h (w.block id).name) (w.block id).lines).within
        (.block (w.block id).name)) (w.countRun id) := by
  refine ⟨fun work => work.grown hcustoms fuel levels w, ?_, ?_, fun _ _ _ => rfl⟩
  · intro waiting eval h name code
    refine ⟨(w.makeBlock h.session name).2, rfl, ?_, ?_, ?_⟩
    · intro id hid
      exact w.block_makeBlock h.session name hid
    · exact w.block_makeBlock_new h.session name
    · intro hsession
      exact World.findBlock?_makeBlock hsession name
  · intro waiting eval h name code
    refine ⟨w.deleteBlock h.session name, rfl, rfl, ?_⟩
    intro hkeys
    exact World.findBlock?_deleteBlock hkeys name

/-- The world with a block that runs itself. -/
def selfCalling : World :=
  ((World.start {}).makeBlock 0 "b").2.modifyBlock 0 (·.push "Codeblock b run")

/-- A block that runs itself, three levels deep, has counted three runs, though all of them fail. -/
theorem blocks_only_grow_selfCalling :
    (((Program.standardEngine default).evaluate 1 3 { session := 0 } "Codeblock b run"
      selfCalling).world.block 0).runs = 3 := by
  have hcustoms : (Program.standardEngine default).registry.CustomsHave Script.LetsGrow :=
    Registry.customsHave_standard _
  have hgrown := (blocks_only_grow hcustoms 1 3 selfCalling).1
    (.line { session := 0 } "Codeblock b run")
  have hstarts : Event.countStarts ((Program.standardEngine default).log 1 3 { session := 0 }
      "Codeblock b run" selfCalling) 0 = 3 := rfl
  calc _ = 0 + Event.countStarts _ 0 := hgrown.runs 0 (by decide)
    _ = 0 + 3 := congrArg (0 + ·) hstarts

end Engine
end BraceScript
