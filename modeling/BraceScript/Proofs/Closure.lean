import BraceScript.Evaluation

/-!
# What holds of every evaluation

All that an evaluation does is put together from a few things: it reads the world, never looking at
a last result, makes one of the changes that `World.Change` lists, fails, exits, and does one thing
after another. A property of runs that each of these has (`Script.IsClosed`), and that the commands
of the host program have, holds of every evaluation, whatever the line (`IsClosed.evaluate`).

The proof follows the evaluator from the inside out, one lemma for each of its functions, given the
evaluator of the level below.
-/

namespace BraceScript

/-! ### Reading and changing the world -/

/-- A session without its last result. -/
def Session.forgetLast (s : Session) : Session :=
  { s with last := .null }

namespace World

/-- The world without the last results of its sessions. -/
def forgetLast (w : World) : World :=
  { w with sessions := w.sessions.map Session.forgetLast }

@[simp] theorem session_forgetLast (w : World) (id : Nat) :
    w.forgetLast.session id = (w.session id).forgetLast := by
  by_cases h : id < w.sessions.size
  · simp [session, forgetLast, h]
  · simp [session, forgetLast, h, Session.forgetLast]

/-- The value read off a world does not rest on the last results. -/
def Blind {α : Type} (f : World → α) : Prop :=
  ∀ w : World, f w.forgetLast = f w

theorem blind_ending (id : Nat) : Blind (·.ending id) :=
  fun w => by simp [ending, Session.forgetLast]

theorem blind_valueOf? (id : Nat) (name : String) : Blind (·.valueOf? id name) :=
  fun w => by simp [valueOf?, Session.forgetLast]

theorem blind_searchOrder (id : Nat) : Blind fun w => (w.session id).searchOrder :=
  fun w => by simp [Session.forgetLast]

theorem blind_blockNames (id : Nat) : Blind (·.blockNames id) :=
  fun w => by simp [blockNames, Session.namesFrom, Session.forgetLast]

theorem blind_liveHandle? (block : Block) : Blind (Evaluation.liveHandle? · block) :=
  fun w => by simp [Evaluation.liveHandle?, Session.forgetLast]

theorem session_modifySession {w : World} {id : Nat} (hid : id < w.sessions.size)
    (f : Session → Session) : (w.modifySession id f).session id = f (w.session id) := by
  simp [modifySession, session, hid, Array.getElem_modify]

/-- What a session is after one of them has been changed. -/
theorem session_modifySession_cases (w : World) (id : Nat) (f : Session → Session) (id' : Nat) :
    (w.modifySession id f).session id' = w.session id' ∨
      id = id' ∧ (w.modifySession id f).session id' = f (w.session id') := by
  by_cases hid : id' < w.sessions.size
  · by_cases heq : id = id'
    · subst heq
      exact .inr ⟨rfl, session_modifySession hid f⟩
    · exact .inl (by simp [modifySession, session, hid, Array.getElem_modify, heq])
  · exact .inl (by simp [modifySession, session, hid])

theorem sessions_closeAside (w : World) (before : Array Written) (task : Nat) :
    (w.closeAside before task).sessions = w.sessions := by
  rw [closeAside]
  split <;> rfl

/-- The world in which one more run of a block has been started. -/
def countRun (w : World) (id : Nat) : World :=
  w.modifyBlock id fun b => { b with runs := b.runs + 1 }

/-- The changes that evaluations make. -/
inductive Change : (World → World) → Prop
  | setVariable (id : Nat) (name : String) (v : Value) : Change (·.setVariable id name v)
  | removeVariable (id : Nat) (name : String) : Change (·.removeVariable id name)
  | terminate (id : Nat) (v : Value) : Change fun w => (w.terminate id v).2
  | setLast (id : Nat) (v : Value) : Change (·.setLast id v)
  | write (channel : Channel) (text : String) : Change (·.write channel text)
  | setSetting (name value : String) : Change (·.setSetting name value)
  | unsetSetting (name : String) : Change (·.unsetSetting name)
  | newMap (entries : Table Value) : Change fun w => (w.newMap entries).2
  | newBlock (name : String) : Change fun w => (w.newBlock name).2
  | addLine (id : Nat) (line : String) : Change (·.modifyBlock id (·.push line))
  | countRun (id : Nat) : Change (·.modifyBlock id fun b => { b with runs := b.runs + 1 })
  | bindBlock (id : Nat) (h : Handle) : Change (·.modifyBlock id ({ · with bound := some h }))
  | launch (h : Handle) (line : String) : Change fun w => (w.launch h line).2
  | startNext : Change fun w => { w with started := w.started + 1 }
  | putAside : Change fun w => { w with written := #[] }
  | endLaunch (task : Nat) : Change (·.endLaunch task)
  | closeAside (before : Array Written) (task : Nat) : Change (·.closeAside before task)

end World

namespace Script
open World (Blind Change)

/-- The run with its error, if it fails, changed. -/
def mapError {α : Type} (x : Script α) (f : ScriptError → ScriptError) : Script α :=
  fun w =>
    match x w with
    | .failed e w => .failed (f e) w
    | outcome => outcome

theorem mapError_id {α : Type} (x : Script α) : x.mapError id = x := by
  funext w
  rw [mapError]
  cases x w <;> rfl

/-- The run with the world it ends in changed, however it ends. -/
def afterwards {α : Type} (x : Script α) (f : World → World) : Script α :=
  fun w => (x w).mapWorld f

/-- A property that all runs have that do one thing after another, where each thing is a run that
has it. -/
structure IsBuilt (P : {α : Type} → Script α → Prop) : Prop where
  pure {α : Type} (a : α) : P (pure a : Script α)
  bind {α β : Type} {x : Script α} {f : α → Script β} : P x → (∀ a, P (f a)) → P (x >>= f)
  fail {α : Type} (e : ScriptError) : P (fail e : Script α)
  exit {α : Type} (code : Int32) : P (exit code : Script α)
  read {α : Type} {f : World → α} : Blind f → P (read f)
  change {f : World → World} : Change f → P (change f)
  mapError {α : Type} {x : Script α} (f : ScriptError → ScriptError) : P x → P (x.mapError f)

/-- A property of runs that all have that are put together from runs that have it, loops and
launched lines included. -/
structure IsClosed (P : {α : Type} → Script α → Prop) : Prop extends IsBuilt P where
  exhausted {α : Type} : P (exhausted : Script α)
  quietly {α : Type} {x : Script α} : P x → P x.quietly
  afterwards {α : Type} {x : Script α} {f : World → World} : Change f → P x → P (x.afterwards f)

namespace IsBuilt
variable {P : {α : Type} → Script α → Prop}

theorem within {α : Type} (hP : IsBuilt P) {x : Script α} (frame : Frame) (hx : P x) :
    P (x.within frame) :=
  hP.mapError (·.within frame) hx

theorem step {α : Type} (hP : IsBuilt P) {f : World → α × World} (hread : Blind fun w => (f w).1)
    (hchange : Change fun w => (f w).2) : P (step f) := by
  have h : Script.step f = do
      let a ← Script.read fun w => (f w).1
      Script.change fun w => (f w).2
      return a := rfl
  rw [h]
  exact hP.bind (hP.read hread) fun a => hP.bind (hP.change hchange) fun _ => hP.pure a

theorem orComplain {α : Type} (hP : IsBuilt P) (command : String) (x : Except Complaint α) :
    P (orComplain command x) := by
  cases x with
  | error c => exact hP.fail (.complaint command c)
  | ok a => exact hP.pure a

/-- A run that goes on by a value it reads off the world, each time as a run with the property. -/
theorem ofRead {α β : Type} (hP : IsBuilt P) {g : World → β} (hg : Blind g) {x : Script α}
    (hx : ∀ b, ∃ y : Script α, P y ∧ ∀ w, g w = b → x w = y w) : P x := by
  have hread : x = Script.read g >>= fun b => (hx b).choose := by
    funext w
    exact (hx (g w)).choose_spec.2 w rfl
  rw [hread]
  exact hP.bind (hP.read hg) fun b => (hx b).choose_spec.1

end IsBuilt
end Script

/-! ### Leaf commands -/

namespace Leaf
open Script (IsBuilt)

variable {P : {α : Type} → Script α → Prop}

theorem after_check {α β : Type} (hP : IsBuilt P) {command : Leaf} {x : Except Complaint α}
    {k : α → Script β} (hk : ∀ a, P (k a)) : P (command.check x >>= k) :=
  hP.bind (hP.orComplain command.name x) hk

theorem newMap_of_isBuilt (hP : IsBuilt P) (entries : Table Value) :
    P (Script.step (·.newMap entries)) :=
  hP.step (fun _ => rfl) (.newMap entries)

theorem runPrint_of_isBuilt (hP : IsBuilt P) (args : List Value) : P (runPrint args) := by
  refine hP.bind (hP.read fun _ => rfl) fun line => ?_
  exact hP.bind (hP.change (.write _ _)) fun _ => hP.pure _

theorem runStoreValue_of_isBuilt (hP : IsBuilt P) (h : Handle) (args : List Value) :
    P (runStoreValue h args) := by
  refine after_check hP fun _ => after_check hP fun name => ?_
  refine after_check hP fun v => ?_
  exact hP.bind (hP.change (.setVariable _ _ _)) fun _ => hP.pure v

theorem removeAll_of_isBuilt (hP : IsBuilt P) (h : Handle) (args : List Value) :
    P (removeAll h args) := by
  induction args with
  | nil => exact hP.pure ()
  | cons v args ih =>
    refine hP.bind (hP.read fun _ => rfl) fun name => ?_
    exact hP.bind (hP.change (.removeVariable h.session name)) fun _ => ih

theorem runFreeValue_of_isBuilt (hP : IsBuilt P) (h : Handle) (args : List Value) :
    P (runFreeValue h args) := by
  refine after_check hP fun _ => ?_
  exact hP.bind (removeAll_of_isBuilt hP h args) fun _ => hP.pure _

theorem runExit_of_isBuilt (hP : IsBuilt P) (h : Handle) (args : List Value) :
    P (runExit h args) := by
  refine hP.step (fun w => ?_) (.terminate h.session _)
  exact congrArg (Option.getD · _) (World.blind_ending h.session w)

theorem runSysExit_of_isBuilt (hP : IsBuilt P) (args : List Value) : P (runSysExit args) := by
  cases args with
  | nil => exact hP.pure _
  | cons code args => exact after_check hP fun code => hP.exit code

theorem makeSetting_of_isBuilt (hP : IsBuilt P) (name : String) (v : Value) :
    P (makeSetting name v) := by
  cases v with
  | null => exact hP.change (.unsetSetting name)
  | text s => exact hP.change (.setSetting name s)
  | _ => exact hP.fail _

theorem runEnvironment_of_isBuilt (hP : IsBuilt P) (args : List Value) :
    P (runEnvironment args) := by
  refine after_check hP fun _ => after_check hP fun action => ?_
  split
  · exact hP.bind (hP.read fun _ => rfl) fun settings => newMap_of_isBuilt hP _
  · exact after_check hP fun name => hP.read fun _ => rfl
  · refine after_check hP fun name => ?_
    exact hP.bind (makeSetting_of_isBuilt hP name _) fun _ => hP.pure _
  · exact hP.fail _

theorem runCompareNumber_of_isBuilt (hP : IsBuilt P) (args : List Value) :
    P (runCompareNumber args) := by
  refine after_check hP fun _ => after_check hP fun a => ?_
  refine after_check hP fun b => after_check hP fun sign => ?_
  split
  · exact hP.pure _
  · exact hP.fail _

theorem runJoin_of_isBuilt (hP : IsBuilt P) (command : Leaf) (join : List Bool → Bool)
    (args : List Value) : P (runJoin command join args) := by
  refine after_check hP fun _ => ?_
  exact after_check hP fun conditions => hP.pure _

theorem runMath_of_isBuilt (hP : IsBuilt P) (args : List Value) : P (runMath args) := by
  refine after_check hP fun _ => after_check hP fun operation => ?_
  refine after_check hP fun first => ?_
  exact after_check hP fun result => hP.pure _

theorem runNewMap_of_isBuilt (hP : IsBuilt P) (args : List Value) : P (runNewMap args) := by
  refine hP.bind (hP.read fun _ => rfl) fun found => ?_
  exact after_check hP fun entries => newMap_of_isBuilt hP _

theorem runGetItem_of_isBuilt (hP : IsBuilt P) (args : List Value) : P (runGetItem args) := by
  refine after_check hP fun _ => after_check hP fun entries => ?_
  exact hP.bind (hP.read fun _ => rfl) fun key => hP.pure _

theorem runPutItem_of_isBuilt (hP : IsBuilt P) (args : List Value) : P (runPutItem args) := by
  refine after_check hP fun _ => after_check hP fun entries => ?_
  exact hP.bind (hP.read fun _ => rfl) fun key => newMap_of_isBuilt hP _

theorem runDropItem_of_isBuilt (hP : IsBuilt P) (args : List Value) : P (runDropItem args) := by
  refine after_check hP fun _ => ?_
  split
  · exact hP.fail _
  · refine after_check hP fun entries => ?_
    exact hP.bind (hP.read fun _ => rfl) fun key => newMap_of_isBuilt hP _

theorem runGetAs_of_isBuilt (hP : IsBuilt P) (command : Leaf) (read? : Value → Option Value)
    (complaint : String → Complaint) (args : List Value) :
    P (runGetAs command read? complaint args) := by
  refine after_check hP fun _ => ?_
  split
  · exact hP.pure _
  · exact hP.bind (hP.read fun _ => rfl) fun shown => hP.fail _

/-- The property holds of every leaf command. -/
theorem run_of_isBuilt (hP : IsBuilt P) (place : Place) (h : Handle) (command : Leaf)
    (args : List Value) : P (command.run place h args) := by
  cases command with
  | print => exact runPrint_of_isBuilt hP args
  | storeValue => exact runStoreValue_of_isBuilt hP h args
  | freeValue => exact runFreeValue_of_isBuilt hP h args
  | exit => exact runExit_of_isBuilt hP h args
  | sysExit => exact runSysExit_of_isBuilt hP args
  | environment => exact runEnvironment_of_isBuilt hP args
  | compareNumber => exact runCompareNumber_of_isBuilt hP args
  | and => exact runJoin_of_isBuilt hP _ _ args
  | or => exact runJoin_of_isBuilt hP _ _ args
  | not => exact after_check hP fun _ => after_check hP fun _ => hP.pure _
  | math => exact runMath_of_isBuilt hP args
  | newMap => exact runNewMap_of_isBuilt hP args
  | getItemFromMap => exact runGetItem_of_isBuilt hP args
  | putItemToMap => exact runPutItem_of_isBuilt hP args
  | dropItemFromMap => exact runDropItem_of_isBuilt hP args
  | hostInfo => exact newMap_of_isBuilt hP (placeEntries place)
  | currentCodeblock => exact hP.pure _
  | getAsInteger64 =>
    exact runGetAs_of_isBuilt hP .getAsInteger64 (·.int?.map .integer) .notInteger args
  | getAsFloat64 => exact runGetAs_of_isBuilt hP .getAsFloat64 (·.float?.map .float) .notFloat args
  | getAsString => exact after_check hP fun _ => hP.read fun _ => rfl
  | getAsBoolean => exact after_check hP fun _ => after_check hP fun _ => hP.pure _
  | trueValue => exact hP.pure _
  | falseValue => exact hP.pure _
  | nullValue => exact hP.pure _
  | typeOf => exact after_check hP fun _ => hP.pure _

end Leaf
end BraceScript
