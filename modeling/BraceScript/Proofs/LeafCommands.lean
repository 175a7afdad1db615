import BraceScript.Command.Leaf

/-!
# What leaf commands do

A leaf command checks before it changes: all that can make it complain comes before its first
change, and nothing behind that can fail. `Script.ChecksFirst` says so of a run from a world. What
a run has read or checked may be followed by more checks (`after_read`, `after_check`), but a
change only by what is sure to end with a value (`of_done`).

So a leaf command that does not end with a value leaves the very world in which it was executed,
and one that does has done one of the few things that `Leaf.Does` lists
(`Leaf.run_checksFirst`). What is to hold of all leaf commands is read off that list.
-/

namespace BraceScript

namespace Script
variable {α β : Type}

/-- Started in `w`, the run ends with a value, and `Q` holds of it and of the world that is left; or
it leaves `w` as it was. -/
def ChecksFirst (x : Script α) (w : World) (Q : α → World → Prop) : Prop :=
  match x w with
  | .done a w' => Q a w'
  | outcome => outcome.world = w

namespace ChecksFirst
variable {x : Script α} {w w' : World} {Q : α → World → Prop}

/-! ### What it says of each ending -/

theorem of_done {a : α} (h : x w = .done a w') (hQ : Q a w') : x.ChecksFirst w Q := by
  rw [ChecksFirst, h]
  exact hQ

theorem done (hx : x.ChecksFirst w Q) {a : α} (h : x w = .done a w') : Q a w' := by
  rw [ChecksFirst, h] at hx
  exact hx

theorem failed (hx : x.ChecksFirst w Q) {e : ScriptError} (h : x w = .failed e w') : w' = w := by
  rw [ChecksFirst, h] at hx
  exact hx

/-- The ways in which the run may end. -/
theorem elim {P : Outcome α → Prop} (hx : x.ChecksFirst w Q)
    (done : ∀ a w', Q a w' → P (.done a w')) (failed : ∀ e, P (.failed e w))
    (exited : ∀ code, P (.exited code w)) (exhausted : P (.exhausted w)) : P (x w) := by
  rw [ChecksFirst] at hx
  generalize x w = outcome at hx
  cases outcome with
  | done a w' => exact done a w' hx
  | failed e w' =>
    obtain rfl := hx
    exact failed e
  | exited code w' =>
    obtain rfl := hx
    exact exited code
  | exhausted w' =>
    obtain rfl := hx
    exact exhausted

/-! ### How a run comes to it -/

theorem pure {a : α} (h : Q a w) : (Pure.pure a : Script α).ChecksFirst w Q :=
  h

theorem complain (command : String) (c : Complaint) :
    (Script.complain command c : Script α).ChecksFirst w Q :=
  rfl

theorem read {f : World → α} (h : Q (f w) w) : (Script.read f).ChecksFirst w Q :=
  h

theorem step {f : World → α × World} (h : Q (f w).1 (f w).2) : (Script.step f).ChecksFirst w Q :=
  h

theorem after_read {f : World → β} {k : β → Script α} (h : (k (f w)).ChecksFirst w Q) :
    (Script.read f >>= k).ChecksFirst w Q :=
  h

theorem after_check {command : Leaf} {found : Except Complaint β} {k : β → Script α}
    (h : ∀ b, found = .ok b → (k b).ChecksFirst w Q) :
    (command.check found >>= k).ChecksFirst w Q := by
  cases found with
  | error c => exact complain command.name c
  | ok b => exact h b rfl

end ChecksFirst
end Script

/-- A text, a number, a truth value or null, which hold no other values. -/
def Value.isScalar : Value → Bool
  | null | boolean _ | integer _ | float _ | text _ => true
  | _ => false

theorem Value.isScalar_textOr (s : Option String) :
    ((s.map Value.text).getD .null).isScalar = true := by
  cases s <;> rfl

theorem Value.isScalar_of_map {α : Type} {make : α → Value}
    (hmake : ∀ a, (make a).isScalar = true) {found : Option α} {v : Value}
    (h : found.map make = some v) : v.isScalar = true := by
  obtain ⟨a, -, rfl⟩ := Option.map_eq_some_iff.1 h
  exact hmake a

namespace Leaf

/-- The variable that `StoreValue` sets, by its arguments. -/
def stored? : List Value → Option (String × Value)
  | [.text name, v] => some (name, v)
  | [.text name, .text "=", v] => some (name, v)
  | _ => none

theorem mem_of_stored? {args : List Value} {name : String} {v : Value}
    (h : stored? args = some (name, v)) : v ∈ args := by
  unfold stored? at h
  split at h
  · cases h
    simp
  · cases h
    simp
  · cases h

/-- Can the command end with a value and change nothing? -/
def tells : Leaf → Bool
  | print | storeValue | freeValue | exit | newMap | getItemFromMap | putItemToMap
  | dropItemFromMap | hostInfo => false
  | _ => true

/-- What a leaf command does where it ends with a value: the value, and the world it leaves. -/
inductive Does (place : Place) (h : Handle) (args : List Value) (w : World) :
    Leaf → Value → World → Prop
  | tell {command : Leaf} {v : Value} (htells : command.tells = true) (hv : v.isScalar = true) :
    Does place h args w command v w
  | print (line : String) :
    Does place h args w .print (.text line) (w.write .print (line ++ "\n"))
  | store {name : String} {v : Value} (hstored : stored? args = some (name, v)) :
    Does place h args w .storeValue v (w.setVariable h.session name v)
  | free (names : List String) :
    Does place h args w .freeValue .null (names.foldl (·.removeVariable h.session ·) w)
  | terminate : Does place h args w .exit (w.terminate h.session (args.headD .null)).1
      (w.terminate h.session (args.headD .null)).2
  | setSetting (name value : String) :
    Does place h args w .environment .null (w.setSetting name value)
  | unsetSetting (name : String) : Does place h args w .environment .null (w.unsetSetting name)
  | settings : Does place h args w .environment
      (w.newMap (w.environment.sorted.map fun entry => (entry.1, .text entry.2))).1
      (w.newMap (w.environment.sorted.map fun entry => (entry.1, .text entry.2))).2
  | build {entries : List (String × Value)} (hentries : pairs w.blocks args = .ok entries) :
    Does place h args w .newMap (w.newMap (Table.ofPairs entries)).1
      (w.newMap (Table.ofPairs entries)).2
  | getItem {entries : Table Value} (hentries : entriesOf (args.getD 0 .null) = .ok entries)
    (key : String) :
    Does place h args w .getItemFromMap ((Table.value? key entries).getD .null) w
  | putItem {entries : Table Value} (hentries : entriesOf (args.getD 0 .null) = .ok entries)
    (key : String) :
    Does place h args w .putItemToMap (w.newMap (Table.put key (args.getD 2 .null) entries)).1
      (w.newMap (Table.put key (args.getD 2 .null) entries)).2
  | dropItem {entries : Table Value} (hentries : entriesOf (args.getD 0 .null) = .ok entries)
    (key : String) :
    Does place h args w .dropItemFromMap (w.newMap (Table.remove key entries)).1
      (w.newMap (Table.remove key entries)).2
  | describe : Does place h args w .hostInfo (w.newMap (placeEntries place)).1
      (w.newMap (placeEntries place)).2

/-! ### Command by command -/

section
variable {place : Place} {h : Handle} {args : List Value} {w : World}
open Script (ChecksFirst)

theorem print_checksFirst : (runPrint args).ChecksFirst w (Does place h args w .print) :=
  .after_read (.of_done rfl (.print _))

theorem stored?_of_textAt {name : String} {v : Value} (hname : textAt args 0 = .ok name)
    (hv : storedValue args = .ok v) : stored? args = some (name, v) := by
  have htext : ∀ first rest, textAt (first :: rest) 0 = .ok name → first = .text name := by
    intro first rest hfirst
    cases first with
    | text s =>
      cases hfirst
      rfl
    | _ => cases hfirst
  unfold storedValue at hv
  split at hv
  · cases hv
    rw [htext _ _ hname]
    rfl
  · cases hv
    rw [htext _ _ hname]
    rfl
  · cases hv

theorem storeValue_checksFirst :
    (runStoreValue h args).ChecksFirst w (Does place h args w .storeValue) := by
  refine .after_check fun _ _ => .after_check fun name hname => .after_check fun v hv => ?_
  exact .of_done rfl (.store (stored?_of_textAt hname hv))

theorem exists_removeAll (h : Handle) (args : List Value) (w : World) :
    ∃ names : List String,
      removeAll h args w = .done () (names.foldl (·.removeVariable h.session ·) w) := by
  induction args generalizing w with
  | nil => exact ⟨[], rfl⟩
  | cons v args ih =>
    obtain ⟨names, hnames⟩ := ih (w.removeVariable h.session (w.display v))
    exact ⟨w.display v :: names, hnames⟩

theorem freeValue_checksFirst :
    (runFreeValue h args).ChecksFirst w (Does place h args w .freeValue) := by
  refine .after_check fun _ _ => ?_
  obtain ⟨names, hnames⟩ := exists_removeAll h args w
  refine .of_done ?_ (.free names)
  rw [Script.bind_apply, hnames]
  rfl

theorem sysExit_checksFirst :
    (runSysExit args).ChecksFirst w (Does place h args w .sysExit) := by
  cases args with
  | nil => exact .pure (.tell rfl rfl)
  | cons code args =>
    refine .after_check fun code _ => ?_
    rfl

theorem makeSetting_checksFirst (name : String) (v : Value) :
    (makeSetting name v >>= fun _ => pure .null).ChecksFirst w
      (Does place h args w .environment) := by
  cases v with
  | null => exact .of_done rfl (.unsetSetting name)
  | text s => exact .of_done rfl (.setSetting name s)
  | _ => exact .complain _ _

theorem environment_checksFirst :
    (runEnvironment args).ChecksFirst w (Does place h args w .environment) := by
  refine .after_check fun _ _ => .after_check fun action _ => ?_
  split
  · exact .after_read (.step .settings)
  · exact .after_check fun name _ => .read (.tell rfl (Value.isScalar_textOr _))
  · exact .after_check fun name _ => makeSetting_checksFirst name _
  · exact .complain _ _

theorem compareNumber_checksFirst :
    (runCompareNumber args).ChecksFirst w (Does place h args w .compareNumber) := by
  refine .after_check fun _ _ => .after_check fun a _ => .after_check fun b _ => ?_
  refine .after_check fun sign _ => ?_
  split
  · exact .pure (.tell rfl rfl)
  · exact .complain _ _

theorem join_checksFirst {command : Leaf} (htells : command.tells = true)
    (join : List Bool → Bool) :
    (runJoin command join args).ChecksFirst w (Does place h args w command) :=
  .after_check fun _ _ => .after_check fun _ _ => .pure (.tell htells rfl)

theorem math_checksFirst : (runMath args).ChecksFirst w (Does place h args w .math) := by
  refine .after_check fun _ _ => .after_check fun operation _ => ?_
  refine .after_check fun first _ => .after_check fun result _ => .pure (.tell rfl ?_)
  cases result <;> rfl

theorem newMap_checksFirst : (runNewMap args).ChecksFirst w (Does place h args w .newMap) :=
  .after_read (.after_check fun _ hentries => .step (.build hentries))

theorem getItem_checksFirst :
    (runGetItem args).ChecksFirst w (Does place h args w .getItemFromMap) := by
  refine .after_check fun _ _ => .after_check fun entries hentries => .after_read ?_
  exact .pure (.getItem hentries _)

theorem putItem_checksFirst :
    (runPutItem args).ChecksFirst w (Does place h args w .putItemToMap) := by
  refine .after_check fun _ _ => .after_check fun entries hentries => .after_read ?_
  exact .step (.putItem hentries _)

theorem dropItem_checksFirst :
    (runDropItem args).ChecksFirst w (Does place h args w .dropItemFromMap) := by
  refine .after_check fun _ _ => ?_
  split
  · exact .complain _ _
  · refine .after_check fun entries hentries => .after_read ?_
    exact .step (.dropItem hentries _)

theorem getAs_checksFirst {command : Leaf} (htells : command.tells = true)
    {read? : Value → Option Value} (hread : ∀ v u, read? v = some u → u.isScalar = true)
    (complaint : String → Complaint) :
    (runGetAs command read? complaint args).ChecksFirst w (Does place h args w command) := by
  refine .after_check fun _ _ => ?_
  split
  · rename_i v hv
    exact .pure (.tell htells (hread _ v hv))
  · exact .after_read (.complain _ _)

end

/-- **A leaf command checks before it changes.** Where it does not end with a value, it leaves the
world in which it was executed; where it does, it has done what is listed for it. -/
theorem run_checksFirst (place : Place) (h : Handle) (command : Leaf) (args : List Value)
    (w : World) : (command.run place h args).ChecksFirst w (command.Does place h args w) := by
  cases command with
  | print => exact print_checksFirst
  | storeValue => exact storeValue_checksFirst
  | freeValue => exact freeValue_checksFirst
  | exit => exact .step (Q := Does place h args w .exit) .terminate
  | sysExit => exact sysExit_checksFirst
  | environment => exact environment_checksFirst
  | compareNumber => exact compareNumber_checksFirst
  | and => exact join_checksFirst rfl _
  | or => exact join_checksFirst rfl _
  | not => exact .after_check fun _ _ => .after_check fun _ _ => .pure (.tell rfl rfl)
  | math => exact math_checksFirst
  | newMap => exact newMap_checksFirst
  | getItemFromMap => exact getItem_checksFirst
  | putItemToMap => exact putItem_checksFirst
  | dropItemFromMap => exact dropItem_checksFirst
  | hostInfo => exact .step (Q := Does place h args w .hostInfo) .describe
  | currentCodeblock => exact .pure (.tell rfl (Value.isScalar_textOr _))
  | getAsInteger64 => exact getAs_checksFirst rfl (fun _ _ => Value.isScalar_of_map fun _ => rfl) _
  | getAsFloat64 => exact getAs_checksFirst rfl (fun _ _ => Value.isScalar_of_map fun _ => rfl) _
  | getAsString => exact .after_check fun _ _ => .read (.tell rfl rfl)
  | getAsBoolean => exact .after_check fun _ _ => .after_check fun _ _ => .pure (.tell rfl rfl)
  | trueValue => exact .pure (.tell rfl rfl)
  | falseValue => exact .pure (.tell rfl rfl)
  | nullValue => exact .pure (.tell rfl rfl)
  | typeOf => exact .after_check fun _ _ => .pure (.tell rfl rfl)

end Leaf
end BraceScript
