import BraceScript.Proofs.EvaluationClosure
import BraceScript.Proofs.LeafCommands

/-!
# Changes that keep within bounds

Most of what a command does to the world is modest (`World.Modest`): blocks get lines at most and no
run of them is counted, nothing is written for the shell, no line is launched, and the tasks that
the sessions hold afterwards are ones that they held before or that the command was given. The tasks
of a value are those inside of it at any depth (`Value.tasks`). Most of it is even calm
(`World.Calm`): no session gets a variable, unless it is a block under its name.

Every leaf command is modest about the tasks of its arguments, and its value has no others
(`Leaf.Does.modest`).
-/

namespace BraceScript

/-! ### Tasks -/

namespace Value

mutual

/-- The tasks inside of a value. -/
def tasks : Value → List Nat
  | task id => [id]
  | list items => itemTasks items
  | map _ entries => entryTasks entries
  | _ => []

def itemTasks : List Value → List Nat
  | [] => []
  | v :: vs => tasks v ++ itemTasks vs

def entryTasks : List (String × Value) → List Nat
  | [] => []
  | (_, v) :: rest => tasks v ++ entryTasks rest

end

theorem itemTasks_eq (vs : List Value) : itemTasks vs = vs.flatMap tasks := by
  induction vs with
  | nil => rfl
  | cons v vs ih => rw [itemTasks, ih, List.flatMap_cons]

theorem entryTasks_eq (entries : List (String × Value)) :
    entryTasks entries = entries.flatMap (·.2.tasks) := by
  induction entries with
  | nil => rfl
  | cons entry entries ih => rw [entryTasks, ih, List.flatMap_cons]

theorem tasks_subset_of_mem {v : Value} {vs : List Value} (hv : v ∈ vs) :
    v.tasks ⊆ itemTasks vs := by
  intro k hk
  rw [itemTasks_eq]
  exact List.mem_flatMap.2 ⟨v, hv, hk⟩

theorem itemTasks_subset {vs : List Value} {known : List Nat} (h : ∀ v ∈ vs, v.tasks ⊆ known) :
    itemTasks vs ⊆ known := by
  intro k hk
  rw [itemTasks_eq] at hk
  obtain ⟨v, hv, hk⟩ := List.mem_flatMap.1 hk
  exact h v hv hk

theorem tasks_getD_subset (vs : List Value) (index : Nat) :
    (vs.getD index .null).tasks ⊆ itemTasks vs := by
  rw [List.getD_eq_getElem?_getD]
  cases hv : vs[index]? with
  | none => exact List.nil_subset _
  | some v => exact tasks_subset_of_mem (List.mem_of_getElem? hv)

theorem tasks_headD_subset (vs : List Value) : (vs.headD .null).tasks ⊆ itemTasks vs := by
  cases vs with
  | nil => exact List.nil_subset _
  | cons v vs => exact tasks_subset_of_mem List.mem_cons_self

theorem entryTasks_subset {entries : Table Value} {known : List Nat}
    (h : ∀ entry ∈ entries, entry.2.tasks ⊆ known) : entryTasks entries ⊆ known := by
  intro k hk
  rw [entryTasks_eq] at hk
  obtain ⟨entry, hentry, hk⟩ := List.mem_flatMap.1 hk
  exact h entry hentry hk

theorem tasks_subset_of_entry {entries : Table Value} {entry : String × Value}
    (h : entry ∈ entries) : entry.2.tasks ⊆ entryTasks entries := by
  intro k hk
  rw [entryTasks_eq]
  exact List.mem_flatMap.2 ⟨entry, h, hk⟩

theorem tasks_value?_subset (key : String) (entries : Table Value) :
    ((Table.value? key entries).getD .null).tasks ⊆ entryTasks entries := by
  cases hv : Table.value? key entries with
  | none => exact List.nil_subset _
  | some v => exact tasks_subset_of_entry (Table.mem_of_value?_eq_some hv)

theorem entryTasks_put_subset (key : String) (v : Value) (entries : Table Value) :
    entryTasks (Table.put key v entries) ⊆ v.tasks ++ entryTasks entries := by
  refine entryTasks_subset fun entry hentry => ?_
  rcases Table.eq_or_mem_of_mem_put hentry with heq | hmem
  · rw [heq]
    exact List.subset_append_left _ _
  · exact List.subset_append_of_subset_right _ (tasks_subset_of_entry hmem)

theorem entryTasks_remove_subset (key : String) (entries : Table Value) :
    entryTasks (Table.remove key entries) ⊆ entryTasks entries :=
  entryTasks_subset fun _ hentry =>
    tasks_subset_of_entry ((Table.remove_sublist key entries).subset hentry)

end Value

/-- The tasks that a session holds: in variables, as its last result, as its terminating value. -/
def Session.tasks (s : Session) : List Nat :=
  Value.entryTasks s.bindings ++ (s.last.tasks ++ (s.ending.getD .null).tasks)

namespace World

/-- The tasks that the sessions hold. -/
def tasks (w : World) : List Nat :=
  w.sessions.toList.flatMap Session.tasks

theorem tasks_session_subset (w : World) (id : Nat) : (w.session id).tasks ⊆ w.tasks := by
  by_cases h : id < w.sessions.size
  · intro k hk
    have hmem : w.session id ∈ w.sessions.toList := by simp [session, h]
    exact List.mem_flatMap.2 ⟨_, hmem, hk⟩
  · simp [session, h, Session.tasks, Value.entryTasks, Value.tasks]

theorem tasks_ending_subset (w : World) (id : Nat) :
    ((w.ending id).getD .null).tasks ⊆ w.tasks := by
  refine List.Subset.trans ?_ (w.tasks_session_subset id)
  exact List.subset_append_of_subset_right _ (List.subset_append_right _ _)

theorem tasks_subset_of_ending {w : World} {id : Nat} {v : Value} (h : w.ending id = some v) :
    v.tasks ⊆ w.tasks := by
  have hending := w.tasks_ending_subset id
  rwa [h] at hending

theorem tasks_subset_of_valueOf? {w : World} {id : Nat} {name : String} {v : Value}
    (h : w.valueOf? id name = some v) : v.tasks ⊆ w.tasks := by
  refine List.Subset.trans ?_ (w.tasks_session_subset id)
  exact List.subset_append_of_subset_left _
    (Value.tasks_subset_of_entry (Table.mem_of_value?_eq_some h))

theorem tasks_modifySession_subset {f : Session → Session} {known : List Nat}
    (hf : ∀ s, (f s).tasks ⊆ known ++ s.tasks) (w : World) (id : Nat) :
    (w.modifySession id f).tasks ⊆ known ++ w.tasks := by
  intro k hk
  obtain ⟨s, hs, hk⟩ := List.mem_flatMap.1 hk
  obtain ⟨i, hi, rfl⟩ := List.mem_iff_getElem.1 hs
  have hi' : i < w.sessions.size := by simpa [modifySession] using hi
  have hmem : w.sessions[i] ∈ w.sessions.toList := by simp
  have hheld : k ∈ known ++ w.sessions[i].tasks := by
    simp only [modifySession, Array.getElem_toList, Array.getElem_modify] at hk
    split at hk
    · exact hf _ hk
    · exact List.mem_append_right _ hk
  rcases List.mem_append.1 hheld with hk | hk
  · exact List.mem_append_left _ hk
  · exact List.mem_append_right _ (List.mem_flatMap.2 ⟨_, hmem, hk⟩)

/-! ### Blocks that grow -/

/-- The blocks of the first world are in the second, with their names, with their lines and maybe
some behind them, and each with as many runs more as `runs` says. -/
structure Grown (w : World) (runs : Nat → Nat) (w' : World) : Prop where
  size : w.blocks.size ≤ w'.blocks.size
  name : ∀ id < w.blocks.size, (w'.block id).name = (w.block id).name
  lines : ∀ id < w.blocks.size, (w.block id).lines <+: (w'.block id).lines
  runs : ∀ id < w.blocks.size, (w'.block id).runs = (w.block id).runs + runs id

namespace Grown
variable {w w₁ w₂ : World} {runs runs' : Nat → Nat}

theorem of_blocks_eq (h : w₁.blocks = w.blocks) : w.Grown (fun _ => 0) w₁ := by
  have hblock : ∀ id, w₁.block id = w.block id := fun id => by rw [block, block, h]
  exact
    { size := Nat.le_of_eq (congrArg Array.size h.symm)
      name := fun id _ => by rw [hblock]
      lines := fun id _ => hblock id ▸ List.prefix_rfl
      runs := fun id _ => by rw [hblock, Nat.add_zero] }

theorem trans (h : w.Grown runs w₁) (h' : w₁.Grown runs' w₂) :
    w.Grown (fun id => runs id + runs' id) w₂ where
  size := Nat.le_trans h.size h'.size
  name id hid := (h'.name id (by have := h.size; omega)).trans (h.name id hid)
  lines id hid := (h.lines id hid).trans (h'.lines id (by have := h.size; omega))
  runs id hid := by
    rw [h'.runs id (by have := h.size; omega), h.runs id hid, Nat.add_assoc]

theorem block_modifyBlock (w : World) (id : Nat) (f : Block → Block) {id' : Nat}
    (hid : id' < w.blocks.size) :
    (w.modifyBlock id f).block id' = if id = id' then f (w.block id') else w.block id' := by
  simp [block, modifyBlock, hid, Array.getElem_modify]

/-- One block is changed: it may get lines, and more runs. -/
theorem modifyBlock {f : Block → Block} {n : Nat} (hname : ∀ b, (f b).name = b.name)
    (hlines : ∀ b, b.lines <+: (f b).lines) (hruns : ∀ b, (f b).runs = b.runs + n) (w : World)
    (id : Nat) : w.Grown (fun id' => if id = id' then n else 0) (w.modifyBlock id f) where
  size := by simp [World.modifyBlock]
  name id' hid := by
    rw [block_modifyBlock w id f hid]
    split
    · exact hname _
    · rfl
  lines id' hid := by
    rw [block_modifyBlock w id f hid]
    split
    · exact hlines _
    · exact List.prefix_rfl
  runs id' hid := by
    rw [block_modifyBlock w id f hid]
    split
    · exact hruns _
    · rfl

theorem newBlock (w : World) (name : String) : w.Grown (fun _ => 0) (w.newBlock name).2 := by
  have hblock : ∀ id < w.blocks.size, (w.newBlock name).2.block id = w.block id := by
    intro id hid
    simp [block, World.newBlock, Array.getElem?_push, hid, Nat.ne_of_lt hid]
  exact
    { size := by simp [World.newBlock]
      name := fun id hid => by rw [hblock id hid]
      lines := fun id hid => hblock id hid ▸ List.prefix_rfl
      runs := fun id hid => by rw [hblock id hid, Nat.add_zero] }

end Grown

/-! ### Modest changes -/

/-- What has been written for the shell, in order. -/
def shellWritten (w : World) : List Written :=
  w.written.toList.filter (·.channel = .shell)

/-- From the first world to the second blocks get lines at most, nothing is written for the shell,
no line is launched, and no task comes to be held but the known ones. -/
structure Modest (known : List Nat) (w w' : World) : Prop where
  blocks : w.Grown (fun _ => 0) w'
  shell : w'.shellWritten = w.shellWritten
  launches : w'.launches.size = w.launches.size
  tasks : w'.tasks ⊆ known ++ w.tasks

namespace Modest
variable {known : List Nat} {w w₁ w₂ : World}

theorem refl (known : List Nat) (w : World) : w.Modest known w :=
  ⟨.of_blocks_eq rfl, rfl, rfl, List.subset_append_right _ _⟩

theorem trans (h : w.Modest known w₁) (h' : w₁.Modest known w₂) : w.Modest known w₂ where
  blocks := h.blocks.trans h'.blocks
  shell := h'.shell.trans h.shell
  launches := h'.launches.trans h.launches
  tasks := List.Subset.trans h'.tasks
    (List.append_subset.2 ⟨List.subset_append_left _ _, h.tasks⟩)

theorem modifySession {f : Session → Session} (hf : ∀ s, (f s).tasks ⊆ known ++ s.tasks)
    (w : World) (id : Nat) : w.Modest known (w.modifySession id f) :=
  ⟨.of_blocks_eq rfl, rfl, rfl, tasks_modifySession_subset hf w id⟩

theorem setVariable (w : World) (id : Nat) (name : String) {v : Value} (hv : v.tasks ⊆ known) :
    w.Modest known (w.setVariable id name v) := by
  refine modifySession (fun s k hk => ?_) w id
  have hput := Value.entryTasks_put_subset name v s.bindings
  simp only [Session.tasks, Session.setVariable, List.mem_append] at hk ⊢
  rcases hk with hk | hk
  · rcases List.mem_append.1 (hput hk) with hk | hk
    · exact .inl (hv hk)
    · exact .inr (.inl hk)
  · exact .inr (.inr hk)

theorem removeVariable (known : List Nat) (w : World) (id : Nat) (name : String) :
    w.Modest known (w.removeVariable id name) := by
  refine modifySession (fun s k hk => ?_) w id
  have hremove := Value.entryTasks_remove_subset name s.bindings
  simp only [Session.tasks, Session.removeVariable, List.mem_append] at hk ⊢
  exact .inr (hk.imp_left fun hk => hremove hk)

theorem terminate (w : World) (id : Nat) {v : Value} (hv : v.tasks ⊆ known) :
    w.Modest known (w.terminate id v).2 := by
  refine modifySession (fun s k hk => ?_) w id
  simp only [Session.tasks, Session.terminate, Option.getD_some, List.mem_append] at hk ⊢
  cases hended : s.ending with
  | none =>
    rw [hended] at hk
    rcases hk with hk | hk | hk
    · exact .inr (.inl hk)
    · exact .inr (.inr (.inl hk))
    · exact .inl (hv hk)
  | some u =>
    rw [hended] at hk
    exact .inr hk

theorem setLast (w : World) (id : Nat) {v : Value} (hv : v.tasks ⊆ known) :
    w.Modest known (w.setLast id v) := by
  refine modifySession (fun s k hk => ?_) w id
  simp only [Session.tasks, List.mem_append] at hk ⊢
  rcases hk with hk | hk | hk
  · exact .inr (.inl hk)
  · exact .inl (hv hk)
  · exact .inr (.inr (.inr hk))

theorem print (known : List Nat) (w : World) (text : String) :
    w.Modest known (w.write .print text) := by
  refine ⟨.of_blocks_eq rfl, ?_, rfl, List.subset_append_right _ _⟩
  simp [shellWritten, write]

theorem modifyBlock (known : List Nat) {f : Block → Block} (hname : ∀ b, (f b).name = b.name)
    (hlines : ∀ b, b.lines <+: (f b).lines) (hruns : ∀ b, (f b).runs = b.runs) (w : World)
    (id : Nat) : w.Modest known (w.modifyBlock id f) := by
  have hgrown := Grown.modifyBlock hname hlines (n := 0) hruns w id
  simp only [ite_self] at hgrown
  exact ⟨hgrown, rfl, rfl, List.subset_append_right _ _⟩

theorem makeBlock (known : List Nat) (w : World) (session : Nat) (name : String) :
    w.Modest known (w.makeBlock session name).2 := by
  have hnew : w.Modest known (w.newBlock name).2 :=
    ⟨.newBlock w name, rfl, rfl, List.subset_append_right _ _⟩
  exact hnew.trans (setVariable _ session _ (List.nil_subset _))

theorem startNext (known : List Nat) {next : Nat × Launch}
    (h : w.startNext? = some (next, w₁)) : w.Modest known w₁ := by
  obtain ⟨launch, -, heq⟩ := Option.map_eq_some_iff.1 h
  obtain ⟨rfl, rfl⟩ := Prod.mk.inj heq
  exact ⟨.of_blocks_eq rfl, rfl, rfl, List.subset_append_right _ _⟩

theorem endLaunch (known : List Nat) (w : World) (task : Nat) :
    w.Modest known (w.endLaunch task) :=
  ⟨.of_blocks_eq rfl, rfl, by simp [World.endLaunch], List.subset_append_right _ _⟩

end Modest

/-! ### Calm changes -/

/-- The sessions have no variables in the second world that they did not have in the first, but for
those that `gains` tells of. -/
def GainsOnly (w : World) (gains : Nat → String × Value → Prop) (w' : World) : Prop :=
  ∀ id, ∀ entry ∈ (w'.session id).bindings, entry ∈ (w.session id).bindings ∨ gains id entry

namespace GainsOnly
variable {gains : Nat → String × Value → Prop} {w w₁ w₂ : World}

theorem of_bindings_eq (h : ∀ id, (w₁.session id).bindings = (w.session id).bindings) :
    w.GainsOnly gains w₁ := by
  intro id entry hentry
  rw [h] at hentry
  exact .inl hentry

theorem trans (h : w.GainsOnly gains w₁) (h' : w₁.GainsOnly gains w₂) : w.GainsOnly gains w₂ := by
  intro id entry hentry
  rcases h' id entry hentry with hentry | hgain
  · exact h id entry hentry
  · exact .inr hgain

theorem modifySession {id : Nat} {f : Session → Session}
    (hf : ∀ s : Session, ∀ entry ∈ (f s).bindings, entry ∈ s.bindings ∨ gains id entry)
    (w : World) : w.GainsOnly gains (w.modifySession id f) := by
  intro id' entry hentry
  rcases session_modifySession_cases w id f id' with hsession | ⟨rfl, hsession⟩
  · rw [hsession] at hentry
    exact .inl hentry
  · rw [hsession] at hentry
    exact hf _ entry hentry

theorem setVariable {id : Nat} {name : String} {v : Value} (hgain : gains id (name, v))
    (w : World) : w.GainsOnly gains (w.setVariable id name v) := by
  refine modifySession (fun s entry hentry => ?_) w
  rcases Table.eq_or_mem_of_mem_put hentry with rfl | hentry
  · exact .inr hgain
  · exact .inl hentry

theorem removeVariable (w : World) (id : Nat) (name : String) :
    w.GainsOnly gains (w.removeVariable id name) :=
  modifySession (fun s _ hentry => .inl ((Table.remove_sublist name s.bindings).subset hentry)) w

theorem terminate (w : World) (id : Nat) (v : Value) :
    w.GainsOnly gains (w.terminate id v).2 :=
  modifySession (f := (·.terminate v)) (fun _ _ hentry => .inl hentry) w

theorem setLast (w : World) (id : Nat) (v : Value) : w.GainsOnly gains (w.setLast id v) :=
  modifySession (f := ({ · with last := v })) (fun _ _ hentry => .inl hentry) w

end GainsOnly

/-- A modest change by which a session gets no variable, unless it is a block under its name. -/
structure Calm (known : List Nat) (w w' : World) : Prop extends Modest known w w' where
  gains : w.GainsOnly (fun _ entry => ∃ name block, entry = (Block.slot name, .block block)) w'

namespace Calm
variable {known : List Nat} {w w₁ : World}

theorem of_sessions_eq (hw : w.Modest known w₁) (hsessions : w₁.sessions = w.sessions) :
    w.Calm known w₁ :=
  ⟨hw, .of_bindings_eq fun id => by rw [session, session, hsessions]⟩

theorem refl (known : List Nat) (w : World) : w.Calm known w :=
  of_sessions_eq (.refl known w) rfl

theorem removeVariable (known : List Nat) (w : World) (id : Nat) (name : String) :
    w.Calm known (w.removeVariable id name) :=
  ⟨.removeVariable known w id name, .removeVariable w id name⟩

theorem terminate (w : World) (id : Nat) {v : Value} (hv : v.tasks ⊆ known) :
    w.Calm known (w.terminate id v).2 :=
  ⟨.terminate w id hv, .terminate w id v⟩

theorem setLast (w : World) (id : Nat) {v : Value} (hv : v.tasks ⊆ known) :
    w.Calm known (w.setLast id v) :=
  ⟨.setLast w id hv, .setLast w id v⟩

theorem modifyBlock (known : List Nat) {f : Block → Block} (hname : ∀ b, (f b).name = b.name)
    (hlines : ∀ b, b.lines <+: (f b).lines) (hruns : ∀ b, (f b).runs = b.runs) (w : World)
    (id : Nat) : w.Calm known (w.modifyBlock id f) :=
  of_sessions_eq (.modifyBlock known hname hlines hruns w id) rfl

theorem makeBlock (known : List Nat) (w : World) (session : Nat) (name : String) :
    w.Calm known (w.makeBlock session name).2 :=
  ⟨.makeBlock known w session name, .setVariable ⟨name, _, rfl⟩ (w.newBlock name).2⟩

theorem startNext (known : List Nat) {next : Nat × Launch}
    (h : w.startNext? = some (next, w₁)) : w.Calm known w₁ := by
  refine of_sessions_eq (.startNext known h) ?_
  obtain ⟨launch, -, heq⟩ := Option.map_eq_some_iff.1 h
  rw [← (Prod.mk.inj heq).2]

theorem endLaunch (known : List Nat) (w : World) (task : Nat) :
    w.Calm known (w.endLaunch task) :=
  of_sessions_eq (.endLaunch known w task) rfl

end Calm
end World

/-! ### Leaf commands -/

theorem Value.tasks_of_isScalar {v : Value} (h : v.isScalar = true) : v.tasks = [] := by
  cases v with
  | map | list | block | task | host => cases h
  | _ => rfl

namespace Leaf

theorem entryTasks_of_entriesOf {v : Value} {entries : Table Value}
    (h : entriesOf v = .ok entries) : Value.entryTasks entries = v.tasks := by
  cases v with
  | map id entries' =>
    cases h
    rfl
  | _ => cases h

theorem entryTasks_of_pairs {blocks : Array Block} {args : List Value}
    {entries : List (String × Value)} (h : pairs blocks args = .ok entries) :
    Value.entryTasks entries ⊆ Value.itemTasks args := by
  fun_induction pairs blocks args generalizing entries with
  | case1 =>
    cases h
    exact List.nil_subset _
  | case2 => cases h
  | case3 k v rest ih =>
    cases hrest : pairs blocks rest with
    | error c =>
      rw [hrest] at h
      cases h
    | ok tail =>
      rw [hrest] at h
      cases h
      simp only [Value.entryTasks, Value.itemTasks]
      refine List.subset_append_of_subset_right _ (List.append_subset.2 ⟨?_, ?_⟩)
      · exact List.subset_append_left _ _
      · exact List.subset_append_of_subset_right _ (ih hrest)

theorem entryTasks_ofPairs_subset (entries : List (String × Value)) :
    Value.entryTasks (Table.ofPairs entries) ⊆ Value.entryTasks entries := by
  -- the pairs go in one by one, so the induction is over every table to start from
  have hgeneral : ∀ table : Table Value,
      Value.entryTasks (entries.foldl (fun t pair => Table.put pair.1 pair.2 t) table) ⊆
        Value.entryTasks table ++ Value.entryTasks entries := by
    induction entries with
    | nil => exact fun table => List.subset_append_left _ _
    | cons entry entries ih =>
      intro table k hk
      have hput := Value.entryTasks_put_subset entry.1 entry.2 table
      simp only [Value.entryTasks, List.mem_append]
      rcases List.mem_append.1 (ih _ hk) with hk | hk
      · rcases List.mem_append.1 (hput hk) with hk | hk
        · exact .inr (.inl hk)
        · exact .inl hk
      · exact .inr (.inr hk)
  rw [Table.ofPairs_eq]
  simpa [Value.entryTasks] using hgeneral []

theorem entryTasks_placeEntries (place : Place) : Value.entryTasks (placeEntries place) = [] := by
  have hoptional : ∀ s : Option String, ((s.map Value.text).getD .null).tasks = [] :=
    fun s => Value.tasks_of_isScalar (Value.isScalar_textOr s)
  simp [placeEntries, Value.entryTasks, Value.tasks, hoptional]

/-- A leaf command is modest about the tasks of its arguments, and its value has no others. -/
theorem Does.modest {place : Place} {h : Handle} {command : Leaf} {args : List Value} {v : Value}
    {w w' : World} (hdoes : command.Does place h args w v w') :
    w.Modest (Value.itemTasks args) w' ∧ v.tasks ⊆ Value.itemTasks args ++ w.tasks := by
  have hkept : ∀ {u : Value}, u.tasks ⊆ Value.itemTasks args →
      u.tasks ⊆ Value.itemTasks args ++ w.tasks := List.subset_append_of_subset_left _
  have hnew : ∀ {entries : Table Value}, Value.entryTasks entries ⊆ Value.itemTasks args →
      w.Modest (Value.itemTasks args) (w.newMap entries).2 ∧
        (w.newMap entries).1.tasks ⊆ Value.itemTasks args ++ w.tasks := fun hentries =>
    ⟨⟨.of_blocks_eq rfl, rfl, rfl, List.subset_append_right _ _⟩, hkept hentries⟩
  have hsetting : ∀ environment, w.Modest (Value.itemTasks args) { w with environment } :=
    fun environment => ⟨.of_blocks_eq rfl, rfl, rfl, List.subset_append_right _ _⟩
  cases hdoes with
  | tell _ hv =>
    rw [Value.tasks_of_isScalar hv]
    exact ⟨.refl _ w, List.nil_subset _⟩
  | print line => exact ⟨.print _ w _, List.nil_subset _⟩
  | store hstored =>
    have hv := Value.tasks_subset_of_mem (mem_of_stored? hstored)
    exact ⟨.setVariable w _ _ hv, hkept hv⟩
  | free names =>
    refine ⟨?_, List.nil_subset _⟩
    exact List.foldlRecOn names _ (.refl _ w) fun w₁ hw₁ name _ =>
      hw₁.trans (.removeVariable _ w₁ _ name)
  | terminate =>
    have hhead := Value.tasks_headD_subset args
    refine ⟨.terminate w h.session hhead, ?_⟩
    show ((w.ending h.session).getD (args.headD .null)).tasks ⊆ _
    cases hended : w.ending h.session with
    | none => exact hkept hhead
    | some v => exact List.subset_append_of_subset_right _ (World.tasks_subset_of_ending hended)
  | setSetting name value => exact ⟨hsetting _, List.nil_subset _⟩
  | unsetSetting name => exact ⟨hsetting _, List.nil_subset _⟩
  | settings =>
    refine hnew (Value.entryTasks_subset fun entry hentry => ?_)
    obtain ⟨setting, -, rfl⟩ := List.mem_map.1 hentry
    exact List.nil_subset _
  | build hentries =>
    exact hnew (List.Subset.trans (entryTasks_ofPairs_subset _) (entryTasks_of_pairs hentries))
  | getItem hentries key =>
    refine ⟨.refl _ w, hkept (List.Subset.trans (Value.tasks_value?_subset key _) ?_)⟩
    rw [entryTasks_of_entriesOf hentries]
    exact Value.tasks_getD_subset args 0
  | putItem hentries key =>
    refine hnew (List.Subset.trans (Value.entryTasks_put_subset key _ _)
      (List.append_subset.2 ⟨?_, ?_⟩))
    · exact Value.tasks_getD_subset args 2
    · rw [entryTasks_of_entriesOf hentries]
      exact Value.tasks_getD_subset args 0
  | dropItem hentries key =>
    refine hnew (List.Subset.trans (Value.entryTasks_remove_subset key _) ?_)
    rw [entryTasks_of_entriesOf hentries]
    exact Value.tasks_getD_subset args 0
  | describe =>
    refine hnew ?_
    rw [entryTasks_placeEntries]
    exact List.nil_subset _

end Leaf
end BraceScript
