import BraceScript.Proofs.BlockGrowth
import BraceScript.Proofs.EndingInside
import BraceScript.Proofs.Launches

/-!
# The names of blocks

A session keeps its blocks among its variables, each in the slot of its name. The list of the blocks
goes by the slots that there are, while a block is found where its slot holds one. The two agree
about a name unless it is taken: unless something that is no block is in its slot (`World.IsTaken`).
Then the list has the name, and the block command refuses it.

Over a whole run no name gets taken but by `StoreValue`, when it stores something that is no block
in the slot (`Event.Takes`); the account of this goes through every evaluation
(`isAccount_taking`). So the list, which is sorted and has no name twice, is that of the blocks there
are as long as no such store is made (`Run.listed_iff_found_or_taken`); and where one is made, it
need not be (`Run.listed_not_found`).
-/

namespace BraceScript

/-! ### Slots -/

theorem Chars.append_lt_append_iff (lead a b : List Char) : lead ++ a < lead ++ b ↔ a < b := by
  induction lead with
  | nil => rfl
  | cons c lead ih =>
    rw [List.cons_append, List.cons_append, List.cons_lt_cons_iff]
    simp [ih]

namespace Block

theorem toList_slot (name : String) : (slot name).toList = (slot "").toList ++ name.toList := by
  simp [slot]

theorem slot_lt_slot_iff {a b : String} : slot a < slot b ↔ a < b := by
  rw [String.lt_iff, String.lt_iff, toList_slot a, toList_slot b]
  exact Chars.append_lt_append_iff _ _ _

theorem dropLead?_eq_some_iff {key name : String} :
    Text.dropLead? key (slot "") = some name ↔ key = slot name := by
  rw [Text.dropLead?, Option.map_eq_some_iff, ← String.toList_inj, toList_slot name]
  constructor
  · rintro ⟨cs, hcs, hname⟩
    rw [← hname, String.toList_ofList]
    exact (List.isPrefixOf?_eq_some_iff_append_eq.1 hcs).symm
  · intro hkey
    have hcs := List.isPrefixOf?_eq_some_iff_append_eq.2 hkey.symm
    exact ⟨name.toList, hcs, String.ofList_toList⟩

theorem startsWith_slot (name : String) : Text.startsWith (slot name) (slot "") = true := by
  rw [Text.startsWith, List.isPrefixOf_iff_prefix, toList_slot name]
  exact List.prefix_append _ _

end Block

/-! ### The list of the blocks -/

theorem Session.pairwise_namesFrom {s : Session} (hkeys : (Table.keys s.bindings).Nodup)
    (lead : String) : (s.namesFrom lead).Pairwise (· < ·) := by
  have hsorted : (s.namesFrom lead).Pairwise fun a b => decide (a ≤ b) = true := by
    refine List.pairwise_mergeSort ?_ ?_ _
    · simpa using fun a b c => String.le_trans
    · simpa using String.le_total
  have hnodup : (s.namesFrom lead).Nodup :=
    (List.mergeSort_perm _ _).nodup_iff.2 (hkeys.sublist List.filter_sublist)
  refine (hsorted.and hnodup).imp fun ⟨hle, hne⟩ => ?_
  exact Std.lt_of_le_of_ne (of_decide_eq_true hle) hne

namespace World
variable {w w' : World} {id : Nat} {name : String}

theorem mem_blockNames : name ∈ w.blockNames id ↔ (w.valueOf? id (Block.slot name)).isSome := by
  have hkey : name ∈ w.blockNames id ↔ Block.slot name ∈ Table.keys (w.session id).bindings := by
    simp only [blockNames, Session.namesFrom, List.mem_filterMap, List.mem_mergeSort,
      List.mem_filter, Block.dropLead?_eq_some_iff]
    constructor
    · rintro ⟨key, ⟨hkey, -⟩, rfl⟩
      exact hkey
    · intro hkey
      exact ⟨_, ⟨hkey, Block.startsWith_slot name⟩, rfl⟩
  rw [hkey, ← Table.has_iff_mem_keys]
  rfl

/-- No session has two variables of one name. -/
def KeysDistinct (w : World) : Prop :=
  ∀ id, (Table.keys (w.session id).bindings).Nodup

theorem KeysDistinct.pairwise_blockNames (hkeys : w.KeysDistinct) (id : Nat) :
    (w.blockNames id).Pairwise (· < ·) := by
  have hslots := Session.pairwise_namesFrom (hkeys id) (Block.slot "")
  refine hslots.filterMap _ fun key key' hlt a ha b hb => ?_
  rw [Block.dropLead?_eq_some_iff.1 ha, Block.dropLead?_eq_some_iff.1 hb] at hlt
  exact Block.slot_lt_slot_iff.1 hlt

theorem KeysDistinct.modifySession (hkeys : w.KeysDistinct) {f : Session → Session}
    (hf : ∀ {s : Session}, (Table.keys s.bindings).Nodup → (Table.keys (f s).bindings).Nodup)
    (id : Nat) : (w.modifySession id f).KeysDistinct := by
  intro id'
  rcases session_modifySession_cases w id f id' with hsession | ⟨-, hsession⟩
  · rw [hsession]
    exact hkeys id'
  · rw [hsession]
    exact hf (hkeys id')

theorem Change.keysDistinct {f : World → World} (hf : Change f) (hkeys : w.KeysDistinct) :
    (f w).KeysDistinct := by
  cases hf with
  | setVariable id name v =>
    exact hkeys.modifySession (f := (·.setVariable name v))
      (fun hs => Table.nodup_keys_put hs name v) id
  | removeVariable id name =>
    exact hkeys.modifySession (f := (·.removeVariable name))
      (fun hs => Table.nodup_keys_remove hs name) id
  | terminate id v => exact hkeys.modifySession (f := (·.terminate v)) (fun hs => hs) id
  | setLast id v => exact hkeys.modifySession (f := ({ · with last := v })) (fun hs => hs) id
  | closeAside before task =>
    intro id
    show (Table.keys ((w.closeAside before task).session id).bindings).Nodup
    rw [session, sessions_closeAside]
    exact hkeys id
  | _ => exact hkeys

theorem Leads.keysDistinct (h : Leads w w') (hkeys : w.KeysDistinct) : w'.KeysDistinct := by
  induction h with
  | refl => exact hkeys
  | tail _ hstep ih =>
    cases hstep with
    | change hf => exact hf.keysDistinct ih
    | setSearchOrder id names =>
      exact ih.modifySession (f := ({ · with searchOrder := names })) (fun hs => hs) id

/-! ### Names that are taken -/

/-- Something that is no block is in the slot of a name. -/
def IsTaken (w : World) (id : Nat) (name : String) : Prop :=
  ∃ v, (Block.slot name, v) ∈ (w.session id).bindings ∧ ∀ block, v ≠ .block block

theorem KeysDistinct.isTaken_iff (hkeys : w.KeysDistinct) :
    w.IsTaken id name ↔
      ∃ v, w.valueOf? id (Block.slot name) = some v ∧ ∀ block, v ≠ .block block := by
  simp only [IsTaken, valueOf?, Table.value?_eq_some_iff (hkeys id)]

/-- What a slot holds: nothing, a block, or something that takes the name. -/
theorem KeysDistinct.slot_cases (hkeys : w.KeysDistinct) (id : Nat) (name : String) :
    (w.valueOf? id (Block.slot name) = none ∧ w.findBlock? id name = none ∧ ¬ w.IsTaken id name) ∨
    (∃ block, w.valueOf? id (Block.slot name) = some (.block block) ∧
      w.findBlock? id name = some block ∧ ¬ w.IsTaken id name) ∨
    ∃ v, w.valueOf? id (Block.slot name) = some v ∧ (∀ block, v ≠ .block block) ∧
      w.findBlock? id name = none ∧ w.IsTaken id name := by
  rw [hkeys.isTaken_iff, findBlock?]
  cases hv : w.valueOf? id (Block.slot name) with
  | none => simp
  | some v => cases v <;> simp

theorem IsTaken.of_gainsOnly {gains : Nat → String × Value → Prop} (hw : w.GainsOnly gains w')
    (h : w'.IsTaken id name) :
    w.IsTaken id name ∨ ∃ v, gains id (Block.slot name, v) ∧ ∀ block, v ≠ .block block := by
  obtain ⟨v, hv, hblock⟩ := h
  rcases hw id _ hv with hv | hgain
  · exact .inl ⟨v, hv, hblock⟩
  · exact .inr ⟨v, hgain, hblock⟩

end World

/-! ### What commands store -/

/-- No leaf command but `StoreValue` gives a session a variable, and this one gives it the one that
its arguments tell of. -/
theorem Leaf.Does.gainsOnly {place : Place} {h : Handle} {command : Leaf} {args : List Value}
    {v : Value} {w w' : World} (hdoes : command.Does place h args w v w') :
    w.GainsOnly (fun id entry =>
      command = .storeValue ∧ h.session = id ∧ stored? args = some entry) w' := by
  cases hdoes with
  | store hstored => exact .setVariable ⟨rfl, rfl, hstored⟩ w
  | free names =>
    exact List.foldlRecOn names _ (.of_bindings_eq fun _ => rfl) fun w₁ hw₁ name _ =>
      hw₁.trans (.removeVariable w₁ _ name)
  | terminate => exact .terminate w h.session _
  | _ => exact .of_bindings_eq fun _ => rfl

/-! ### The account of the names -/

/-- Something that is no block is stored in the slot of a name. -/
def Event.Takes (id : Nat) (name : String) : Event → Prop
  | executed h (.leaf .storeValue) args _ =>
    h.session = id ∧
      ∃ v, Leaf.stored? args = some (Block.slot name, v) ∧ ∀ block, v ≠ .block block
  | _ => False

/-- A name that is taken afterwards was so before, or one of the events takes it. -/
def taking (id : Nat) (name : String) : Account :=
  fun _ w es w' _ => w'.IsTaken id name → w.IsTaken id name ∨ ∃ e ∈ es, e.Takes id name

theorem taking_cons {id : Nat} {name : String} {known given : List Nat} {w w' : World}
    {es : List Event} (e : Event) (h : taking id name known w es w' given) :
    taking id name known w (e :: es) w' given := by
  intro htaken
  rcases h htaken with htaken | ⟨e', he', htakes⟩
  · exact .inl htaken
  · exact .inr ⟨e', List.mem_cons_of_mem e he', htakes⟩

theorem isAccount_taking (id : Nat) (name : String) : IsAccount (taking id name) where
  calm hw _ htaken := by
    rcases htaken.of_gainsOnly hw.gains with htaken | ⟨v, ⟨_, block, hentry⟩, hv⟩
    · exact .inl htaken
    · exact absurd (Prod.mk.inj hentry).2 (hv block)
  answered hdoes htaken := by
    rcases htaken.of_gainsOnly hdoes.gainsOnly with htaken | ⟨u, ⟨rfl, hsession, hstored⟩, hu⟩
    · exact .inl htaken
    · exact .inr ⟨_, List.mem_singleton_self _, hsession, u, hstored, hu⟩
  trans h h' htaken := by
    rcases h' htaken with htaken | ⟨e, he, htakes⟩
    · rcases h htaken with htaken | ⟨e, he, htakes⟩
      · exact .inl htaken
      · exact .inr ⟨e, List.mem_append_left _ he, htakes⟩
    · exact .inr ⟨e, List.mem_append_right _ he, htakes⟩
  mono _ _ h := h
  started _ h := taking_cons _ h
  executed _ h := taking_cons _ h
  launched _ _ _ htaken := .inl htaken
  aside {_ w w' _} task h htaken := by
    rw [World.IsTaken, World.session, World.sessions_closeAside] at htaken
    exact h htaken

theorem ignoresOutput_taking (id : Nat) (name : String) : (taking id name).IgnoresOutput :=
  fun _ _ _ _ htaken => .inl htaken

/-- The run takes no name. -/
def Script.TakesNoName {α : Type} (x : Script α) : Prop :=
  ∀ w id name, (x w).world.IsTaken id name → w.IsTaken id name

theorem host_taking {engine : Engine} (hnames : engine.registry.CustomsHave Script.TakesNoName)
    (id : Nat) (name : String) : IsAccount.Host (taking id name) engine where
  custom hresolve h args w htaken := .inl (hnames hresolve h args w id name htaken)
  compute _ _ _ _ _ htaken := .inl htaken

namespace Run
variable {engine : Engine} {w₀ w : World} {es : List Event}

theorem leads (hwalks : engine.registry.CustomsHave Script.Walks) (hrun : Run engine w₀ es w) :
    World.Leads w₀ w := by
  induction hrun with
  | start => exact .refl w₀
  | ask _ fuel levels h request _ ih =>
    exact ih.trans (Request.leads_leave hwalks fuel levels h request _)

theorem taking (hnames : engine.registry.CustomsHave Script.TakesNoName)
    (hrun : Run engine w₀ es w) (id : Nat) (name : String) : taking id name [] w₀ es w [] := by
  have hA := isAccount_taking id name
  induction hrun with
  | start => exact hA.same w₀
  | @ask es w _ fuel levels h request _ ih =>
    exact hA.trans ih (request.accounted_leave hA (ignoresOutput_taking id name)
      (host_taking hnames id name) fuel levels h w)

end Run

/-! ### The block command -/

theorem World.makeBlock_ne (w : World) (session : Nat) (name : String) :
    (w.makeBlock session name).2 ≠ w := by
  intro heq
  have hsize : (w.makeBlock session name).2.blocks.size = w.blocks.size + 1 :=
    Array.size_push _
  rw [heq] at hsize
  omega

namespace Evaluation

/-- What becomes of `get`. Where the name is free, a new block is made, so the world is another. -/
theorem runBlockAction_get {w : World} (hkeys : w.KeysDistinct) (eval : Evaluator) (h : Handle)
    (name : String) (code : List Value) :
    (∀ block, runBlockAction eval h name "get" code w = .done (.block block) w ↔
      w.findBlock? h.session name = some block) ∧
    (w.IsTaken h.session name ↔ ∃ e, runBlockAction eval h name "get" code w = .failed e w) := by
  have hget : runBlockAction eval h name "get" code w =
      (openBlock h name >>= fun id => pure (.block id)) w := rfl
  rw [hget, Script.bind_apply, openBlock]
  rcases hkeys.slot_cases h.session name with
    ⟨hv, hfind, htaken⟩ | ⟨block, hv, hfind, htaken⟩ | ⟨v, hv, hblock, hfind, htaken⟩
  · rw [hv, hfind]
    simp [htaken, w.makeBlock_ne h.session name]
  · rw [hv, hfind]
    simp [htaken]
  · rw [hv, hfind]
    cases v with
    | block id => exact absurd rfl (hblock id)
    | _ => simp [htaken]

end Evaluation

namespace Run
open Evaluation
variable {engine : Engine} {w₀ w : World} {es : List Event}

/-- The list of the blocks, in every state that a run can reach. It is sorted and has no name twice.
It has the names of the blocks that are found and, beside them, those that are taken, and these are
not found. A name gets taken over the run only where `StoreValue` stores something that is no block
in its slot; so where it never does, the list has exactly the blocks that are found. To get a block
gives the one that is found and leaves the world as it was; it fails if and only if the name is
taken. The commands of the host program must change the world by the operations that a session
offers, and take no name. -/
theorem listed_iff_found_or_taken (hwalks : engine.registry.CustomsHave Script.Walks)
    (hnames : engine.registry.CustomsHave Script.TakesNoName) (hw₀ : w₀.KeysDistinct)
    (hrun : Run engine w₀ es w) (h : Handle) (name : String) :
    (w.blockNames h.session).Pairwise (· < ·) ∧
    (name ∈ w.blockNames h.session ↔
      (w.findBlock? h.session name).isSome ∨ w.IsTaken h.session name) ∧
    (w.IsTaken h.session name → w.findBlock? h.session name = none) ∧
    (w.IsTaken h.session name →
      w₀.IsTaken h.session name ∨ ∃ e ∈ es, e.Takes h.session name) ∧
    ∀ fuel waiting eval code,
      execute engine fuel waiting eval h (.control .codeblock)
        (.text name :: .text "list" :: code) w =
          .done (.list ((w.blockNames h.session).map .text)) w ∧
      (∀ block, execute engine fuel waiting eval h (.control .codeblock)
        (.text name :: .text "get" :: code) w = .done (.block block) w ↔
          w.findBlock? h.session name = some block) ∧
      (w.IsTaken h.session name ↔ ∃ e, execute engine fuel waiting eval h (.control .codeblock)
        (.text name :: .text "get" :: code) w = .failed e w) := by
  have hkeys := (hrun.leads hwalks).keysDistinct hw₀
  refine ⟨hkeys.pairwise_blockNames h.session, ?_, ?_, hrun.taking hnames h.session name, ?_⟩
  · rw [World.mem_blockNames]
    rcases hkeys.slot_cases h.session name with
      ⟨hv, hfind, htaken⟩ | ⟨block, hv, hfind, -⟩ | ⟨v, hv, -, -, htaken⟩
    · simp [hv, hfind, htaken]
    · simp [hv, hfind]
    · simp [hv, htaken]
  · intro htaken
    rcases hkeys.slot_cases h.session name with
      ⟨-, -, hfree⟩ | ⟨block, -, -, hfree⟩ | ⟨v, -, -, hfind, -⟩
    · exact absurd htaken hfree
    · exact absurd htaken hfree
    · exact hfind
  · intro fuel waiting eval code
    exact ⟨rfl, runBlockAction_get hkeys eval h name code⟩

theorem bindings_start (environment : Environment) (id : Nat) :
    ((World.start environment).session id).bindings = [] := by
  cases id <;> rfl

/-- A block is made, and then a number is stored in the slot of another name. -/
theorem exists_run_taken :
    ∃ es w, Run (Program.standardEngine default) (World.start {}) es w ∧
      (w.findBlock? 0 "b").isSome ∧ w.findBlock? 0 "x" = none ∧ "x" ∈ w.blockNames 0 := by
  refine ⟨_, _, (Run.start.ask 1 2 { session := 0 } (.line "Codeblock b make")
    (List.nil_subset _)).ask 1 2 { session := 0 } (.line "StoreValue ks.block:x 5")
    (List.nil_subset _), ?_⟩
  rw [World.mem_blockNames]
  decide +kernel

theorem listed_iff_found_or_taken_number :
    ∃ es w, Run (Program.standardEngine default) (World.start {}) es w ∧
      (w.blockNames 0).Pairwise (· < ·) ∧ "b" ∈ w.blockNames 0 ∧ "x" ∈ w.blockNames 0 ∧
      w.IsTaken 0 "x" ∧ ∃ e ∈ es, e.Takes 0 "x" := by
  have hstart : (World.start {}).KeysDistinct := fun id => by
    rw [bindings_start]
    exact List.nodup_nil
  have hfree : ¬ (World.start {}).IsTaken 0 "x" := by
    rintro ⟨v, hv, -⟩
    rw [bindings_start] at hv
    cases hv
  obtain ⟨es, w, hrun, hblock, hnone, hlisted⟩ := exists_run_taken
  have hnames := fun name => listed_iff_found_or_taken (Registry.customsHave_standard _)
    (Registry.customsHave_standard _) hstart hrun { session := 0 } name
  obtain ⟨hsorted, hb, -⟩ := hnames "b"
  obtain ⟨-, hx, -, hsource, -⟩ := hnames "x"
  have htaken : w.IsTaken 0 "x" := by
    rcases hx.1 hlisted with hfound | htaken
    · rw [hnone] at hfound
      cases hfound
    · exact htaken
  exact ⟨es, w, hrun, hsorted, hb.2 (.inl hblock), hlisted, htaken,
    (hsource htaken).resolve_left hfree⟩

/-- The list of the blocks is not always that of the blocks that are found. -/
theorem listed_not_found :
    ¬ ∀ es w, Run (Program.standardEngine default) (World.start {}) es w →
      ∀ name, name ∈ w.blockNames 0 ↔ (w.findBlock? 0 name).isSome := by
  intro hall
  obtain ⟨es, w, hrun, -, hnone, hlisted⟩ := exists_run_taken
  have hfound := (hall es w hrun "x").1 hlisted
  rw [hnone] at hfound
  cases hfound

end Run

end BraceScript
