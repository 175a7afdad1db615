import BraceScript.Proofs.BlockGrowth
import BraceScript.Proofs.MapStore

/-!
# The map commands

The commands `NewMap`, `PutItemToMap`, `DropItemFromMap` and `GetItemFromMap` make maps that keep
the order in which their keys were inserted, a key being the display of a value at that moment. The
first three give a new map each and leave all that is held as it was (`Leaf.Builds`).

`Leaf.Built` are the maps that these commands build one from another, in whatever worlds. Each
command keeps the keys distinct (`Leaf.Built.exists_entries`), and where they are, putting an item is
a replacement in place or an addition at the end, and dropping one leaves out an entry.
-/

namespace BraceScript

/-! ### Tables -/

namespace Table
variable {α : Type} {t : Table α} {key : String}

theorem key_ne_of_mem {entry : String × α} (ht : (keys (entry :: t)).Nodup) :
    ∀ other ∈ t, other.1 ≠ entry.1 :=
  fun _ hother heq => (List.nodup_cons.1 ht).1 (heq ▸ List.mem_map_of_mem hother)

/-- A key that is there keeps its place. -/
theorem put_eq_map (ht : (keys t).Nodup) (hkey : key ∈ keys t) (value : α) :
    put key value t = t.map fun entry => if entry.1 = key then (key, value) else entry := by
  induction t with
  | nil => cases hkey
  | cons entry t ih =>
    rw [put, List.map_cons]
    split
    · rename_i hfirst
      subst hfirst
      have hrest : ∀ other ∈ t, (if other.1 = entry.1 then (entry.1, value) else other) = other :=
        fun other hother => if_neg (key_ne_of_mem ht other hother)
      rw [List.map_congr_left hrest, List.map_id']
    · rename_i hfirst
      rw [ih (List.nodup_cons.1 ht).2 ((List.mem_cons.1 hkey).resolve_left (Ne.symm hfirst))]

theorem put_eq_append_of_notMem (hkey : key ∉ keys t) (value : α) :
    put key value t = t ++ [(key, value)] :=
  put_eq_append value fun _ _ h => hkey (List.mem_map_of_mem (List.mem_of_getElem? h))

theorem value?_put (t : Table α) (key other : String) (value : α) :
    value? other (put key value t) = if other = key then some value else value? other t := by
  split
  · rename_i heq
    rw [heq, value?_put_self]
  · rename_i hne
    exact value?_put_of_ne t value (Ne.symm hne)

theorem remove_eq_filter (ht : (keys t).Nodup) (key : String) :
    remove key t = t.filter (·.1 ≠ key) := by
  induction t with
  | nil => rfl
  | cons entry t ih =>
    rw [remove]
    split
    · rename_i hfirst
      subst hfirst
      have hrest : ∀ other ∈ t, decide (other.1 ≠ entry.1) = true :=
        fun other hother => decide_eq_true (key_ne_of_mem ht other hother)
      rw [List.filter_cons_of_neg (by simp), List.filter_eq_self.2 hrest]
    · rename_i hfirst
      rw [List.filter_cons_of_pos (by simpa using hfirst), ih (List.nodup_cons.1 ht).2]

theorem value?_remove (ht : (keys t).Nodup) (key other : String) :
    value? other (remove key t) = if other = key then none else value? other t := by
  split
  · rename_i heq
    rw [heq, value?_remove_self ht]
  · rename_i hne
    induction t with
    | nil => rfl
    | cons entry t ih =>
      have ih := ih (List.nodup_cons.1 ht).2
      grind [remove, value?]

end Table

namespace Leaf
open Value (In)

/-! ### One command -/

section
variable (place : Place) (h : Handle) (w : World)

theorem run_newMap {args : List Value} {pairs : List (String × Value)}
    (hpairs : Leaf.pairs w.blocks args = .ok pairs) :
    newMap.run place h args w =
      .done (.map w.nextMap (Table.ofPairs pairs)) { w with nextMap := w.nextMap + 1 } := by
  show (newMap.check (Leaf.pairs w.blocks args) >>= fun entries =>
    Script.step (·.newMap (Table.ofPairs entries))) w = _
  rw [hpairs]
  rfl

theorem run_putItem (id : Nat) (entries : Table Value) (k v : Value) :
    putItemToMap.run place h [.map id entries, k, v] w =
      .done (.map w.nextMap (Table.put (w.display k) v entries))
        { w with nextMap := w.nextMap + 1 } :=
  rfl

theorem run_dropItem (id : Nat) (entries : Table Value) (k : Value) :
    dropItemFromMap.run place h [.map id entries, k] w =
      .done (.map w.nextMap (Table.remove (w.display k) entries))
        { w with nextMap := w.nextMap + 1 } :=
  rfl

theorem run_getItem (id : Nat) (entries : Table Value) (k : Value) :
    getItemFromMap.run place h [.map id entries, k] w =
      .done ((Table.value? (w.display k) entries).getD .null) w :=
  rfl

end

/-! ### Maps that the commands build -/

/-- A map that was built by some of the commands one after another. Each may run in any world. -/
inductive Built : Value → Prop
  | newMap {place : Place} {h : Handle} {args : List Value} {w w' : World} {m : Value}
    (hrun : newMap.run place h args w = .done m w') : Built m
  | putItem {place : Place} {h : Handle} {k v : Value} {w w' : World} {m m' : Value}
    (hm : Built m) (hrun : putItemToMap.run place h [m, k, v] w = .done m' w') : Built m'
  | dropItem {place : Place} {h : Handle} {k : Value} {w w' : World} {m m' : Value}
    (hm : Built m) (hrun : dropItemFromMap.run place h [m, k] w = .done m' w') : Built m'

theorem eq_map_of_run_newMap {place : Place} {h : Handle} {args : List Value} {w w' : World}
    {m : Value} (hrun : newMap.run place h args w = .done m w') :
    ∃ pairs, m = .map w.nextMap (Table.ofPairs pairs) := by
  cases (run_checksFirst place h newMap args w).done hrun with
  | tell htells => cases htells
  | build hpairs => exact ⟨_, rfl⟩

/-- What is built is a map with distinct keys. -/
theorem Built.exists_entries {m : Value} (hm : Built m) :
    ∃ id entries, m = .map id entries ∧ (Table.keys entries).Nodup := by
  induction hm with
  | newMap hrun =>
    obtain ⟨pairs, rfl⟩ := eq_map_of_run_newMap hrun
    exact ⟨_, _, rfl, Table.nodup_keys_ofPairs pairs⟩
  | putItem _ hrun ih =>
    obtain ⟨id, entries, rfl, hkeys⟩ := ih
    cases hrun
    exact ⟨_, _, rfl, Table.nodup_keys_put hkeys _ _⟩
  | dropItem _ hrun ih =>
    obtain ⟨id, entries, rfl, hkeys⟩ := ih
    cases hrun
    exact ⟨_, _, rfl, Table.nodup_keys_remove hkeys _⟩

/-- Puts items one after another, each to the map that came before. -/
def putAll (place : Place) (h : Handle) : List (Value × Value) → Value → Script Value
  | [], m => pure m
  | (k, v) :: items, m => do putAll place h items (← putItemToMap.run place h [m, k, v])

theorem pairs_flatMap (blocks : Array Block) (items : List (Value × Value)) :
    Leaf.pairs blocks (items.flatMap fun item => [item.1, item.2]) =
      .ok (items.map fun item => (item.1.display blocks, item.2)) := by
  induction items with
  | nil => rfl
  | cons item items ih =>
    rw [List.flatMap_cons, List.cons_append, List.cons_append, List.nil_append, Leaf.pairs, ih]
    rfl

theorem putAll_apply (place : Place) (h : Handle) (items : List (Value × Value)) (id : Nat)
    (entries : Table Value) (w : World) :
    ∃ id', putAll place h items (.map id entries) w =
      .done (.map id' ((items.map fun item => (w.display item.1, item.2)).foldl
          (fun t pair => Table.put pair.1 pair.2 t) entries))
        { w with nextMap := w.nextMap + items.length } := by
  induction items generalizing id entries w with
  | nil => exact ⟨id, rfl⟩
  | cons item items ih =>
    obtain ⟨id', hrest⟩ := ih w.nextMap (Table.put (w.display item.1) item.2 entries)
      { w with nextMap := w.nextMap + 1 }
    refine ⟨id', ?_⟩
    rw [putAll, Script.bind_apply, run_putItem]
    dsimp only
    rw [hrest, List.length_cons, Nat.add_assoc, Nat.add_comm 1]
    rfl

/-! ### What the commands do -/

/-- The run gives a new map with the given entries, and nothing that was held changes: each session
is as it was, and the new map comes behind all that stand in the store. -/
structure Builds (x : Script Value) (args : List Value) (w : World) (entries : Table Value) :
    Prop where
  run : x w = .done (.map w.nextMap entries) { w with nextMap := w.nextMap + 1 }
  keys : (Table.keys entries).Nodup
  sessions : ∀ id, (x w).world.session id = w.session id
  store : ∀ store, w.Holds store → (∀ v ∈ args, In store v) →
    (x w).world.Holds (store ++ [entries])

section
variable {place : Place} {h : Handle} {args : List Value} {w : World} {x : Script Value}
  {entries : Table Value} {id : Nat}

theorem Builds.of_newMap (hrun : x w = .done (w.newMap entries).1 (w.newMap entries).2)
    (hkeys : (Table.keys entries).Nodup)
    (hvalues : ∀ store, (∀ v ∈ args, In store v) → ∀ entry ∈ entries, In store entry.2) :
    Builds x args w entries := by
  refine ⟨hrun, hkeys, fun id => ?_, fun store hw hargs => ?_⟩
  · rw [hrun]
    rfl
  · rw [hrun]
    exact (hw.newMap hkeys (hvalues store hargs)).1

theorem builds_newMap {pairs : List (String × Value)}
    (hpairs : Leaf.pairs w.blocks args = .ok pairs) :
    Builds (newMap.run place h args) args w (Table.ofPairs pairs) := by
  refine .of_newMap (run_newMap place h w hpairs) (Table.nodup_keys_ofPairs pairs) ?_
  intro store hargs entry hentry
  exact in_of_pairs hargs hpairs entry (Table.mem_of_mem_ofPairs hentry)

theorem builds_putItem (hkeys : (Table.keys entries).Nodup) (k v : Value) :
    Builds (putItemToMap.run place h [.map id entries, k, v]) [.map id entries, k, v] w
      (Table.put (w.display k) v entries) := by
  refine .of_newMap (run_putItem place h w id entries k v) (Table.nodup_keys_put hkeys _ _) ?_
  intro store hargs entry hentry
  simp only [List.forall_mem_cons] at hargs
  rcases Table.eq_or_mem_of_mem_put hentry with rfl | hentry
  · exact hargs.2.2.1
  · exact hargs.1.of_map.2.2 entry hentry

theorem builds_dropItem (hkeys : (Table.keys entries).Nodup) (k : Value) :
    Builds (dropItemFromMap.run place h [.map id entries, k]) [.map id entries, k] w
      (Table.remove (w.display k) entries) := by
  refine .of_newMap (run_dropItem place h w id entries k) (Table.nodup_keys_remove hkeys _) ?_
  intro store hargs entry hentry
  simp only [List.forall_mem_cons] at hargs
  exact hargs.1.of_map.2.2 entry ((Table.remove_sublist _ entries).subset hentry)

theorem run_getItem_put (id' : Nat) (key : String) (v k : Value) :
    getItemFromMap.run place h [.map id' (Table.put key v entries), k] w =
      if w.display k = key then .done v w
      else getItemFromMap.run place h [.map id entries, k] w := by
  rw [run_getItem, run_getItem, Table.value?_put]
  split <;> rfl

theorem run_getItem_remove (hkeys : (Table.keys entries).Nodup) (id' : Nat) (key : String)
    (k : Value) :
    getItemFromMap.run place h [.map id' (Table.remove key entries), k] w =
      if w.display k = key then .done .null w
      else getItemFromMap.run place h [.map id entries, k] w := by
  rw [run_getItem, run_getItem, Table.value?_remove hkeys]
  split <;> rfl

end

/-- The map commands are those of a finite map that keeps the order of insertion. The keys of what
they build are distinct. Putting an item replaces the one under its key where that stands, or else
comes at the end; dropping one keeps the order of the others; both are what looking up finds. A map
made of pairs is the one that putting them one by one makes of the empty map. -/
theorem built_is_ordered_map (place : Place) (h : Handle) :
    (∀ m, Built m → ∃ id entries, m = .map id entries ∧ (Table.keys entries).Nodup ∧
      ∀ (k : Value) (w : World),
        (∀ v, ∃ entries', Builds (putItemToMap.run place h [m, k, v]) [m, k, v] w entries' ∧
          (w.display k ∈ Table.keys entries → entries' = entries.map fun entry =>
            if entry.1 = w.display k then (w.display k, v) else entry) ∧
          (w.display k ∉ Table.keys entries → entries' = entries ++ [(w.display k, v)]) ∧
          ∀ (k' : Value) (w' : World),
            getItemFromMap.run place h [.map w.nextMap entries', k'] w' =
              if w'.display k' = w.display k then .done v w'
              else getItemFromMap.run place h [m, k'] w') ∧
        ∃ entries', Builds (dropItemFromMap.run place h [m, k]) [m, k] w entries' ∧
          entries' = entries.filter (·.1 ≠ w.display k) ∧
          ∀ (k' : Value) (w' : World),
            getItemFromMap.run place h [.map w.nextMap entries', k'] w' =
              if w'.display k' = w.display k then .done .null w'
              else getItemFromMap.run place h [m, k'] w') ∧
    ∀ (items : List (Value × Value)) (w : World),
      let args := items.flatMap fun item => [item.1, item.2]
      ∃ entries id, Builds (newMap.run place h args) args w entries ∧
        (do putAll place h items (← newMap.run place h [])) w =
          .done (.map id entries) { w with nextMap := w.nextMap + 1 + items.length } := by
  refine ⟨fun m hm => ?_, fun items w => ?_⟩
  · obtain ⟨id, entries, rfl, hkeys⟩ := hm.exists_entries
    refine ⟨id, entries, rfl, hkeys, fun k w => ⟨fun v => ?_, ?_⟩⟩
    · exact ⟨_, builds_putItem hkeys k v, fun hkey => Table.put_eq_map hkeys hkey v,
        fun hkey => Table.put_eq_append_of_notMem hkey v, fun k' w' => run_getItem_put _ _ v k'⟩
    · exact ⟨_, builds_dropItem hkeys k, Table.remove_eq_filter hkeys _,
        fun k' w' => run_getItem_remove hkeys _ _ k'⟩
  · obtain ⟨id, hputs⟩ := putAll_apply place h items w.nextMap []
      { w with nextMap := w.nextMap + 1 }
    refine ⟨_, id, builds_newMap (pairs_flatMap w.blocks items), ?_⟩
    rw [Script.bind_apply, run_newMap place h w rfl]
    dsimp only
    rw [Table.ofPairs_eq, Table.ofPairs_eq]
    exact hputs

theorem built_is_ordered_map_one_key :
    let w : World := .start {}
    let m : Value := .map 0 [("1", .text "a"), ("b", .null)]
    let m' : Value := .map 0 [("1", .boolean true), ("b", .null)]
    Built m ∧
      (∃ w', putItemToMap.run default default [m, .text "1", .boolean true] w = .done m' w') ∧
      getItemFromMap.run default default [m', .integer 1] w = .done (.boolean true) w := by
  intro w m m'
  have hone : w.display (.integer 1) = w.display (.text "1") := by decide
  have hm : Built m := by
    have hrun := run_newMap default default w
      (pairs_flatMap w.blocks [(.integer 1, .text "a"), (.text "b", .null)])
    have hentries : Table.ofPairs ([(.integer 1, .text "a"), (.text "b", .null)].map
        fun item : Value × Value => (item.1.display w.blocks, item.2)) =
          [("1", .text "a"), ("b", .null)] := by
      rw [Table.ofPairs_eq]
      rfl
    rw [hentries] at hrun
    exact .newMap hrun
  obtain ⟨id, entries, hentries, -, hcommands⟩ := (built_is_ordered_map default default).1 m hm
  obtain ⟨rfl, rfl⟩ := Value.map.inj hentries
  obtain ⟨entries', hput, hplace, -, hget⟩ := (hcommands (.text "1") w).1 (.boolean true)
  obtain rfl := hplace (by decide)
  refine ⟨hm, ⟨_, hput.run⟩, ?_⟩
  exact (hget (.integer 1) w).trans (if_pos hone)

end Leaf
end BraceScript
