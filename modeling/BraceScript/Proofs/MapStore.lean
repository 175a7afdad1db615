import BraceScript.Proofs.Closure
import BraceScript.Proofs.LeafCommands

/-!
# The store of maps

A map is told by its number, and what it holds never changes. The maps that a run has built stand in
a store, each under its number; the values of the run hold no others (`Value.In`), and the next map
to be built is the first that is not there yet (`World.Holds`).

Nothing takes a map out of the store or changes one in it: a command that builds a map puts it
behind the others (`World.Holds.newMap`), and the values that a leaf command leaves are in a store
that goes on from the one it found (`Leaf.Does.keeps`).
-/

namespace BraceScript

/-! ### Entries of tables made from pairs -/

namespace Table
variable {α : Type} {pairs : List (String × α)} {t : Table α}

theorem mem_of_mem_foldl_put {entry : String × α}
    (h : entry ∈ pairs.foldl (fun t pair => put pair.1 pair.2 t) t) :
    entry ∈ t ∨ entry ∈ pairs := by
  induction pairs generalizing t with
  | nil => exact .inl h
  | cons pair pairs ih =>
    rcases ih h with h | h
    · rcases eq_or_mem_of_mem_put h with rfl | h
      · exact .inr List.mem_cons_self
      · exact .inl h
    · exact .inr (List.mem_cons_of_mem _ h)

theorem nodup_keys_foldl_put (ht : (keys t).Nodup) :
    (keys (pairs.foldl (fun t pair => put pair.1 pair.2 t) t)).Nodup := by
  induction pairs generalizing t with
  | nil => exact ht
  | cons pair pairs ih => exact ih (nodup_keys_put ht pair.1 pair.2)

theorem mem_of_mem_ofPairs {entry : String × α} (h : entry ∈ ofPairs pairs) : entry ∈ pairs := by
  rw [ofPairs_eq] at h
  exact (mem_of_mem_foldl_put h).resolve_left List.not_mem_nil

theorem nodup_keys_ofPairs (pairs : List (String × α)) : (keys (ofPairs pairs)).Nodup := by
  rw [ofPairs_eq]
  exact nodup_keys_foldl_put List.nodup_nil

theorem nodup_keys_sorted (ht : (keys t).Nodup) : (keys (sorted t)).Nodup :=
  ((List.mergeSort_perm t _).map Prod.fst).nodup_iff.2 ht

end Table

/-! ### Values in a store -/

namespace Value

/-- The maps in the value are among those of the store, under their numbers, and have distinct keys.
-/
inductive In (store : List (Table Value)) : Value → Prop
  | null : In store null
  | boolean (b : Bool) : In store (boolean b)
  | integer (n : Int64) : In store (integer n)
  | float (x : Double) : In store (float x)
  | text (s : String) : In store (text s)
  | map {id : Nat} {entries : Table Value} (hid : store[id]? = some entries)
    (hkeys : (Table.keys entries).Nodup) (hvalues : ∀ entry ∈ entries, In store entry.2) :
    In store (map id entries)
  | list {items : List Value} (hitems : ∀ item ∈ items, In store item) : In store (list items)
  | block (id : Nat) : In store (block id)
  | task (id : Nat) : In store (task id)
  | host (object : HostObject) : In store (host object)

namespace In
variable {store store' : List (Table Value)} {v : Value} {vs : List Value}

theorem of_map {id : Nat} {entries : Table Value} (h : In store (.map id entries)) :
    store[id]? = some entries ∧ (Table.keys entries).Nodup ∧
      ∀ entry ∈ entries, In store entry.2 := by
  cases h with
  | map hid hkeys hvalues => exact ⟨hid, hkeys, hvalues⟩

theorem of_list {items : List Value} (h : In store (.list items)) :
    ∀ item ∈ items, In store item := by
  cases h with
  | list hitems => exact hitems

/-- One map has one table of entries. -/
theorem entries_eq {i : Nat} {as bs : Table Value} (ha : In store (.map i as))
    (hb : In store (.map i bs)) : as = bs := by
  have hstore := ha.of_map.1
  rw [hb.of_map.1] at hstore
  exact (Option.some.inj hstore).symm

theorem mono (hstore : store <+: store') (h : In store v) : In store' v := by
  induction h with
  | null => exact .null
  | boolean b => exact .boolean b
  | integer n => exact .integer n
  | float x => exact .float x
  | text s => exact .text s
  | map hid hkeys _ ih =>
    obtain ⟨more, rfl⟩ := hstore
    obtain ⟨hlt, -⟩ := List.getElem?_eq_some_iff.1 hid
    exact .map (by rwa [List.getElem?_append_left hlt]) hkeys ih
  | list _ ih => exact .list ih
  | block id => exact .block id
  | task id => exact .task id
  | host object => exact .host object

theorem getD (h : ∀ v ∈ vs, In store v) (index : Nat) : In store (vs.getD index .null) := by
  rw [List.getD_eq_getElem?_getD]
  cases hv : vs[index]? with
  | none => exact .null
  | some v => exact h v (List.mem_of_getElem? hv)

theorem headD (h : ∀ v ∈ vs, In store v) : In store (vs.headD .null) := by
  cases vs with
  | nil => exact .null
  | cons v vs => exact h v List.mem_cons_self

theorem value? {entries : Table Value} (h : ∀ entry ∈ entries, In store entry.2) (key : String) :
    In store ((Table.value? key entries).getD .null) := by
  cases hv : Table.value? key entries with
  | none => exact .null
  | some v => exact h _ (Table.mem_of_value?_eq_some hv)

theorem of_isScalar (h : v.isScalar = true) : In store v := by
  cases v with
  | null => exact .null
  | boolean b => exact .boolean b
  | integer n => exact .integer n
  | float x => exact .float x
  | text s => exact .text s
  | _ => cases h

end In
end Value

/-! ### Worlds -/

/-- The values that a session holds are in the store. -/
structure Session.Holds (store : List (Table Value)) (s : Session) : Prop where
  bindings : ∀ entry ∈ s.bindings, Value.In store entry.2
  last : Value.In store s.last
  ending : ∀ v, s.ending = some v → Value.In store v

namespace World

/-- The store has the maps built so far, all values of the world are in it, and the settings, of
which maps are made, have distinct names. -/
structure Holds (store : List (Table Value)) (w : World) : Prop where
  size : store.length = w.nextMap
  sessions : ∀ id, (w.session id).Holds store
  settings : (Table.keys w.environment.settings).Nodup

namespace Holds
variable {store : List (Table Value)} {w w' : World} {v : Value}

theorem congr (hw : w.Holds store) (hsessions : w'.sessions = w.sessions)
    (hnext : w'.nextMap = w.nextMap) (henvironment : w'.environment = w.environment) :
    w'.Holds store := by
  refine ⟨by rw [hnext, hw.size], fun id => ?_, by rw [henvironment]; exact hw.settings⟩
  have hsession := hw.sessions id
  rwa [session, ← hsessions] at hsession

theorem modifySession (hw : w.Holds store) (id : Nat) {f : Session → Session}
    (hf : ∀ s : Session, s.Holds store → (f s).Holds store) :
    (w.modifySession id f).Holds store := by
  refine ⟨hw.size, fun id' => ?_, hw.settings⟩
  rcases session_modifySession_cases w id f id' with hsession | ⟨rfl, hsession⟩
  · rw [hsession]
    exact hw.sessions id'
  · rw [hsession]
    exact hf _ (hw.sessions id)

theorem setVariable (hw : w.Holds store) (id : Nat) (name : String) (hv : Value.In store v) :
    (w.setVariable id name v).Holds store := by
  refine hw.modifySession id fun s hs => ⟨fun entry hentry => ?_, hs.last, hs.ending⟩
  rcases Table.eq_or_mem_of_mem_put hentry with rfl | hentry
  · exact hv
  · exact hs.bindings entry hentry

theorem removeVariable (hw : w.Holds store) (id : Nat) (name : String) :
    (w.removeVariable id name).Holds store := by
  refine hw.modifySession id fun s hs => ⟨fun entry hentry => ?_, hs.last, hs.ending⟩
  exact hs.bindings entry ((Table.remove_sublist name s.bindings).subset hentry)

theorem ending_getD (hw : w.Holds store) (id : Nat) (hv : Value.In store v) :
    Value.In store ((w.ending id).getD v) := by
  cases hended : w.ending id with
  | none => exact hv
  | some v => exact (hw.sessions id).ending v hended

theorem terminate (hw : w.Holds store) (id : Nat) (hv : Value.In store v) :
    (w.terminate id v).2.Holds store := by
  refine hw.modifySession id fun s hs => ⟨hs.bindings, hs.last, fun u hu => ?_⟩
  cases hended : s.ending with
  | none =>
    rw [Session.terminate, hended] at hu
    exact Option.some.inj hu ▸ hv
  | some u' =>
    rw [Session.terminate, hended] at hu
    exact Option.some.inj hu ▸ hs.ending u' hended

theorem setLast (hw : w.Holds store) (id : Nat) (hv : Value.In store v) :
    (w.setLast id v).Holds store :=
  hw.modifySession id fun _ hs => ⟨hs.bindings, hv, hs.ending⟩

/-- A new map comes behind those that are there. -/
theorem newMap (hw : w.Holds store) {entries : Table Value} (hkeys : (Table.keys entries).Nodup)
    (hvalues : ∀ entry ∈ entries, Value.In store entry.2) :
    (w.newMap entries).2.Holds (store ++ [entries]) ∧
      Value.In (store ++ [entries]) (w.newMap entries).1 := by
  have hstore := List.prefix_append store [entries]
  refine ⟨⟨?_, fun id => ?_, hw.settings⟩, ?_⟩
  · simp [World.newMap, hw.size]
  · obtain ⟨hbindings, hlast, hending⟩ := hw.sessions id
    exact ⟨fun entry h => (hbindings entry h).mono hstore, hlast.mono hstore,
      fun v h => (hending v h).mono hstore⟩
  · refine .map ?_ hkeys fun entry hentry => (hvalues entry hentry).mono hstore
    rw [← hw.size, List.getElem?_concat_length]

end Holds
end World

/-! ### Leaf commands -/

namespace Leaf
open Value (In)

section
variable {store : List (Table Value)} {w w' : World} {args : List Value} {place : Place}
  {h : Handle} {command : Leaf} {v : Value}

theorem in_of_entriesOf {v : Value} (hv : In store v) {entries : Table Value}
    (h : entriesOf v = .ok entries) :
    (Table.keys entries).Nodup ∧ ∀ entry ∈ entries, In store entry.2 := by
  cases v with
  | map id entries' =>
    cases h
    exact hv.of_map.2
  | _ => cases h

theorem in_of_pairs (hargs : ∀ v ∈ args, In store v) {blocks : Array Block}
    {entries : List (String × Value)} (h : pairs blocks args = .ok entries) :
    ∀ entry ∈ entries, In store entry.2 := by
  fun_induction pairs blocks args generalizing entries with
  | case1 =>
    cases h
    exact List.forall_mem_nil _
  | case2 => cases h
  | case3 k v rest ih =>
    cases hrest : pairs blocks rest with
    | error c =>
      rw [hrest] at h
      cases h
    | ok tail =>
      rw [hrest] at h
      cases h
      simp only [List.forall_mem_cons] at hargs ⊢
      exact ⟨hargs.2.1, ih hargs.2.2 hrest⟩

theorem in_placeEntries (store : List (Table Value)) (place : Place) :
    (Table.keys (placeEntries place)).Nodup ∧
      ∀ entry ∈ placeEntries place, In store entry.2 := by
  have hoptional : ∀ s : Option String, In store ((s.map Value.text).getD .null) :=
    fun s => .of_isScalar (Value.isScalar_textOr s)
  refine ⟨by simp [placeEntries, Table.keys], ?_⟩
  simp only [placeEntries, List.forall_mem_cons, List.not_mem_nil, false_implies, implies_true,
    and_true]
  exact ⟨.text _, .text _, .text _, hoptional _, hoptional _, hoptional _, .integer _⟩

/-- What a leaf command leaves, and its value, are in a store that goes on from the old one. -/
theorem Does.keeps (hdoes : command.Does place h args w v w') (hw : w.Holds store)
    (hargs : ∀ v ∈ args, In store v) :
    ∃ store', store <+: store' ∧ w'.Holds store' ∧ In store' v := by
  have hsame : ∀ {u : Value} {w₁ : World}, w₁.Holds store → In store u →
      ∃ store', store <+: store' ∧ w₁.Holds store' ∧ In store' u :=
    fun hw₁ hu => ⟨store, List.prefix_rfl, hw₁, hu⟩
  have hnew : ∀ {entries : Table Value}, (Table.keys entries).Nodup →
      (∀ entry ∈ entries, In store entry.2) →
      ∃ store', store <+: store' ∧ (w.newMap entries).2.Holds store' ∧
        In store' (w.newMap entries).1 :=
    fun hkeys hvalues => ⟨_, List.prefix_append store _, hw.newMap hkeys hvalues⟩
  cases hdoes with
  | tell _ hv => exact hsame hw (.of_isScalar hv)
  | print line => exact hsame (hw.congr rfl rfl rfl) (.text line)
  | store hstored =>
    have hv := hargs _ (mem_of_stored? hstored)
    exact hsame (hw.setVariable _ _ hv) hv
  | free names =>
    exact hsame (List.foldlRecOn names _ hw fun w hw name _ => hw.removeVariable _ name) .null
  | terminate =>
    have hhead := In.headD hargs
    exact hsame (hw.terminate h.session hhead) (hw.ending_getD h.session hhead)
  | setSetting name value =>
    exact hsame ⟨hw.size, hw.sessions, Table.nodup_keys_put hw.settings name value⟩ .null
  | unsetSetting name =>
    exact hsame ⟨hw.size, hw.sessions, Table.nodup_keys_remove hw.settings name⟩ .null
  | settings =>
    refine hnew ?_ fun entry hentry => ?_
    · have hkeys := Table.nodup_keys_sorted hw.settings
      rw [Table.keys, List.map_map]
      exact hkeys
    · obtain ⟨setting, -, rfl⟩ := List.mem_map.1 hentry
      exact .text _
  | build hentries =>
    refine hnew (Table.nodup_keys_ofPairs _) fun entry hentry => ?_
    exact in_of_pairs hargs hentries entry (Table.mem_of_mem_ofPairs hentry)
  | getItem hentries key =>
    exact hsame hw (.value? (in_of_entriesOf (.getD hargs 0) hentries).2 key)
  | putItem hentries key =>
    obtain ⟨hkeys, hvalues⟩ := in_of_entriesOf (.getD hargs 0) hentries
    refine hnew (Table.nodup_keys_put hkeys _ _) fun entry hentry => ?_
    rcases Table.eq_or_mem_of_mem_put hentry with rfl | hentry
    · exact .getD hargs 2
    · exact hvalues entry hentry
  | dropItem hentries key =>
    obtain ⟨hkeys, hvalues⟩ := in_of_entriesOf (.getD hargs 0) hentries
    refine hnew (Table.nodup_keys_remove hkeys _) fun entry hentry => ?_
    exact hvalues entry ((Table.remove_sublist _ _).subset hentry)
  | describe =>
    obtain ⟨hkeys, hvalues⟩ := in_placeEntries store place
    exact hnew hkeys hvalues

end
end Leaf
end BraceScript
