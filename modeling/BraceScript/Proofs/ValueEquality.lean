import BraceScript.Proofs.MapStore
import BraceScript.Value.Equality
import Mathlib.Data.List.Perm.Subperm

/-!
# Equality of values is a partial equivalence

Among values that share a store of maps, as all values of a run do
(`Program.exists_store_afterLines`), equality is symmetric and transitive: maps with one number have
the same entries, and the keys of a map are distinct. Tables of distinct keys are found equal when
they are alike (`Value.Alike`), a relation in which neither side comes first.

A value differs from a copy of itself only where lists alone lead to a float that is not a number
(`Value.NaNWithin`): maps are equal to themselves whatever they hold.
-/

namespace BraceScript

namespace Double
variable {x y z : Double}

theorem eq_iff : x.eq y = true ↔ x.isNaN = false ∧ y.isNaN = false ∧ x.key = y.key := by
  simp [eq, and_assoc]

theorem eq_symm (h : x.eq y = true) : y.eq x = true := by
  obtain ⟨hx, hy, hkey⟩ := eq_iff.1 h
  exact eq_iff.2 ⟨hy, hx, hkey.symm⟩

theorem eq_trans (hxy : x.eq y = true) (hyz : y.eq z = true) : x.eq z = true := by
  obtain ⟨hx, -, hxy⟩ := eq_iff.1 hxy
  obtain ⟨-, hz, hyz⟩ := eq_iff.1 hyz
  exact eq_iff.2 ⟨hx, hz, hxy.trans hyz⟩

theorem eq_self_iff : x.eq x = true ↔ x.isNaN = false := by
  simp [eq]

end Double

namespace Table
variable {α : Type} {t : Table α} {key : String}

theorem mem_keys_iff : key ∈ keys t ↔ ∃ v, value? key t = some v := by
  rw [← has_iff_mem_keys, has, Option.isSome_iff_exists]

end Table

namespace Value

/-- Tables with the same keys, and equal values under each. -/
structure Alike (as bs : Table Value) : Prop where
  keys : ∀ key, key ∈ Table.keys as ↔ key ∈ Table.keys bs
  values : ∀ key a b, Table.value? key as = some a → Table.value? key bs = some b →
    same a b = true

/-- Lists alone lead from the value to a float that is not a number. -/
inductive NaNWithin : Value → Prop
  | float {x : Double} (hx : x.isNaN = true) : NaNWithin (float x)
  | list {items : List Value} {item : Value} (hitem : item ∈ items) (h : NaNWithin item) :
    NaNWithin (list items)

/-! ### Two values at a time -/

theorem sameItems_iff {as bs : List Value} :
    sameItems as bs = true ↔ List.Forall₂ (fun a b => same a b = true) as bs := by
  induction as generalizing bs with
  | nil => cases bs <;> simp [sameItems]
  | cons a as ih => cases bs <;> simp [sameItems, ih]

theorem sameEntries_iff {as bs : Table Value} :
    sameEntries as bs = true ↔
      ∀ entry ∈ as, ∃ b, Table.value? entry.1 bs = some b ∧ same entry.2 b = true := by
  induction as with
  | nil => simp [sameEntries]
  | cons entry as ih =>
    rw [sameEntries, Bool.and_eq_true, ih, List.forall_mem_cons]
    cases Table.value? entry.1 bs <;> simp

/-- What equal values are: they are of one kind, and equal as that kind is. -/
inductive Paired : Value → Value → Prop
  | null : Paired null null
  | boolean (b : Bool) : Paired (boolean b) (boolean b)
  | integer (n : Int64) : Paired (integer n) (integer n)
  | float {x y : Double} (h : x.eq y = true) : Paired (float x) (float y)
  | text (s : String) : Paired (text s) (text s)
  | map {i j : Nat} {as bs : Table Value}
    (h : i = j ∨ as.length = bs.length ∧ sameEntries as bs = true) : Paired (map i as) (map j bs)
  | list {as bs : List Value} (h : List.Forall₂ (fun a b => same a b = true) as bs) :
    Paired (list as) (list bs)
  | block (id : Nat) : Paired (block id) (block id)
  | task (id : Nat) : Paired (task id) (task id)
  | host {x y : HostObject} (h : x.id = y.id) : Paired (host x) (host y)

theorem same_iff_paired {a b : Value} : same a b = true ↔ Paired a b := by
  constructor
  · intro h
    cases a <;> cases b <;> simp only [same, Bool.false_eq_true] at h
    case null.null => exact .null
    case boolean.boolean => exact beq_iff_eq.1 h ▸ .boolean _
    case integer.integer => exact beq_iff_eq.1 h ▸ .integer _
    case float.float => exact .float h
    case text.text => exact beq_iff_eq.1 h ▸ .text _
    case map.map => exact .map (by simpa using h)
    case list.list => exact .list (sameItems_iff.1 h)
    case block.block => exact beq_iff_eq.1 h ▸ .block _
    case task.task => exact beq_iff_eq.1 h ▸ .task _
    case host.host => exact .host (beq_iff_eq.1 h)
  · intro h
    cases h with
    | map h => simpa [same] using h
    | list h => exact sameItems_iff.2 h
    | float h => exact h
    | host h => simpa [same] using h
    | _ => simp [same]

/-! ### Lists -/

section
variable {as bs cs : List Value}

theorem forall₂_symm (h : List.Forall₂ (fun a b => same a b = true) as bs)
    (hitems : ∀ a ∈ as, ∀ b ∈ bs, same a b = true → same b a = true) :
    List.Forall₂ (fun a b => same a b = true) bs as := by
  induction h with
  | nil => exact .nil
  | cons hab _ ih =>
    simp only [List.forall_mem_cons] at hitems
    exact .cons (hitems.1.1 hab) (ih fun a ha => (hitems.2 a ha).2)

theorem forall₂_trans (hab : List.Forall₂ (fun a b => same a b = true) as bs)
    (hbc : List.Forall₂ (fun a b => same a b = true) bs cs)
    (hitems : ∀ a ∈ as, ∀ b ∈ bs, ∀ c ∈ cs, same a b = true → same b c = true →
      same a c = true) : List.Forall₂ (fun a b => same a b = true) as cs := by
  induction hab generalizing cs with
  | nil =>
    cases hbc
    exact .nil
  | cons hab _ ih =>
    obtain - | ⟨hbc, hrest⟩ := hbc
    simp only [List.forall_mem_cons] at hitems
    exact .cons (hitems.1.1.1 hab hbc) (ih hrest fun a ha b hb => ((hitems.2 a ha).2 b hb).2)

end

/-! ### Tables -/

namespace Alike
variable {as bs cs : Table Value}

theorem length_eq (h : Alike as bs) (has : (Table.keys as).Nodup) (hbs : (Table.keys bs).Nodup) :
    as.length = bs.length := by
  have hperm := ((List.perm_ext_iff_of_nodup has hbs).2 h.keys).length_eq
  simpa [Table.keys] using hperm

/-- Where the keys are distinct, as many entries that are all found again are alike. -/
theorem iff_sameEntries (has : (Table.keys as).Nodup) (hbs : (Table.keys bs).Nodup) :
    Alike as bs ↔ as.length = bs.length ∧ sameEntries as bs = true := by
  rw [sameEntries_iff]
  constructor
  · intro h
    refine ⟨h.length_eq has hbs, fun entry hentry => ?_⟩
    have hkey := (h.keys entry.1).1 (List.mem_map_of_mem hentry)
    obtain ⟨b, hb⟩ := Table.mem_keys_iff.1 hkey
    exact ⟨b, hb, h.values _ _ _ ((Table.value?_eq_some_iff has).2 hentry) hb⟩
  · rintro ⟨hlength, hfound⟩
    have hsubset : Table.keys as ⊆ Table.keys bs := by
      intro key hkey
      obtain ⟨entry, hentry, rfl⟩ := List.mem_map.1 hkey
      obtain ⟨b, hb, -⟩ := hfound entry hentry
      exact Table.mem_keys_iff.2 ⟨b, hb⟩
    -- all of the keys on the right are met, since there are no more of them
    have hperm : (Table.keys as).Perm (Table.keys bs) :=
      (has.subperm hsubset).perm_of_length_le (by simp [Table.keys, hlength])
    refine ⟨fun key => hperm.mem_iff, fun key a b ha hb => ?_⟩
    obtain ⟨b', hb', hsame⟩ := hfound _ (Table.mem_of_value?_eq_some ha)
    rw [hb] at hb'
    rwa [Option.some.inj hb']

theorem symm (h : Alike as bs)
    (hvalues : ∀ a ∈ as, ∀ b ∈ bs, same a.2 b.2 = true → same b.2 a.2 = true) : Alike bs as := by
  refine ⟨fun key => (h.keys key).symm, fun key b a hb ha => ?_⟩
  exact hvalues _ (Table.mem_of_value?_eq_some ha) _ (Table.mem_of_value?_eq_some hb)
    (h.values key a b ha hb)

theorem trans (hab : Alike as bs) (hbc : Alike bs cs)
    (hvalues : ∀ a ∈ as, ∀ b ∈ bs, ∀ c ∈ cs, same a.2 b.2 = true → same b.2 c.2 = true →
      same a.2 c.2 = true) : Alike as cs := by
  refine ⟨fun key => (hab.keys key).trans (hbc.keys key), fun key a c ha hc => ?_⟩
  obtain ⟨b, hb⟩ := Table.mem_keys_iff.1 ((hab.keys key).1 (Table.mem_keys_iff.2 ⟨a, ha⟩))
  exact hvalues _ (Table.mem_of_value?_eq_some ha) _ (Table.mem_of_value?_eq_some hb) _
    (Table.mem_of_value?_eq_some hc) (hab.values key a b ha hb) (hbc.values key b c hb hc)

end Alike

/-! ### Values of one run -/

section
variable {store : List (Table Value)} {a b c : Value}

theorem same_map_iff {i j : Nat} {as bs : Table Value} (ha : In store (map i as))
    (hb : In store (map j bs)) : same (map i as) (map j bs) = true ↔ i = j ∨ Alike as bs := by
  rw [Alike.iff_sameEntries ha.of_map.2.1 hb.of_map.2.1, same]
  simp

theorem same_symm (ha : In store a) (hb : In store b) (h : same a b = true) : same b a = true := by
  induction ha generalizing b with
  | map hid hkeys hvalues ih =>
    cases same_iff_paired.1 h with
    | map _ =>
      have ha := In.map hid hkeys hvalues
      rw [same_map_iff ha hb] at h
      rw [same_map_iff hb ha]
      refine h.imp Eq.symm fun halike => halike.symm fun a ha b hbs => ?_
      exact ih a ha (hb.of_map.2.2 b hbs)
  | list hitems ih =>
    cases same_iff_paired.1 h with
    | list hsame =>
      exact same_iff_paired.2 (.list (forall₂_symm hsame fun a ha b hbs =>
        ih a ha (hb.of_list b hbs)))
  | float x =>
    cases same_iff_paired.1 h with
    | float h => exact Double.eq_symm h
  | host x =>
    cases same_iff_paired.1 h with
    | host hid => exact same_iff_paired.2 (.host hid.symm)
  | _ =>
    cases same_iff_paired.1 h
    exact h

theorem same_trans (ha : In store a) (hb : In store b) (hc : In store c) (hab : same a b = true)
    (hbc : same b c = true) : same a c = true := by
  induction ha generalizing b c with
  | map hid hkeys hvalues ih =>
    cases same_iff_paired.1 hab with
    | map _ =>
      cases same_iff_paired.1 hbc with
      | map _ =>
        have ha := In.map hid hkeys hvalues
        rw [same_map_iff ha hb] at hab
        rw [same_map_iff hb hc] at hbc
        rw [same_map_iff ha hc]
        -- one map has one table, so a step from a map to itself can be left out
        rcases hab with rfl | hab
        · rwa [ha.entries_eq hb]
        rcases hbc with rfl | hbc
        · exact .inr (hb.entries_eq hc ▸ hab)
        refine .inr (hab.trans hbc fun a ha b hbs c hcs => ?_)
        exact ih a ha (hb.of_map.2.2 b hbs) (hc.of_map.2.2 c hcs)
  | list hitems ih =>
    cases same_iff_paired.1 hab with
    | list hsame =>
      cases same_iff_paired.1 hbc with
      | list hsame' =>
        exact same_iff_paired.2 (.list (forall₂_trans hsame hsame' fun a ha b hbs c hcs =>
          ih a ha (hb.of_list b hbs) (hc.of_list c hcs)))
  | float x =>
    cases same_iff_paired.1 hab with
    | float hab =>
      cases same_iff_paired.1 hbc with
      | float hbc => exact Double.eq_trans hab hbc
  | host x =>
    cases same_iff_paired.1 hab with
    | host hid =>
      cases same_iff_paired.1 hbc with
      | host hid' => exact same_iff_paired.2 (.host (hid.trans hid'))
  | _ =>
    cases same_iff_paired.1 hab
    exact hbc

end

/-! ### Copies -/

theorem naNWithin_float {x : Double} : NaNWithin (float x) ↔ x.isNaN = true := by
  refine ⟨fun h => ?_, .float⟩
  cases h with
  | float hx => exact hx

theorem naNWithin_list {items : List Value} :
    NaNWithin (list items) ↔ ∃ item ∈ items, NaNWithin item := by
  refine ⟨fun h => ?_, fun ⟨_, hitem, h⟩ => .list hitem h⟩
  cases h with
  | list hitem h => exact ⟨_, hitem, h⟩

/-- A value is equal to itself unless lists lead to what is not a number. -/
theorem same_self_iff : (a : Value) → (same a a = true ↔ ¬ NaNWithin a)
  | .float x => by
    rw [same, Double.eq_self_iff, naNWithin_float, Bool.not_eq_true]
  | .list items => by
    have hitems : ∀ item ∈ items, (same item item = true ↔ ¬ NaNWithin item) :=
      fun item _ => same_self_iff item
    rw [same, sameItems_iff, List.forall₂_same, naNWithin_list]
    simp only [not_exists, not_and]
    exact forall₂_congr hitems
  | .null | .boolean _ | .integer _ | .text _ | .map _ _ | .block _ | .task _ | .host _ => by
    simp only [same, BEq.rfl, Bool.true_or, true_iff]
    exact nofun

/-! ### The laws -/

/-- Among the values of one run equality is symmetric and transitive. A value is equal to a copy of
itself exactly when lists lead to nothing that is not a number, and maps that are not one are equal
exactly when they have the same keys with equal values. -/
theorem same_partialEquivalence (store : List (Table Value)) :
    (∀ a b, In store a → In store b → (same a b = true ↔ same b a = true)) ∧
    (∀ a b c, In store a → In store b → In store c → same a b = true → same b c = true →
      same a c = true) ∧
    (∀ a, same a a = true ↔ ¬ NaNWithin a) ∧
    ∀ i j as bs, In store (map i as) → In store (map j bs) → i ≠ j →
      (same (map i as) (map j bs) = true ↔ Alike as bs) := by
  refine ⟨fun a b ha hb => ⟨same_symm ha hb, same_symm hb ha⟩,
    fun a b c ha hb hc => same_trans ha hb hc, same_self_iff, fun i j as bs ha hb hij => ?_⟩
  rw [same_map_iff ha hb, or_iff_right hij]

theorem same_partialEquivalence_orders :
    let as : Table Value := [("k", integer 1), ("l", list [float .nan])]
    let bs : Table Value := [("l", list [boolean true]), ("k", integer 1)]
    let cs : Table Value := [("k", integer 1), ("l", list [boolean true])]
    same (list [map 0 as]) (list [map 0 as]) = true ∧
      (same (map 0 as) (map 1 bs) = true ↔ same (map 1 bs) (map 0 as) = true) ∧
      ¬ Alike as bs ∧ Alike bs cs ∧ same (map 2 cs) (map 2 cs) = true := by
  intro as bs cs
  obtain ⟨hsymm, htrans, hself, hmaps⟩ := same_partialEquivalence [as, bs, cs]
  have ha : In [as, bs, cs] (map 0 as) := by
    refine .map rfl (by decide) ?_
    simp [as, In.integer, In.list, In.float]
  have hb : In [as, bs, cs] (map 1 bs) := by
    refine .map rfl (by decide) ?_
    simp [bs, In.integer, In.list, In.boolean]
  have hc : In [as, bs, cs] (map 2 cs) := by
    refine .map rfl (by decide) ?_
    simp [cs, In.integer, In.list, In.boolean]
  have hbc : same (map 1 bs) (map 2 cs) = true := by
    simp [bs, cs, same, sameEntries, sameItems, Table.value?]
  refine ⟨(hself _).2 ?_, hsymm _ _ ha hb, ?_, (hmaps 1 2 bs cs hb hc (by decide)).1 hbc,
    htrans _ _ _ hc hb hc ((hsymm _ _ hb hc).1 hbc) hbc⟩
  · rw [naNWithin_list]
    rintro ⟨item, hitem, hnan⟩
    cases List.mem_singleton.1 hitem
    cases hnan
  · rw [← hmaps 0 1 as bs ha hb (by decide)]
    simp [as, bs, same, sameEntries, sameItems, Table.value?]

end Value
end BraceScript
