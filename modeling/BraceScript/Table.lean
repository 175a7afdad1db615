import Std.Data.HashMap

/-!
# Tables with text keys, in the order of insertion

A `Table` lists its entries in the order in which their keys were first inserted. Inserting under a
key that is there replaces its value and keeps its place; a new key goes to the end; removing keeps
the order of the rest. Operations that start from the empty table keep the keys distinct.

A table of many pairs is made by a `Table.Builder`, which knows the place of every key;
`ofPairs_eq` says that it is the table that inserting the pairs one by one makes.
-/

namespace BraceScript

/-- Entries under text keys, in the order of insertion. -/
abbrev Table (α : Type) := List (String × α)

namespace Table
variable {α : Type}

/-- The keys in order. -/
def keys (t : Table α) : List String :=
  t.map Prod.fst

/-- The value under a key. -/
def value? (key : String) : Table α → Option α
  | [] => none
  | (k, v) :: rest => if k = key then some v else value? key rest

/-- Is the key there? -/
def has (key : String) (t : Table α) : Bool :=
  (value? key t).isSome

/-- The table with `value` under `key`. -/
def put (key : String) (value : α) : Table α → Table α
  | [] => [(key, value)]
  | (k, v) :: rest => if k = key then (k, value) :: rest else (k, v) :: put key value rest

/-- The table without `key`. -/
def remove (key : String) : Table α → Table α
  | [] => []
  | (k, v) :: rest => if k = key then rest else (k, v) :: remove key rest

/-- A table in the making, with the place of every key. -/
structure Builder (α : Type) where
  places : Std.HashMap String Nat := {}
  entries : Array (String × α) := #[]

/-- The builder with `value` under `key`. -/
def Builder.put (b : Builder α) (key : String) (value : α) : Builder α :=
  match b.places[key]? with
  | some i => { b with entries := b.entries.setIfInBounds i (key, value) }
  | none =>
    { places := b.places.insert key b.entries.size, entries := b.entries.push (key, value) }

/-- The table that holds the pairs, a later pair overriding an earlier one with its key. -/
def ofPairs (pairs : List (String × α)) : Table α :=
  (pairs.foldl (fun b pair => b.put pair.1 pair.2) ({} : Builder α)).entries.toList

/-- The entries in the order of their keys. -/
def sorted (t : Table α) : List (String × α) :=
  t.mergeSort fun a b => a.1 ≤ b.1

/-! ### What the operations do to a look-up -/

@[simp]
theorem value?_put_self (t : Table α) (key : String) (value : α) :
    value? key (put key value t) = some value := by
  induction t with
  | nil => simp [put, value?]
  | cons entry rest ih => by_cases h : entry.1 = key <;> simp [put, value?, h, ih]

theorem has_iff_mem_keys (t : Table α) (key : String) : has key t = true ↔ key ∈ keys t := by
  induction t with
  | nil => simp [has, value?, keys]
  | cons entry rest ih =>
    by_cases h : entry.1 = key
    · simp [has, value?, keys, h]
    · simpa [has, value?, keys, h, Ne.symm h] using ih

theorem value?_put_of_ne (t : Table α) {key other : String} (value : α) (h : key ≠ other) :
    value? other (put key value t) = value? other t := by
  induction t with
  | nil => simp [put, value?, h]
  | cons entry rest ih => grind [put, value?]

theorem mem_of_value?_eq_some {key : String} {v : α} {t : Table α}
    (h : value? key t = some v) : (key, v) ∈ t := by
  induction t with
  | nil => cases h
  | cons entry t ih =>
    rw [value?] at h
    split at h
    · rename_i hkey
      simp [← hkey, ← Option.some.inj h]
    · exact List.mem_cons_of_mem _ (ih h)

/-! ### Entries and distinct keys -/

theorem eq_or_mem_of_mem_put {key : String} {v : α} {t : Table α} {entry : String × α}
    (h : entry ∈ put key v t) : entry = (key, v) ∨ entry ∈ t := by
  induction t with
  | nil => exact .inl (List.mem_singleton.1 h)
  | cons first t ih =>
    rw [put] at h
    split at h
    · rename_i hkey
      rcases List.mem_cons.1 h with heq | h
      · exact .inl (by rw [heq, hkey])
      · exact .inr (List.mem_cons_of_mem _ h)
    · rcases List.mem_cons.1 h with rfl | h
      · exact .inr List.mem_cons_self
      · exact (ih h).imp_right (List.mem_cons_of_mem _)

theorem remove_sublist (key : String) (t : Table α) : (remove key t).Sublist t := by
  induction t with
  | nil => exact List.Sublist.refl _
  | cons entry t ih =>
    rw [remove]
    split
    · exact List.sublist_cons_self _ t
    · exact ih.cons_cons _

theorem nodup_keys_put {t : Table α} (ht : (keys t).Nodup) (key : String) (v : α) :
    (keys (put key v t)).Nodup := by
  induction t with
  | nil => simp [keys, put]
  | cons entry t ih =>
    obtain ⟨hentry, ht⟩ := List.nodup_cons.1 ht
    rw [put]
    split
    · exact List.nodup_cons.2 ⟨hentry, ht⟩
    · rename_i hkey
      refine List.nodup_cons.2 ⟨fun hmem => ?_, ih ht⟩
      obtain ⟨other, hother, heq⟩ := List.mem_map.1 hmem
      rcases eq_or_mem_of_mem_put hother with rfl | hother
      · exact hkey heq.symm
      · exact hentry (heq ▸ List.mem_map_of_mem hother)

theorem nodup_keys_remove {t : Table α} (ht : (keys t).Nodup) (key : String) :
    (keys (remove key t)).Nodup :=
  ht.sublist ((remove_sublist key t).map Prod.fst)

/-- Where the keys are distinct, a look-up finds what is there. -/
theorem value?_eq_some_iff {t : Table α} (ht : (keys t).Nodup) {key : String} {v : α} :
    value? key t = some v ↔ (key, v) ∈ t := by
  refine ⟨mem_of_value?_eq_some, fun hmem => ?_⟩
  induction t with
  | nil => cases hmem
  | cons entry t ih =>
    obtain ⟨hentry, ht⟩ := List.nodup_cons.1 ht
    rcases List.mem_cons.1 hmem with rfl | hmem
    · rw [value?, if_pos rfl]
    · have hkey : entry.1 ≠ key := fun heq => hentry (heq ▸ List.mem_map_of_mem hmem)
      rw [value?, if_neg hkey]
      exact ih ht hmem

/-! ### A builder makes the table that insertions make -/

theorem put_eq_set {t : Table α} {key : String} {i : Nat} {old : α} (value : α)
    (h : t[i]? = some (key, old)) (only : ∀ (j : Nat) v, t[j]? = some (key, v) → j = i) :
    put key value t = t.set i (key, value) := by
  induction t generalizing i with
  | nil => simp at h
  | cons entry rest ih =>
    by_cases he : entry.1 = key
    · have hi : 0 = i := only 0 entry.2 (by simp [← he])
      subst hi
      simp [put, he]
    · cases i with
      | zero => simp at h; simp [h] at he
      | succ i =>
        have h' := ih (by simpa using h) fun j v hj => by
          simpa using only (j + 1) v (by simpa using hj)
        simp [put, he, h']

theorem put_eq_append {t : Table α} {key : String} (value : α)
    (fresh : ∀ (j : Nat) v, t[j]? ≠ some (key, v)) : put key value t = t ++ [(key, value)] := by
  induction t with
  | nil => simp [put]
  | cons entry rest ih =>
    have he : entry.1 ≠ key := fun he => fresh 0 entry.2 (by simp [← he])
    have h' := ih fun j v hj => fresh (j + 1) v (by simpa using hj)
    simp [put, he, h']

namespace Builder

/-- The builder knows the places of all keys, and no others. -/
def Knows (b : Builder α) : Prop :=
  ∀ (key : String) (i : Nat), b.places[key]? = some i ↔ ∃ v, b.entries[i]? = some (key, v)

theorem knows_empty : ({} : Builder α).Knows := by
  intro key i
  simp

theorem Knows.put {b : Builder α} (h : b.Knows) (key : String) (value : α) :
    (b.put key value).Knows ∧
      (b.put key value).entries.toList = Table.put key value b.entries.toList := by
  unfold Builder.put
  split
  · rename_i i hi
    obtain ⟨old, hold⟩ := (h key i).mp hi
    refine ⟨fun k j => ?_, ?_⟩
    · rw [h k j, Array.getElem?_setIfInBounds]
      by_cases hj : i = j
      · subst hj
        obtain ⟨hlt, hold⟩ := Array.getElem?_eq_some_iff.mp hold
        simp [hold, hlt]
      · simp [hj]
    · rw [put_eq_set value (by simpa using hold) fun j v hj => ?_]
      · simp
      · have := (h key j).mpr ⟨v, by simpa using hj⟩
        simp_all
  · rename_i hi
    refine ⟨fun k j => ?_, ?_⟩
    · have hk := h k j
      rw [Std.HashMap.getElem?_insert, Array.getElem?_push]
      by_cases hkey : key = k
      · subst hkey
        have fresh : ∀ v, b.entries[j]? ≠ some (key, v) := fun v hv => by
          simp_all
        by_cases hj : j = b.entries.size
        · simp [hj]
        · simp [hj, Ne.symm hj, fresh]
      · by_cases hj : j = b.entries.size
        · subst hj
          simp_all
        · simp [hkey, hj, hk]
    · rw [put_eq_append value fun j v hj => ?_]
      · simp
      · have := (h key j).mpr ⟨v, by simpa using hj⟩
        simp_all

end Builder

theorem ofPairs_eq (pairs : List (String × α)) :
    ofPairs pairs = pairs.foldl (fun t pair => put pair.1 pair.2 t) [] := by
  have general (b : Builder α) (h : b.Knows) :
      (pairs.foldl (fun b pair => b.put pair.1 pair.2) b).entries.toList =
        pairs.foldl (fun t pair => put pair.1 pair.2 t) b.entries.toList := by
    induction pairs generalizing b with
    | nil => rfl
    | cons pair pairs ih =>
      obtain ⟨hk, he⟩ := h.put pair.1 pair.2
      simp only [List.foldl_cons]
      rw [ih _ hk, he]
  simpa [ofPairs] using general {} Builder.knows_empty

end Table
end BraceScript
