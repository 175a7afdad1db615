import BraceScript.Proofs.Accounts
import BraceScript.Proofs.OverloadChoice

/-!
# The methods of the host's classes

A call resolves to a method that has the name asked for and is one of the methods of a class of the
catalog (`Catalog.exists_class_of_resolve`). So what holds of all methods of the standard classes
holds of every call on the standard catalog.
-/

namespace BraceScript

/-- Does the method run a block? -/
def HostAction.runsBlock : HostAction → Bool
  | runBlock => true
  | _ => false

namespace Catalog
variable {c : Catalog} {m : HostMethod}

theorem exists_class_of_mem_methodsOf {className : String} (h : m ∈ c.methodsOf className) :
    ∃ entry ∈ c.classes, m ∈ entry.2.methods := by
  obtain ⟨name, -, hm⟩ := List.mem_flatMap.1 (List.mem_of_find?_eq_some (mem_visible.1 h))
  cases hclass : c.class? name with
  | none => simp [hclass] at hm
  | some k =>
    rw [hclass] at hm
    exact ⟨(name, k), Table.mem_of_value?_eq_some hclass, hm⟩

theorem mem_of_mem_ofClasses {ks : List HostClass} {entry : String × HostClass}
    (h : entry ∈ (ofClasses ks).classes) : entry.2 ∈ ks := by
  have hgeneral : ∀ c : Catalog, entry ∈ (ks.foldl add c).classes →
      entry ∈ c.classes ∨ entry.2 ∈ ks := by
    clear h
    induction ks with
    | nil => exact fun c hentry => .inl hentry
    | cons k ks ih =>
      intro c hentry
      rcases ih (c.add k) hentry with hentry | hentry
      · rcases Table.eq_or_mem_of_mem_put hentry with heq | hentry
        · exact .inr (List.mem_cons.2 (.inl (by rw [heq])))
        · exact .inl hentry
      · exact .inr (List.mem_cons_of_mem k hentry)
  exact (hgeneral {} h).resolve_left List.not_mem_nil

variable {target : Value} {method : String} {args : List Value} {call : Call}

theorem select?_and_prepare_of_resolve (h : c.resolve target method args = .ok call) :
    c.select? call.className method args = some call.method ∧
      c.prepare call.method args = .ok call.arguments := by
  rw [resolve] at h
  split at h
  · cases h
  split at h
  · cases h
  · rename_i className _ m hselect
    cases hprepare : c.prepare m args with
    | error e =>
      rw [hprepare] at h
      cases h
    | ok prepared =>
      rw [hprepare] at h
      cases h
      exact ⟨hselect, hprepare⟩

/-- A call resolves to a method of a class, which has the name. -/
theorem exists_class_of_resolve (h : c.resolve target method args = .ok call) :
    call.method.name = method ∧ ∃ entry ∈ c.classes, call.method ∈ entry.2.methods := by
  obtain ⟨s, hfits, -⟩ := exists_score_of_select? (select?_and_prepare_of_resolve h).1
  exact ⟨hfits.name, exists_class_of_mem_methodsOf hfits.mem⟩

/-- On the standard catalog a call is one of a method of the standard classes. -/
theorem exists_standardClass_of_resolve (h : standard.resolve target method args = .ok call) :
    call.method.name = method ∧ ∃ k ∈ Host.standardClasses, call.method ∈ k.methods := by
  obtain ⟨hname, entry, hentry, hm⟩ := exists_class_of_resolve h
  exact ⟨hname, entry.2, mem_of_mem_ofClasses hentry, hm⟩

/-- Of the standard methods only the block's `run` runs a block. -/
theorem not_runsBlock_of_resolve_standard (h : standard.resolve target method args = .ok call)
    (hmethod : method ≠ "run") : call.method.action.runsBlock = false := by
  have hothers : ∀ k ∈ Host.standardClasses, ∀ m ∈ k.methods,
      m.name ≠ "run" → m.action.runsBlock = false := by decide
  obtain ⟨hname, k, hk, hm⟩ := exists_standardClass_of_resolve h
  exact hothers k hk call.method hm (hname ▸ hmethod)

end Catalog

/-! ### What methods give -/

namespace Host

/-- What a standard method gives: something new that holds nothing of its own, or a part of what it
is called on. -/
inductive Part (target : Value) : Value → Prop
  | null : Part target .null
  | boolean (b : Bool) : Part target (.boolean b)
  | integer (n : Int64) : Part target (.integer n)
  | float (x : Double) : Part target (.float x)
  | text (s : String) : Part target (.text s)
  | texts (ss : List String) : Part target (.list (ss.map .text))
  | entry {id : Nat} {entries : Table Value} {entry : String × Value}
    (htarget : target = .map id entries) (hentry : entry ∈ entries) : Part target entry.2
  | item {items : List Value} {item : Value} (htarget : target = .list items)
    (hitem : item ∈ items) : Part target item

theorem Part.tasks_subset {target v : Value} (h : Part target v) : v.tasks ⊆ target.tasks := by
  cases h with
  | texts ss =>
    refine Value.itemTasks_subset fun v hv => ?_
    obtain ⟨s, -, rfl⟩ := List.mem_map.1 hv
    exact List.nil_subset _
  | entry htarget hentry =>
    rw [htarget]
    exact Value.tasks_subset_of_entry hentry
  | item htarget hitem =>
    rw [htarget]
    exact Value.tasks_subset_of_mem hitem
  | _ => exact List.nil_subset _

/-- The value, where there is one, is a part of the target. -/
def YieldsPart (target : Value) (x : Except HostFault Value) : Prop :=
  ∀ v, x = .ok v → Part target v

namespace YieldsPart
variable {target : Value}

theorem error (fault : HostFault) : YieldsPart target (.error fault) := by
  intro v h
  cases h

theorem ok {u : Value} (hu : Part target u) : YieldsPart target (.ok u) := by
  intro v h
  cases h
  exact hu

theorem bind {α : Type} {x : Except HostFault α} {k : α → Except HostFault Value}
    (hk : ∀ a, x = .ok a → YieldsPart target (k a)) : YieldsPart target (x >>= k) := by
  cases x with
  | error fault => exact error fault
  | ok a => exact hk a rfl

end YieldsPart

/-- What the method computes is a part of the target. -/
def TakesParts (m : HostMethod) : Prop :=
  match m.action with
  | .compute run => ∀ blocks target arguments, YieldsPart target (run blocks target arguments)
  | _ => True

theorem takesParts_objectClass : ∀ m ∈ objectClass.methods, TakesParts m := by
  simp only [objectClass, List.forall_mem_cons]
  refine ⟨fun _ _ _ => .ok (.text _), fun _ _ _ => .ok (.boolean _), fun _ target _ => ?_, by simp⟩
  dsimp only
  cases target.hostClass? with
  | none => exact .ok .null
  | some name => exact .ok (.text name)

theorem takesParts_numberClass : ∀ m ∈ numberClass.methods, TakesParts m := by
  simp only [numberClass, List.forall_mem_cons]
  refine ⟨fun _ target _ => ?_, fun _ target _ => ?_, fun _ target _ => ?_, by simp⟩
  all_goals
    dsimp only
    split
    · exact .ok (by constructor)
    · exact .error _

theorem takesParts_booleanClass : ∀ m ∈ booleanClass.methods, TakesParts m := by
  simp only [booleanClass, List.forall_mem_cons]
  refine ⟨fun _ target _ => ?_, by simp⟩
  dsimp only
  split
  · exact .ok (.boolean _)
  · exact .error _

theorem yieldsPart_substring (target : Value) (s : String) (first : Int64) (stop : Option Int64) :
    YieldsPart target (substring s first stop) := by
  unfold substring
  dsimp only
  split
  · exact .ok (.text _)
  · exact .error _

theorem takesParts_stringClass : ∀ m ∈ stringClass.methods, TakesParts m := by
  simp only [stringClass, List.forall_mem_cons]
  refine ⟨?length, ?isEmpty, ?toUpperCase, ?toLowerCase, ?trim, ?charAt, ?tail, ?substring,
    ?indexOf, ?indexOfChar, ?indexOfFrom, ?contains, ?startsWith, ?endsWith, ?concat, ?replace,
    ?pieces, ?repeated, by simp⟩
  case charAt =>
    refine fun _ _ _ => .bind fun s _ => .bind fun index _ => ?_
    split
    · exact .ok (.text _)
    · exact .error _
  case tail => exact fun _ _ _ => .bind fun _ _ => .bind fun _ _ => yieldsPart_substring _ _ _ _
  case substring =>
    refine fun _ _ _ => .bind fun _ _ => .bind fun _ _ => .bind fun _ _ => ?_
    exact yieldsPart_substring _ _ _ _
  case pieces => exact fun _ _ _ => .bind fun _ _ => .bind fun _ _ => .ok (.texts _)
  case repeated =>
    refine fun _ _ _ => .bind fun times _ => ?_
    split
    · exact .error _
    · exact .bind fun _ _ => .ok (.text _)
  case indexOfFrom | replace =>
    exact fun _ _ _ => .bind fun _ _ => .bind fun _ _ => .bind fun _ _ => .ok (by constructor)
  case length | isEmpty | toUpperCase | toLowerCase | trim | indexOfChar =>
    exact fun _ _ _ => .bind fun _ _ => .ok (by constructor)
  case indexOf | contains | startsWith | endsWith | concat =>
    exact fun _ _ _ => .bind fun _ _ => .bind fun _ _ => .ok (by constructor)

theorem eq_map_of_targetMap {target : Value} {entries : Table Value}
    (h : targetMap target = .ok entries) : ∃ id, target = .map id entries := by
  cases target with
  | map id entries' =>
    cases h
    exact ⟨id, rfl⟩
  | _ => cases h

theorem part_of_item {target v : Value} {index : Int64}
    (h : (targetList target).toOption.bind (itemAt? · index) = some v) : Part target v := by
  cases target with
  | list items =>
    have hitem : itemAt? items index = some v := h
    rw [itemAt?] at hitem
    split at hitem
    · cases hitem
    · exact .item rfl (List.mem_of_getElem? hitem)
  | _ => cases h

theorem takesParts_mapClass : ∀ m ∈ mapClass.methods, TakesParts m := by
  simp only [mapClass, List.forall_mem_cons]
  refine ⟨?size, ?isEmpty, ?get, ?containsKey, ?keySet, by simp⟩
  case get =>
    refine fun blocks target arguments => .bind fun entries hentries => .ok ?_
    obtain ⟨id, htarget⟩ := eq_map_of_targetMap hentries
    cases hv : Table.value? ((firstValue arguments).display blocks) entries with
    | none => exact .null
    | some v => exact .entry htarget (Table.mem_of_value?_eq_some hv)
  case keySet => exact fun _ _ _ => .bind fun _ _ => .ok (.texts _)
  case size => exact fun _ _ _ => .bind fun _ _ => .ok (.integer _)
  case isEmpty | containsKey => exact fun _ _ _ => .bind fun _ _ => .ok (.boolean _)

theorem takesParts_listClass : ∀ m ∈ listClass.methods, TakesParts m := by
  simp only [listClass, List.forall_mem_cons]
  refine ⟨?size, ?isEmpty, ?get, ?contains, by simp⟩
  case get =>
    refine fun _ target _ => .bind fun index _ => ?_
    split
    · rename_i v hv
      exact .ok (part_of_item hv)
    · exact .error _
  case size => exact fun _ _ _ => .bind fun _ _ => .ok (.integer _)
  case isEmpty | contains => exact fun _ _ _ => .bind fun _ _ => .ok (.boolean _)

theorem takesParts_blockClass : ∀ m ∈ blockClass.methods, TakesParts m := by
  simp only [blockClass, List.forall_mem_cons]
  refine ⟨?getName, ?getExecutionCount, ?run, by simp⟩
  case run => trivial
  case getName => exact fun _ _ _ => .bind fun _ _ => .ok (.text _)
  case getExecutionCount => exact fun _ _ _ => .bind fun _ _ => .ok (.integer _)

theorem takesParts_taskClass : ∀ m ∈ taskClass.methods, TakesParts m := by
  simp only [taskClass, List.forall_mem_cons]
  refine ⟨fun _ target _ => ?_, trivial, by simp⟩
  dsimp only
  split
  · exact .ok (.integer _)
  · exact .error _

theorem takesParts_of_mem_standardClasses :
    ∀ k ∈ standardClasses, ∀ m ∈ k.methods, TakesParts m := by
  have hnone : ∀ m ∈ ([] : List HostMethod), TakesParts m := by simp
  simp only [standardClasses, numberWrappers, List.map_cons, List.map_nil, List.cons_append,
    List.nil_append, List.forall_mem_cons]
  exact ⟨takesParts_objectClass, takesParts_numberClass, hnone, hnone, hnone, hnone, hnone, hnone,
    takesParts_booleanClass, hnone, hnone, takesParts_stringClass, takesParts_mapClass,
    takesParts_listClass, takesParts_blockClass, takesParts_taskClass, by simp⟩

end Host

/-- What a call on the standard catalog computes is a part of its target. -/
theorem Catalog.part_of_resolve_standard {target : Value} {method : String} {args : List Value}
    {call : Call} {run : Array Block → Value → List HostArgument → Except HostFault Value}
    (hresolve : standard.resolve target method args = .ok call)
    (haction : call.method.action = .compute run) {blocks : Array Block} {v : Value}
    (hv : run blocks target call.arguments = .ok v) : Host.Part target v := by
  obtain ⟨-, k, hk, hm⟩ := exists_standardClass_of_resolve hresolve
  have hparts := Host.takesParts_of_mem_standardClasses k hk call.method hm
  rw [Host.TakesParts, haction] at hparts
  exact hparts blocks target call.arguments v hv

/-- What the methods of the classes compute has no tasks but those of the target and of the
arguments. -/
def Catalog.PassesOnTasks (c : Catalog) : Prop :=
  ∀ {target : Value} {method : String} {args : List Value} {call : Call}
    {run : Array Block → Value → List HostArgument → Except HostFault Value},
    c.resolve target method args = .ok call → call.method.action = .compute run →
      ∀ {blocks : Array Block} {v : Value}, run blocks target call.arguments = .ok v →
        v.tasks ⊆ target.tasks ++ Value.itemTasks args

theorem Catalog.passesOnTasks_standard : Catalog.standard.PassesOnTasks := by
  intro target method args call run hresolve haction blocks v hv
  have hpart := part_of_resolve_standard hresolve haction hv
  exact List.subset_append_of_subset_left _ hpart.tasks_subset

end BraceScript
