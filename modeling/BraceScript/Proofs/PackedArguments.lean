import BraceScript.Host.Standard
import Mathlib.Algebra.GroupWithZero.Nat
import Mathlib.Data.List.Basic

/-!
# Variadic arguments, one by one and as a list

A variadic method may be given the items of its last parameter one by one, or packed, as a list that
has the array type already. Whether a list is packed is told by the type that its items share, while
loose items are scored each by itself, so the two ways are judged by different rules. The method
does not see which way was taken, and packed arguments score better, by the penalties of the items
and one more (`Catalog.packed_eq_loose`).

What has to be assumed is that the loose arguments are not taken for packed ones, as they are where
the only item is a list that fits itself.
-/

namespace BraceScript
namespace Catalog
open HostArgument

variable {c : Catalog} {m : HostMethod} {element : HostType} {front xs rest : List Value}

theorem zip_fixed (hfront : front.length = m.parameters.dropLast.length) :
    m.parameters.dropLast.zip (front ++ rest) = m.parameters.dropLast.zip front := by
  simpa using @List.zip_append _ _ m.parameters.dropLast [] front rest hfront.symm

theorem drop_fixed (hfront : front.length = m.parameters.dropLast.length) :
    (front ++ rest).drop m.parameters.dropLast.length = rest := by
  rw [← hfront, List.drop_left]

/-! ### What the method receives -/

theorem mapM_coerce_map (type : HostType) (vs : List Value) :
    (vs.map ((type, ·))).mapM (fun (type, v) => coerce type v) = vs.mapM (coerce type) := by
  rw [List.mapM_map]
  rfl

/-- Behind the fixed arguments there is one array, of the list or of the loose arguments. -/
theorem prepare_append (hm : m.variadicElement? = some element)
    (hfront : front.length = m.parameters.dropLast.length) :
    c.prepare m (front ++ rest) = do
      let fixed ← (m.parameters.dropLast.zip front).mapM fun (type, v) => coerce type v
      if c.isPacked m (front ++ rest) then
        let packed ← rest.mapM (coerce (.array element))
        return fixed ++ packed
      else
        let items ← rest.mapM (coerce element)
        return fixed ++ [.array items] := by
  rw [prepare, hm]
  simp only [zip_fixed hfront, drop_fixed hfront, mapM_coerce_map]

/-! ### Scores -/

theorem score?_append (hm : m.variadicElement? = some element)
    (hfront : front.length = m.parameters.dropLast.length) :
    c.score? m (front ++ rest) =
      (c.penalties? (m.parameters.dropLast.zip front)).bind fun base =>
        if c.isPacked m (front ++ rest) then some ⟨base, true⟩
        else (c.penalties? (rest.map ((element, ·)))).map fun packing =>
          ⟨base + packing + 1, true⟩ := by
  have hlength : ¬ (front ++ rest).length < m.parameters.dropLast.length := by
    rw [List.length_append]
    omega
  simp only [score?, hm, if_neg hlength, zip_fixed hfront, drop_fixed hfront]

/-- The penalties of loose arguments are summed. -/
theorem exists_sum_of_penalties? {n : Nat} (h : c.penalties? (xs.map ((element, ·))) = some n) :
    ∃ penalties : List Nat, xs.map (c.penalty? element) = penalties.map some ∧
      penalties.sum = n := by
  induction xs generalizing n with
  | nil =>
    cases h
    exact ⟨[], rfl, rfl⟩
  | cons x xs ih =>
    rw [List.map_cons, penalties?] at h
    obtain ⟨first, hfirst, h⟩ := Option.bind_eq_some_iff.1 h
    obtain ⟨others, hothers, rfl⟩ := Option.map_eq_some_iff.1 h
    obtain ⟨penalties, hpenalties, rfl⟩ := ih hothers
    exact ⟨first :: penalties, by rw [List.map_cons, hfirst, hpenalties, List.map_cons], rfl⟩

/-- **Packed and loose arguments make the same call.** Where the list of some arguments is packed
and the arguments themselves are not, the method receives the same, or there is the same error. The
packed arguments have a score where the loose ones do, and a lower penalty, by one and all the
penalties of the loose arguments. -/
theorem packed_eq_loose (hm : m.variadicElement? = some element)
    (hfront : front.length = m.parameters.dropLast.length)
    (hloose : c.isPacked m (front ++ xs) = false)
    (hpacked : c.isPacked m (front ++ [.list xs]) = true) :
    c.prepare m (front ++ [.list xs]) = c.prepare m (front ++ xs) ∧
    ∀ loose, c.score? m (front ++ xs) = some loose →
      ∃ (packed : Score) (penalties : List Nat),
        c.score? m (front ++ [.list xs]) = some packed ∧
        xs.map (c.penalty? element) = penalties.map some ∧
        loose.penalty = packed.penalty + (1 + penalties.sum) ∧
        packed.penalty < loose.penalty := by
  constructor
  · rw [prepare_append hm hfront, prepare_append hm hfront, hloose, hpacked]
    simp only [if_true, Bool.false_eq_true, if_false, List.mapM_cons, List.mapM_nil]
    congr 1
    funext fixed
    rw [coerce]
    cases xs.mapM (coerce element) <;> rfl
  · intro loose h
    rw [score?_append hm hfront, hloose] at h
    obtain ⟨base, hbase, h⟩ := Option.bind_eq_some_iff.1 h
    rw [if_neg Bool.false_ne_true] at h
    obtain ⟨packing, hpacking, rfl⟩ := Option.map_eq_some_iff.1 h
    obtain ⟨penalties, hpenalties, rfl⟩ := exists_sum_of_penalties? hpacking
    refine ⟨⟨base, true⟩, penalties, ?_, hpenalties, ?_, ?_⟩
    · rw [score?_append hm hfront, hbase, hpacked]
      rfl
    · simp only
      omega
    · simp only
      omega

/-- A method that takes a text and whatever else there is. -/
def report : HostMethod :=
  .variadic "report" [.named "String", .array .object] (.compute fun _ _ _ => .ok .null)

/-- A list that stands for one argument. -/
def twoSizes : Value :=
  .list [.integer 1, .integer 2]

/-- The one loose argument is a list, of integers. It is no array of `Object` itself, but a list of
it is. -/
theorem packed_eq_loose_oneList :
    standard.prepare report [.text "sizes", .list [twoSizes]] =
      standard.prepare report [.text "sizes", twoSizes] ∧
    ∃ (packed : Score) (penalties : List Nat),
      standard.score? report [.text "sizes", .list [twoSizes]] = some packed ∧
      [twoSizes].map (standard.penalty? .object) = penalties.map some ∧
      4 = packed.penalty + (1 + penalties.sum) ∧ packed.penalty < 4 := by
  have hfront : [Value.text "sizes"].length = report.parameters.dropLast.length := rfl
  have hloose : standard.isPacked report ([.text "sizes"] ++ [twoSizes]) = false := rfl
  have hpacked : standard.isPacked report ([.text "sizes"] ++ [.list [twoSizes]]) = true := rfl
  have hscore : standard.score? report ([.text "sizes"] ++ [twoSizes]) = some ⟨4, true⟩ := rfl
  obtain ⟨hprepare, hscores⟩ := packed_eq_loose rfl hfront hloose hpacked
  exact ⟨hprepare, hscores _ hscore⟩

end Catalog
end BraceScript
