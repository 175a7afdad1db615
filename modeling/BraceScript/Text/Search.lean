import BraceScript.Text.Fingerprint

/-!
# Searching, cutting and replacing

One text inside another, counted in characters.

* `Chars.find? needle cs` is the least number of characters after which `cs` goes on with `needle`.
* `Chars.cut? needle cs` is what precedes and what follows that occurrence. It compares `needle`
  only where the fingerprints agree, so its time does not grow with the length of `needle` times
  that of `cs`; `cut?_eq` ties it to `find?`.
* `Chars.splitOn needle cs` cuts `cs` at the occurrences of `needle` met from left to right, none
  overlapping the one before. The empty needle occurs between any two characters and at both ends,
  so it cuts off every character, with an empty piece before the first and after the last.
* `Chars.replace needle new cs` joins these pieces with `new`.
-/

namespace BraceScript
namespace Chars

/-- The place of the first occurrence of `needle`. -/
def find? (needle : List Char) : List Char → Option Nat
  | [] => if needle.isEmpty then some 0 else none
  | c :: cs =>
    if needle.isPrefixOf (c :: cs) then some 0 else (find? needle cs).map (· + 1)

/-- Goes on with a search, where `before` holds the characters passed, last one first, `print` is
the fingerprint of as many characters of `cs` as `needle` has, and `ahead` is what follows those. -/
def cutFrom (needle : List Char) (wanted unit : UInt64) :
    (before : List Char) → (print : UInt64) → (cs ahead : List Char) →
      Option (List Char × List Char)
  | before, print, c :: cs, d :: ahead =>
    if print = wanted && needle.isPrefixOf (c :: cs) then some (before.reverse, d :: ahead)
    else
      cutFrom needle wanted unit (c :: before) (print * base + number d - number c * unit) cs ahead
  | before, _, cs, ahead =>
    if needle.isPrefixOf cs then some (before.reverse, ahead) else none

/-- What precedes and what follows the first occurrence of `needle`. -/
def cut? (needle cs : List Char) : Option (List Char × List Char) :=
  cutFrom needle (fingerprint needle) (weight needle) []
    (fingerprint (cs.take needle.length)) cs (cs.drop needle.length)

/-! ### The two searches agree -/

theorem isPrefixOf_eq_false_of_length_lt {needle cs : List Char} (h : cs.length < needle.length) :
    needle.isPrefixOf cs = false := by
  rw [Bool.eq_false_iff]
  intro hp
  have := (List.isPrefixOf_iff_prefix.mp hp).length_le
  omega

theorem find?_eq_none_of_length_lt {needle cs : List Char} (h : cs.length < needle.length) :
    find? needle cs = none := by
  induction cs with
  | nil => cases needle <;> simp_all [find?]
  | cons c cs ih =>
    have hc : cs.length < needle.length := by simp at h; omega
    simp [find?, isPrefixOf_eq_false_of_length_lt h, ih hc]

theorem take_eq_of_isPrefixOf {needle cs : List Char} (h : needle.isPrefixOf cs = true) :
    cs.take needle.length = needle := by
  obtain ⟨rest, rfl⟩ := List.isPrefixOf_iff_prefix.mp h
  simp

theorem cutFrom_eq (needle before cs : List Char) :
    cutFrom needle (fingerprint needle) (weight needle) before
        (fingerprint (cs.take needle.length)) cs (cs.drop needle.length) =
      (find? needle cs).map fun n =>
        (before.reverse ++ cs.take n, cs.drop (n + needle.length)) := by
  induction cs generalizing before with
  | nil => cases needle <;> simp [cutFrom, find?]
  | cons c cs ih =>
    cases hd : (c :: cs).drop needle.length with
    | nil =>
      have hlen : cs.length < needle.length := by simpa [Nat.succ_le_iff] using hd
      rw [cutFrom.eq_2 _ _ _ _ _ _ _ (by simp)]
      by_cases hp : needle.isPrefixOf (c :: cs)
      · simp [find?, hp, hd]
      · simp [find?, hp, find?_eq_none_of_length_lt hlen]
    | cons d ahead =>
      have hahead : cs.drop needle.length = ahead := by
        have := congrArg List.tail hd
        simpa using this
      have hwindow : c :: cs.take needle.length = (c :: cs).take needle.length ++ [d] := by
        have htake : (c :: cs).take (needle.length + 1) = _ := List.take_add_one
        have hget : (c :: cs)[needle.length]? = some d := by
          have := congrArg List.head? hd
          simpa using this
        rw [hget] at htake
        simpa using htake
      have hweight : weight (cs.take needle.length) = weight needle := by
        refine weight_eq_of_length_eq ?_
        have := congrArg List.length hwindow
        have hl := congrArg List.length hd
        simp at this hl ⊢
        omega
      rw [cutFrom]
      by_cases hp : needle.isPrefixOf (c :: cs)
      · simp [find?, hp, take_eq_of_isPrefixOf hp, hd]
      · have := fingerprint_slide hwindow
        rw [hweight] at this
        simp only [hp, Bool.and_false, Bool.false_eq_true, if_false, find?]
        rw [← this, ← hahead, ih]
        cases find? needle cs with
        | none => rfl
        | some n => simp [Nat.succ_add]

/-- Cutting at the first occurrence is cutting where `find?` finds it. -/
theorem cut?_eq (needle cs : List Char) :
    cut? needle cs =
      (find? needle cs).map fun n => (cs.take n, cs.drop (n + needle.length)) := by
  simpa [cut?] using cutFrom_eq needle [] cs

theorem find?_isSome_iff (needle cs : List Char) :
    (find? needle cs).isSome = true ↔ needle <:+: cs := by
  induction cs with
  | nil => cases needle <;> simp [find?]
  | cons c cs ih =>
    rw [find?, List.infix_cons_iff, ← List.isPrefixOf_iff_prefix]
    split
    · rename_i hp
      simp [hp]
    · rename_i hp
      simp [hp, ih]

theorem length_lt_of_cut?_eq_some {first : Char} {more cs before after : List Char}
    (h : cut? (first :: more) cs = some (before, after)) : after.length < cs.length := by
  rw [cut?_eq] at h
  cases cs with
  | nil => simp [find?] at h
  | cons c cs =>
    obtain ⟨n, _, hn⟩ := Option.map_eq_some_iff.mp h
    have := congrArg (fun p => p.2.length) hn
    simp at this ⊢
    omega

/-! ### Pieces -/

/-- The pieces of `cs` between the occurrences of a needle that is not empty, after the pieces in
`done`, last one first. -/
def piecesFrom (first : Char) (more : List Char) (done : List (List Char)) (cs : List Char) :
    List (List Char) :=
  match _h : cut? (first :: more) cs with
  | none => (cs :: done).reverse
  | some (before, after) => piecesFrom first more (before :: done) after
termination_by cs.length
decreasing_by exact length_lt_of_cut?_eq_some _h

/-- The pieces of `cs` between the occurrences of `needle`. -/
def splitOn (needle cs : List Char) : List (List Char) :=
  match needle with
  | [] => [] :: (cs.map ([·]) ++ [[]])
  | first :: more => piecesFrom first more [] cs

/-- Every occurrence of `needle` in `cs` turned into `new`. -/
def replace (needle new cs : List Char) : List Char :=
  new.intercalate (splitOn needle cs)

theorem piecesFrom_eq (first : Char) (more cs : List Char) (done : List (List Char)) :
    piecesFrom first more done cs = done.reverse ++ piecesFrom first more [] cs := by
  generalize hn : cs.length = n
  induction n using Nat.strongRecOn generalizing cs done with
  | ind n ih =>
    rw [piecesFrom, piecesFrom]
    split
    · simp
    · rename_i before after h
      have hlt : after.length < n := hn ▸ length_lt_of_cut?_eq_some h
      rw [ih _ hlt after (before :: done) rfl, ih _ hlt after [before] rfl]
      simp

/-- The first piece goes up to the first occurrence, and the others are those of what follows. -/
theorem splitOn_eq {needle : List Char} (hne : needle ≠ []) (cs : List Char) :
    splitOn needle cs = match cut? needle cs with
      | none => [cs]
      | some (before, after) => before :: splitOn needle after := by
  cases needle with
  | nil => exact absurd rfl hne
  | cons first more =>
    simp only [splitOn]
    rw [piecesFrom]
    split
    · rename_i h
      simp [h]
    · rename_i before after h
      rw [piecesFrom_eq]
      simp [h]

end Chars

namespace Text

/-- Does `s` begin with `lead`? -/
def startsWith (s lead : String) : Bool :=
  lead.toList.isPrefixOf s.toList

/-- Does `s` end in `tail`? -/
def endsWith (s tail : String) : Bool :=
  tail.toList.isSuffixOf s.toList

/-- Does `needle` occur in `s`? -/
def contains (s needle : String) : Bool :=
  (Chars.cut? needle.toList s.toList).isSome

theorem contains_iff {s needle : String} :
    contains s needle = true ↔ needle.toList <:+: s.toList := by
  rw [contains, Chars.cut?_eq, Option.isSome_map, Chars.find?_isSome_iff]

/-- The pieces of `s` between the occurrences of `needle`. -/
def splitOn (s needle : String) : List String :=
  (Chars.splitOn needle.toList s.toList).map String.ofList

/-- Every occurrence of `needle` in `s` turned into `new`. -/
def replace (s needle new : String) : String :=
  String.ofList (Chars.replace needle.toList new.toList s.toList)

/-- What follows `lead` in `s`, when `s` begins with it. -/
def dropLead? (s lead : String) : Option String :=
  (lead.toList.isPrefixOf? s.toList).map String.ofList

/-- What precedes `tail` in `s`, when `s` ends in it. -/
def dropTail? (s tail : String) : Option String :=
  (tail.toList.isSuffixOf? s.toList).map String.ofList

end Text
end BraceScript
