import BraceScript.Environment
import BraceScript.Prompt
import BraceScript.Proofs.FirstOccurrence
import Mathlib.Data.List.Infix
import Mathlib.Logic.Function.Basic

/-!
# The placeholders of a prompt

What a format asks for is said by `Prompt.fill`, which reads it once from left to right: a
placeholder is filled in, and any other character stands for itself. A placeholder has a brace where
it begins and nowhere else, so no two overlap, and a format can be cut at all placeholders of one
kind and filled in part by part (`fill_eq_intercalate`).

`Prompt.render` replaces the three placeholders one after the other, so it also finds those that
only come about when the earlier ones have been filled in: inside a text that was put in, or from
such a text and what stands around it. `Prompt.Undisturbed` says that none comes about. Then, and
for a directory that does not begin with a brace only then, the prompt is the format filled in
(`render_eq_filled_iff`). A user whose name is a placeholder disturbs it
(`render_ne_filled_of_placeholder_name`).

For the second direction two stages have to be told apart from their outcome alone. A placeholder
that is replaced by a text without a brace at its beginning makes the outcome depart from what it
should be (`Departs`), and nothing that comes later makes up for it: the text that a departure leads
to has at some place another character where the one that it should be has a brace.
-/

namespace BraceScript

namespace Chars
variable {needle piece : List Char}

/-! ### Pieces of a text -/

theorem not_infix_take_of_find?_eq_some (hne : needle ≠ []) {cs : List Char} {n : Nat}
    (h : find? needle cs = some n) : ¬ needle <:+: cs.take n := by
  rintro ⟨front, back, hfront⟩
  have hplace : needle <+: cs.drop front.length := by
    rw [← List.take_append_drop n cs, ← hfront]
    simp
  have hle := (isLeast_of_find?_eq_some h).2 hplace
  have hlengths := congrArg List.length hfront
  have hpos := List.length_pos_of_ne_nil hne
  simp only [List.length_append, List.length_take] at hlengths
  omega

/-- What is true of a text without the needle and its one piece, and of one more piece before the
first needle, is true of every text and its pieces. -/
theorem splitOn_induction {motive : List Char → List (List Char) → Prop} (hne : needle ≠ [])
    (last : ∀ cs, ¬ needle <:+: cs → motive cs [cs])
    (more : ∀ before after, ¬ needle <:+: before → motive after (splitOn needle after) →
      motive (before ++ (needle ++ after)) (before :: splitOn needle after))
    (cs : List Char) : motive cs (splitOn needle cs) := by
  generalize hlength : cs.length = length
  induction length using Nat.strongRecOn generalizing cs with
  | ind length ih =>
    rw [splitOn_eq hne, cut?_eq]
    cases hfind : find? needle cs with
    | none =>
      refine last cs fun hinfix => ?_
      simpa [hfind] using (find?_isSome_iff needle cs).2 hinfix
    | some n =>
      obtain ⟨after, hafter⟩ := (isLeast_of_find?_eq_some hfind).1
      have hcs : cs = cs.take n ++ (needle ++ after) := by rw [hafter, List.take_append_drop]
      have hdrop : cs.drop (n + needle.length) = after := by
        rw [← List.drop_drop, ← hafter, List.drop_left]
      have hshorter : after.length < length := by
        have hpos := List.length_pos_of_ne_nil hne
        rw [← hlength, hcs]
        simp only [List.length_append]
        omega
      simp only [Option.map_some, hdrop]
      have hmore := more (cs.take n) after (not_infix_take_of_find?_eq_some hne hfind)
        (ih after.length hshorter after rfl)
      rwa [← hcs] at hmore

theorem splitOn_ne_nil (hne : needle ≠ []) (cs : List Char) : splitOn needle cs ≠ [] :=
  splitOn_induction (motive := fun _ pieces => pieces ≠ []) hne (by simp) (by simp) cs

theorem intercalate_splitOn (hne : needle ≠ []) (cs : List Char) :
    needle.intercalate (splitOn needle cs) = cs := by
  refine splitOn_induction (motive := fun cs pieces => needle.intercalate pieces = cs) hne
    (fun cs _ => List.intercalate_singleton) (fun before after _ ih => ?_) cs
  rw [List.intercalate_cons_of_ne_nil (splitOn_ne_nil hne after), ih, List.append_assoc]

theorem not_infix_of_mem_splitOn (hne : needle ≠ []) {cs : List Char}
    (h : piece ∈ splitOn needle cs) : ¬ needle <:+: piece := by
  refine splitOn_induction (motive := fun _ pieces => ∀ piece ∈ pieces, ¬ needle <:+: piece) hne
    (fun cs hcs => ?_) (fun before after hbefore ih => ?_) cs piece h
  · simpa using hcs
  · simpa using ⟨hbefore, ih⟩

end Chars

namespace Prompt

/-! ### Placeholders -/

/-- What a format asks to be filled in. -/
inductive Slot where
  | user
  | shortened
  | directory
deriving DecidableEq

namespace Slot

/-- The placeholder by which a format asks for it. -/
def mark : Slot → List Char
  | user => "\x7bUsername\x7d".toList
  | shortened => "\x7bCurrentDirectoryWithSimplifyIfHome\x7d".toList
  | directory => "\x7bCurrentDirectory\x7d".toList

/-- What some characters ask for first, if they begin with a placeholder. -/
def first? (cs : List Char) : Option Slot :=
  [user, shortened, directory].find? (·.mark.isPrefixOf cs)

theorem mark_eq_cons (p : Slot) : p.mark = '{' :: p.mark.tail := by
  cases p <;> rfl

theorem mark_ne_nil (p : Slot) : p.mark ≠ [] := by
  rw [mark_eq_cons]
  exact List.cons_ne_nil _ _

theorem brace_notMem_tail (p : Slot) : '{' ∉ p.mark.tail := by
  cases p <;> decide

end Slot

/-- A format in which every placeholder is filled in, all at once from left to right. -/
def fill (texts : Slot → List Char) : List Char → List Char
  | [] => []
  | c :: cs =>
    match Slot.first? (c :: cs) with
    | some p => texts p ++ fill texts ((c :: cs).drop p.mark.length)
    | none => c :: fill texts cs
termination_by cs => cs.length
decreasing_by
  · have := List.length_pos_of_ne_nil p.mark_ne_nil
    simp
    omega
  · simp

namespace Slot
variable {p q : Slot} {cs rest : List Char}

theorem eq_of_mark_isPrefix (h : p.mark <+: q.mark ++ rest) : p = q := by
  have hdifferent : ∀ p q : Slot, p.mark <+: q.mark → p = q := by
    intro p q
    cases p <;> cases q <;> decide
  rcases List.prefix_or_prefix_of_prefix h (List.prefix_append _ _) with h | h
  · exact hdifferent p q h
  · exact (hdifferent q p h).symm

theorem first?_eq_none_iff : first? cs = none ↔ ∀ p : Slot, ¬ p.mark <+: cs := by
  rw [first?, List.find?_eq_none]
  constructor
  · intro h p hp
    exact h p (by cases p <;> decide) (List.isPrefixOf_iff_prefix.2 hp)
  · intro h p _ hp
    exact h p (List.isPrefixOf_iff_prefix.1 hp)

theorem first?_mark_append (p : Slot) (rest : List Char) : first? (p.mark ++ rest) = some p := by
  cases hfirst : first? (p.mark ++ rest) with
  | none => exact absurd (List.prefix_append _ _) (first?_eq_none_iff.1 hfirst p)
  | some q =>
    have hq : q.mark.isPrefixOf (p.mark ++ rest) = true := by simpa using List.find?_some hfirst
    rw [eq_of_mark_isPrefix (List.isPrefixOf_iff_prefix.1 hq)]

/-- No placeholder begins before another one and reaches into it. -/
theorem mark_isPrefix_of_append (hcs : cs ≠ []) (h : p.mark <+: cs ++ (q.mark ++ rest)) :
    p.mark <+: cs := by
  rcases List.prefix_or_prefix_of_prefix h (List.prefix_append cs _) with hp | ⟨beyond, hbeyond⟩
  · exact hp
  cases beyond with
  | nil => exact ⟨[], by rw [← hbeyond, List.append_nil, List.append_nil]⟩
  | cons c beyond =>
    -- the placeholder would have the brace that the other one begins with inside of it
    rw [← hbeyond, q.mark_eq_cons, List.prefix_append_right_inj, List.cons_append,
      List.cons_prefix_cons] at h
    have hmem : '{' ∈ p.mark.tail := by
      rw [← hbeyond, List.tail_append_of_ne_nil hcs, h.1]
      simp
    exact absurd hmem p.brace_notMem_tail

/-- A format is read placeholder by placeholder, and character by character between them. -/
@[elab_as_elim]
theorem induction {motive : List Char → Prop} (nil : motive [])
    (slot : ∀ p rest, motive rest → motive (mark p ++ rest))
    (other : ∀ c cs, (∀ p : Slot, ¬ p.mark <+: c :: cs) → motive cs → motive (c :: cs))
    (cs : List Char) : motive cs := by
  fun_induction fill mark cs with
  | case1 => exact nil
  | case2 c cs p hfirst ih =>
    have hp : p.mark.isPrefixOf (c :: cs) = true := by simpa using List.find?_some hfirst
    obtain ⟨rest, hrest⟩ := List.isPrefixOf_iff_prefix.1 hp
    rw [← hrest, List.drop_left] at ih
    rw [← hrest]
    exact slot p rest ih
  | case3 c cs hfirst ih => exact other c cs (first?_eq_none_iff.1 hfirst) ih

end Slot

/-! ### Filling in -/

variable {t u : Slot → List Char} {p q : Slot} {cs : List Char}

theorem fill_nil (t : Slot → List Char) : fill t [] = [] := by
  rw [fill]

theorem fill_mark_append (t : Slot → List Char) (p : Slot) (rest : List Char) :
    fill t (p.mark ++ rest) = t p ++ fill t rest := by
  have hfirst := p.first?_mark_append rest
  rw [p.mark_eq_cons, List.cons_append] at hfirst ⊢
  rw [fill, hfirst]
  simp only
  rw [← List.cons_append, ← p.mark_eq_cons, List.drop_left]

theorem fill_cons {c : Char} (t : Slot → List Char) (h : ∀ p : Slot, ¬ p.mark <+: c :: cs) :
    fill t (c :: cs) = c :: fill t cs := by
  rw [fill, Slot.first?_eq_none_iff.2 h]

theorem fill_append_mark (t : Slot → List Char) (cs : List Char) (q : Slot) (rest : List Char) :
    fill t (cs ++ (q.mark ++ rest)) = fill t cs ++ (t q ++ fill t rest) := by
  induction cs using Slot.induction with
  | nil => rw [fill_nil, List.nil_append, List.nil_append, fill_mark_append]
  | slot p cs ih =>
    rw [List.append_assoc, fill_mark_append, fill_mark_append, ih, List.append_assoc]
  | other c cs hother ih =>
    have hother' : ∀ p : Slot, ¬ p.mark <+: c :: (cs ++ (q.mark ++ rest)) := fun p hp =>
      hother p (Slot.mark_isPrefix_of_append (List.cons_ne_nil c cs) hp)
    rw [List.cons_append, fill_cons t hother', fill_cons t hother, ih, List.cons_append]

theorem fill_intercalate (t : Slot → List Char) (q : Slot) (pieces : List (List Char)) :
    fill t (q.mark.intercalate pieces) = (t q).intercalate (pieces.map (fill t)) := by
  induction pieces with
  | nil => exact fill_nil t
  | cons piece pieces ih =>
    cases pieces with
    | nil => simp
    | cons next pieces =>
      simp only [List.map_cons] at ih ⊢
      rw [List.intercalate_cons_cons, List.append_assoc, fill_append_mark, ih,
        List.intercalate_cons_cons, List.append_assoc]

/-- Only the texts for placeholders that are there count. -/
theorem fill_congr (h : ∀ p : Slot, p.mark <:+: cs → t p = u p) : fill t cs = fill u cs := by
  induction cs using Slot.induction with
  | nil => rw [fill_nil, fill_nil]
  | slot p rest ih =>
    have hp : p.mark <:+: p.mark ++ rest := (List.prefix_append _ _).isInfix
    have hrest := ih fun q hq => h q (hq.trans (List.suffix_append _ _).isInfix)
    rw [fill_mark_append, fill_mark_append, h p hp, hrest]
  | other c cs hother ih =>
    have hrest := ih fun q hq => h q (hq.trans (List.suffix_cons c cs).isInfix)
    rw [fill_cons t hother, fill_cons u hother, hrest]

theorem fill_mark (cs : List Char) : fill Slot.mark cs = cs := by
  induction cs using Slot.induction with
  | nil => rw [fill_nil]
  | slot p rest ih => rw [fill_mark_append, ih]
  | other c cs hother ih => rw [fill_cons _ hother, ih]

theorem fill_update_of_absent (t : Slot → List Char) (s : List Char) (h : ¬ p.mark <:+: cs) :
    fill (Function.update t p s) cs = fill t cs := by
  refine fill_congr fun q hq => ?_
  have hne : q ≠ p := by
    rintro rfl
    exact h hq
  exact Function.update_of_ne hne s t

/-- To replace a placeholder is to fill in a text for it and to leave the others as they are. -/
theorem replace_mark (p : Slot) (s cs : List Char) :
    Chars.replace p.mark s cs = fill (Function.update Slot.mark p s) cs := by
  refine Chars.splitOn_induction (motive := fun cs pieces => s.intercalate pieces = fill _ cs)
    p.mark_ne_nil (fun cs hcs => ?_) (fun before after hbefore ih => ?_) cs
  · rw [fill_update_of_absent _ s hcs, fill_mark, List.intercalate_singleton]
  · rw [List.intercalate_cons_of_ne_nil (Chars.splitOn_ne_nil p.mark_ne_nil after), ih,
      fill_append_mark, fill_update_of_absent _ s hbefore, fill_mark, Function.update_self,
      List.append_assoc]

theorem replace_intercalate (p q : Slot) (s : List Char) (pieces : List (List Char)) :
    Chars.replace p.mark s (q.mark.intercalate pieces) =
      (Function.update Slot.mark p s q).intercalate (pieces.map (Chars.replace p.mark s)) := by
  have hreplace : Chars.replace p.mark s = fill (Function.update Slot.mark p s) :=
    funext (replace_mark p s)
  rw [hreplace, fill_intercalate]

/-! ### Departures -/

/-- The first text is the second one up to a place where only the second one has an opening brace.
-/
inductive Departs : List Char → List Char → Prop
  | here {c : Char} (hc : c ≠ '{') (cs ds : List Char) : Departs (c :: cs) ('{' :: ds)
  | later (c : Char) {cs ds : List Char} (h : Departs cs ds) : Departs (c :: cs) (c :: ds)

namespace Departs
variable {x y z : List Char}

theorem ne (h : Departs x y) : x ≠ y := by
  induction h with
  | here hc cs ds => exact fun heq => hc (List.cons.inj heq).1
  | later c _ ih => exact fun heq => ih (List.cons.inj heq).2

theorem trans (h : Departs x y) (h' : Departs y z) : Departs x z := by
  induction h generalizing z with
  | here hc cs ds =>
    cases h' with
    | here hbrace => exact absurd rfl hbrace
    | later => exact .here hc _ _
  | later c _ ih =>
    cases h' with
    | here hc => exact .here hc _ _
    | later _ h' => exact .later c (ih h')

theorem append (h : Departs x y) (x' y' : List Char) : Departs (x ++ x') (y ++ y') := by
  induction h with
  | here hc cs ds => exact .here hc _ _
  | later c _ ih => exact .later c ih

theorem append_left (common : List Char) (h : Departs x y) :
    Departs (common ++ x) (common ++ y) := by
  induction common with
  | nil => exact h
  | cons c common ih => exact .later c ih

end Departs

/-- The first text is the second one, or departs from it. -/
def Tracks (x y : List Char) : Prop :=
  x = y ∨ Departs x y

namespace Tracks
variable {x y z x' y' : List Char}

theorem trans (h : Tracks x y) (h' : Tracks y z) : Tracks x z := by
  rcases h with rfl | h
  · exact h'
  rcases h' with rfl | h'
  · exact .inr h
  · exact .inr (h.trans h')

/-- What comes back to where it departed from has not departed. -/
theorem eq_of_trans_eq (h : Tracks x y) (h' : Tracks y z) (heq : x = z) : x = y ∧ y = z := by
  rcases h with rfl | h
  · exact ⟨rfl, heq⟩
  rcases h' with rfl | h'
  · exact absurd heq h.ne
  · exact absurd heq (h.trans h').ne

theorem append (h : Tracks x y) (h' : Tracks x' y') : Tracks (x ++ x') (y ++ y') := by
  rcases h with rfl | h
  · exact h'.imp (congrArg _) (Departs.append_left x)
  · exact .inr (h.append x' y')

theorem append_eq_iff (h : Tracks x y) : x ++ x' = y ++ y' ↔ x = y ∧ x' = y' := by
  rcases h with rfl | h
  · simp
  · exact ⟨fun heq => absurd heq (h.append x' y').ne, fun heq => absurd heq.1 h.ne⟩

section
variable {f g : List Char → List Char} {pieces : List (List Char)}

theorem intercalate (sep : List Char) (h : ∀ piece ∈ pieces, Tracks (f piece) (g piece)) :
    Tracks (sep.intercalate (pieces.map f)) (sep.intercalate (pieces.map g)) := by
  induction pieces with
  | nil => exact .inl rfl
  | cons piece pieces ih =>
    have hpieces := ih fun piece hpiece => h piece (List.mem_cons_of_mem _ hpiece)
    have hpiece := h piece List.mem_cons_self
    cases pieces with
    | nil => simpa using hpiece
    | cons next pieces =>
      simp only [List.map_cons, List.intercalate_cons_cons] at hpieces ⊢
      exact (hpiece.append (.inl rfl)).append hpieces

theorem intercalate_eq_iff (sep : List Char)
    (h : ∀ piece ∈ pieces, Tracks (f piece) (g piece)) :
    sep.intercalate (pieces.map f) = sep.intercalate (pieces.map g) ↔
      ∀ piece ∈ pieces, f piece = g piece := by
  induction pieces with
  | nil => simp
  | cons piece pieces ih =>
    have hpieces := ih fun piece hpiece => h piece (List.mem_cons_of_mem _ hpiece)
    have hpiece := h piece List.mem_cons_self
    cases pieces with
    | nil => simp
    | cons next pieces =>
      simp only [List.map_cons, List.intercalate_cons_cons] at hpieces ⊢
      rw [(hpiece.append (.inl rfl)).append_eq_iff, hpieces, hpiece.append_eq_iff]
      simp

end

end Tracks

section
variable {s d : List Char}

theorem tracks_replace (hs : Departs s p.mark) (cs : List Char) :
    Tracks (Chars.replace p.mark s cs) cs := by
  rw [replace_mark]
  induction cs using Slot.induction with
  | nil => exact .inl (fill_nil _)
  | slot q rest ih =>
    rw [fill_mark_append]
    refine Tracks.append ?_ ih
    by_cases hq : q = p
    · rw [hq, Function.update_self]
      exact .inr hs
    · rw [Function.update_of_ne hq]
      exact .inl rfl
  | other c cs hother ih =>
    rw [fill_cons _ hother]
    exact Tracks.append (x := [c]) (.inl rfl) ih

theorem departs_replace (hs : Departs s p.mark) (h : p.mark <:+: cs) :
    Departs (Chars.replace p.mark s cs) cs := by
  obtain ⟨front, back, rfl⟩ := h
  rw [List.append_assoc, replace_mark, fill_append_mark, Function.update_self, ← replace_mark]
  rcases tracks_replace hs front with heq | hfront
  · rw [heq]
    exact (hs.append _ back).append_left front
  · exact hfront.append _ _

/-! ### One placeholder after the other -/

/-- Filling in makes the placeholder nowhere: where the format is cut at its own ones, no part holds
one once it is filled in. -/
def Clear (p : Slot) (t : Slot → List Char) (cs : List Char) : Prop :=
  ∀ piece ∈ Chars.splitOn p.mark cs, ¬ p.mark <:+: fill t piece

instance : Decidable (Clear p t cs) :=
  inferInstanceAs (Decidable (∀ piece ∈ Chars.splitOn p.mark cs, ¬ p.mark <:+: fill t piece))

theorem fill_eq_intercalate (p : Slot) (t : Slot → List Char) (cs : List Char) :
    fill t cs = (t p).intercalate ((Chars.splitOn p.mark cs).map (fill t)) := by
  rw [← fill_intercalate, Chars.intercalate_splitOn p.mark_ne_nil]

theorem fill_update_eq_intercalate (p : Slot) (t : Slot → List Char) (s cs : List Char) :
    fill (Function.update t p s) cs =
      s.intercalate ((Chars.splitOn p.mark cs).map (fill t)) := by
  have hpieces : ∀ piece ∈ Chars.splitOn p.mark cs,
      fill (Function.update t p s) piece = fill t piece := fun piece hpiece =>
    fill_update_of_absent t s (Chars.not_infix_of_mem_splitOn p.mark_ne_nil hpiece)
  rw [fill_eq_intercalate p, Function.update_self, List.map_congr_left hpieces]

/-- Where a format is cut at a placeholder that is not filled in yet, the replacing goes on part by
part. -/
theorem replace_fill_eq_intercalate (hq : t q = q.mark) (p : Slot) (s cs : List Char) :
    Chars.replace p.mark s (fill t cs) =
      (Function.update Slot.mark p s q).intercalate ((Chars.splitOn q.mark cs).map fun piece =>
        Chars.replace p.mark s (fill t piece)) := by
  rw [fill_eq_intercalate q t cs, hq, replace_intercalate, List.map_map]
  rfl

theorem replace_fill_of_clear (hp : t p = p.mark) (h : Clear p t cs) (s : List Char) :
    Chars.replace p.mark s (fill t cs) = fill (Function.update t p s) cs := by
  have hpieces : ∀ piece ∈ Chars.splitOn p.mark cs,
      Chars.replace p.mark s (fill t piece) = fill t piece := by
    intro piece hpiece
    rw [replace_mark, fill_update_of_absent _ s (h piece hpiece), fill_mark]
  rw [replace_fill_eq_intercalate hp, Function.update_self, fill_update_eq_intercalate,
    List.map_congr_left hpieces]

theorem tracks_replace_fill (hp : t p = p.mark) (hs : Departs s p.mark) (cs : List Char) :
    Tracks (Chars.replace p.mark s (fill t cs)) (fill (Function.update t p s) cs) := by
  rw [replace_fill_eq_intercalate hp, Function.update_self, fill_update_eq_intercalate]
  exact Tracks.intercalate s fun piece _ => tracks_replace hs _

theorem clear_of_replace_fill_eq (hp : t p = p.mark) (hs : Departs s p.mark)
    (heq : Chars.replace p.mark s (fill t cs) = fill (Function.update t p s) cs) :
    Clear p t cs := by
  rw [replace_fill_eq_intercalate hp, Function.update_self, fill_update_eq_intercalate,
    Tracks.intercalate_eq_iff s fun piece _ => tracks_replace hs _] at heq
  intro piece hpiece hmade
  exact (departs_replace hs hmade).ne (heq piece hpiece)

/-- Where two placeholders are replaced one after the other, and the outcome is that of filling them
in at once, both stages do so on every part between two of the later placeholders. -/
theorem pieces_of_replace_replace_eq (hpq : q ≠ p) (hp : t p = p.mark) (hq : t q = q.mark)
    (hs : Departs s p.mark) (hd : Departs d q.mark)
    (heq : Chars.replace q.mark d (Chars.replace p.mark s (fill t cs)) =
      fill (Function.update (Function.update t p s) q d) cs) :
    ∀ piece ∈ Chars.splitOn q.mark cs,
      Chars.replace p.mark s (fill t piece) = fill (Function.update t p s) piece ∧
        ¬ q.mark <:+: fill (Function.update t p s) piece := by
  -- each of the two stages departs where it finds more than the format has, and none comes back
  have hlater := fun piece => tracks_replace hd (Chars.replace p.mark s (fill t piece))
  have hearlier := tracks_replace_fill (t := t) hp hs
  rw [replace_fill_eq_intercalate hq, Function.update_of_ne hpq, replace_intercalate,
    Function.update_self, List.map_map, fill_update_eq_intercalate] at heq
  have hpieces := (Tracks.intercalate_eq_iff d fun piece _ =>
    (hlater piece).trans (hearlier piece)).1 heq
  intro piece hpiece
  obtain ⟨hkept, hfilled⟩ :=
    (hlater piece).eq_of_trans_eq (hearlier piece) (hpieces piece hpiece)
  rw [hfilled] at hkept
  exact ⟨hfilled, fun hmade => (departs_replace hd hmade).ne hkept⟩

theorem clear_of_replace_replace_eq (hpq : q ≠ p) (hp : t p = p.mark) (hq : t q = q.mark)
    (hs : Departs s p.mark) (hd : Departs d q.mark)
    (heq : Chars.replace q.mark d (Chars.replace p.mark s (fill t cs)) =
      fill (Function.update (Function.update t p s) q d) cs) :
    Clear p t cs ∧ Clear q (Function.update t p s) cs := by
  have hpieces := pieces_of_replace_replace_eq hpq hp hq hs hd heq
  refine ⟨clear_of_replace_fill_eq hp hs ?_, fun piece hpiece => (hpieces piece hpiece).2⟩
  rw [replace_fill_eq_intercalate hq, List.map_congr_left fun piece h => (hpieces piece h).1,
    fill_eq_intercalate q (Function.update t p s), Function.update_of_ne hpq,
    Function.update_of_ne hpq, hq]

end

/-! ### The prompt -/

variable {format user directory : String} {home : Option String}

/-- The texts for the placeholders. -/
def texts (user shortened directory : String) : Slot → List Char
  | .user => user.toList
  | .shortened => shortened.toList
  | .directory => directory.toList

/-- The prompt that a format makes where its placeholders are filled in at once. -/
def filled (format user directory : String) (home : Option String) : String :=
  String.ofList (fill (texts user (shortened directory home) directory) format.toList)

/-- The texts where the user's name alone is filled in. -/
def named (user : String) : Slot → List Char :=
  Function.update Slot.mark .user user.toList

/-- The texts where the user's name and the shortened directory are filled in. -/
def placed (user directory : String) (home : Option String) : Slot → List Char :=
  Function.update (named user) .shortened (shortened directory home).toList

/-- What is filled in makes no placeholder that is looked for after it. -/
structure Undisturbed (format user directory : String) (home : Option String) : Prop where
  ofNamed : Clear .shortened (named user) format.toList
  ofPlaced : Clear .directory (placed user directory home) format.toList

theorem texts_eq_update (user directory : String) (home : Option String) :
    texts user (shortened directory home) directory =
      Function.update (placed user directory home) .directory directory.toList := by
  funext p
  cases p <;> rfl

theorem render_eq_iff {prompt : String} :
    render format user directory home = prompt ↔
      Chars.replace Slot.directory.mark directory.toList
        (Chars.replace Slot.shortened.mark (shortened directory home).toList
          (fill (named user) format.toList)) = prompt.toList := by
  rw [named, ← replace_mark, ← String.toList_inj]
  simp only [render, Text.replace, String.toList_ofList]
  rfl

theorem departs_mark {c : Char} (hc : c ≠ '{') (cs : List Char) (p : Slot) :
    Departs (c :: cs) p.mark := by
  rw [p.mark_eq_cons]
  exact .here hc _ _

theorem departs_shortened {c : Char} {cs : List Char} (hdirectory : directory.toList = c :: cs)
    (hc : c ≠ '{') (home : Option String) (p : Slot) :
    Departs (shortened directory home).toList p.mark := by
  rw [shortened]
  split
  · exact departs_mark (by decide) [] p
  · rw [hdirectory]
    exact departs_mark hc cs p

/-- **A prompt is its format filled in, where nothing that is filled in makes a placeholder.** The
three placeholders are replaced one after the other. The outcome is that of filling them in at once
if the text that the user's name makes with the format around it holds no further placeholder for
the shortened directory, and that text with this directory in it none for the directory. Where the
directory does not begin with a brace, as no path from the root does, it is so only then. -/
theorem render_eq_filled_iff (format user directory : String) (home : Option String) :
    (Undisturbed format user directory home →
      render format user directory home = filled format user directory home) ∧
    ∀ c cs, directory.toList = c :: cs → c ≠ '{' →
      render format user directory home = filled format user directory home →
        Undisturbed format user directory home := by
  have hnamed : named user .shortened = Slot.shortened.mark := rfl
  have hlater : named user .directory = Slot.directory.mark := rfl
  have hplaced : placed user directory home .directory = Slot.directory.mark := rfl
  rw [render_eq_iff, filled, String.toList_ofList, texts_eq_update]
  constructor
  · intro h
    rw [replace_fill_of_clear hnamed h.ofNamed]
    exact replace_fill_of_clear hplaced h.ofPlaced _
  · intro c cs hdirectory hc heq
    have hs := departs_shortened hdirectory hc home .shortened
    have hd : Departs directory.toList Slot.directory.mark := hdirectory ▸ departs_mark hc cs _
    obtain ⟨hclear, hclear'⟩ :=
      clear_of_replace_replace_eq (by decide) hnamed hlater hs hd heq
    exact ⟨hclear, hclear'⟩

theorem render_eq_filled_iff_default :
    render Environment.defaultPromptFormat "ks" "/home/ks" (some "/home/ks/") =
      filled Environment.defaultPromptFormat "ks" "/home/ks" (some "/home/ks/") ∧
    Undisturbed "\x7b\x7bUsername\x7d\x7d|\x7bCurrentDirectory\x7d" "ks" "/tmp" none := by
  have hdefault : Undisturbed Environment.defaultPromptFormat "ks" "/home/ks" (some "/home/ks/") :=
    ⟨by decide +kernel, by decide +kernel⟩
  have hrender : render "\x7b\x7bUsername\x7d\x7d|\x7bCurrentDirectory\x7d" "ks" "/tmp" none =
      filled "\x7b\x7bUsername\x7d\x7d|\x7bCurrentDirectory\x7d" "ks" "/tmp" none := by
    decide +kernel
  exact ⟨(render_eq_filled_iff _ _ _ _).1 hdefault,
    (render_eq_filled_iff _ _ _ _).2 '/' "tmp".toList rfl (by decide) hrender⟩

/-- A user's name that is a placeholder itself is replaced again, and one that becomes a placeholder
by the braces around it is too. -/
theorem render_ne_filled_of_placeholder_name :
    render "\x7bUsername\x7d" "\x7bCurrentDirectory\x7d" "/tmp" none ≠
      filled "\x7bUsername\x7d" "\x7bCurrentDirectory\x7d" "/tmp" none ∧
    render "\x7b\x7bUsername\x7d\x7d" "CurrentDirectory" "/tmp" none ≠
      filled "\x7b\x7bUsername\x7d\x7d" "CurrentDirectory" "/tmp" none := by
  decide +kernel

end Prompt
end BraceScript
