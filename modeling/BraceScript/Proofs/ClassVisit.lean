import BraceScript.Host.Catalog
import Mathlib.Data.List.Induction
import Mathlib.Data.List.Lex
import Mathlib.Data.List.Nodup
import Mathlib.Data.List.Perm.Subperm
import Mathlib.Data.List.TakeWhile
import Mathlib.Data.Prod.Lex
import Mathlib.Logic.Relation

/-!
# Visits of the class graph

`Catalog.visit` takes names from a queue, meets those that are new, and puts what is next to them
at the end of the queue. `Catalog.Visits` is the course of such a visit without a bound on its
steps: it ends where the queue is empty. The bound is never what ends a visit (`visits_visit`), so
what is proved of the course holds of `visit`.

A visit meets the names that can be reached (`Visits.mem_iff`), in breadth-first order
(`Visits.pairwise`). That order is told by paths. A path is followed from the first name on, each
step being a place among the names that are next; paths are ranked by length, and from left to right
where they are of one length. One name comes before another where a path to it is ranked before all
paths to the other (`Precedes`).

The proof gives each name that has been met, and each that waits in the queue, the path on which the
visit came to it (`Charted`).
-/

namespace BraceScript
namespace Catalog

/-- The course of a visit, from the names in the queue and those met so far to all that it meets. -/
inductive Visits (next : String → List String) : (queue visited result : List String) → Prop
  | done (visited : List String) : Visits next [] visited visited
  | again {name : String} {queue visited result : List String} (hname : name ∈ visited)
    (h : Visits next queue visited result) : Visits next (name :: queue) visited result
  | meet {name : String} {queue visited result : List String} (hname : name ∉ visited)
    (h : Visits next (queue ++ next name) (visited ++ [name]) result) :
    Visits next (name :: queue) visited result

variable {next : String → List String} {queue visited result : List String}

/-! ### The bound -/

theorem Visits.of_dropWhile (h : Visits next (queue.dropWhile (· ∈ visited)) visited result) :
    Visits next queue visited result := by
  induction queue with
  | nil => exact h
  | cons name queue ih =>
    rw [List.dropWhile_cons] at h
    split at h
    next hname => exact .again (of_decide_eq_true hname) (ih h)
    next => exact h

/-- A visit that stays among some names ends by itself when it may make as many steps as there are
names that it has not met. -/
theorem visits_visit {names : List String} (hclosed : ∀ name ∈ names, next name ⊆ names)
    {fuel : Nat} (hqueue : queue ⊆ names) (hvisited : visited ⊆ names) (hnodup : visited.Nodup)
    (hfuel : names.length ≤ visited.length + fuel) :
    Visits next queue visited (visit next fuel queue visited) := by
  induction fuel generalizing queue visited with
  | zero =>
    have hall : names ⊆ visited :=
      ((hnodup.subperm hvisited).perm_of_length_le hfuel).symm.subset
    have hmet : queue.dropWhile (· ∈ visited) = [] :=
      List.dropWhile_eq_nil_iff.2 fun name hname => decide_eq_true (hall (hqueue hname))
    refine .of_dropWhile ?_
    rw [hmet]
    exact .done visited
  | succ fuel ih =>
    refine .of_dropWhile ?_
    rw [visit]
    cases hrest : queue.dropWhile (· ∈ visited) with
    | nil => exact .done visited
    | cons name rest =>
      have hnew : name ∉ visited := by
        have hhead := List.head?_dropWhile_not (· ∈ visited) queue
        rw [hrest] at hhead
        exact of_decide_eq_false hhead
      have hsub : name :: rest ⊆ names := by
        rw [← hrest]
        exact fun _ h => hqueue ((List.dropWhile_sublist _).subset h)
      obtain ⟨hname, hrest⟩ := List.cons_subset.1 hsub
      refine .meet hnew (ih ?_ ?_ ?_ ?_)
      · exact List.append_subset.2 ⟨hrest, hclosed name hname⟩
      · exact List.append_subset.2 ⟨hvisited, List.cons_subset.2 ⟨hname, List.nil_subset _⟩⟩
      · exact List.nodup_append.2 ⟨hnodup, List.nodup_singleton name, fun a ha b hb =>
          fun hab => hnew (List.mem_singleton.1 hb ▸ hab ▸ ha)⟩
      · rw [List.length_append, List.length_singleton]
        omega

/-! ### Paths -/

/-- The name at the end of a path, where there is one: each step is a place among the names that are
next to the one before. -/
def nameAt? (next : String → List String) (start : String) (path : List Nat) : Option String :=
  path.foldlM (fun name place => (next name)[place]?) start

/-- Paths by length, and those of one length from left to right. -/
def rank (path : List Nat) : ℕ ×ₗ List ℕ :=
  toLex (path.length, path)

/-- In breadth-first order from `start`, the one name comes before the other. -/
def Precedes (next : String → List String) (start name other : String) : Prop :=
  ∃ path, nameAt? next start path = some name ∧
    ∀ path', nameAt? next start path' = some other → rank path < rank path'

variable {start name : String} {path path' : List Nat} {place place' : Nat}

theorem nameAt?_concat : nameAt? next start (path ++ [place]) = some name ↔
    ∃ before, nameAt? next start path = some before ∧ (next before)[place]? = some name := by
  simp [nameAt?, List.foldlM_append, Option.bind_eq_some_iff]

/-- What can be reached is what has a path. -/
theorem reflTransGen_iff_exists_path :
    Relation.ReflTransGen (fun a b => b ∈ next a) start name ↔
      ∃ path, nameAt? next start path = some name := by
  constructor
  · intro h
    induction h with
    | refl => exact ⟨[], rfl⟩
    | tail _ hstep ih =>
      obtain ⟨path, hpath⟩ := ih
      obtain ⟨place, hplace⟩ := List.mem_iff_getElem?.1 hstep
      exact ⟨path ++ [place], nameAt?_concat.2 ⟨_, hpath, hplace⟩⟩
  · rintro ⟨path, hpath⟩
    induction path using List.reverseRecOn generalizing name with
    | nil => cases hpath; exact .refl
    | append_singleton path place ih =>
      obtain ⟨before, hbefore, hplace⟩ := nameAt?_concat.1 hpath
      exact (ih hbefore).tail (List.mem_of_getElem? hplace)

theorem Precedes.asymm {other : String} (h : Precedes next start name other) :
    ¬ Precedes next start other name := by
  obtain ⟨path, hpath, hlt⟩ := h
  rintro ⟨path', hpath', hlt'⟩
  exact lt_asymm (hlt path' hpath') (hlt' path hpath)

theorem rank_lt_iff : rank path < rank path' ↔
    path.length < path'.length ∨ path.length = path'.length ∧ path < path' :=
  Prod.Lex.toLex_lt_toLex

theorem rank_nil_le (path : List Nat) : rank [] ≤ rank path := by
  refine not_lt.1 fun h => ?_
  rcases rank_lt_iff.1 h with h | ⟨-, h⟩
  · exact Nat.not_lt_zero _ h
  · exact List.not_lt_nil _ h

theorem rank_lt_concat (path : List Nat) (place : Nat) : rank path < rank (path ++ [place]) :=
  rank_lt_iff.2 (.inl (by simp))

theorem concat_lt_concat (hlength : path.length = path'.length) (h : path < path') :
    path ++ [place] < path' ++ [place'] := by
  induction path generalizing path' with
  | nil =>
    obtain rfl := List.length_eq_zero_iff.1 hlength.symm
    exact absurd h (List.not_lt_nil _)
  | cons i path ih =>
    cases path' with
    | nil => cases hlength
    | cons j path' =>
      rw [List.cons_append, List.cons_append, List.cons_lt_cons_iff]
      rcases List.cons_lt_cons_iff.1 h with hlt | ⟨rfl, hrest⟩
      · exact .inl hlt
      · exact .inr ⟨rfl, ih (Nat.succ.inj hlength) hrest⟩

theorem rank_concat_lt (h : rank path < rank path') :
    rank (path ++ [place]) < rank (path' ++ [place']) := by
  rw [rank_lt_iff] at h ⊢
  simp only [List.length_append, List.length_singleton, Nat.add_lt_add_iff_right,
    Nat.add_right_cancel_iff]
  exact h.imp_right fun h => ⟨h.1, concat_lt_concat h.1 h.2⟩

theorem rank_concat_lt_of_lt (path : List Nat) (h : place < place') :
    rank (path ++ [place]) < rank (path ++ [place']) :=
  rank_lt_iff.2 (.inr ⟨by simp, List.append_left_lt (List.cons_lt_cons_iff.2 (.inl h))⟩)

theorem rank_concat_le (place : Nat) (h : rank path ≤ rank path') :
    rank (path ++ [place]) ≤ rank (path' ++ [place]) := by
  rcases h.lt_or_eq with h | h
  · exact (rank_concat_lt h).le
  · obtain rfl : path = path' := congrArg (fun r => (ofLex r).2) h
    exact le_rfl

/-! ### The order of a visit -/

/-- A name with a path to it. -/
structure Stop where
  path : List Nat
  name : String

namespace Stop
variable {s t : Stop} {stops stops' : List Stop}

/-- The names that are next to one at the end of a path, with their paths. -/
def followers (next : String → List String) (s : Stop) : List Stop :=
  (next s.name).zipIdx.map fun (name, place) => ⟨s.path ++ [place], name⟩

theorem map_followers (s : Stop) : (s.followers next).map Stop.name = next s.name := by
  simp [followers, Function.comp_def]

theorem mem_followers :
    t ∈ s.followers next ↔
      ∃ place, t.path = s.path ++ [place] ∧ (next s.name)[place]? = some t.name := by
  simp only [followers, List.mem_map, List.mem_zipIdx_iff_getElem?]
  constructor
  · rintro ⟨⟨name, place⟩, hname, rfl⟩
    exact ⟨place, rfl, hname⟩
  · rintro ⟨place, hpath, hname⟩
    exact ⟨(t.name, place), hname, by rw [← hpath]⟩

theorem pairwise_followers (s : Stop) :
    (s.followers next).Pairwise fun t u => rank t.path < rank u.path := by
  have hplaces : (next s.name).zipIdx.Pairwise fun a b => a.2 < b.2 := by
    rw [← List.pairwise_map (f := Prod.snd), List.zipIdx_map_snd]
    exact List.pairwise_lt_range'
  exact List.pairwise_map.2 (hplaces.imp fun h => rank_concat_lt_of_lt s.path h)

/-- Among some stops there is one with the name of this one, on a path that is not behind. -/
def FoundIn (t : Stop) (stops : List Stop) : Prop :=
  ∃ u ∈ stops, u.name = t.name ∧ rank u.path ≤ rank t.path

theorem foundIn_of_mem (h : t ∈ stops) : t.FoundIn stops :=
  ⟨t, h, rfl, le_rfl⟩

theorem FoundIn.trans (h : t.FoundIn stops) (hstops : ∀ u ∈ stops, FoundIn u stops') :
    t.FoundIn stops' := by
  obtain ⟨u, hu, hname, hrank⟩ := h
  obtain ⟨v, hv, hname', hrank'⟩ := hstops u hu
  exact ⟨v, hv, hname'.trans hname, hrank'.trans hrank⟩

theorem FoundIn.mono (h : t.FoundIn stops) (hstops : stops ⊆ stops') : t.FoundIn stops' :=
  h.trans fun _ hu => foundIn_of_mem (hstops hu)

theorem FoundIn.met_or_waiting {met waiting : List Stop} (h : t.FoundIn (met ++ waiting)) :
    t.FoundIn met ∨ ∃ s ∈ waiting, rank s.path ≤ rank t.path := by
  obtain ⟨u, hu, hname, hrank⟩ := h
  rcases List.mem_append.1 hu with hu | hu
  · exact .inl ⟨u, hu, hname, hrank⟩
  · exact .inr ⟨u, hu, hrank⟩

end Stop

/-- The names met and those that wait, with the paths on which a visit from `start` comes to them.
-/
structure Charted (next : String → List String) (start : String) (met waiting : List Stop) :
    Prop where
  leads : ∀ s ∈ met ++ waiting, nameAt? next start s.path = some s.name
  ordered : (met ++ waiting).Pairwise fun s t => rank s.path < rank t.path
  /-- The path to a name that was met is the first one to it. -/
  least : ∀ s ∈ met, ∀ path, nameAt? next start path = some s.name → rank s.path ≤ rank path
  follows : ∀ s ∈ waiting, s.path = [] ∨ ∃ t ∈ met, ∃ place, s.path = t.path ++ [place]
  origin : Stop.FoundIn ⟨[], start⟩ (met ++ waiting)
  /-- What is next to a name that was met has been found. -/
  found : ∀ s ∈ met, ∀ t ∈ s.followers next, t.FoundIn (met ++ waiting)

namespace Charted
variable {met waiting : List Stop} {s : Stop}

theorem init (next : String → List String) (start : String) :
    Charted next start [] [⟨[], start⟩] where
  leads := by simp [nameAt?]
  ordered := by simp
  least := by simp
  follows := by simp
  origin := Stop.foundIn_of_mem (by simp)
  found := by simp

/-- Every path is behind one to the same name, which has been met, or behind one that waits. -/
theorem covered (h : Charted next start met waiting) (hpath : nameAt? next start path = some name) :
    Stop.FoundIn ⟨path, name⟩ met ∨ ∃ s ∈ waiting, rank s.path ≤ rank path := by
  induction path using List.reverseRecOn generalizing name with
  | nil =>
    cases hpath
    exact h.origin.met_or_waiting
  | append_singleton path place ih =>
    obtain ⟨before, hbefore, hplace⟩ := nameAt?_concat.1 hpath
    rcases ih hbefore with ⟨s, hs, rfl, hrank⟩ | ⟨s, hs, hrank⟩
    · have hnext : ⟨s.path ++ [place], name⟩ ∈ s.followers next :=
        Stop.mem_followers.2 ⟨place, rfl, hplace⟩
      have hle : rank (s.path ++ [place]) ≤ rank (path ++ [place]) := rank_concat_le place hrank
      rcases (h.found s hs _ hnext).met_or_waiting with ⟨u, hu, hname, hrank⟩ | ⟨u, hu, hrank⟩
      · exact .inl ⟨u, hu, hname, hrank.trans hle⟩
      · exact .inr ⟨u, hu, hrank.trans hle⟩
    · exact .inr ⟨s, hs, hrank.trans (rank_lt_concat path place).le⟩

theorem again (h : Charted next start met (s :: waiting)) (hs : s.name ∈ met.map Stop.name) :
    Charted next start met waiting := by
  have hsublist : (met ++ waiting).Sublist (met ++ s :: waiting) :=
    (List.Sublist.refl met).append (List.sublist_cons_self s waiting)
  -- what was found with the name that is dropped is found where the name was met
  have hfound : ∀ u ∈ met ++ s :: waiting, Stop.FoundIn u (met ++ waiting) := by
    intro u hu
    rcases List.mem_append.1 hu with hu | hu
    · exact Stop.foundIn_of_mem (List.mem_append_left waiting hu)
    rcases List.mem_cons.1 hu with rfl | hu
    · obtain ⟨first, hfirst, hname⟩ := List.mem_map.1 hs
      have hbefore := (List.pairwise_append.1 h.ordered).2.2 first hfirst u List.mem_cons_self
      exact ⟨first, List.mem_append_left waiting hfirst, hname, hbefore.le⟩
    · exact Stop.foundIn_of_mem (List.mem_append_right met hu)
  exact {
    leads := fun t ht => h.leads t (hsublist.subset ht)
    ordered := h.ordered.sublist hsublist
    least := h.least
    follows := fun t ht => h.follows t (List.mem_cons_of_mem s ht)
    origin := h.origin.trans hfound
    found := fun t ht u hu => (h.found t ht u hu).trans hfound }

/-- The path on which a visit comes to a new name is the first one to it. -/
theorem rank_le_of_new (h : Charted next start met (s :: waiting)) (hs : s.name ∉ met.map Stop.name)
    (hpath : nameAt? next start path = some s.name) : rank s.path ≤ rank path := by
  rcases h.covered hpath with ⟨t, ht, hname, -⟩ | ⟨t, ht, hrank⟩
  · exact absurd (List.mem_map.2 ⟨t, ht, hname⟩) hs
  rcases List.mem_cons.1 ht with rfl | ht
  · exact hrank
  · have hhead := List.rel_of_pairwise_cons (List.pairwise_append.1 h.ordered).2.1 ht
    exact hhead.le.trans hrank

/-- The names that are next to the one at the head of the queue go behind all others. -/
theorem rank_lt_followers (h : Charted next start met (s :: waiting)) :
    ∀ t ∈ met ++ s :: waiting, ∀ u ∈ s.followers next, rank t.path < rank u.path := by
  have hmet : ∀ t ∈ met, rank t.path < rank s.path := fun t ht =>
    (List.pairwise_append.1 h.ordered).2.2 t ht s List.mem_cons_self
  intro t ht u hu
  obtain ⟨place, hpath, -⟩ := Stop.mem_followers.1 hu
  rw [hpath]
  rcases List.mem_append.1 ht with ht | ht
  · exact (hmet t ht).trans (rank_lt_concat s.path place)
  · rcases h.follows t ht with htop | ⟨v, hv, place', htop⟩
    · rw [htop]
      exact (rank_nil_le s.path).trans_lt (rank_lt_concat s.path place)
    · rw [htop]
      exact rank_concat_lt (hmet v hv)

theorem meet (h : Charted next start met (s :: waiting)) (hs : s.name ∉ met.map Stop.name) :
    Charted next start (met ++ [s]) (waiting ++ s.followers next) := by
  have hstops : met ++ [s] ++ (waiting ++ s.followers next) =
      met ++ s :: waiting ++ s.followers next := by simp
  have hsubset : met ++ s :: waiting ⊆ met ++ s :: waiting ++ s.followers next :=
    List.subset_append_left _ _
  refine ⟨?leads, ?ordered, ?least, ?follows, ?origin, ?found⟩
  case leads =>
    rw [hstops]
    intro t ht
    rcases List.mem_append.1 ht with ht | ht
    · exact h.leads t ht
    · obtain ⟨place, hpath, hname⟩ := Stop.mem_followers.1 ht
      rw [hpath]
      exact nameAt?_concat.2 ⟨s.name, h.leads s (by simp), hname⟩
  case ordered =>
    rw [hstops]
    exact List.pairwise_append.2 ⟨h.ordered, s.pairwise_followers, h.rank_lt_followers⟩
  case least =>
    intro t ht path hpath
    rcases List.mem_append.1 ht with ht | ht
    · exact h.least t ht path hpath
    · obtain rfl := List.mem_singleton.1 ht
      exact h.rank_le_of_new hs hpath
  case follows =>
    intro t ht
    rcases List.mem_append.1 ht with ht | ht
    · rcases h.follows t (List.mem_cons_of_mem s ht) with htop | ⟨u, hu, hpath⟩
      · exact .inl htop
      · exact .inr ⟨u, List.mem_append_left _ hu, hpath⟩
    · obtain ⟨place, hpath, -⟩ := Stop.mem_followers.1 ht
      exact .inr ⟨s, by simp, place, hpath⟩
  case origin =>
    rw [hstops]
    exact h.origin.mono hsubset
  case found =>
    rw [hstops]
    intro t ht u hu
    rcases List.mem_append.1 ht with ht | ht
    · exact (h.found t ht u hu).mono hsubset
    · obtain rfl := List.mem_singleton.1 ht
      exact Stop.foundIn_of_mem (List.mem_append_right _ hu)

end Charted

theorem Visits.charted (h : Visits next queue visited result) {met waiting : List Stop}
    (hvisited : met.map Stop.name = visited) (hqueue : waiting.map Stop.name = queue)
    (hchart : Charted next start met waiting) :
    ∃ stops, stops.map Stop.name = result ∧ Charted next start stops [] := by
  induction h generalizing met waiting with
  | done visited =>
    obtain rfl := List.map_eq_nil_iff.1 hqueue
    exact ⟨met, hvisited, hchart⟩
  | again hname _ ih =>
    obtain ⟨s, waiting, rfl, rfl, hwaiting⟩ := List.map_eq_cons_iff.1 hqueue
    exact ih hvisited hwaiting (hchart.again (hvisited ▸ hname))
  | meet hname _ ih =>
    obtain ⟨s, waiting, rfl, rfl, hwaiting⟩ := List.map_eq_cons_iff.1 hqueue
    refine ih ?_ ?_ (hchart.meet (hvisited ▸ hname))
    · rw [List.map_append, hvisited, List.map_singleton]
    · rw [List.map_append, hwaiting, Stop.map_followers]

/-- A visit meets all that can be reached, and nothing else. -/
theorem Visits.mem_iff (h : Visits next [start] [] result) :
    name ∈ result ↔ Relation.ReflTransGen (fun a b => b ∈ next a) start name := by
  obtain ⟨stops, rfl, hchart⟩ := h.charted rfl rfl (Charted.init next start)
  rw [reflTransGen_iff_exists_path]
  constructor
  · intro hname
    obtain ⟨s, hs, rfl⟩ := List.mem_map.1 hname
    exact ⟨s.path, hchart.leads s (List.mem_append_left [] hs)⟩
  · rintro ⟨path, hpath⟩
    rcases hchart.covered hpath with ⟨s, hs, hname, -⟩ | ⟨s, hs, -⟩
    · exact List.mem_map.2 ⟨s, hs, hname⟩
    · cases hs

/-- A visit goes in breadth-first order. -/
theorem Visits.pairwise (h : Visits next [start] [] result) :
    result.Pairwise (Precedes next start) := by
  obtain ⟨stops, rfl, hchart⟩ := h.charted rfl rfl (Charted.init next start)
  have hordered := hchart.ordered
  rw [List.append_nil] at hordered
  refine List.pairwise_map.2 (hordered.imp_of_mem fun {s t} hs ht hlt => ?_)
  exact ⟨s.path, hchart.leads s (List.mem_append_left [] hs), fun path hpath =>
    hlt.trans_le (hchart.least t ht path hpath)⟩

/-! ### The two graphs of a catalog -/

/-- The class is registered and lists the name among its supertypes. -/
def Lists (c : Catalog) (name super : String) : Prop :=
  ∃ k, c.class? name = some k ∧ super ∈ k.supertypes

/-- The name is right above the class: it is listed, or it is `Object` and the class is unknown or
lists nothing. Nothing but what it lists is above `Object`. -/
inductive Above (c : Catalog) : (name super : String) → Prop
  | listed {name super : String} (h : c.Lists name super) : Above c name super
  | unknown {name : String} (hclass : c.class? name = none) (hname : name ≠ HostType.rootName) :
    Above c name HostType.rootName
  | bare {name : String} {k : HostClass} (hclass : c.class? name = some k)
    (hbare : k.supertypes = []) (hname : name ≠ HostType.rootName) :
    Above c name HostType.rootName

variable {c : Catalog} {super : String}

theorem mem_supertypes : super ∈ c.supertypes name ↔ c.Lists name super := by
  rw [supertypes, Lists]
  cases c.class? name <;> simp

theorem supertypes_eq_nil_iff :
    c.supertypes name = [] ↔
      c.class? name = none ∨ ∃ k, c.class? name = some k ∧ k.supertypes = [] := by
  rw [supertypes]
  cases c.class? name <;> simp

theorem mem_above : super ∈ c.above name ↔ c.Above name super := by
  rw [above]
  split
  next hnil =>
    constructor
    · intro h
      split at h
      · cases h
      next hname =>
        obtain rfl := List.mem_singleton.1 h
        rcases supertypes_eq_nil_iff.1 hnil with hclass | ⟨k, hclass, hbare⟩
        · exact .unknown hclass hname
        · exact .bare hclass hbare hname
    · intro h
      cases h with
      | listed h => rw [← mem_supertypes, hnil] at h; cases h
      | unknown _ hname => simp [hname]
      | bare _ _ hname => simp [hname]
  next hsome =>
    constructor
    · exact fun h => .listed (mem_supertypes.1 h)
    · intro h
      cases h with
      | listed h => exact mem_supertypes.2 h
      | unknown hclass _ => exact (hsome (supertypes_eq_nil_iff.2 (.inl hclass))).elim
      | bare hclass hbare _ =>
        exact (hsome (supertypes_eq_nil_iff.2 (.inr ⟨_, hclass, hbare⟩))).elim

/-- The names among which the visits of a catalog stay. -/
def names (c : Catalog) (start : String) : List String :=
  start :: HostType.rootName :: c.classes.flatMap fun entry => entry.2.supertypes

theorem length_names_le (c : Catalog) (start : String) :
    (c.names start).length ≤ c.visitBound := by
  rw [names, visitBound]
  induction c.classes with
  | nil => simp
  | cons entry classes ih =>
    simp only [List.length_cons, List.flatMap_cons, List.length_append, List.foldr_cons] at ih ⊢
    omega

theorem mem_names_of_lists (start : String) (h : c.Lists name super) : super ∈ c.names start := by
  obtain ⟨k, hclass, hsuper⟩ := h
  have hmem : super ∈ c.classes.flatMap fun entry => entry.2.supertypes :=
    List.mem_flatMap.2 ⟨(name, k), Table.mem_of_value?_eq_some hclass, hsuper⟩
  exact List.mem_cons_of_mem _ (List.mem_cons_of_mem _ hmem)

theorem mem_names_of_above (start : String) (h : c.Above name super) : super ∈ c.names start := by
  cases h with
  | listed h => exact mem_names_of_lists start h
  | _ => exact List.mem_cons_of_mem _ List.mem_cons_self

/-- A visit of what is above a class ends, whatever cycles there are. -/
theorem visits_above (c : Catalog) (start : String) :
    Visits c.above [start] [] (visit c.above c.visitBound [start] []) := by
  have hnext : ∀ name, name ∈ c.names start → c.above name ⊆ c.names start :=
    fun _ _ _ h => mem_names_of_above start (mem_above.1 h)
  refine visits_visit hnext ?_ (List.nil_subset _) List.nodup_nil ?_
  · exact List.cons_subset.2 ⟨List.mem_cons_self, List.nil_subset _⟩
  · simpa using c.length_names_le start

end Catalog
end BraceScript
