import BraceScript.Proofs.Closure

/-!
# Masked blocks

Entering a block changes the context of a chain of evaluations: a block that the mask hits keeps the
name of the block around it and uses the mask up, and every other block puts its own name there.

A mask is a text in which the name is looked for with a semicolon behind it. A mask that lists names
hits the listed ones, and with each of them all that its name ends in (`World.masks_iff_suffix`): the
list `ab;` hits the block `b`, which it does not list (`World.masks_unlisted_suffix`).

Along a chain of blocks, each entered inside the one before, the mask is used at most once, by the
first block that it hits (`Handle.mask_used_once`).
-/

namespace BraceScript

/-! ### One block -/

namespace World
variable {w : World} {h : Handle} {name : String}

/-- Entering the block keeps the name of the block around it and uses up the mask. -/
def Masks (w : World) (h : Handle) (name : String) : Prop :=
  (w.enterBlock h name).context = { current := h.context.current, maskConsumed := true }

theorem isMasked_eq (w : World) (context : BlockContext) (name : String) :
    w.isMasked context name = (!context.maskConsumed && w.isMasked {} name) := by
  simp [isMasked]

theorem context_of_consumed (hconsumed : h.context.maskConsumed = true) :
    (w.enterBlock h name).context = { current := some name, maskConsumed := true } := by
  have hmissed : w.isMasked h.context name = false := by rw [isMasked_eq, hconsumed]; rfl
  simp [enterBlock, enterContext, hmissed, hconsumed]

theorem context_of_missed (hfresh : h.context.maskConsumed = false)
    (hmissed : w.isMasked {} name = false) :
    (w.enterBlock h name).context = { current := some name, maskConsumed := false } := by
  have hmissed : w.isMasked h.context name = false := by rw [isMasked_eq, hmissed, Bool.and_false]
  simp [enterBlock, enterContext, hmissed, hfresh]

theorem masks_of_hit (hfresh : h.context.maskConsumed = false)
    (hhit : w.isMasked {} name = true) : w.Masks h name := by
  have hhit : w.isMasked h.context name = true := by rw [isMasked_eq, hfresh, hhit]; rfl
  simp [Masks, enterBlock, enterContext, hhit]

theorem masks_iff (hfresh : h.context.maskConsumed = false) :
    w.Masks h name ↔ w.isMasked {} name = true := by
  cases hmasked : w.isMasked {} name with
  | true => exact ⟨fun _ => rfl, fun _ => masks_of_hit hfresh hmasked⟩
  | false => simp [Masks, context_of_missed hfresh hmasked]

end World

/-! ### Masks that list names -/

/-- The mask that lists some names, each with a semicolon behind it. -/
def maskOf (names : List String) : String :=
  String.join (names.map (· ++ ";"))

theorem toList_maskOf_cons (name : String) (names : List String) :
    (maskOf (name :: names)).toList = name.toList ++ ';' :: (maskOf names).toList := by
  simp [maskOf]

theorem maskOf_ne_one (names : List String) : maskOf names ≠ "1" := by
  cases names with
  | nil => decide
  | cons name names =>
    intro hone
    have hmem : ';' ∈ "1".toList := by simp [← hone, toList_maskOf_cons]
    exact absurd hmem (by decide)

section
variable {b n : List Char}

/-- Of two texts without a semicolon, each with one behind it, the first begins the second only if
they are the same. -/
theorem append_semicolon_prefix_iff (hb : ';' ∉ b) (hn : ';' ∉ n) (rest : List Char) :
    b ++ [';'] <+: n ++ ';' :: rest ↔ b = n := by
  induction b generalizing n with
  | nil =>
    cases n with
    | nil => simp
    | cons d n =>
      have hd : ';' ≠ d := fun heq => hn (heq ▸ List.mem_cons_self)
      simp [hd]
  | cons c b ih =>
    cases n with
    | nil =>
      have hc : c ≠ ';' := fun heq => hb (heq ▸ List.mem_cons_self)
      simp [hc]
    | cons d n =>
      rw [List.cons_append, List.cons_append, List.cons_prefix_cons, List.cons_eq_cons,
        ih (List.not_mem_of_not_mem_cons hb) (List.not_mem_of_not_mem_cons hn)]

theorem append_semicolon_infix_iff (hb : ';' ∉ b) (hn : ';' ∉ n) (rest : List Char) :
    b ++ [';'] <:+: n ++ ';' :: rest ↔ b <:+ n ∨ b ++ [';'] <:+: rest := by
  induction n with
  | nil =>
    rw [List.nil_append, List.infix_cons_iff, List.suffix_nil]
    exact or_congr_left (append_semicolon_prefix_iff hb hn rest)
  | cons c n ih =>
    have hprefix := append_semicolon_prefix_iff hb hn rest
    rw [List.cons_append, List.infix_cons_iff, ih (List.not_mem_of_not_mem_cons hn),
      List.suffix_cons_iff, or_assoc]
    exact or_congr_left hprefix

theorem infix_maskOf_iff {names : List String} (hnames : ∀ n ∈ names, ';' ∉ n.toList)
    (hb : ';' ∉ b) : b ++ [';'] <:+: (maskOf names).toList ↔ ∃ n ∈ names, b <:+ n.toList := by
  induction names with
  | nil => simp [maskOf]
  | cons n names ih =>
    have hn := hnames n List.mem_cons_self
    rw [toList_maskOf_cons, append_semicolon_infix_iff hb hn,
      ih fun n hn => hnames n (List.mem_cons_of_mem _ hn)]
    simp

end

namespace World
variable {w : World} {h : Handle}

theorem isMasked_maskOf_iff {names : List String} (hnames : ∀ n ∈ names, ';' ∉ n.toList)
    {name : String} (hname : ';' ∉ name.toList)
    (hmask : w.environment.get? Environment.blockMask = some (maskOf names)) :
    w.isMasked {} name = true ↔ ∃ n ∈ names, name.toList <:+ n.toList := by
  have hcontains : w.isMasked {} name = Text.contains (maskOf names) (name ++ ";") := by
    simp [isMasked, Environment.getD, hmask, maskOf_ne_one]
  rw [hcontains, Text.contains_iff, String.toList_append]
  exact infix_maskOf_iff hnames hname

/-- A mask that lists names, each with a semicolon behind it, masks the blocks whose names are ends
of listed names, and no others. So it masks what it lists; and it masks only that if, and only if,
no name that is not listed is the end of one that is. -/
theorem masks_iff_suffix {names : List String} (hnames : ∀ n ∈ names, ';' ∉ n.toList)
    {name : String} (hname : ';' ∉ name.toList)
    (hmask : w.environment.get? Environment.blockMask = some (maskOf names))
    (hfresh : h.context.maskConsumed = false) :
    (w.Masks h name ↔ ∃ n ∈ names, name.toList <:+ n.toList) ∧
    (¬ w.Masks h name →
      (w.enterBlock h name).context = { current := some name, maskConsumed := false }) ∧
    ((w.Masks h name ↔ name ∈ names) ↔
      ∀ n ∈ names, name.toList <:+ n.toList → name ∈ names) := by
  have hmasks : w.Masks h name ↔ ∃ n ∈ names, name.toList <:+ n.toList :=
    (masks_iff hfresh).trans (isMasked_maskOf_iff hnames hname hmask)
  refine ⟨hmasks, fun hmissed => ?_, ?_⟩
  · rw [masks_iff hfresh] at hmissed
    exact context_of_missed hfresh (Bool.eq_false_iff.2 hmissed)
  · rw [hmasks]
    constructor
    · intro hlisted n hn hsuffix
      exact hlisted.1 ⟨n, hn, hsuffix⟩
    · intro hlisted
      refine ⟨fun ⟨n, hn, hsuffix⟩ => hlisted n hn hsuffix, fun hmem => ?_⟩
      exact ⟨name, hmem, List.suffix_rfl⟩

/-- The world with a mask that lists names. -/
def masking (names : List String) : World :=
  .start (({} : Environment).set Environment.blockMask (maskOf names))

theorem masks_iff_suffix_twoNames :
    (masking ["outer", "helper"]).Masks { session := 0 } "helper" ∧
    ¬ (masking ["outer", "helper"]).Masks { session := 0 } "help" := by
  have hnames : ∀ n ∈ ["outer", "helper"], ';' ∉ n.toList := by decide
  have hlisted : (masking ["outer", "helper"]).Masks { session := 0 } "helper" ↔ _ :=
    (masks_iff_suffix hnames (by decide) rfl rfl).1
  have hpart : (masking ["outer", "helper"]).Masks { session := 0 } "help" ↔ _ :=
    (masks_iff_suffix hnames (by decide) rfl rfl).1
  exact ⟨hlisted.2 (by decide), fun hmasks => absurd (hpart.1 hmasks) (by decide)⟩

/-- The mask that lists `ab` masks the block `b`. -/
theorem masks_unlisted_suffix :
    ¬ ((masking ["ab"]).Masks { session := 0 } "b" ↔ "b" ∈ ["ab"]) := by
  have hmasks : (masking ["ab"]).Masks { session := 0 } "b" := masks_of_hit rfl (by decide)
  intro hlisted
  exact absurd (hlisted.1 hmasks) (by decide)

end World

/-! ### Blocks inside one another -/

namespace Handle

/-- The handles on which the lines of some blocks run that are entered one inside the other, the
outermost first. Each block is entered in the world of that moment. -/
def nest (h : Handle) : List (World × String) → List Handle
  | [] => []
  | (w, name) :: path => w.enterBlock h name :: nest (w.enterBlock h name) path

theorem nest_prefix (h : Handle) (path more : List (World × String)) :
    h.nest path <+: h.nest (path ++ more) := by
  induction path generalizing h with
  | nil => exact List.nil_prefix
  | cons entry path ih => exact List.cons_prefix_cons.2 ⟨rfl, ih _⟩

variable {h : Handle}

theorem session_of_mem_nest {inner : Handle} {path : List (World × String)}
    (hinner : inner ∈ h.nest path) : inner.session = h.session := by
  induction path generalizing h with
  | nil => cases hinner
  | cons entry path ih =>
    rcases List.mem_cons.1 hinner with rfl | hinner
    · rfl
    · exact (ih hinner).trans rfl

/-- Where the mask has been used up, every block puts its name. -/
theorem contexts_of_consumed (hconsumed : h.context.maskConsumed = true)
    (path : List (World × String)) :
    (h.nest path).map Handle.context =
      path.map fun entry => { current := some entry.2, maskConsumed := true } := by
  induction path generalizing h with
  | nil => rfl
  | cons entry path ih =>
    have hcontext : (entry.1.enterBlock h entry.2).context = _ :=
      World.context_of_consumed hconsumed
    rw [nest, List.map_cons, List.map_cons, ih (by rw [hcontext]), hcontext]

theorem contexts_of_missed (hfresh : h.context.maskConsumed = false) {path : List (World × String)}
    (hmissed : ∀ entry ∈ path, entry.1.isMasked {} entry.2 = false) :
    (h.nest path).map Handle.context =
      path.map fun entry => { current := some entry.2, maskConsumed := false } := by
  induction path generalizing h with
  | nil => rfl
  | cons entry path ih =>
    have hcontext := World.context_of_missed hfresh (hmissed entry List.mem_cons_self)
    have hpath := fun e he => hmissed e (List.mem_cons_of_mem _ he)
    rw [nest, List.map_cons, List.map_cons, ih (by rw [hcontext]) hpath, hcontext]

theorem contexts_of_hit (hfresh : h.context.maskConsumed = false)
    {before after : List (World × String)} {hit : World × String}
    (hmissed : ∀ entry ∈ before, entry.1.isMasked {} entry.2 = false)
    (hhit : hit.1.isMasked {} hit.2 = true) :
    (h.nest (before ++ hit :: after)).map Handle.context =
      before.map (fun entry => { current := some entry.2, maskConsumed := false }) ++
        { current := (before.getLast?.map Prod.snd).or h.context.current, maskConsumed := true } ::
          after.map fun entry => { current := some entry.2, maskConsumed := true } := by
  -- the context at the start is that of the block before, so the induction is over all of them
  induction before generalizing h with
  | nil =>
    have hcontext : (hit.1.enterBlock h hit.2).context = _ := World.masks_of_hit hfresh hhit
    rw [List.nil_append, nest, List.map_cons, contexts_of_consumed (by rw [hcontext]), hcontext]
    rfl
  | cons entry before ih =>
    have hcontext := World.context_of_missed hfresh (hmissed entry List.mem_cons_self)
    have hbefore := fun e he => hmissed e (List.mem_cons_of_mem _ he)
    rw [List.cons_append, nest, List.map_cons, ih (by rw [hcontext]) hbefore, hcontext]
    cases hlast : before.getLast? <;> simp [List.getLast?_cons, hlast]

open Evaluation in
/-- A mask is used at most once along a chain of blocks. From a handle on which it is fresh, blocks
are entered one inside the other. In each of them the current block is the one entered, but for the
first that the mask hits: there it is the one around it, and from there on the mask is used up.
Where none is hit, the current block is always the one entered, and the mask stays fresh. This holds
even if the mask is another one each time.

All handles are of one session, and those of the blocks around stay as they are when more blocks are
entered. A run of a block evaluates its lines on such a handle, in the environment of that moment. -/
theorem mask_used_once (hfresh : h.context.maskConsumed = false) (path : List (World × String)) :
    (∀ before hit after, path = before ++ hit :: after →
      (∀ entry ∈ before, entry.1.isMasked {} entry.2 = false) →
      hit.1.isMasked {} hit.2 = true →
      (h.nest path).map Handle.context =
        before.map (fun entry => { current := some entry.2, maskConsumed := false }) ++
          { current := (before.getLast?.map Prod.snd).or h.context.current,
            maskConsumed := true } ::
            after.map fun entry => { current := some entry.2, maskConsumed := true }) ∧
    ((∀ entry ∈ path, entry.1.isMasked {} entry.2 = false) →
      (h.nest path).map Handle.context =
        path.map fun entry => { current := some entry.2, maskConsumed := false }) ∧
    (∀ inner ∈ h.nest path, inner.session = h.session) ∧
    (∀ more, h.nest path <+: h.nest (path ++ more)) ∧
    ∀ eval id w, ∃ inner, h.nest [(w, (w.block id).name)] = [inner] ∧
      runBlock eval h id w =
        ((sequence eval inner (w.block id).lines).within (.block (w.block id).name))
          (w.countRun id) ∧
      (w.countRun id).environment = w.environment := by
  refine ⟨?_, contexts_of_missed hfresh, fun _ => session_of_mem_nest, nest_prefix h path, ?_⟩
  · rintro before hit after rfl hmissed hhit
    exact contexts_of_hit hfresh hmissed hhit
  · intro eval id w
    exact ⟨_, rfl, rfl, rfl⟩

/-- The mask hits the second of three blocks, and the third one of the same name no more. -/
theorem mask_used_once_helper :
    (nest { session := 0 } (["outer", "helper", "helper"].map (.masking ["helper"], ·))).map
        Handle.context =
      [{ current := some "outer" }, { current := some "outer", maskConsumed := true },
        { current := some "helper", maskConsumed := true }] := by
  have hpath := mask_used_once (h := { session := 0 }) rfl
    (["outer", "helper", "helper"].map (.masking ["helper"], ·))
  exact hpath.1 [(.masking ["helper"], "outer")] (.masking ["helper"], "helper")
    [(.masking ["helper"], "helper")] rfl (by simp; decide) (by decide)

end Handle
end BraceScript
