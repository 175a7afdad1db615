import BraceScript.Proofs.BareGroups
import BraceScript.Proofs.Dispatch

/-!
# Deferred code

`RunIf` and `Codeblock` keep the tokens of a line and evaluate, at once or later, the line joined
from them. A deferrable line and the line joined from its tokens have the same tokens, so they
evaluate alike (`Engine.evaluate_of_scan_eq`).

For a code block the invariant is `Holds`: the block under the name has lines with the same tokens
as the lines that were added to it. Making the block establishes it, and adding a line keeps it.
-/

namespace BraceScript

open LineGrammar

/-- The second error is like the first one, inside some frames more. -/
structure ScriptError.AlikeWithin (frames : List Frame) (e e' : ScriptError) : Prop where
  kind : e.kind = e'.kind
  path : ∃ inner, e'.frames = frames ++ inner ∧ e.frames.map Frame.shape = inner.map Frame.shape

namespace ScriptError

theorem Alike.alikeWithin {e e' : ScriptError} (h : e.Alike e') : e.AlikeWithin [] e' :=
  ⟨h.kind, e'.frames, rfl, h.path⟩

theorem AlikeWithin.within {frames : List Frame} {e e' : ScriptError}
    (h : e.AlikeWithin frames e') (frame : Frame) :
    e.AlikeWithin (frame :: frames) (e'.within frame) := by
  obtain ⟨hkind, inner, hframes, hpath⟩ := h
  exact ⟨hkind, inner, by rw [ScriptError.within, hframes, List.cons_append], hpath⟩

end ScriptError

theorem Script.Related.within_alike {α : Type} {R : World → World → Prop} {x x' : Script α}
    (hx : Related ScriptError.Alike R x x') (frame : Frame) :
    Related (ScriptError.AlikeWithin [frame]) R x (x'.within frame) :=
  hx.within_right fun he => he.alikeWithin.within frame

theorem Script.Related.within_alikeWithin {α : Type} {R : World → World → Prop} {x x' : Script α}
    {frames : List Frame} (hx : Related (ScriptError.AlikeWithin frames) R x x') (frame : Frame) :
    Related (ScriptError.AlikeWithin (frame :: frames)) R x (x'.within frame) :=
  hx.within_right fun he => he.within frame

/-! ### Lines that begin with given tokens -/

namespace LineGrammar

theorem scanFrom_word_space (w : Word) (rest : List Char) :
    Token.scanFrom .between [] (w.written.source ++ ' ' :: rest) =
      Token.ofValue w.written.value :: Token.scanFrom .between [] rest := by
  rw [scanFrom_between_word, scanFrom_plain_of_isBlank rfl, ofReversed_eq, List.reverse_reverse]

end LineGrammar

namespace Evaluation
open Script (Related)

/-- Lines with the same tokens, one by one, make sequences that end alike. -/
theorem sequenceFrom_alike {eval : Evaluator} {h : Handle}
    (heval : ∀ {line line' : String}, Token.scan line = Token.scan line' →
      Related ScriptError.Alike Eq (eval h line) (eval h line'))
    {lines lines' : List String} (hlines : lines.map Token.scan = lines'.map Token.scan)
    (number : Nat) (last : Value) :
    Related ScriptError.Alike Eq (sequenceFrom eval h number last lines)
      (sequenceFrom eval h number last lines') := by
  induction lines generalizing lines' number last with
  | nil =>
    obtain rfl := List.map_eq_nil_iff.1 hlines.symm
    exact .refl .refl _
  | cons line lines ih =>
    obtain ⟨line', lines', rfl, hline, hlines⟩ := List.map_eq_cons_iff.1 hlines.symm
    have ih := ih hlines.symm
    have hblank : Text.isAllBlank line' = Text.isAllBlank line := by
      rw [Bool.eq_iff_iff, isAllBlank_iff, isAllBlank_iff, hline]
    rw [sequenceFrom, sequenceFrom]
    refine .bind (.refl .refl _) fun ending => ?_
    cases ending with
    | some v => exact .pure v
    | none =>
      dsimp only
      rw [hblank]
      split
      · exact ih _ _
      · refine .bind (.within (fun he => he.within rfl) (heval hline.symm)) fun v => ?_
        exact .bind (.refl .refl _) fun _ => ih _ _

/-- Evaluates lines one after another. -/
def evaluateAll (eval : Evaluator) (h : Handle) : List String → Script Unit
  | [] => pure ()
  | line :: lines => do
    let _ ← eval h line
    evaluateAll eval h lines

/-! ### Running a command on raw tokens -/

/-- Positions that are not evaluated reach the command as they are. -/
theorem arguments_raw {eval : Evaluator} {h : Handle} {pre : PreEvaluation} {line : String}
    (tokens : List Token) {position : Nat} (hpre : ∀ p, position ≤ p → pre.isEligible p = false) :
    arguments eval h pre line position tokens = pure (tokens.map Token.toValue) := by
  induction tokens generalizing position with
  | nil => rfl
  | cons t tokens ih =>
    have ih : arguments eval h pre line (position + 1) tokens = _ :=
      ih fun p hp => hpre p (by omega)
    cases t with
    | null => rw [arguments, ih]; rfl
    | word raw =>
      rw [arguments, ih, substitute, hpre position (Nat.le_refl _)]
      rfl

/-- A token that is not wrapped stands for itself at every position. -/
theorem arguments_cons_of_reference_eq_none {eval : Evaluator} {h : Handle} {pre : PreEvaluation}
    {line raw : String} (hraw : Token.reference? raw = none) (position : Nat)
    (tokens : List Token) :
    arguments eval h pre line position (.word raw :: tokens) =
      (.text raw :: ·) <$> arguments eval h pre line (position + 1) tokens := by
  rw [arguments, substitute, hraw]
  split <;> rfl

end Evaluation

namespace Engine
open Evaluation

/-- The session is live, and the name of a control command stands for that command. -/
structure Offers (engine : Engine) (w : World) (session : Nat) (command : Control) : Prop where
  live : w.ending session = none
  resolves : ∃ qualified, engine.registry.resolve? (w.session session).searchOrder command.name =
    some (qualified, .control command)

theorem Offers.dispatches {engine : Engine} {session : Nat} {line : String} {command : Control}
    {first : Token} {rest : List Token} {w : World} (ho : engine.Offers w session command)
    (hscan : Token.scan line = .word command.name :: first :: rest) :
    engine.Dispatches w session line command.name (first :: rest) (.control command) where
  live := ho.live
  scan := hscan
  not_comment := by cases command <;> decide
  not_lone := rfl
  not_blank := by cases command <;> decide
  resolves := ho.resolves

theorem Offers.evaluate_succ {engine : Engine} {fuel levels : Nat} {h : Handle} {line : String}
    {command : Control} {first : Token} {rest : List Token} {w : World}
    (ho : engine.Offers w h.session command)
    (hscan : Token.scan line = .word command.name :: first :: rest) :
    engine.evaluate fuel (levels + 1) h line w =
      (do
        let args ← arguments (engine.evaluate fuel levels) h command.preEvaluation line 0
          (first :: rest)
        (execute engine fuel (engine.waiting fuel) (engine.evaluate fuel levels) h
          (.control command) args).within (.command command.name line)) w :=
  (ho.dispatches hscan).evaluate_succ fuel levels

end Engine

/-! ### Code that runs at once -/

namespace Evaluation

theorem scan_runIf (code : String) :
    Token.scan ("RunIf true " ++ code) = .word "RunIf" :: .word "true" :: Token.scan code := by
  rw [Token.scan, String.toList_append]
  rfl

theorem runRunIf_true {eval : Evaluator} {h : Handle} {code : List Value} (hcode : code ≠ [])
    (w : World) : runRunIf eval h (.text "true" :: code) w = eval h (w.joinSource code) w := by
  obtain ⟨v, code, rfl⟩ := List.exists_cons_of_ne_nil hcode
  have hcount : Leaf.checkCount (.text "true" :: v :: code) 2 none = .ok () := by
    simp [Leaf.checkCount]
  rw [runRunIf, hcount]
  rfl

end Evaluation

namespace Engine
open Evaluation

theorem Offers.evaluate_runIf {engine : Engine} {fuel levels : Nat} {h : Handle} {code : String}
    {w : World} (ho : engine.Offers w h.session .runIf) (hcode : Token.scan code ≠ []) :
    engine.evaluate fuel (levels + 1) h ("RunIf true " ++ code) w =
      ((engine.evaluate fuel levels h (w.joinSource ((Token.scan code).map Token.toValue))).within
        (.command "RunIf" ("RunIf true " ++ code))) w := by
  have htrue : Token.reference? "true" = none := by decide
  have hraw : ∀ p, 1 ≤ p → Control.runIf.preEvaluation.isEligible p = false := by
    intro p hp
    simp only [Control.preEvaluation, PreEvaluation.isEligible, List.mem_singleton,
      decide_eq_false_iff_not]
    omega
  rw [ho.evaluate_succ (scan_runIf code), arguments_cons_of_reference_eq_none htrue,
    arguments_raw _ hraw]
  show ((runRunIf (engine.evaluate fuel levels) h
    (.text "true" :: (Token.scan code).map Token.toValue)).within _) w = _
  rw [Script.within_apply, runRunIf_true (by simpa using hcode), Script.within_apply]
  rfl

end Engine

/-! ### Code that a block keeps -/

namespace LineGrammar

/-- The text of a token. -/
def Word.text (b : Word) : String :=
  String.ofList b.written.source

/-- What a token says. -/
def Word.name (b : Word) : String :=
  String.ofList b.written.value

/-- The line that gives the block under a name something to do. -/
def blockLine (b : Word) (action : String) : String :=
  "Codeblock " ++ b.text ++ " " ++ action

theorem scan_blockLine {b : Word} (hb : b.written.value ≠ []) (action : String) :
    Token.scan (blockLine b action) =
      .word "Codeblock" :: .word b.name :: Token.scan action := by
  have htext : (blockLine b action).toList =
      "Codeblock ".toList ++ (b.written.source ++ ' ' :: action.toList) := by
    simp [blockLine, Word.text, String.toList_append]
  have hrest := scanFrom_word_space b action.toList
  rw [ofValue_eq_word hb] at hrest
  rw [Token.scan, htext, Word.name, Token.scan, ← hrest]
  rfl

theorem scan_add (code : String) :
    Token.scan ("add " ++ code) = .word "add" :: Token.scan code := by
  rw [Token.scan, String.toList_append]
  rfl

end LineGrammar

namespace World

theorem block_modifyBlock {w : World} {id : Nat} (hid : id < w.blocks.size) (f : Block → Block) :
    (w.modifyBlock id f).block id = f (w.block id) := by
  simp [modifyBlock, block, hid, Array.getElem_modify]

end World

namespace Engine
open Evaluation

theorem Offers.evaluate_codeblock {engine : Engine} {fuel levels : Nat} {h : Handle}
    {line name action : String} {code : List Token} {w : World}
    (ho : engine.Offers w h.session .codeblock)
    (hscan : Token.scan line = .word "Codeblock" :: .word name :: .word action :: code)
    (hname : Token.reference? name = none) (haction : Token.reference? action = none) :
    engine.evaluate fuel (levels + 1) h line w =
      ((runBlockAction (engine.evaluate fuel levels) h name action
        (code.map Token.toValue)).within (.command "Codeblock" line)) w := by
  have hraw : ∀ p, 2 ≤ p → Control.codeblock.preEvaluation.isEligible p = false := by
    intro p hp
    simp only [Control.preEvaluation, PreEvaluation.isEligible, List.mem_cons, List.not_mem_nil,
      or_false, decide_eq_false_iff_not]
    omega
  rw [ho.evaluate_succ hscan, arguments_cons_of_reference_eq_none hname,
    arguments_cons_of_reference_eq_none haction, arguments_raw _ hraw]
  show ((runCodeblock (engine.evaluate fuel levels) h
    (.text name :: .text action :: code.map Token.toValue)).within _) w = _
  rw [runCodeblock, if_neg (by simp)]
  rfl

/-- The session keeps under a name a block whose lines have the tokens of the given lines. -/
structure Holds (engine : Engine) (w : World) (session : Nat) (name : String) (id : Nat)
    (lines : List String) : Prop extends engine.Offers w session .codeblock where
  slot : w.valueOf? session (Block.slot name) = some (.block id)
  lt_size : id < w.blocks.size
  block_name : (w.block id).name = name
  tokens : (w.block id).lines.map Token.scan = lines.map Token.scan

theorem Holds.openBlock {engine : Engine} {w : World} {h : Handle} {name : String} {id : Nat}
    {lines : List String} (hw : engine.Holds w h.session name id lines) :
    openBlock h name w = .done id w := by
  rw [Evaluation.openBlock, hw.slot]

theorem Offers.holds_makeBlock {engine : Engine} {w : World} {session : Nat}
    (ho : engine.Offers w session .codeblock) (hsession : session < w.sessions.size)
    (name : String) :
    engine.Holds (w.makeBlock session name).2 session name w.blocks.size [] := by
  have hs : ((w.makeBlock session name).2).session session =
      (w.session session).setVariable (Block.slot name) (.block w.blocks.size) :=
    World.session_modifySession (w := (w.newBlock name).2) hsession _
  have hb : ((w.makeBlock session name).2).block w.blocks.size = { name } := by
    simp [World.makeBlock, World.newBlock, World.setVariable, World.modifySession, World.block]
  refine ⟨⟨?_, ?_⟩, ?_, ?_, ?_, ?_⟩
  · rw [World.ending, hs]
    exact ho.live
  · rw [hs]
    exact ho.resolves
  · rw [World.valueOf?, hs]
    exact Table.value?_put_self ..
  · simp [World.makeBlock, World.newBlock, World.setVariable, World.modifySession]
  · rw [hb]
  · rw [hb]

theorem Holds.push {engine : Engine} {w : World} {session : Nat} {name : String} {id : Nat}
    {lines : List String} (hw : engine.Holds w session name id lines) {line code : String}
    (hline : Token.scan line = Token.scan code) :
    engine.Holds (w.modifyBlock id (·.push line)) session name id (lines ++ [code]) where
  live := hw.live
  resolves := hw.resolves
  slot := hw.slot
  lt_size := by simpa [World.modifyBlock] using hw.lt_size
  block_name := by
    rw [World.block_modifyBlock hw.lt_size]
    exact hw.block_name
  tokens := by
    rw [World.block_modifyBlock hw.lt_size, Block.push, List.map_append, List.map_append, hw.tokens,
      List.map_singleton, List.map_singleton, hline]

theorem Offers.evaluate_make {engine : Engine} {fuel levels : Nat} {h : Handle} {b : Word}
    {w : World} (ho : engine.Offers w h.session .codeblock) (hb : b.written.value ≠ [])
    (hname : Token.reference? b.name = none) :
    engine.evaluate fuel (levels + 1) h (blockLine b "make") w =
      .done (.block w.blocks.size) (w.makeBlock h.session b.name).2 := by
  have hscan : Token.scan (blockLine b "make") =
      .word "Codeblock" :: .word b.name :: [.word "make"] := scan_blockLine hb "make"
  rw [ho.evaluate_codeblock hscan hname (by decide)]
  rfl

theorem Holds.evaluate_add {engine : Engine} {h : Handle} {b : Word} {w : World} {id : Nat}
    {lines : List String} {code : String} (hw : engine.Holds w h.session b.name id lines)
    (hb : b.written.value ≠ []) (hname : Token.reference? b.name = none)
    (hcode : Deferrable code) (fuel levels : Nat) :
    ∃ v w', engine.evaluate fuel (levels + 1) h (blockLine b ("add " ++ code)) w = .done v w' ∧
      engine.Holds w' h.session b.name id (lines ++ [code]) := by
  obtain ⟨t, ts, hts⟩ := List.exists_cons_of_ne_nil hcode.scan_ne_nil
  have hscan := scan_blockLine hb ("add " ++ code)
  rw [scan_add] at hscan
  refine ⟨.block id, w.modifyBlock id (·.push (w.joinSource ((Token.scan code).map Token.toValue))),
    ?_, hw.push (hcode.scan_joinSource _)⟩
  rw [hw.toOffers.evaluate_codeblock hscan hname (by decide), Script.within_apply, runBlockAction,
    if_neg (by simp [hts]), Script.bind_apply, hw.openBlock]
  rfl

/-- Adding deferrable lines one after another keeps them. -/
theorem Holds.evaluateAll_add {engine : Engine} {fuel levels : Nat} {h : Handle} {b : Word}
    (hb : b.written.value ≠ []) (hname : Token.reference? b.name = none) {id : Nat}
    {codes : List String} (hcodes : ∀ code ∈ codes, Deferrable code) {w : World}
    {lines : List String} (hw : engine.Holds w h.session b.name id lines) :
    ∃ w', evaluateAll (engine.evaluate fuel (levels + 1)) h
        (codes.map fun code => blockLine b ("add " ++ code)) w = .done () w' ∧
      engine.Holds w' h.session b.name id (lines ++ codes) := by
  induction codes generalizing w lines with
  | nil => exact ⟨w, rfl, by rwa [List.append_nil]⟩
  | cons code codes ih =>
    obtain ⟨v, w₁, hadd, hw₁⟩ := hw.evaluate_add hb hname (hcodes code (by simp)) fuel levels
    obtain ⟨w₂, hall, hw₂⟩ := ih (fun c hc => hcodes c (by simp [hc])) hw₁
    refine ⟨w₂, ?_, by simpa using hw₂⟩
    rw [List.map_cons, evaluateAll, Script.bind_apply, hadd]
    exact hall

/-- Running the block is evaluating the lines that were added to it. -/
theorem Holds.evaluate_run {engine : Engine} {h : Handle} {b : Word} {w : World} {id : Nat}
    {lines : List String} (hw : engine.Holds w h.session b.name id lines)
    (hb : b.written.value ≠ []) (hname : Token.reference? b.name = none) (fuel levels : Nat) :
    Outcome.Related
      (ScriptError.AlikeWithin [.command "Codeblock" (blockLine b "run"), .block b.name]) Eq
      (sequence (engine.evaluate fuel levels) ((w.countRun id).enterBlock h b.name) lines
        (w.countRun id))
      (engine.evaluate fuel (levels + 1) h (blockLine b "run") w) := by
  have hrun : engine.evaluate fuel (levels + 1) h (blockLine b "run") w =
      (((sequence (engine.evaluate fuel levels) ((w.countRun id).enterBlock h b.name)
        (w.block id).lines).within (.block b.name)).within
          (.command "Codeblock" (blockLine b "run"))) (w.countRun id) := by
    have hscan : Token.scan (blockLine b "run") =
        .word "Codeblock" :: .word b.name :: [.word "run"] := scan_blockLine hb "run"
    rw [hw.toOffers.evaluate_codeblock hscan hname (by decide), Script.within_apply,
      runBlockAction, Script.bind_apply, hw.openBlock, ← hw.block_name]
    rfl
  rw [hrun]
  have hlines := sequenceFrom_alike
    (fun hs => evaluate_of_scan_eq hs engine fuel levels ((w.countRun id).enterBlock h b.name))
    hw.tokens.symm 1 .null
  exact (hlines.within_alike _).within_alikeWithin _ rfl

/-- Deferring code does not change what it means. A deferrable line evaluates one level deeper as it
does behind `RunIf true`; and deferrable lines that were added to a new block, one by one, evaluate
as a sequence on the block's handle, from the world in which the run is counted, as the block runs.
An error is of the same kind and has the same path, inside the frames of the deferring commands. -/
theorem evaluate_deferred (engine : Engine) (fuel : Nat) (h : Handle) (w : World) :
    (∀ (code : String) (d : Nat), Deferrable code → d < recursionLimit →
      engine.Offers w h.session .runIf →
      Outcome.Related (ScriptError.AlikeWithin [.command "RunIf" ("RunIf true " ++ code)]) Eq
        (engine.evaluate fuel (recursionLimit - (d + 1)) h code w)
        (engine.evaluate fuel (recursionLimit - d) h ("RunIf true " ++ code) w)) ∧
    ∀ (codes : List String) (b : Word) (d d' : Nat), (∀ code ∈ codes, Deferrable code) →
      d < recursionLimit → d' < recursionLimit → engine.Offers w h.session .codeblock →
      h.session < w.sessions.size → b.written.value ≠ [] → Token.reference? b.name = none →
      ∃ w' id, evaluateAll (engine.evaluate fuel (recursionLimit - d')) h
          (blockLine b "make" :: codes.map fun code => blockLine b ("add " ++ code)) w =
            .done () w' ∧
        w'.findBlock? h.session b.name = some id ∧
        Outcome.Related
          (ScriptError.AlikeWithin [.command "Codeblock" (blockLine b "run"), .block b.name]) Eq
          (sequence (engine.evaluate fuel (recursionLimit - (d + 1)))
            ((w'.countRun id).enterBlock h b.name) codes (w'.countRun id))
          (engine.evaluate fuel (recursionLimit - d) h (blockLine b "run") w') := by
  have hlevels : ∀ {d : Nat}, d < recursionLimit →
      recursionLimit - d = recursionLimit - (d + 1) + 1 := fun hd => by omega
  constructor
  · intro code d hcode hd ho
    rw [hlevels hd, ho.evaluate_runIf hcode.scan_ne_nil]
    have hcode := evaluate_of_scan_eq (hcode.scan_joinSource w.blocks).symm engine fuel
      (recursionLimit - (d + 1)) h
    exact hcode.within_alike _ rfl
  · intro codes b d d' hcodes hd hd' ho hsession hb hname
    have hmade := ho.holds_makeBlock hsession b.name
    obtain ⟨w', hadd, hw'⟩ := hmade.evaluateAll_add hb hname hcodes
    refine ⟨w', w.blocks.size, ?_, ?_, ?_⟩
    · rw [hlevels hd', evaluateAll, Script.bind_apply, ho.evaluate_make hb hname]
      exact hadd
    · rw [World.findBlock?, hw'.slot]
    · rw [hlevels hd]
      exact hw'.evaluate_run hb hname fuel _

/-- A line with a quoted token and a brace group. -/
def printLine : String := "Print \"a b\" \x7bTrue\x7d"

/-- The reading of that line. -/
def printReading : Reading where
  lead := []
  words :=
    [(⟨.plain 'P' (by decide), [.plain 'r' (by decide), .plain 'i' (by decide),
        .plain 'n' (by decide), .plain 't' (by decide)]⟩, ⟨⟨' ', rfl⟩, []⟩),
      (⟨.span [.literal 'a' (by decide), .literal ' ' (by decide), .literal 'b' (by decide)], []⟩,
        ⟨⟨' ', rfl⟩, []⟩)]
  ending := .word
    ⟨.group ['{', 'T', 'r', 'u', 'e', '}']
      (isGroup_iff.2 ⟨_, rfl, by simp [closesFrom_cons, closesFrom_nil, depth]⟩), []⟩

theorem deferrable_printLine : Deferrable printLine := by
  refine ⟨by decide, fun r hr => ?_⟩
  obtain rfl : r = printReading := Reading.source_injective (hr.trans rfl)
  intro t ht hbrace
  simp only [Reading.written, printReading, Ending.written, List.map_cons, List.map_nil,
    List.cons_append, List.nil_append, List.mem_cons, List.not_mem_nil, or_false] at ht
  rcases ht with rfl | rfl | rfl
  · exact absurd hbrace (by decide)
  · exact absurd hbrace (by decide)
  · exact ⟨by simp [Word.written], by simp [Word.written]⟩

/-- Both ways of deferring a line, in a new world with the built-in commands. -/
theorem evaluate_deferred_printLine :
    Outcome.Related (ScriptError.AlikeWithin [.command "RunIf" ("RunIf true " ++ printLine)]) Eq
      ((Program.standardEngine default).evaluate 1 998 { session := 0 } printLine (.start {}))
      ((Program.standardEngine default).evaluate 1 999 { session := 0 }
        ("RunIf true " ++ printLine) (.start {})) ∧
    ∃ w' id, evaluateAll ((Program.standardEngine default).evaluate 1 1000) { session := 0 }
        ["Codeblock b make", "Codeblock b add " ++ printLine] (.start {}) = .done () w' ∧
      w'.findBlock? 0 "b" = some id ∧
      Outcome.Related
        (ScriptError.AlikeWithin [.command "Codeblock" "Codeblock b run", .block "b"]) Eq
        (sequence ((Program.standardEngine default).evaluate 1 999)
          ((w'.countRun id).enterBlock { session := 0 } "b") [printLine] (w'.countRun id))
        ((Program.standardEngine default).evaluate 1 1000 { session := 0 } "Codeblock b run"
          w') := by
  have hdeferred :=
    evaluate_deferred (Program.standardEngine default) 1 { session := 0 } (.start {})
  refine ⟨hdeferred.1 printLine 1 deferrable_printLine (by decide) ⟨rfl, _, rfl⟩, ?_⟩
  exact hdeferred.2 [printLine] ⟨.plain 'b' (by decide), []⟩ 0 0
    (List.forall_mem_singleton.2 deferrable_printLine) (by decide) (by decide) ⟨rfl, _, rfl⟩
    (by decide) (by decide) (by decide)

end Engine
end BraceScript
