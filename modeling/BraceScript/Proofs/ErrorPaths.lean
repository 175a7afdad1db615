import BraceScript.Proofs.Dispatch

/-!
# The path of an error

The frames of an error are a path through the source, from the line that was asked for to what
failed. `Engine.ErrorPath` says which paths there are from a line: through the token that stands for
a line, to a variable that there is not, to the name of a command that cannot be used, to the
command itself. Every error of a line is on such a path, and every error of a block's run is on one
from a line that the block held when the run started, inside the frames of that line and of the
block (`Engine.errorPath_of_failed`).

What becomes of a line is told once, by `Evaluation.evaluateLevel_cases`.
-/

namespace BraceScript

namespace Script
variable {α β : Type}

theorem bind_eq_failed_iff {x : Script α} {f : α → Script β} {w w' : World} {e : ScriptError} :
    (x >>= f) w = .failed e w' ↔
      x w = .failed e w' ∨ ∃ a w₁, x w = .done a w₁ ∧ f a w₁ = .failed e w' := by
  rw [bind_apply]
  cases x w with
  | done a w₁ =>
    constructor
    · intro hfailed
      exact .inr ⟨a, w₁, rfl, hfailed⟩
    · rintro (⟨⟨⟩⟩ | ⟨a, w₁, ⟨⟩, hfailed⟩)
      exact hfailed
  | _ => simp

theorem within_eq_failed_iff {x : Script α} {frame : Frame} {w w' : World} {e : ScriptError} :
    (x.within frame) w = .failed e w' ↔
      ∃ inner, x w = .failed inner w' ∧ e = inner.within frame := by
  rw [within_apply]
  cases x w with
  | failed inner w₁ =>
    constructor
    · rintro ⟨⟩
      exact ⟨inner, rfl, rfl⟩
    · rintro ⟨inner, ⟨⟩, rfl⟩
      rfl
  | _ => simp

end Script

namespace Token

theorem variableName?_of_reference? {t name : String} (h : reference? t = some (.named name)) :
    variableName? t = some name := by
  rw [reference?_eq] at h
  cases hname : variableName? t <;> cases hline : nestedLine? t <;> simp_all

theorem nestedLine?_of_reference? {t line : String} (h : reference? t = some (.nested line)) :
    nestedLine? t = some line := by
  rw [reference?_eq] at h
  cases hname : variableName? t <;> cases hline : nestedLine? t <;> simp_all

end Token

/-! ### What becomes of a line -/

namespace Evaluation
variable {engine : Engine} {fuel : Nat} {waiting : Script Unit} {lower : Option Evaluator}
  {h : Handle} {w : World}

/-- The first token of a line, where it cannot be the name of a command. -/
def IsUnusable (first : Token) : Prop :=
  first = .null ∨ ∃ name, first = .word name ∧ Text.hasBlank name = true

/-- A line ends at once, or it is a wrapped token, or its first token is no name, or it names a
command; where the last two need a level, `lower` has to have one. -/
theorem evaluateLevel_cases (engine : Engine) (fuel : Nat) (waiting : Script Unit)
    (lower : Option Evaluator) (h : Handle) (line : String) (w : World) :
    (∃ v, evaluateLevel engine fuel waiting lower h line w = .done v w) ∨
    (∃ t reference, Token.scan line = [.word t] ∧ Token.reference? t = some reference ∧
      evaluateLevel engine fuel waiting lower h line w =
        guarded lower (resolve · h reference) w) ∨
    (∃ first rest, Token.scan line = first :: rest ∧ IsUnusable first ∧
      evaluateLevel engine fuel waiting lower h line w =
        .failed ⟨.malformed ("invalid command name in \"" ++ line ++ "\""), []⟩ w) ∨
    ∃ name tokens, w.ending h.session = none ∧ Token.scan line = .word name :: tokens ∧
      (Token.word name).opensComment = false ∧ loneReference? (.word name :: tokens) = none ∧
      Text.hasBlank name = false ∧
      evaluateLevel engine fuel waiting lower h line w =
        guarded lower (dispatch engine fuel waiting · h line name tokens) w := by
  rw [evaluateLevel, Script.bind_apply, Script.read_apply]
  cases hending : w.ending h.session with
  | some v => exact .inl ⟨v, rfl⟩
  | none =>
    cases hscan : Token.scan line with
    | nil => exact .inl ⟨emptyLineValue, rfl⟩
    | cons first rest =>
      dsimp only
      cases hcomment : first.opensComment with
      | true => exact .inl ⟨commentValue, rfl⟩
      | false =>
        rw [if_neg Bool.false_ne_true]
        unfold evaluateTokens
        cases hlone : loneReference? (first :: rest) with
        | some reference =>
          refine .inr (.inl ?_)
          unfold loneReference? at hlone
          split at hlone
          · rename_i t heq
            exact ⟨t, reference, heq, hlone, rfl⟩
          · cases hlone
        | none =>
          cases first with
          | null => exact .inr (.inr (.inl ⟨.null, rest, rfl, .inl rfl, rfl⟩))
          | word name =>
            dsimp only
            cases hblank : Text.hasBlank name with
            | true =>
              exact .inr (.inr (.inl ⟨.word name, rest, rfl, .inr ⟨name, rfl, hblank⟩, rfl⟩))
            | false =>
              exact .inr (.inr (.inr ⟨name, rest, rfl, rfl, hcomment, hlone, hblank, rfl⟩))

end Evaluation

/-! ### Paths -/

namespace Engine
open Evaluation

/-- The errors that can come of a line, each with the path to it. -/
inductive ErrorPath (engine : Engine) (fuel : Nat) (h : Handle) : String → ScriptError → Prop
  | tooDeep (line : String) : ErrorPath engine fuel h line ⟨.tooDeep recursionLimit, []⟩
  | malformed {line : String} {first : Token} {rest : List Token}
    (hscan : Token.scan line = first :: rest) (hfirst : IsUnusable first) :
    ErrorPath engine fuel h line
      ⟨.malformed ("invalid command name in \"" ++ line ++ "\""), []⟩
  | unknownCommand {line name : String} {rest : List Token}
    (hscan : Token.scan line = .word name :: rest) :
    ErrorPath engine fuel h line ⟨.commandNotFound name, []⟩
  /-- The line is nothing but `{{name}}`. -/
  | loneVariable {line t name : String} (hscan : Token.scan line = [.word t])
    (ht : Token.variableName? t = some name) :
    ErrorPath engine fuel h line ⟨.variableNotFound name, []⟩
  /-- The line is nothing but `{inner}`, which adds no frame. -/
  | loneLine {line t inner : String} {e : ScriptError} (hscan : Token.scan line = [.word t])
    (ht : Token.nestedLine? t = some inner) (he : ErrorPath engine fuel h inner e) :
    ErrorPath engine fuel h line e
  /-- An argument is `{{name}}`. -/
  | variable {line t name : String} {first : Token} {tokens : List Token} {i : Nat}
    (hscan : Token.scan line = first :: tokens) (hi : tokens[i]? = some (.word t))
    (ht : Token.variableName? t = some name) :
    ErrorPath engine fuel h line ⟨.variableNotFound name, [.argument i line]⟩
  /-- An argument is `{inner}`. -/
  | nested {line t inner : String} {first : Token} {tokens : List Token} {i : Nat}
    {e : ScriptError} (hscan : Token.scan line = first :: tokens)
    (hi : tokens[i]? = some (.word t)) (ht : Token.nestedLine? t = some inner)
    (he : ErrorPath engine fuel h inner e) :
    ErrorPath engine fuel h line (e.within (.argument i line))
  /-- The command that the line names fails on the values of the line's tokens. -/
  | command {line name : String} {tokens : List Token} {command : Command} {args : List Value}
    {levels : Nat} {e : ScriptError} {w w₁ w₂ : World}
    (hline : engine.Dispatches w h.session line name tokens command)
    (hargs : ArgumentList (engine.evaluate fuel levels) h command.preEvaluation 0 w tokens args w₁)
    (hrun : execute engine fuel (engine.waiting fuel) (engine.evaluate fuel levels) h command args
      w₁ = .failed e w₂) :
    ErrorPath engine fuel h line (e.within (.command name line))

end Engine

namespace Evaluation
variable {eval : Evaluator} {h : Handle}

theorem Argument.failed {pre : PreEvaluation} {position : Nat} {w w' : World} {t : Token}
    {o : Outcome Value} {e : ScriptError} (ht : Argument eval h pre position w t o)
    (ho : o = .failed e w') :
    (∃ raw name, t = .word raw ∧ Token.variableName? raw = some name ∧
      e = ⟨.variableNotFound name, []⟩) ∨
    ∃ raw inner, t = .word raw ∧ Token.nestedLine? raw = some inner ∧
      eval h inner w = .failed e w' := by
  cases ht with
  | missing hpre hnamed hv =>
    cases ho
    exact .inl ⟨_, _, rfl, hnamed, rfl⟩
  | nested hpre hnested => exact .inr ⟨_, _, rfl, hnested, ho⟩
  | _ => cases ho

/-- The line that stops a sequence, counted from the number of the first. -/
theorem exists_line_of_sequenceFrom_failed {number : Nat} {last : Value} {lines : List String}
    {w w' : World} {e : ScriptError}
    (hfailed : sequenceFrom eval h number last lines w = .failed e w') :
    ∃ k line inner w₁, lines[k]? = some line ∧ eval h line w₁ = .failed inner w' ∧
      e = inner.within (.line (number + k) line) := by
  induction lines generalizing number last w with
  | nil => cases hfailed
  | cons line lines ih =>
    have hrest : ∀ {last w}, sequenceFrom eval h (number + 1) last lines w = .failed e w' →
        ∃ k line' inner w₁, (line :: lines)[k]? = some line' ∧ eval h line' w₁ = .failed inner w' ∧
          e = inner.within (.line (number + k) line') := by
      intro last w hfailed
      obtain ⟨k, line', inner, w₁, hk, heval, he⟩ := ih hfailed
      refine ⟨k + 1, line', inner, w₁, hk, heval, ?_⟩
      rw [he, Nat.add_assoc, Nat.add_comm 1 k]
    rw [sequenceFrom, Script.bind_apply, Script.read_apply] at hfailed
    cases hending : w.ending h.session with
    | some v => rw [hending] at hfailed; cases hfailed
    | none =>
      rw [hending] at hfailed
      dsimp only at hfailed
      split at hfailed
      · exact hrest hfailed
      · rcases Script.bind_eq_failed_iff.1 hfailed with hline | ⟨v, w₁, -, hfailed⟩
        · obtain ⟨inner, heval, he⟩ := Script.within_eq_failed_iff.1 hline
          exact ⟨0, line, inner, w, rfl, heval, he⟩
        · exact hrest hfailed

end Evaluation

namespace Engine
open Evaluation

variable {engine : Engine} {fuel : Nat} {h : Handle}

/-- A line that names a command fails in one of its arguments or in its command. -/
theorem Dispatches.errorPath {levels : Nat} {line name : String} {tokens : List Token}
    {command : Command} {w w' : World} {e : ScriptError}
    (hline : engine.Dispatches w h.session line name tokens command)
    (hinner : ∀ {inner : String} {w : World} {e : ScriptError},
      engine.evaluate fuel levels h inner w = .failed e w' → engine.ErrorPath fuel h inner e)
    (hfailed : dispatchTo (engine.evaluate fuel levels) h command.preEvaluation
      (execute engine fuel (engine.waiting fuel) (engine.evaluate fuel levels) h command) line name
      tokens w = .failed e w') :
    engine.ErrorPath fuel h line e := by
  rcases exists_argumentList (engine.evaluate fuel levels) h command.preEvaluation 0 w tokens with
    ⟨args, w₁, hargs⟩ | ⟨before, t, after, args, w₁, o, htokens, hbefore, ht, hstops⟩
  · rw [dispatchTo_of_argumentList hargs] at hfailed
    obtain ⟨inner, hrun, rfl⟩ := Script.within_eq_failed_iff.1 hfailed
    exact .command hline hargs hrun
  · rw [Nat.zero_add] at ht
    rw [dispatchTo_of_argument htokens hbefore ht hstops] at hfailed
    have hi : tokens[before.length]? = some t := by simp [htokens]
    cases o with
    | failed e₀ w₂ =>
      cases hfailed
      rcases ht.failed rfl with ⟨raw, name', rfl, hnamed, rfl⟩ | ⟨raw, inner, rfl, hnested, heval⟩
      · exact .variable hline.scan hi hnamed
      · exact .nested hline.scan hi hnested (hinner heval)
    | done v w₂ => exact absurd rfl (hstops v w₂)
    | exited code w₂ => cases hfailed
    | exhausted w₂ => cases hfailed

theorem errorPath_of_dispatch {levels : Nat} {line name : String} {tokens : List Token}
    {w w' : World} {e : ScriptError} (hlive : w.ending h.session = none)
    (hscan : Token.scan line = .word name :: tokens)
    (hcomment : (Token.word name).opensComment = false)
    (hlone : loneReference? (.word name :: tokens) = none) (hblank : Text.hasBlank name = false)
    (hinner : ∀ {inner : String} {w : World} {e : ScriptError},
      engine.evaluate fuel levels h inner w = .failed e w' → engine.ErrorPath fuel h inner e)
    (hfailed : dispatch engine fuel (engine.waiting fuel) (engine.evaluate fuel levels) h line name
      tokens w = .failed e w') : engine.ErrorPath fuel h line e := by
  rw [dispatch, Script.bind_apply, Script.read_apply] at hfailed
  dsimp only at hfailed
  cases hresolve : engine.registry.resolve? (w.session h.session).searchOrder name with
  | none =>
    rw [hresolve] at hfailed
    cases hfailed
    exact .unknownCommand hscan
  | some found =>
    obtain ⟨qualified, command⟩ := found
    have hline : engine.Dispatches w h.session line name tokens command :=
      ⟨hlive, hscan, hcomment, hlone, hblank, qualified, hresolve⟩
    rw [hresolve] at hfailed
    exact hline.errorPath hinner hfailed

theorem errorPath_of_resolve {eval : Evaluator} {line t : String} {reference : Token.Reference}
    {w w' : World} {e : ScriptError} (hscan : Token.scan line = [.word t])
    (hreference : Token.reference? t = some reference)
    (hinner : ∀ {inner : String} {w : World} {e : ScriptError},
      eval h inner w = .failed e w' → engine.ErrorPath fuel h inner e)
    (hfailed : resolve eval h reference w = .failed e w') : engine.ErrorPath fuel h line e := by
  cases reference with
  | named name =>
    have hmissing : e = ⟨.variableNotFound name, []⟩ := by
      rw [resolve, lookUp] at hfailed
      split at hfailed <;> cases hfailed
      rfl
    rw [hmissing]
    exact .loneVariable hscan (Token.variableName?_of_reference? hreference)
  | nested inner =>
    exact .loneLine hscan (Token.nestedLine?_of_reference? hreference) (hinner hfailed)

theorem errorPath_of_evaluateLevel {lower : Option Evaluator}
    (hlower : ∀ eval ∈ lower, ∃ levels, eval = engine.evaluate fuel levels ∧
      ∀ {inner : String} {w w' : World} {e : ScriptError},
        eval h inner w = .failed e w' → engine.ErrorPath fuel h inner e)
    {line : String} {w w' : World} {e : ScriptError}
    (hfailed : evaluateLevel engine fuel (engine.waiting fuel) lower h line w = .failed e w') :
    engine.ErrorPath fuel h line e := by
  -- what needs a level fails where there is none, and no frame tells of it
  have hguarded : ∀ {run : Evaluator → Script Value},
      (∀ eval ∈ lower, run eval w = .failed e w' → engine.ErrorPath fuel h line e) →
      guarded lower run w = .failed e w' → engine.ErrorPath fuel h line e := by
    intro run hrun hguard
    cases lower with
    | none =>
      cases hguard
      exact .tooDeep line
    | some eval => exact hrun eval rfl hguard
  rcases evaluateLevel_cases engine fuel (engine.waiting fuel) lower h line w with
    ⟨v, heq⟩ | ⟨t, reference, hscan, hreference, heq⟩ | ⟨first, rest, hscan, hfirst, heq⟩ |
    ⟨name, tokens, hlive, hscan, hcomment, hlone, hblank, heq⟩
  all_goals rw [heq] at hfailed
  · cases hfailed
  · refine hguarded (fun eval heval hrun => ?_) hfailed
    obtain ⟨levels, -, hinner⟩ := hlower eval heval
    exact errorPath_of_resolve hscan hreference hinner hrun
  · cases hfailed
    exact .malformed hscan hfirst
  · refine hguarded (fun eval heval hrun => ?_) hfailed
    obtain ⟨levels, rfl, hinner⟩ := hlower eval heval
    exact errorPath_of_dispatch hlive hscan hcomment hlone hblank hinner hrun

theorem errorPath_of_evaluate {levels : Nat} {line : String} {w w' : World} {e : ScriptError}
    (hfailed : engine.evaluate fuel levels h line w = .failed e w') :
    engine.ErrorPath fuel h line e := by
  induction levels generalizing line w w' e with
  | zero =>
    rw [evaluate_zero] at hfailed
    exact errorPath_of_evaluateLevel (by simp) hfailed
  | succ levels ih =>
    rw [evaluate_succ] at hfailed
    refine errorPath_of_evaluateLevel (fun eval heval => ?_) hfailed
    obtain rfl := Option.mem_some_iff.1 heval
    exact ⟨levels, rfl, ih⟩

/-- Every error of a line is on a path from it. Every error of a block's run is inside the frame of
the block, then of a line by its number, and on a path from that line, which is the one that the
block held at that place when the run started. -/
theorem errorPath_of_failed (engine : Engine) (fuel levels : Nat) (h : Handle) (w : World) :
    (∀ line e w', engine.evaluate fuel levels h line w = .failed e w' →
      engine.ErrorPath fuel h line e) ∧
    ∀ id e w', runBlock (engine.evaluate fuel levels) h id w = .failed e w' →
      ∃ k line inner, (w.block id).lines[k]? = some line ∧
        e = (inner.within (.line (k + 1) line)).within (.block (w.block id).name) ∧
        engine.ErrorPath fuel (w.enterBlock h (w.block id).name) line inner := by
  refine ⟨fun line e w' hfailed => errorPath_of_evaluate hfailed, fun id e w' hfailed => ?_⟩
  have hsequence : ((sequence (engine.evaluate fuel levels)
      (w.enterBlock h (w.block id).name) (w.block id).lines).within (.block (w.block id).name))
      (w.modifyBlock id fun b => { b with runs := b.runs + 1 }) = .failed e w' := hfailed
  obtain ⟨e₁, hlines, rfl⟩ := Script.within_eq_failed_iff.1 hsequence
  obtain ⟨k, line, inner, w₁, hk, heval, rfl⟩ := exists_line_of_sequenceFrom_failed hlines
  refine ⟨k, line, inner, hk, ?_, errorPath_of_evaluate heval⟩
  rw [Nat.add_comm 1 k]

/-- A line whose argument is a variable that there is not. -/
def printMissing : String := "Print \x7b\x7bx\x7d\x7d"

/-- A world with a block that holds the line, behind a blank one. -/
def missingBlock : World :=
  { World.start {} with blocks := #[{ name := "b", lines := ["", printMissing] }] }

theorem errorPath_of_failed_printMissing :
    (Program.standardEngine default).ErrorPath 1 { session := 0 } printMissing
      ⟨.variableNotFound "x", [.argument 0 printMissing]⟩ ∧
    ∃ k line inner, ["", printMissing][k]? = some line ∧
      ⟨.variableNotFound "x", [.block "b", .line 2 printMissing, .argument 0 printMissing]⟩ =
        (inner.within (.line (k + 1) line)).within (.block "b") ∧
      (Program.standardEngine default).ErrorPath 1 { session := 0, context.current := some "b" }
        line inner := by
  obtain ⟨hline, hblock⟩ := errorPath_of_failed (Program.standardEngine default) 1 1
    { session := 0 } missingBlock
  have hfailed : (Program.standardEngine default).evaluate 1 1 { session := 0 } printMissing
      missingBlock = .failed ⟨.variableNotFound "x", [.argument 0 printMissing]⟩ missingBlock := rfl
  have hrun : ∃ w', runBlock ((Program.standardEngine default).evaluate 1 1) { session := 0 } 0
      missingBlock = .failed ⟨.variableNotFound "x",
        [.block "b", .line 2 printMissing, .argument 0 printMissing]⟩ w' := ⟨_, rfl⟩
  obtain ⟨w', hrun⟩ := hrun
  exact ⟨hline _ _ _ hfailed, hblock 0 _ _ hrun⟩

end Engine
end BraceScript
