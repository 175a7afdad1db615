import BraceScript.Proofs.LiteralArguments

/-!
# Wrapped tokens, now or later

A wrapped token is evaluated in one of two ways: substituted, where a command wants its position
evaluated, or kept as a text and evaluated later, as the condition of a loop is. Both take the line
in `{line}`. They differ on `{{name}}`: substitution looks the variable up, while what is evaluated
later is the line `{name}`, that is, the name as a line, one level deeper, or the variable in the
name where the name is itself in braces.

So the two agree on every token `{line}`, and on `{{name}}` only as far as the name happens to
evaluate as the variable would; where it is a plain name and no command, they never agree
(`Engine.deferred_of_reference`).
-/

namespace BraceScript
open LineGrammar

/-- Errors with the same cause. -/
def ScriptError.SameCause (e e' : ScriptError) : Prop :=
  e.cause = e'.cause

/-! ### The token between the outer braces -/

namespace Token

/-- The text in braces. -/
def inBraces (s : String) : String :=
  String.ofList (braced s.toList)

/-- What a text in braces stands for: a variable, where the text is in braces itself, and else the
text as a line. -/
def insideReference (s : String) : Reference :=
  match unbraced? s with
  | some name => .named name
  | none => .nested s

theorem braced_injective {cs ds : List Char} (h : braced cs = braced ds) : cs = ds :=
  List.append_cancel_right (List.tail_eq_of_cons_eq h)

theorem variableName?_inBraces (s : String) : variableName? (inBraces s) = unbraced? s := by
  ext name
  rw [variableName?_eq_some_iff, unbraced?_eq_some_iff, inBraces, String.toList_ofList]
  exact ⟨braced_injective, congrArg braced⟩

theorem unbraced?_inBraces (s : String) : unbraced? (inBraces s) = some s := by
  rw [unbraced?_eq_some_iff, inBraces, String.toList_ofList]

theorem nestedLine?_inBraces {s : String} (hs : unbraced? s = none) :
    nestedLine? (inBraces s) = some s := by
  rw [nestedLine?, variableName?_inBraces, hs, unbraced?_inBraces]
  rfl

theorem reference?_inBraces (s : String) :
    reference? (inBraces s) = some (insideReference s) := by
  rw [reference?_eq, insideReference]
  cases hs : unbraced? s with
  | some name => rw [variableName?_inBraces, hs]; rfl
  | none => rw [variableName?_inBraces, hs, nestedLine?_inBraces hs]; rfl

theorem insideReference_of_isPlainName {s : String} (hs : IsPlainName s) :
    insideReference s = .nested s := by
  rw [insideReference]
  split
  · rename_i name hname
    exact absurd (isWrapped_of_unbraced? hname) hs.not_isWrapped
  · rfl

theorem scan_inBraces {s : String} (hs : IsBalanced s.toList) :
    scan (inBraces s) = [.word (inBraces s)] := by
  have hgroup := scanFrom_between_piece (.group _ (isGroup_braced_iff.2 hs)) []
  rw [List.append_nil, Piece.source, Piece.value] at hgroup
  rw [scan, inBraces, String.toList_ofList, hgroup, scanFrom, ofReversed_eq, List.reverse_reverse]
  · rfl
  · simp

theorem opensComment_of_reference? {t : String} {reference : Reference}
    (h : reference? t = some reference) : (Token.word t).opensComment = false := by
  have hwrapped : IsWrapped t := by
    refine Classical.byContradiction fun hnot => ?_
    rw [reference?_eq_none hnot] at h
    cases h
  obtain ⟨cs, hcs⟩ := List.head?_eq_some_iff.1 hwrapped.2.1
  rw [opensComment, hcs]
  rfl

end Token

/-! ### Lines of one token -/

namespace Engine
open Evaluation
variable {engine : Engine} {h : Handle} {w : World}

/-- A line that is nothing but a wrapped token gives what the token stands for, one level deeper. -/
theorem evaluate_of_reference? (hlive : w.ending h.session = none) {line t : String}
    {reference : Token.Reference} (hscan : Token.scan line = [.word t])
    (ht : Token.reference? t = some reference) (fuel levels : Nat) :
    engine.evaluate fuel (levels + 1) h line w =
      resolve (engine.evaluate fuel levels) h reference w := by
  rw [evaluate_succ, evaluateLevel, Script.bind_apply, Script.read_apply, hlive, hscan]
  dsimp only
  rw [Token.opensComment_of_reference? ht, if_neg Bool.false_ne_true, evaluateTokens,
    loneReference?, ht]
  rfl

/-- A plain name that stands for no command fails, for want of a level or of the command. -/
theorem evaluate_of_unknown (hlive : w.ending h.session = none) {name : String}
    (hname : IsPlainName name)
    (hnone : engine.registry.resolve? (w.session h.session).searchOrder name = none)
    (fuel levels : Nat) :
    engine.evaluate fuel levels h name w =
      .failed ⟨if levels = 0 then .tooDeep recursionLimit else .commandNotFound name, []⟩ w := by
  have hscan : Token.scan name = [.word name] := by
    have := hname.scan_literalLine []
    simpa [literalLine] using this
  have hlevel : ∀ lower, evaluateLevel engine fuel (engine.waiting fuel) lower h name w =
      guarded lower (dispatch engine fuel (engine.waiting fuel) · h name name []) w := by
    intro lower
    rw [evaluateLevel, Script.bind_apply, Script.read_apply, hlive, hscan]
    dsimp only
    rw [hname.not_comment, if_neg Bool.false_ne_true, evaluateTokens, loneReference?,
      Token.reference?_eq_none hname.not_isWrapped]
    dsimp only
    rw [hname.hasBlank_eq_false, if_neg Bool.false_ne_true]
  cases levels with
  | zero =>
    rw [evaluate_zero, hlevel]
    rfl
  | succ levels =>
    rw [evaluate_succ, hlevel, guarded, dispatch, Script.bind_apply, Script.read_apply]
    dsimp only
    rw [hnone]
    rfl

end Engine

/-! ### Now and later -/

namespace Evaluation
variable {eval : Evaluator} {h : Handle} {pre : PreEvaluation} {position : Nat}

theorem deferred_nested {t line : String} (ht : Token.nestedLine? t = some line) :
    deferred eval h (.text t) = eval h line := by
  rw [deferred, Token.unbraced?_of_nestedLine? ht]
  rfl

theorem deferred_named {t name : String} (ht : Token.variableName? t = some name) :
    deferred eval h (.text t) = eval h (Token.inBraces name) := by
  rw [deferred, Token.unbraced?_of_variableName? ht]
  rfl

/-- The condition of a loop holds, or does not, where the evaluation of its token gives that. -/
theorem test_eq_done_iff {t : String} {b : Bool} {w w' : World} :
    test eval h (.text t) w = .done b w' ↔
      deferred eval h (.text t) w = .done (.boolean b) w' := by
  rw [test, Script.bind_apply, Script.within_apply]
  cases deferred eval h (.text t) w with
  | done v w₁ => cases v <;> simp [Script.complain]
  | _ => simp

theorem test_of_failed {t : String} {e : ScriptError} {w w' : World}
    (hfailed : deferred eval h (.text t) w = .failed e w') :
    test eval h (.text t) w = .failed (e.within .condition) w' := by
  rw [test, Script.bind_apply, Script.within_apply, hfailed]

theorem not_related_lookUp {e : ScriptError} (he : ∀ n, e.cause ≠ .variableNotFound n)
    (name : String) (w w' : World) :
    ¬ Outcome.Related ScriptError.SameCause Eq (.failed e w') (lookUp h name w) := by
  rw [lookUp]
  intro hrelated
  cases hvalue : w.valueOf? h.session name with
  | some v =>
    rw [hvalue] at hrelated
    cases hrelated
  | none =>
    rw [hvalue] at hrelated
    cases hrelated with
    | failed hcause _ => exact he name hcause

end Evaluation

namespace Engine
open Evaluation

/-- On a token `{line}` both ways of evaluating it are the same, so that a loop's condition holds
where the substituted token is true, and fails where that fails. On a token `{{name}}` substitution
looks the variable up; what is evaluated later is the name in braces: where the name is balanced,
the name as a line, or the variable inside it. Where the name is plain and no command, the later
evaluation fails, whatever the variable holds, and not for want of the variable. -/
theorem deferred_of_reference (engine : Engine) {h : Handle} {w : World}
    (hlive : w.ending h.session = none) (fuel levels : Nat) {pre : PreEvaluation} {position : Nat}
    (hpre : pre.isEligible position = true) (t : String) :
    (∀ line, Token.nestedLine? t = some line →
      deferred (engine.evaluate fuel (levels + 1)) h (.text t) w =
        substitute (engine.evaluate fuel (levels + 1)) h pre position t w ∧
      (∀ b w', test (engine.evaluate fuel (levels + 1)) h (.text t) w = .done b w' ↔
        substitute (engine.evaluate fuel (levels + 1)) h pre position t w =
          .done (.boolean b) w') ∧
      ∀ e w', substitute (engine.evaluate fuel (levels + 1)) h pre position t w = .failed e w' →
        test (engine.evaluate fuel (levels + 1)) h (.text t) w =
          .failed (e.within .condition) w') ∧
    ∀ name, Token.variableName? t = some name →
      substitute (engine.evaluate fuel (levels + 1)) h pre position t w = lookUp h name w ∧
      deferred (engine.evaluate fuel (levels + 1)) h (.text t) w =
        engine.evaluate fuel (levels + 1) h (Token.inBraces name) w ∧
      (IsBalanced name.toList →
        engine.evaluate fuel (levels + 1) h (Token.inBraces name) w =
          resolve (engine.evaluate fuel levels) h (Token.insideReference name) w) ∧
      (IsPlainName name →
        engine.registry.resolve? (w.session h.session).searchOrder name = none →
        deferred (engine.evaluate fuel (levels + 1)) h (.text t) w =
          .failed ⟨if levels = 0 then .tooDeep recursionLimit else .commandNotFound name, []⟩ w ∧
        ¬ Outcome.Related ScriptError.SameCause Eq
          (deferred (engine.evaluate fuel (levels + 1)) h (.text t) w)
          (substitute (engine.evaluate fuel (levels + 1)) h pre position t w)) := by
  constructor
  · intro line ht
    have hsame : deferred (engine.evaluate fuel (levels + 1)) h (.text t) =
        substitute (engine.evaluate fuel (levels + 1)) h pre position t :=
      (deferred_nested ht).trans (argument_nested hpre ht).symm
    rw [← hsame]
    exact ⟨rfl, fun b w' => test_eq_done_iff, fun e w' => test_of_failed⟩
  · intro name ht
    have hnow : substitute (engine.evaluate fuel (levels + 1)) h pre position t = lookUp h name :=
      argument_named hpre ht
    have hinside : IsBalanced name.toList →
        engine.evaluate fuel (levels + 1) h (Token.inBraces name) w =
          resolve (engine.evaluate fuel levels) h (Token.insideReference name) w := fun hname =>
      evaluate_of_reference? hlive (Token.scan_inBraces hname) (Token.reference?_inBraces name)
        fuel levels
    rw [hnow, deferred_named ht]
    refine ⟨rfl, rfl, hinside, fun hname hnone => ?_⟩
    -- the name is no command, so the line that it is taken for fails
    rw [hinside hname.isBalanced, Token.insideReference_of_isPlainName hname, resolve,
      evaluate_of_unknown hlive hname hnone]
    exact ⟨rfl, not_related_lookUp (by intro n; dsimp only; split <;> simp) name w w⟩

/-- A world with a variable that is true. -/
def flagWorld : World := (World.start {}).setVariable 0 "flag" (.boolean true)

theorem deferred_of_reference_flag :
    deferred ((Program.standardEngine default).evaluate 1 1000) { session := 0 }
        (.text "\x7b\x7bflag\x7d\x7d") flagWorld =
      .failed ⟨.commandNotFound "flag", []⟩ flagWorld ∧
    deferred ((Program.standardEngine default).evaluate 1 1000) { session := 0 }
        (.text "\x7bNot \x7b\x7bflag\x7d\x7d\x7d") flagWorld =
      substitute ((Program.standardEngine default).evaluate 1 1000) { session := 0 } .all 0
        "\x7bNot \x7b\x7bflag\x7d\x7d\x7d" flagWorld := by
  have hwrapped := deferred_of_reference (Program.standardEngine default) (h := { session := 0 })
    (w := flagWorld) rfl 1 999 (by decide : PreEvaluation.all.isEligible 0 = true)
  have hname : IsPlainName "flag" := by decide
  exact ⟨((((hwrapped _).2 "flag" (by decide)).2.2.2 hname rfl).1),
    ((hwrapped _).1 "Not \x7b\x7bflag\x7d\x7d" (by decide)).1⟩

/-- A variable that is true, as a condition to be evaluated later, is taken for a command. -/
theorem not_related_deferred_flag :
    ¬ Outcome.Related ScriptError.SameCause Eq
      (deferred ((Program.standardEngine default).evaluate 1 1000) { session := 0 }
        (.text "\x7b\x7bflag\x7d\x7d") flagWorld)
      (substitute ((Program.standardEngine default).evaluate 1 1000) { session := 0 } .all 0
        "\x7b\x7bflag\x7d\x7d" flagWorld) := by
  have hlater : deferred ((Program.standardEngine default).evaluate 1 1000) { session := 0 }
      (.text "\x7b\x7bflag\x7d\x7d") flagWorld =
        .failed ⟨.commandNotFound "flag", []⟩ flagWorld := rfl
  have hnow : substitute ((Program.standardEngine default).evaluate 1 1000) { session := 0 } .all 0
      "\x7b\x7bflag\x7d\x7d" flagWorld = .done (.boolean true) flagWorld := rfl
  rw [hlater, hnow]
  intro hrelated
  cases hrelated

end Engine
end BraceScript
