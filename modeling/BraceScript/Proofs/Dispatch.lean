import BraceScript.Program
import BraceScript.Proofs.RelatedRuns

/-!
# From a line to its command

What becomes of a line that names a command is told by three relations, none of which follows the
order of the code: what one token stands for at its position (`Evaluation.Argument`), how tokens
are substituted one after another, each in the world that those before it left
(`Evaluation.ArgumentList`), and how the line ends (`Evaluation.Dispatched`): its command is
executed once, on the values of all tokens, or the first token that has none stops it.

The evaluator follows these rules, and they leave it no choice
(`Engine.evaluate_eq_iff_dispatched`).
-/

namespace BraceScript
namespace Evaluation

/-- What a token at an argument position comes to in a world. -/
inductive Argument (eval : Evaluator) (h : Handle) (pre : PreEvaluation) (position : Nat)
    (w : World) : Token → Outcome Value → Prop
  | null : Argument eval h pre position w .null (.done .null w)
  /-- The command does not want the position evaluated. -/
  | raw {t : String} (hpre : pre.isEligible position = false) :
    Argument eval h pre position w (.word t) (.done (.text t) w)
  /-- The token is not wrapped. -/
  | bare {t : String} (hnamed : Token.variableName? t = none)
    (hnested : Token.nestedLine? t = none) :
    Argument eval h pre position w (.word t) (.done (.text t) w)
  | stored {t name : String} {v : Value} (hpre : pre.isEligible position = true)
    (hnamed : Token.variableName? t = some name) (hv : w.valueOf? h.session name = some v) :
    Argument eval h pre position w (.word t) (.done v w)
  | missing {t name : String} (hpre : pre.isEligible position = true)
    (hnamed : Token.variableName? t = some name) (hv : w.valueOf? h.session name = none) :
    Argument eval h pre position w (.word t) (.failed ⟨.variableNotFound name, []⟩ w)
  | nested {t line : String} (hpre : pre.isEligible position = true)
    (hnested : Token.nestedLine? t = some line) :
    Argument eval h pre position w (.word t) (eval h line w)

/-- The values of some tokens from a position on, substituted from left to right, each in the world
that those before it left. -/
inductive ArgumentList (eval : Evaluator) (h : Handle) (pre : PreEvaluation) :
    (position : Nat) → World → List Token → List Value → World → Prop
  | nil (position : Nat) (w : World) : ArgumentList eval h pre position w [] [] w
  | cons {position : Nat} {w w₁ w₂ : World} {t : Token} {tokens : List Token} {v : Value}
    {vs : List Value} (ht : Argument eval h pre position w t (.done v w₁))
    (htokens : ArgumentList eval h pre (position + 1) w₁ tokens vs w₂) :
    ArgumentList eval h pre position w (t :: tokens) (v :: vs) w₂

/-- How a line ends whose tokens after the name of a command are given, where `run` executes the
command. -/
inductive Dispatched (eval : Evaluator) (h : Handle) (pre : PreEvaluation)
    (run : List Value → Script Value) (line name : String) (tokens : List Token) (w : World) :
    Outcome Value → Prop
  /-- All tokens have values: the command is executed, its error being inside one frame more. -/
  | executed {args : List Value} {w₁ : World}
    (hargs : ArgumentList eval h pre 0 w tokens args w₁) :
    Dispatched eval h pre run line name tokens w (((run args).within (.command name line)) w₁)
  /-- A token fails: nothing happens after that. -/
  | failed {before after : List Token} {t : Token} {args : List Value} {w₁ w₂ : World}
    {e : ScriptError} (htokens : tokens = before ++ t :: after)
    (hbefore : ArgumentList eval h pre 0 w before args w₁)
    (ht : Argument eval h pre before.length w₁ t (.failed e w₂)) :
    Dispatched eval h pre run line name tokens w
      (.failed (e.within (.argument before.length line)) w₂)
  /-- A token exits the program. -/
  | exited {before after : List Token} {t : Token} {args : List Value} {w₁ w₂ : World}
    {code : Int32} (htokens : tokens = before ++ t :: after)
    (hbefore : ArgumentList eval h pre 0 w before args w₁)
    (ht : Argument eval h pre before.length w₁ t (.exited code w₂)) :
    Dispatched eval h pre run line name tokens w (.exited code w₂)
  | exhausted {before after : List Token} {t : Token} {args : List Value} {w₁ w₂ : World}
    (htokens : tokens = before ++ t :: after)
    (hbefore : ArgumentList eval h pre 0 w before args w₁)
    (ht : Argument eval h pre before.length w₁ t (.exhausted w₂)) :
    Dispatched eval h pre run line name tokens w (.exhausted w₂)

/-! ### One token -/

/-- The value of a token at an argument position. -/
def argument (eval : Evaluator) (h : Handle) (pre : PreEvaluation) (position : Nat) :
    Token → Script Value
  | .null => pure .null
  | .word raw => substitute eval h pre position raw

section
variable {eval : Evaluator} {h : Handle} {pre : PreEvaluation}

theorem argument_named {position : Nat} {t name : String} (hpre : pre.isEligible position = true)
    (hnamed : Token.variableName? t = some name) :
    argument eval h pre position (.word t) = lookUp h name := by
  rw [argument, substitute, hpre, if_pos rfl, Token.reference?_eq, hnamed]
  rfl

theorem argument_nested {position : Nat} {t line : String} (hpre : pre.isEligible position = true)
    (hnested : Token.nestedLine? t = some line) :
    argument eval h pre position (.word t) = eval h line := by
  have hnamed : Token.variableName? t = none := by
    rw [Token.nestedLine?] at hnested
    split at hnested
    · cases hnested
    · rename_i hnamed
      simpa using hnamed
  rw [argument, substitute, hpre, if_pos rfl, Token.reference?_eq, hnamed, hnested]
  rfl

theorem argument_bare {position : Nat} {t : String} (hnamed : Token.variableName? t = none)
    (hnested : Token.nestedLine? t = none) :
    argument eval h pre position (.word t) = pure (.text t) := by
  rw [argument, substitute, Token.reference?_eq, hnamed, hnested]
  split <;> rfl

theorem argument_raw {position : Nat} {t : String} (hpre : pre.isEligible position = false) :
    argument eval h pre position (.word t) = pure (.text t) := by
  rw [argument, substitute, hpre, if_neg Bool.false_ne_true]

theorem Argument.eq {position : Nat} {w : World} {t : Token} {o : Outcome Value}
    (ht : Argument eval h pre position w t o) : argument eval h pre position t w = o := by
  cases ht with
  | null => rfl
  | raw hpre => rw [argument_raw hpre]; rfl
  | bare hnamed hnested => rw [argument_bare hnamed hnested]; rfl
  | stored hpre hnamed hv => rw [argument_named hpre hnamed, lookUp, hv]
  | missing hpre hnamed hv => rw [argument_named hpre hnamed, lookUp, hv]
  | nested hpre hnested => rw [argument_nested hpre hnested]

theorem argument_spec (eval : Evaluator) (h : Handle) (pre : PreEvaluation) (position : Nat)
    (w : World) (t : Token) :
    Argument eval h pre position w t (argument eval h pre position t w) := by
  cases t with
  | null => exact .null
  | word t =>
    cases hpre : pre.isEligible position with
    | false => rw [argument_raw hpre]; exact .raw hpre
    | true =>
      cases hnamed : Token.variableName? t with
      | some name =>
        rw [argument_named hpre hnamed, lookUp]
        cases hv : w.valueOf? h.session name with
        | some v => exact .stored hpre hnamed hv
        | none => exact .missing hpre hnamed hv
      | none =>
        cases hnested : Token.nestedLine? t with
        | some line => rw [argument_nested hpre hnested]; exact .nested hpre hnested
        | none => rw [argument_bare hnamed hnested]; exact .bare hnamed hnested

/-! ### Several tokens -/

theorem arguments_cons (line : String) (position : Nat) (t : Token) (tokens : List Token) :
    arguments eval h pre line position (t :: tokens) = (do
      let v ← (argument eval h pre position t).within (.argument position line)
      let rest ← arguments eval h pre line (position + 1) tokens
      return v :: rest) := by
  cases t <;> rfl

/-- Where the first tokens have values, the others go on from the world that these left. -/
theorem ArgumentList.arguments_append {position : Nat} {w w₁ : World} {before : List Token}
    {vs : List Value} (hbefore : ArgumentList eval h pre position w before vs w₁) (line : String)
    (after : List Token) :
    arguments eval h pre line position (before ++ after) w =
      (do
        let rest ← arguments eval h pre line (position + before.length) after
        return vs ++ rest) w₁ := by
  induction hbefore with
  | nil position w =>
    rw [List.nil_append, List.length_nil, Nat.add_zero, Script.bind_apply]
    cases arguments eval h pre line position after w <;> rfl
  | @cons position w w₁ w₂ t tokens v vs ht htokens ih =>
    have hposition : position + (t :: tokens).length = position + 1 + tokens.length := by
      rw [List.length_cons]
      omega
    rw [List.cons_append, arguments_cons, Script.bind_apply, Script.within_apply, ht.eq]
    dsimp only
    rw [Script.bind_apply, ih, Script.bind_apply, Script.bind_apply, hposition]
    cases arguments eval h pre line (position + 1 + tokens.length) after w₂ <;> rfl

theorem ArgumentList.arguments_eq {position : Nat} {w w₁ : World} {tokens : List Token}
    {vs : List Value} (htokens : ArgumentList eval h pre position w tokens vs w₁) (line : String) :
    arguments eval h pre line position tokens w = .done vs w₁ := by
  have happend := htokens.arguments_append line []
  rw [List.append_nil] at happend
  rw [happend, Script.bind_apply]
  simp [arguments]

/-- Either all tokens have values, or one that has none comes behind some that have. -/
theorem exists_argumentList (eval : Evaluator) (h : Handle) (pre : PreEvaluation) (position : Nat)
    (w : World) (tokens : List Token) :
    (∃ vs w₁, ArgumentList eval h pre position w tokens vs w₁) ∨
      ∃ before t after vs w₁ o, tokens = before ++ t :: after ∧
        ArgumentList eval h pre position w before vs w₁ ∧
        Argument eval h pre (position + before.length) w₁ t o ∧ ∀ v w₂, o ≠ .done v w₂ := by
  -- the world goes along with the tokens, so the induction is over all worlds
  induction tokens generalizing position w with
  | nil => exact .inl ⟨[], w, .nil position w⟩
  | cons t tokens ih =>
    have ht := argument_spec eval h pre position w t
    cases ho : argument eval h pre position t w with
    | done v w₁ =>
      rw [ho] at ht
      rcases ih (position + 1) w₁ with ⟨vs, w₂, htokens⟩ | ⟨before, u, after, vs, w₂, o, htokens,
        hbefore, hu, hstops⟩
      · exact .inl ⟨v :: vs, w₂, .cons ht htokens⟩
      · refine .inr ⟨t :: before, u, after, v :: vs, w₂, o, by rw [htokens, List.cons_append],
          .cons ht hbefore, ?_, hstops⟩
        rwa [List.length_cons, Nat.add_comm before.length 1, ← Nat.add_assoc]
    | _ =>
      refine .inr ⟨[], t, tokens, [], w, _, rfl, .nil position w, ht, ?_⟩
      simp [ho]

end

/-! ### The whole line -/

section
variable {eval : Evaluator} {h : Handle} {pre : PreEvaluation} {run : List Value → Script Value}
  {line name : String} {tokens : List Token} {w : World}

/-- What a line does that names a command. -/
def dispatchTo (eval : Evaluator) (h : Handle) (pre : PreEvaluation)
    (run : List Value → Script Value) (line name : String) (tokens : List Token) :
    Script Value := do
  let args ← arguments eval h pre line 0 tokens
  (run args).within (.command name line)

theorem dispatchTo_of_argumentList {args : List Value} {w₁ : World}
    (hargs : ArgumentList eval h pre 0 w tokens args w₁) :
    dispatchTo eval h pre run line name tokens w =
      ((run args).within (.command name line)) w₁ := by
  rw [dispatchTo, Script.bind_apply, hargs.arguments_eq]

theorem dispatchTo_of_argument {before after : List Token} {t : Token} {args : List Value}
    {w₁ : World} {o : Outcome Value} (htokens : tokens = before ++ t :: after)
    (hbefore : ArgumentList eval h pre 0 w before args w₁)
    (ht : Argument eval h pre before.length w₁ t o) (hstops : ∀ v w₂, o ≠ .done v w₂) :
    dispatchTo eval h pre run line name tokens w =
      match o with
      | .failed e w₂ => .failed (e.within (.argument before.length line)) w₂
      | outcome => outcome := by
  rw [dispatchTo, Script.bind_apply, htokens, hbefore.arguments_append, Nat.zero_add,
    arguments_cons, Script.bind_apply, Script.bind_apply, Script.within_apply, ht.eq]
  cases o with
  | done v w₂ => exact absurd rfl (hstops v w₂)
  | _ => rfl

theorem dispatched_iff (o : Outcome Value) :
    Dispatched eval h pre run line name tokens w o ↔
      dispatchTo eval h pre run line name tokens w = o := by
  constructor
  · intro hd
    cases hd with
    | executed hargs => exact dispatchTo_of_argumentList hargs
    | failed htokens hbefore ht => rw [dispatchTo_of_argument htokens hbefore ht (by simp)]
    | exited htokens hbefore ht => rw [dispatchTo_of_argument htokens hbefore ht (by simp)]
    | exhausted htokens hbefore ht => rw [dispatchTo_of_argument htokens hbefore ht (by simp)]
  · rintro rfl
    rcases exists_argumentList eval h pre 0 w tokens with
      ⟨args, w₁, hargs⟩ | ⟨before, t, after, args, w₁, o, htokens, hbefore, ht, hstops⟩
    · rw [dispatchTo_of_argumentList hargs]
      exact .executed hargs
    · rw [Nat.zero_add] at ht
      rw [dispatchTo_of_argument htokens hbefore ht hstops]
      cases o with
      | done v w₂ => exact absurd rfl (hstops v w₂)
      | failed e w₂ => exact .failed htokens hbefore ht
      | exited code w₂ => exact .exited htokens hbefore ht
      | exhausted w₂ => exact .exhausted htokens hbefore ht

end
end Evaluation

namespace Engine
open Evaluation

/-- The line names a command in a live session: it has tokens, is no comment and not a lone wrapped
token, and its first token, which has no blank, stands for the command. -/
structure Dispatches (engine : Engine) (w : World) (session : Nat) (line name : String)
    (tokens : List Token) (command : Command) : Prop where
  live : w.ending session = none
  scan : Token.scan line = .word name :: tokens
  not_comment : (Token.word name).opensComment = false
  not_lone : loneReference? (.word name :: tokens) = none
  not_blank : Text.hasBlank name = false
  resolves : ∃ qualified, engine.registry.resolve? (w.session session).searchOrder name =
    some (qualified, command)

theorem Dispatches.evaluate_succ {engine : Engine} {h : Handle} {line name : String}
    {tokens : List Token} {command : Command} {w : World}
    (hline : engine.Dispatches w h.session line name tokens command) (fuel levels : Nat) :
    engine.evaluate fuel (levels + 1) h line w =
      dispatchTo (engine.evaluate fuel levels) h command.preEvaluation
        (execute engine fuel (engine.waiting fuel) (engine.evaluate fuel levels) h command) line
        name tokens w := by
  obtain ⟨qualified, hresolve⟩ := hline.resolves
  rw [Engine.evaluate_succ, evaluateLevel, Script.bind_apply, Script.read_apply, hline.live,
    hline.scan]
  dsimp only
  rw [hline.not_comment, if_neg Bool.false_ne_true, evaluateTokens, hline.not_lone]
  dsimp only
  rw [hline.not_blank, if_neg Bool.false_ne_true, guarded, dispatch, Script.bind_apply,
    Script.read_apply]
  dsimp only
  rw [hresolve]
  rfl

theorem Dispatches.evaluate_of_argumentList {engine : Engine} {h : Handle} {line name : String}
    {tokens : List Token} {command : Command} {args : List Value} {w w₁ : World} {fuel levels : Nat}
    (hline : engine.Dispatches w h.session line name tokens command)
    (hargs : ArgumentList (engine.evaluate fuel levels) h command.preEvaluation 0 w tokens args
      w₁) :
    engine.evaluate fuel (levels + 1) h line w =
      ((execute engine fuel (engine.waiting fuel) (engine.evaluate fuel levels) h command
        args).within (.command name line)) w₁ := by
  rw [hline.evaluate_succ, dispatchTo_of_argumentList hargs]

/-- A line that names a command ends as the rules of dispatch say, and in no other way: its tokens
are substituted from left to right, those at positions that the command does not want evaluated
not at all, and the first one that fails stops the line, inside the frame of its position; else the
command is executed once on the values, in the world that the last token left. -/
theorem evaluate_eq_iff_dispatched {engine : Engine} {h : Handle} {line name : String}
    {tokens : List Token} {command : Command} {w : World}
    (hline : engine.Dispatches w h.session line name tokens command) (fuel : Nat) {d : Nat}
    (hd : d < recursionLimit) (o : Outcome Value) :
    engine.evaluate fuel (recursionLimit - d) h line w = o ↔
      Dispatched (engine.evaluate fuel (recursionLimit - (d + 1))) h command.preEvaluation
        (execute engine fuel (engine.waiting fuel)
          (engine.evaluate fuel (recursionLimit - (d + 1))) h command) line name tokens w o := by
  have hlevels : recursionLimit - d = recursionLimit - (d + 1) + 1 := by omega
  rw [hlevels, hline.evaluate_succ]
  exact (dispatched_iff o).symm

/-- A line in which a block's name is the value of a variable, and the code stays as it is. -/
def addLine : String := "Codeblock \x7b\x7bn\x7d\x7d add Print \x7b\x7bx\x7d\x7d"

/-- The block command is executed once, on the value of the variable and the raw tokens. -/
theorem evaluate_eq_iff_dispatched_addLine :
    (Program.standardEngine default).evaluate 1 1000 { session := 0 } addLine
        ((World.start {}).setVariable 0 "n" (.text "b")) =
      ((runCodeblock ((Program.standardEngine default).evaluate 1 999) { session := 0 }
        [.text "b", .text "add", .text "Print", .text "\x7b\x7bx\x7d\x7d"]).within
          (.command "Codeblock" addLine)) ((World.start {}).setVariable 0 "n" (.text "b")) := by
  have hline : (Program.standardEngine default).Dispatches
      ((World.start {}).setVariable 0 "n" (.text "b")) 0 addLine "Codeblock"
      [.word "\x7b\x7bn\x7d\x7d", .word "add", .word "Print", .word "\x7b\x7bx\x7d\x7d"]
      (.control .codeblock) :=
    ⟨rfl, by decide, by decide, by decide, by decide, _, rfl⟩
  have hdispatched := evaluate_eq_iff_dispatched (h := { session := 0 }) hline 1
    (by decide : 0 < recursionLimit)
  have hnamed : Token.variableName? "\x7b\x7bn\x7d\x7d" = some "n" := by decide
  exact (hdispatched _).2 (.executed (.cons (.stored (by decide) hnamed rfl)
    (.cons (.bare (by decide) (by decide)) (.cons (.raw (by decide))
      (.cons (.raw (by decide)) (.nil _ _))))))

end Engine
end BraceScript
