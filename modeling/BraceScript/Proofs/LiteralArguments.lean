import BraceScript.Proofs.BareGroups
import BraceScript.Proofs.Events
import BraceScript.Proofs.WrappedTokens

/-!
# Texts that reach a command as they are

A text that is written as a quoted span is one token of its line, and a token that is not wrapped in
braces stands for itself at every position. So a command can be given any such text, whichever
positions it wants evaluated: the line executes the command on the texts, and nothing else happens
before that (`Engine.evaluate_literalLine`). An empty text comes as null.

Names of commands are read in the same way: a plain name is one token, and no wrapped one.
-/

namespace BraceScript
open LineGrammar

/-! ### Plain names -/

/-- The text has a character, has no blank, double quote or brace, and does not make a comment. -/
structure IsPlainName (name : String) : Prop where
  ne_empty : name ≠ ""
  plain : ∀ c ∈ name.toList, isBlank c = false ∧ c ≠ '"' ∧ c ≠ '{' ∧ c ≠ '}'
  not_comment : (Token.word name).opensComment = false

namespace IsPlainName
variable {name : String}

theorem iff_all : IsPlainName name ↔ name ≠ "" ∧
    (name.toList.all fun c => !isBlank c && c ≠ '"' && c ≠ '{' && c ≠ '}') = true ∧
    (Token.word name).opensComment = false := by
  have hall : (name.toList.all fun c => !isBlank c && c ≠ '"' && c ≠ '{' && c ≠ '}') = true ↔
      ∀ c ∈ name.toList, isBlank c = false ∧ c ≠ '"' ∧ c ≠ '{' ∧ c ≠ '}' := by
    simp [and_assoc]
  rw [hall]
  exact ⟨fun h => ⟨h.ne_empty, h.plain, h.not_comment⟩, fun h => ⟨h.1, h.2.1, h.2.2⟩⟩

instance : Decidable (IsPlainName name) :=
  decidable_of_iff' _ iff_all

theorem not_isWrapped (h : IsPlainName name) : ¬ Token.IsWrapped name := fun hwrapped =>
  (h.plain '{' (List.mem_of_head? hwrapped.2.1)).2.2.1 rfl

theorem hasBlank_eq_false (h : IsPlainName name) : Text.hasBlank name = false := by
  simp only [Text.hasBlank, List.any_eq_false, Bool.not_eq_true]
  exact fun c hc => (h.plain c hc).1

theorem isBalanced (h : IsPlainName name) : IsBalanced name.toList := by
  have hdepth : ∀ p, p <+: name.toList → depth p = 0 := by
    intro p hp
    have hopen : '{' ∉ p := fun hc => (h.plain _ (hp.subset hc)).2.2.1 rfl
    have hclose : '}' ∉ p := fun hc => (h.plain _ (hp.subset hc)).2.2.2 rfl
    simp [depth, List.count_eq_zero.2 hopen, List.count_eq_zero.2 hclose]
  exact ⟨fun p hp => Int.le_of_eq (hdepth p hp).symm, hdepth _ (List.prefix_refl _)⟩

theorem scanFrom_between (h : IsPlainName name) (rest : List Char) :
    Token.scanFrom .between [] (name.toList ++ rest) =
      Token.scanFrom .plain name.toList.reverse rest := by
  have hopen : '{' ∉ name.toList := fun hc => (h.plain _ hc).2.2.1 rfl
  obtain ⟨hbare, hclosed⟩ := bareFrom_of_not_mem hopen fun c hc => by
    simp [Text.breaksBare, (h.plain c hc).1, (h.plain c hc).2.1]
  obtain ⟨c, cs, hname⟩ := List.exists_cons_of_ne_nil (l := name.toList) (by simpa using h.ne_empty)
  have hfirst : isBlank c = false := (h.plain c (by simp [hname])).1
  have hplain := scanFrom_bare hbare [] rest
  rw [hclosed, List.append_nil] at hplain
  rw [show Token.Mode.plain = modeAt 0 from rfl, ← hplain, hname, List.cons_append,
    scanFrom_between_of_not_isBlank hfirst]
  rfl

end IsPlainName

/-! ### Lines of literal texts -/

/-- A line that names a command and gives it texts, each as a quoted span behind a run of blanks. -/
def literalLine (name : String) (texts : List (Gap × String)) : String :=
  name ++ String.ofList (texts.flatMap fun p => p.1.source ++ (Text.span p.2).toList)

/-- What a text comes to that is written as a quoted span. -/
def Value.ofSpan (s : String) : Value :=
  if s = "" then .null else .text s

theorem Token.toValue_ofValue (s : String) : (Token.ofValue s.toList).toValue = Value.ofSpan s := by
  by_cases hs : s = ""
  · rw [hs]; rfl
  · rw [ofValue_toList hs, Value.ofSpan, if_neg hs, Token.toValue]

theorem scanFrom_plain_spans (token : List Char) (texts : List (Gap × String)) :
    Token.scanFrom .plain token
        (texts.flatMap fun p => p.1.source ++ (Text.span p.2).toList) =
      Token.ofReversed token :: texts.map fun p => Token.ofValue p.2.toList := by
  induction texts generalizing token with
  | nil => rfl
  | cons p texts ih =>
    rw [List.flatMap_cons, List.append_assoc, scanFrom_plain_gap, scanFrom_between_span, ih,
      ofReversed_eq p.2.toList.reverse, List.reverse_reverse, List.map_cons]

theorem IsPlainName.scan_literalLine {name : String} (h : IsPlainName name)
    (texts : List (Gap × String)) :
    Token.scan (literalLine name texts) =
      .word name :: texts.map fun p => Token.ofValue p.2.toList := by
  rw [Token.scan, literalLine, String.toList_append, String.toList_ofList, h.scanFrom_between,
    scanFrom_plain_spans, ofReversed_eq, List.reverse_reverse, ofValue_toList h.ne_empty]

/-! ### Tokens that stand for themselves -/

/-- The token is null or not wrapped. -/
def Token.IsLiteral : Token → Prop
  | null => True
  | word s => reference? s = none

theorem Token.isLiteral_ofValue {s : String} (h : ¬ Token.IsWrapped s) :
    (Token.ofValue s.toList).IsLiteral := by
  by_cases hs : s = ""
  · rw [hs]; trivial
  · rw [ofValue_toList hs]
    exact reference?_eq_none h

namespace Evaluation
variable {eval : Evaluator} {log : Logger} {h : Handle} {pre : PreEvaluation}

theorem argument_of_isLiteral {t : Token} (ht : t.IsLiteral) (position : Nat) :
    argument eval h pre position t = pure t.toValue := by
  cases t with
  | null => rfl
  | word s =>
    have hs : Token.reference? s = none := ht
    rw [argument, substitute, hs]
    split <;> rfl

theorem argumentLog_of_isLiteral {t : Token} (ht : t.IsLiteral) (position : Nat) :
    argumentLog log h pre position t = .nothing := by
  cases t with
  | null => rfl
  | word s =>
    have hs : Token.reference? s = none := ht
    rw [argumentLog, hs]
    split <;> rfl

theorem arguments_of_isLiteral (eval : Evaluator) (log : Logger) (h : Handle) (pre : PreEvaluation)
    {tokens : List Token} (ht : ∀ t ∈ tokens, t.IsLiteral) (line : String) (position : Nat)
    (w : World) :
    arguments eval h pre line position tokens w = .done (tokens.map Token.toValue) w ∧
      argumentsLog eval log h pre position tokens w = [] := by
  induction tokens generalizing position with
  | nil => exact ⟨rfl, rfl⟩
  | cons t tokens ih =>
    have hfirst := ht t (by simp)
    obtain ⟨hvalues, hlog⟩ := ih (fun u hu => ht u (by simp [hu])) (position + 1)
    constructor
    · rw [arguments_cons, argument_of_isLiteral hfirst, Script.bind_apply, Script.within_apply]
      simp [hvalues]
    · rw [argumentsLog, argumentLog_of_isLiteral hfirst, Log.andThen,
        argument_of_isLiteral hfirst]
      exact hlog

end Evaluation

namespace Engine
open Evaluation

theorem Dispatches.log_succ {engine : Engine} {h : Handle} {line name : String}
    {tokens : List Token} {command : Command} {w : World}
    (hline : engine.Dispatches w h.session line name tokens command) (fuel levels : Nat) :
    engine.log fuel (levels + 1) h line w =
      ((argumentsLog (engine.evaluate fuel levels) (engine.log fuel levels) h
        command.preEvaluation 0 tokens).andThen
          (arguments (engine.evaluate fuel levels) h command.preEvaluation line 0 tokens)
          fun args w => .executed h command args w ::
            commandLog engine fuel (engine.waiting fuel) (engine.waitingLog fuel)
              (engine.evaluate fuel levels) (engine.log fuel levels) h command args w) w := by
  obtain ⟨qualified, hresolve⟩ := hline.resolves
  rw [log_eq, log_eq, evaluate_eq, logAt, lineLog, hline.live, hline.scan]
  dsimp only
  rw [hline.not_comment, hline.not_lone]
  dsimp only
  rw [hline.not_blank, guardedLog, dispatchLog, hresolve]
  rfl

/-- A line that names a command by a plain name and gives it texts that are not wrapped in braces,
as quoted spans, executes the command once on these texts, in the world as it is, whichever
positions the command wants evaluated. Nothing happens before that, and after it only what the
command itself makes happen. -/
theorem evaluate_literalLine {engine : Engine} {h : Handle} {w : World} {name : String}
    {command : Command} {qualified : String} (hlive : w.ending h.session = none)
    (hname : IsPlainName name)
    (hresolve : engine.registry.resolve? (w.session h.session).searchOrder name =
      some (qualified, command))
    {texts : List (Gap × String)} (htexts : ∀ p ∈ texts, ¬ Token.IsWrapped p.2) (fuel : Nat)
    {d : Nat} (hd : d < recursionLimit) :
    engine.evaluate fuel (recursionLimit - d) h (literalLine name texts) w =
      ((execute engine fuel (engine.waiting fuel) (engine.evaluate fuel (recursionLimit - (d + 1)))
        h command (texts.map fun p => .ofSpan p.2)).within
          (.command name (literalLine name texts))) w ∧
    engine.log fuel (recursionLimit - d) h (literalLine name texts) w =
      .executed h command (texts.map fun p => .ofSpan p.2) w ::
        commandLog engine fuel (engine.waiting fuel) (engine.waitingLog fuel)
          (engine.evaluate fuel (recursionLimit - (d + 1)))
          (engine.log fuel (recursionLimit - (d + 1))) h command
          (texts.map fun p => .ofSpan p.2) w := by
  have hlevels : recursionLimit - d = recursionLimit - (d + 1) + 1 := by omega
  have hliteral : ∀ t ∈ texts.map fun p => Token.ofValue p.2.toList, t.IsLiteral := by
    intro t ht
    obtain ⟨p, hp, rfl⟩ := List.mem_map.1 ht
    exact Token.isLiteral_ofValue (htexts p hp)
  have hvalues : (texts.map fun p => Token.ofValue p.2.toList).map Token.toValue =
      texts.map fun p => .ofSpan p.2 := by
    simp [Token.toValue_ofValue]
  have hline : engine.Dispatches w h.session (literalLine name texts) name
      (texts.map fun p => Token.ofValue p.2.toList) command :=
    { live := hlive
      scan := hname.scan_literalLine texts
      not_comment := hname.not_comment
      -- only a line without texts is a single token, the name, which is not wrapped
      not_lone := by
        cases texts with
        | nil => exact Token.reference?_eq_none hname.not_isWrapped
        | cons p texts => rfl
      not_blank := hname.hasBlank_eq_false
      resolves := ⟨qualified, hresolve⟩ }
  obtain ⟨hargs, hlog⟩ := arguments_of_isLiteral
    (engine.evaluate fuel (recursionLimit - (d + 1))) (engine.log fuel (recursionLimit - (d + 1))) h
    command.preEvaluation hliteral (literalLine name texts) 0 w
  rw [hvalues] at hargs
  rw [hlevels]
  constructor
  · rw [hline.evaluate_succ, dispatchTo, Script.bind_apply, hargs]
  · rw [hline.log_succ, Log.andThen, hlog, hargs]
    rfl

theorem isBlank_space : isBlank ' ' = true := rfl

theorem isBlank_tab : isBlank '\t' = true := rfl

/-- Texts with quotes, a backslash at the end, no character at all, and a brace that nothing
closes. -/
def hardTexts : List (Gap × String) :=
  [(⟨⟨' ', isBlank_space⟩, []⟩, "say \"hi\" \\"),
    (⟨⟨'\t', isBlank_tab⟩, [⟨' ', isBlank_space⟩]⟩, ""),
    (⟨⟨' ', isBlank_space⟩, []⟩, "//\n\x7ba b")]

theorem evaluate_literalLine_hardTexts :
    literalLine "Print" hardTexts =
      "Print \"say \\\"hi\\\" \\\\\"\t \"\" \"//\n\x7ba b\"" ∧
    (Program.standardEngine default).evaluate 1 1000 { session := 0 }
        (literalLine "Print" hardTexts) (.start {}) =
      ((execute (Program.standardEngine default) 1 ((Program.standardEngine default).waiting 1)
        ((Program.standardEngine default).evaluate 1 999) { session := 0 } (.leaf .print)
        [.text "say \"hi\" \\", .null, .text "//\n\x7ba b"]).within
          (.command "Print" (literalLine "Print" hardTexts))) (.start {}) ∧
    (Program.standardEngine default).log 1 1000 { session := 0 } (literalLine "Print" hardTexts)
        (.start {}) =
      [.executed { session := 0 } (.leaf .print)
        [.text "say \"hi\" \\", .null, .text "//\n\x7ba b"] (.start {})] := by
  have hname : IsPlainName "Print" := by decide
  have hresolve : (Program.standardEngine default).registry.resolve?
      ((World.start {}).session 0).searchOrder "Print" =
        some ("ks.commands.Print", .leaf .print) := rfl
  have htexts : ∀ p ∈ hardTexts, ¬ Token.IsWrapped p.2 := by decide
  exact ⟨by decide, evaluate_literalLine (h := { session := 0 }) rfl hname hresolve htexts 1
    (by decide : 0 < recursionLimit)⟩

end Engine
end BraceScript
