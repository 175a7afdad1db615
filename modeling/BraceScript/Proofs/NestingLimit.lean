import BraceScript.Proofs.DeferredTokens

/-!
# The nesting limit is exact

A command nested in itself, `c {c {… {c x}}}`, takes as many levels as it is named times. With that
many levels left, or more, the innermost line runs first and each line around it runs on the value
of the one inside. With fewer, the levels are used up on the way in: no command has run by then, and
the error passes one argument of each line that was entered on its way out.

`evaluate_tower_of_lt` and `evaluate_tower_of_le` say so for any number of levels, by induction on
the tower; `evaluate_tower` is the case of a line that starts with all of them.
-/

namespace BraceScript
open LineGrammar

/-! ### The lines of a tower -/

theorem LineGrammar.IsBalanced.append {cs ds : List Char} (hcs : IsBalanced cs)
    (hds : IsBalanced ds) : IsBalanced (cs ++ ds) := by
  refine ⟨fun p hp => ?_, by rw [depth_append, hcs.closes, hds.closes]; rfl⟩
  rcases List.prefix_or_prefix_of_prefix hp (List.prefix_append cs ds) with hp' | ⟨q, rfl⟩
  · exact hcs.inside p hp'
  · have hq := hds.inside q ((List.prefix_append_right_inj _).1 hp)
    rw [depth_append, hcs.closes]
    omega

/-- The line `name x`, and with `k` more of them around it the line `name {…}`. -/
def tower (name : String) : (k : Nat) → String
  | 0 => name ++ " " ++ "x"
  | k + 1 => name ++ " " ++ Token.inBraces (tower name k)

/-- The argument in a line of a tower. -/
def towerArgument (name : String) : (k : Nat) → String
  | 0 => "x"
  | k + 1 => Token.inBraces (tower name k)

theorem tower_eq (name : String) (k : Nat) :
    tower name k = name ++ " " ++ towerArgument name k := by
  cases k <;> rfl

namespace IsPlainName
variable {name : String}

theorem scan_append_space (h : IsPlainName name) (rest : String) :
    Token.scan (name ++ " " ++ rest) = .word name :: Token.scan rest := by
  have htext : (name ++ " " ++ rest).toList = name.toList ++ ' ' :: rest.toList := by simp
  rw [Token.scan, htext, h.scanFrom_between, scanFrom_plain_of_isBlank rfl, ofReversed_eq,
    List.reverse_reverse, ofValue_toList h.ne_empty]
  rfl

theorem isBalanced_tower (h : IsPlainName name) (k : Nat) :
    IsBalanced (tower name k).toList := by
  have hargument : IsBalanced (towerArgument name k).toList := by
    cases k with
    | zero => exact (by decide : IsBalanced "x".toList)
    | succ k =>
      rw [towerArgument, Token.inBraces, String.toList_ofList]
      exact (isGroup_braced_iff.2 (isBalanced_tower h k)).isBalanced
  have hspace : IsBalanced " ".toList := by decide
  rw [tower_eq, String.toList_append, String.toList_append]
  exact (h.isBalanced.append hspace).append hargument

theorem scan_tower (h : IsPlainName name) (k : Nat) :
    Token.scan (tower name k) = [.word name, .word (towerArgument name k)] := by
  rw [tower_eq, h.scan_append_space]
  cases k with
  | zero => rw [towerArgument, (by decide : Token.scan "x" = [.word "x"])]
  | succ k => rw [towerArgument, Token.scan_inBraces (h.isBalanced_tower k)]

theorem unbraced?_tower (h : IsPlainName name) (k : Nat) :
    Token.unbraced? (tower name k) = none := by
  refine Option.eq_none_iff_forall_ne_some.2 fun inner hinner => ?_
  have hfirst := (Token.isWrapped_of_unbraced? hinner).2.1
  obtain ⟨c, cs, hname⟩ := List.exists_cons_of_ne_nil (l := name.toList) (by simpa using h.ne_empty)
  have hc : c = '{' := by
    rw [tower_eq, String.toList_append, String.toList_append, hname] at hfirst
    simpa using hfirst
  exact (h.plain c (by simp [hname])).2.2.1 hc

end IsPlainName

/-! ### Lines with one argument -/

namespace Evaluation

theorem commandLog_singleton (engine : Engine) (fuel : Nat) (waiting : Script Unit)
    (waitingLog : Log) (eval : Evaluator) (log : Logger) (h : Handle) (command : Command)
    (v : Value) :
    commandLog engine fuel waiting waitingLog eval log h command [v] = .nothing := by
  cases command with
  | control command =>
    cases command with
    | codeblock => simp [commandLog, codeblockLog]
    | invokeMethodOf => simp [commandLog, methodLog]
    | _ => rfl
  | _ => rfl

end Evaluation

namespace Engine
open Evaluation

section
variable {engine : Engine} {h : Handle} {line name : String} {t : Token} {command : Command}
  {w w₁ : World} {fuel levels : Nat}

theorem Dispatches.evaluate_zero {tokens : List Token}
    (hline : engine.Dispatches w h.session line name tokens command) (fuel : Nat) :
    engine.evaluate fuel 0 h line w = .failed ⟨.tooDeep recursionLimit, []⟩ w ∧
      engine.log fuel 0 h line w = [] := by
  constructor
  · rw [Engine.evaluate_zero, evaluateLevel, Script.bind_apply, Script.read_apply, hline.live,
      hline.scan]
    dsimp only
    rw [hline.not_comment, if_neg Bool.false_ne_true, evaluateTokens, hline.not_lone]
    dsimp only
    rw [hline.not_blank, if_neg Bool.false_ne_true]
    rfl
  · rw [log_eq, logAt, lineLog, hline.live, hline.scan]
    dsimp only
    rw [hline.not_comment, hline.not_lone]
    dsimp only
    rw [hline.not_blank]
    rfl

theorem Dispatches.evaluate_of_done
    (hline : engine.Dispatches w h.session line name [t] command) {v : Value}
    (ht : Argument (engine.evaluate fuel levels) h command.preEvaluation 0 w t (.done v w₁)) :
    engine.evaluate fuel (levels + 1) h line w =
      ((execute engine fuel (engine.waiting fuel) (engine.evaluate fuel levels) h command
        [v]).within (.command name line)) w₁ ∧
    engine.log fuel (levels + 1) h line w =
      argumentLog (engine.log fuel levels) h command.preEvaluation 0 t w ++
        [.executed h command [v] w₁] := by
  have hargs : ArgumentList (engine.evaluate fuel levels) h command.preEvaluation 0 w [t] [v] w₁ :=
    .cons ht (.nil _ _)
  refine ⟨hline.evaluate_of_argumentList hargs, ?_⟩
  rw [hline.log_succ, Log.andThen, hargs.arguments_eq, argumentsLog, Log.andThen, ht.eq]
  dsimp only
  rw [commandLog_singleton, argumentsLog]
  simp [Log.nothing]

theorem Dispatches.evaluate_of_failed
    (hline : engine.Dispatches w h.session line name [t] command) {e : ScriptError}
    (ht : Argument (engine.evaluate fuel levels) h command.preEvaluation 0 w t (.failed e w₁)) :
    engine.evaluate fuel (levels + 1) h line w = .failed (e.within (.argument 0 line)) w₁ ∧
    engine.log fuel (levels + 1) h line w =
      argumentLog (engine.log fuel levels) h command.preEvaluation 0 t w := by
  have hargs : arguments (engine.evaluate fuel levels) h command.preEvaluation line 0 [t] w =
      .failed (e.within (.argument 0 line)) w₁ := by
    rw [arguments_cons, Script.bind_apply, Script.within_apply, ht.eq]
  constructor
  · rw [hline.evaluate_succ, dispatchTo, Script.bind_apply, hargs]
  · rw [hline.log_succ, Log.andThen, hargs, argumentsLog, Log.andThen, ht.eq]
    simp

end

/-! ### Towers -/

/-- In the world the name stands, in a live session, for a command that wants its first argument
evaluated and, given one argument, whatever it is, succeeds and leaves the session as it is. -/
structure Nests (engine : Engine) (fuel : Nat) (h : Handle) (name : String) (command : Command)
    (w : World) : Prop where
  live : w.ending h.session = none
  plain : IsPlainName name
  resolves : ∃ qualified, engine.registry.resolve? (w.session h.session).searchOrder name =
    some (qualified, command)
  eligible : command.preEvaluation.isEligible 0 = true
  succeeds : ∀ levels v w, ∃ u w', execute engine fuel (engine.waiting fuel)
    (engine.evaluate fuel levels) h command [v] w = .done u w' ∧
      w'.session h.session = w.session h.session

namespace Nests
variable {engine : Engine} {fuel : Nat} {h : Handle} {name : String} {command : Command}
  {w : World}

theorem dispatches (hw : engine.Nests fuel h name command w) (k : Nat) :
    engine.Dispatches w h.session (tower name k) name [.word (towerArgument name k)] command where
  live := hw.live
  scan := hw.plain.scan_tower k
  not_comment := hw.plain.not_comment
  not_lone := rfl
  not_blank := hw.plain.hasBlank_eq_false
  resolves := hw.resolves

/-- What is in braces is evaluated as the line of the tower below. -/
theorem argument_succ (hw : engine.Nests fuel h name command w) (eval : Evaluator) (log : Logger)
    (k : Nat) (w : World) :
    Argument eval h command.preEvaluation 0 w (.word (towerArgument name (k + 1)))
        (eval h (tower name k) w) ∧
      argumentLog log h command.preEvaluation 0 (.word (towerArgument name (k + 1))) w =
        log h (tower name k) w := by
  have hunbraced := hw.plain.unbraced?_tower k
  refine ⟨.nested hw.eligible (Token.nestedLine?_inBraces hunbraced), ?_⟩
  rw [argumentLog, hw.eligible, if_pos rfl, towerArgument, Token.reference?_inBraces,
    Token.insideReference, hunbraced]
  rfl

/-- With enough levels each command of the tower runs once. -/
theorem evaluate_tower_of_lt (hw : engine.Nests fuel h name command w) {k levels : Nat}
    (hk : k < levels) :
    (∃ v w', engine.evaluate fuel levels h (tower name k) w = .done v w' ∧
      w'.session h.session = w.session h.session) ∧
    (engine.log fuel levels h (tower name k) w).length = k + 1 ∧
    ∀ e ∈ engine.log fuel levels h (tower name k) w, ∃ v w₁, e = .executed h command [v] w₁ := by
  induction k generalizing levels with
  | zero =>
    obtain ⟨levels, rfl⟩ := Nat.exists_eq_succ_of_ne_zero (Nat.ne_of_gt hk)
    have hx : Argument (engine.evaluate fuel levels) h command.preEvaluation 0 w (.word "x")
        (.done (.text "x") w) := .bare (by decide) (by decide)
    obtain ⟨heval, hlog⟩ := (hw.dispatches 0).evaluate_of_done hx
    obtain ⟨v, w', hdone, hsession⟩ := hw.succeeds levels (.text "x") w
    have hliteral : Token.IsLiteral (.word "x") := (by decide : Token.reference? "x" = none)
    have hnothing : argumentLog (engine.log fuel levels) h command.preEvaluation 0 (.word "x") w =
        [] := by
      rw [argumentLog_of_isLiteral hliteral]
      rfl
    rw [towerArgument, hnothing, List.nil_append] at hlog
    refine ⟨⟨v, w', ?_, hsession⟩, by rw [hlog]; rfl, by simp [hlog]⟩
    rw [heval, Script.within_apply, hdone]
  | succ k ih =>
    obtain ⟨levels, rfl⟩ := Nat.exists_eq_succ_of_ne_zero (Nat.ne_of_gt (Nat.zero_lt_of_lt hk))
    obtain ⟨⟨v, w₁, hinner, hsession₁⟩, hlength, hevents⟩ := ih (Nat.lt_of_succ_lt_succ hk)
    obtain ⟨harg, harglog⟩ :=
      hw.argument_succ (engine.evaluate fuel levels) (engine.log fuel levels) k w
    rw [hinner] at harg
    obtain ⟨heval, hlog⟩ := (hw.dispatches (k + 1)).evaluate_of_done harg
    obtain ⟨u, w', hdone, hsession⟩ := hw.succeeds levels v w₁
    rw [harglog] at hlog
    refine ⟨⟨u, w', ?_, hsession.trans hsession₁⟩, ?_, ?_⟩
    · rw [heval, Script.within_apply, hdone]
    · rw [hlog, List.length_append, hlength, List.length_singleton]
    · intro e he
      rw [hlog, List.mem_append, List.mem_singleton] at he
      rcases he with he | rfl
      · exact hevents e he
      · exact ⟨v, w₁, rfl⟩

/-- With too few levels no command runs, and every line that was entered is in the error. -/
theorem evaluate_tower_of_le (hw : engine.Nests fuel h name command w) {k levels : Nat}
    (hk : levels ≤ k) :
    engine.evaluate fuel levels h (tower name k) w =
      .failed ⟨.tooDeep recursionLimit,
        (List.range levels).map fun j => .argument 0 (tower name (k - j))⟩ w ∧
    engine.log fuel levels h (tower name k) w = [] := by
  induction levels generalizing k with
  | zero => exact (hw.dispatches k).evaluate_zero fuel
  | succ levels ih =>
    obtain ⟨k, rfl⟩ := Nat.exists_eq_succ_of_ne_zero (Nat.ne_of_gt (Nat.zero_lt_of_lt hk))
    obtain ⟨hinner, hinnerlog⟩ := ih (Nat.le_of_succ_le_succ hk)
    obtain ⟨harg, harglog⟩ :=
      hw.argument_succ (engine.evaluate fuel levels) (engine.log fuel levels) k w
    rw [hinner] at harg
    obtain ⟨heval, hlog⟩ := (hw.dispatches (k + 1)).evaluate_of_failed harg
    refine ⟨?_, by rw [hlog, harglog, hinnerlog]⟩
    -- the frame of the outermost line comes before those of the tower below
    rw [heval, List.range_succ_eq_map, List.map_cons, List.map_map]
    simp [ScriptError.within, Function.comp_def]

end Nests

/-- A line in which a command is nested in itself `k` times succeeds where `k + 1` levels are within
the limit, and the command is executed `k + 1` times. Else the line fails for want of levels, inside
an argument of each of the outermost lines, as many as the limit; the command has not been executed
at all, nothing has changed, and whatever is evaluated next has all levels again. The last is so by
construction: levels are handed down as an argument and never counted back. -/
theorem evaluate_tower {engine : Engine} {fuel : Nat} {h : Handle} {name : String}
    {command : Command} {w : World} (hw : engine.Nests fuel h name command w) (k : Nat) :
    (k + 1 ≤ recursionLimit →
      (∃ v w', engine.evaluate fuel recursionLimit h (tower name k) w = .done v w' ∧
        w'.session h.session = w.session h.session) ∧
      (engine.log fuel recursionLimit h (tower name k) w).length = k + 1 ∧
      ∀ e ∈ engine.log fuel recursionLimit h (tower name k) w,
        ∃ v w₁, e = .executed h command [v] w₁) ∧
    (recursionLimit < k + 1 →
      engine.evaluate fuel recursionLimit h (tower name k) w =
        .failed ⟨.tooDeep recursionLimit,
          (List.range recursionLimit).map fun j => .argument 0 (tower name (k - j))⟩ w ∧
      engine.log fuel recursionLimit h (tower name k) w = [] ∧
      ∀ line, ((engine.evaluate fuel recursionLimit h (tower name k)).quietly >>= fun _ =>
        engine.evaluate fuel recursionLimit h line) w =
          engine.evaluate fuel recursionLimit h line w) := by
  refine ⟨fun hk => hw.evaluate_tower_of_lt hk, fun hk => ?_⟩
  obtain ⟨hfailed, hlog⟩ := hw.evaluate_tower_of_le (Nat.le_of_lt_succ hk)
  refine ⟨hfailed, hlog, fun line => ?_⟩
  rw [Script.bind_apply, Script.quietly, hfailed]

/-- Printing a value succeeds and leaves the session as it is. -/
theorem nests_print :
    (Program.standardEngine default).Nests 1 { session := 0 } "Print" (.leaf .print)
      (.start {}) where
  live := rfl
  plain := by decide
  resolves := ⟨_, rfl⟩
  eligible := rfl
  succeeds _ _ _ := ⟨_, _, rfl, rfl⟩

theorem evaluate_tower_print :
    tower "Print" 2 = "Print \x7bPrint \x7bPrint x\x7d\x7d" ∧
    (∃ v w', (Program.standardEngine default).evaluate 1 1000 { session := 0 }
      (tower "Print" 999) (.start {}) = .done v w' ∧ w'.session 0 = (World.start {}).session 0) ∧
    (Program.standardEngine default).evaluate 1 1000 { session := 0 } (tower "Print" 1000)
        (.start {}) =
      .failed ⟨.tooDeep 1000,
        (List.range 1000).map fun j => .argument 0 (tower "Print" (1000 - j))⟩ (.start {}) :=
  ⟨by decide, ((evaluate_tower nests_print 999).1 (by decide)).1,
    ((evaluate_tower nests_print 1000).2 (by decide)).1⟩

end Engine
end BraceScript
