import BraceScript.Proofs.LastResult
import BraceScript.Proofs.LineGrammar
import BraceScript.Proofs.TextLines
import BraceScript.Program

/-!
# A script is the sequence of its lines

Running a script and evaluating its lines as a sequence are two loops. The script passes over blank
lines and comments of both kinds, `#` and `//`; the sequence passes over blank lines and evaluates
a `//` comment, which does nothing but become the last result. With the `#` comments taken out the
two agree (`runFrom_agrees`): line by line they go through worlds that differ in last results only,
which no evaluation looks at.
-/

namespace BraceScript

/-! ### Lines that are passed over -/

namespace LineGrammar

theorem scanFrom_trimStart (cs : List Char) :
    Token.scanFrom .between [] (Chars.trimStart cs) = Token.scanFrom .between [] cs := by
  induction cs with
  | nil => rfl
  | cons c cs ih =>
    cases hc : isBlank c with
    | true =>
      rw [scanFrom_between_of_isBlank hc, ← ih]
      simp [Chars.trimStart, hc]
    | false => simp [Chars.trimStart, hc]

/-- A line whose text begins with two slashes is a comment. -/
theorem exists_opensComment {line : String} (h : ['/', '/'] <+: Chars.trim line.toList) :
    ∃ first rest, Token.scan line = first :: rest ∧ first.opensComment = true := by
  obtain ⟨blanks, hblanks⟩ := Chars.trimStart_eq_trim_append line.toList
  obtain ⟨tail, htail⟩ := h
  rw [← htail, List.append_assoc] at hblanks
  obtain ⟨x, ts, hscan⟩ := exists_scanFrom_eq (m := .plain) (by simp) ['/', '/'] (tail ++ blanks)
  have hfirst : Token.scan line = Token.scanFrom .plain ['/', '/'] (tail ++ blanks) := by
    rw [Token.scan, ← scanFrom_trimStart, hblanks]
    rfl
  rw [hscan] at hfirst
  exact ⟨_, ts, hfirst, by simp [Token.ofValue, Token.opensComment]⟩

end LineGrammar

/-! ### One line of a sequence -/

namespace Evaluation

section
variable {eval : Evaluator} {h : Handle} {w : World} {line : String}

theorem sequenceFrom_of_ending {v : Value} (hended : w.ending h.session = some v) (number : Nat)
    (last : Value) (lines : List String) :
    sequenceFrom eval h number last lines w = .done v w := by
  cases lines with
  | nil => rw [sequenceFrom, Script.read_apply, hended, Option.getD_some]
  | cons line lines =>
    rw [sequenceFrom, Script.bind_apply, Script.read_apply, hended]
    rfl

theorem sequenceFrom_of_blank (hlive : w.ending h.session = none)
    (hblank : Text.isAllBlank line = true) (number : Nat) (last : Value) (lines : List String) :
    sequenceFrom eval h number last (line :: lines) w =
      sequenceFrom eval h (number + 1) last lines w := by
  rw [sequenceFrom, Script.bind_apply, Script.read_apply, hlive]
  simp only [hblank, if_true]

theorem sequenceFrom_of_not_blank (hlive : w.ending h.session = none)
    (hblank : Text.isAllBlank line = false) (number : Nat) (last : Value) (lines : List String) :
    sequenceFrom eval h number last (line :: lines) w =
      match eval h line w with
      | .done v w => sequenceFrom eval h (number + 1) v lines (w.setLast h.session v)
      | .failed e w => .failed (e.within (.line number line)) w
      | .exited code w => .exited code w
      | .exhausted w => .exhausted w := by
  rw [sequenceFrom, Script.bind_apply, Script.read_apply, hlive]
  simp only [hblank, Bool.false_eq_true, if_false, Script.bind_apply, Script.within_apply]
  cases eval h line w <;> rfl

end

/-- A comment does nothing. -/
theorem evaluateLevel_of_opensComment {engine : Engine} {fuel : Nat} {waiting : Script Unit}
    {lower : Option Evaluator} {h : Handle} {w : World} {line : String} {first : Token}
    {rest : List Token} (hlive : w.ending h.session = none)
    (hscan : Token.scan line = first :: rest) (hcomment : first.opensComment = true) :
    evaluateLevel engine fuel waiting lower h line w = .done commentValue w := by
  rw [evaluateLevel, Script.bind_apply, Script.read_apply, hlive, hscan]
  simp only [hcomment, if_true, Script.pure_apply]

end Evaluation

theorem Engine.evaluate_of_opensComment {engine : Engine} {h : Handle} {w : World} {line : String}
    {first : Token} {rest : List Token} (hlive : w.ending h.session = none)
    (hscan : Token.scan line = first :: rest) (hcomment : first.opensComment = true)
    (fuel levels : Nat) : engine.evaluate fuel levels h line w = .done commentValue w := by
  cases levels with
  | zero =>
    rw [Engine.evaluate_zero]
    exact Evaluation.evaluateLevel_of_opensComment hlive hscan hcomment
  | succ levels =>
    rw [Engine.evaluate_succ]
    exact Evaluation.evaluateLevel_of_opensComment hlive hscan hcomment

/-! ### Lines that are reached -/

namespace ScriptFile
open Evaluation

/-- A line, or a blank one where it is a comment that begins with `#`. -/
def withoutHash (line : String) : String :=
  if ['#'].isPrefixOf (Chars.trim line.toList) then "" else line

/-- Does the sequence get through the lines before the one with an index, and is the session still
live then? -/
def reaches (eval : Evaluator) (h : Handle) (number : Nat) (last : Value) (lines : List String)
    (w : World) (index : Nat) : Bool :=
  match sequenceFrom eval h number last (lines.take index) w with
  | .done _ w => (w.ending h.session).isNone
  | _ => false

/-- How many lines that a script does not skip are reached. -/
def reachedCode (eval : Evaluator) (h : Handle) (number : Nat) (last : Value) (lines : List String)
    (w : World) : Nat :=
  (List.range lines.length).countP fun index =>
    !isSkippedLine (lines.getD index "") &&
      reaches eval h number last (lines.map withoutHash) w index

section
variable {eval : Evaluator} {h : Handle} {number : Nat} {last : Value} {line : String}
  {lines : List String} {w : World}

theorem reachedCode_of_ending {v : Value} (hended : w.ending h.session = some v) :
    reachedCode eval h number last lines w = 0 := by
  rw [reachedCode, List.countP_eq_zero]
  intro index _
  simp [reaches, sequenceFrom_of_ending hended, hended]

theorem reachedCode_cons (hlive : w.ending h.session = none) :
    reachedCode eval h number last (line :: lines) w =
      (if isSkippedLine line then 0 else 1) + (List.range lines.length).countP fun index =>
        !isSkippedLine (lines.getD index "") &&
          reaches eval h number last ((line :: lines).map withoutHash) w (index + 1) := by
  have hfirst : reaches eval h number last ((line :: lines).map withoutHash) w 0 = true := by
    simp [reaches, sequenceFrom, hlive]
  rw [reachedCode, List.length_cons, List.range_succ_eq_map, List.countP_cons, List.countP_map,
    List.getD_cons_zero, hfirst, Nat.add_comm]
  cases isSkippedLine line <;> rfl

theorem reachedCode_of_continues {next : Value} {w' : World} (hlive : w.ending h.session = none)
    (hnext : ∀ rest, sequenceFrom eval h number last (withoutHash line :: rest) w =
      sequenceFrom eval h (number + 1) next rest w') :
    reachedCode eval h number last (line :: lines) w =
      (if isSkippedLine line then 0 else 1) +
        reachedCode eval h (number + 1) next lines w' := by
  rw [reachedCode_cons hlive, reachedCode]
  simp only [reaches, List.map_cons, List.take_succ_cons, hnext]

theorem reachedCode_of_stops (hlive : w.ending h.session = none)
    (hstops : ∀ rest v w', sequenceFrom eval h number last (withoutHash line :: rest) w ≠
      .done v w') :
    reachedCode eval h number last (line :: lines) w = if isSkippedLine line then 0 else 1 := by
  rw [reachedCode_cons hlive, Nat.add_eq_left, List.countP_eq_zero]
  intro index _
  rw [reaches, List.map_cons, List.take_succ_cons]
  split
  · rename_i v w' hdone
    exact absurd hdone (hstops _ v w')
  · simp

end

/-! ### The two loops -/

/-- How the sequence of a script's lines ends, and how the script does that evaluated a number of
lines. A script shows the error of the line that failed without the frame of the line, and then the
line; it fails where the sequence does, and is broken off where the sequence is. -/
inductive Agrees (executed : Nat) : Outcome Value → Ended Report → Prop
  | done {v : Value} {w w' : World} (hw : w.SameButLast w') :
    Agrees executed (.done v w) (.ok { executed, failedAt := none }, w')
  | failed {e : ScriptError} {number : Nat} {line : String} {w w' : World}
    (hw : w.SameButLast w') :
    Agrees executed (.failed (e.within (.line number line)) w)
      (.ok { executed, failedAt := some number },
        (w'.write .shell (Shell.errorLine e)).write .shell (failureLine number line))
  | exited {code : Int32} {w w' : World} (hw : w.SameButLast w') :
    Agrees executed (.exited code w) (.error (.exited code), w')
  | exhausted {w w' : World} (hw : w.SameButLast w') :
    Agrees executed (.exhausted w) (.error .exhausted, w')

/-- A line that a script skips is blank for the sequence, or a comment. -/
theorem isAllBlank_or_comment {line : String} (hskipped : isSkippedLine line = true) :
    Text.isAllBlank (withoutHash line) = true ∨
      withoutHash line = line ∧ Text.isAllBlank line = false ∧
        ['/', '/'] <+: Chars.trim line.toList := by
  unfold withoutHash
  split
  · exact .inl rfl
  · rename_i hhash
    cases hblank : Text.isAllBlank line with
    | true => exact .inl rfl
    | false =>
      have htrim : Chars.trim line.toList ≠ [] := by
        rw [Ne, Chars.trim_eq_nil_iff, ← Text.isAllBlank, hblank]
        exact Bool.false_ne_true
      refine .inr ⟨rfl, rfl, ?_⟩
      simpa [isSkippedLine, htrim, hhash] using hskipped

theorem isAllBlank_of_not_skipped {line : String} (hcode : isSkippedLine line = false) :
    withoutHash line = line ∧ Text.isAllBlank line = false := by
  simp only [isSkippedLine, Bool.or_eq_false_iff, List.isEmpty_eq_false_iff] at hcode
  obtain ⟨⟨htrim, hhash⟩, -⟩ := hcode
  refine ⟨by rw [withoutHash, hhash, if_neg Bool.false_ne_true], ?_⟩
  rw [Ne, Chars.trim_eq_nil_iff] at htrim
  exact Bool.eq_false_iff.2 htrim

/-- The sequence goes on behind a line that a script skips, with only last results changed. -/
theorem sequenceFrom_of_skipped (engine : Engine) {h : Handle} {line : String} {w : World}
    (hlive : w.ending h.session = none) (hskipped : isSkippedLine line = true)
    (fuel levels number : Nat) (last : Value) :
    ∃ next w₁, w₁.SameButLast w ∧ ∀ rest,
      sequenceFrom (engine.evaluate fuel levels) h number last (withoutHash line :: rest) w =
        sequenceFrom (engine.evaluate fuel levels) h (number + 1) next rest w₁ := by
  rcases isAllBlank_or_comment hskipped with hblank | ⟨hline, hblank, hslashes⟩
  · exact ⟨last, w, .refl w, fun rest => sequenceFrom_of_blank hlive hblank number last rest⟩
  · obtain ⟨first, tokens, hscan, hcomment⟩ := LineGrammar.exists_opensComment hslashes
    refine ⟨commentValue, w.setLast h.session commentValue, ?_, fun rest => ?_⟩
    · exact World.forgetLast_setLast w h.session commentValue
    · rw [hline, sequenceFrom_of_not_blank hlive hblank,
        engine.evaluate_of_opensComment hlive hscan hcomment]

theorem sequenceFrom_of_code {eval : Evaluator} {h : Handle} {line : String} {w : World}
    (hlive : w.ending h.session = none) (hcode : isSkippedLine line = false) (number : Nat)
    (last : Value) (rest : List String) :
    sequenceFrom eval h number last (withoutHash line :: rest) w =
      match eval h line w with
      | .done v w => sequenceFrom eval h (number + 1) v rest (w.setLast h.session v)
      | .failed e w => .failed (e.within (.line number line)) w
      | .exited code w => .exited code w
      | .exhausted w => .exhausted w := by
  obtain ⟨hline, hblank⟩ := isAllBlank_of_not_skipped hcode
  rw [hline]
  exact sequenceFrom_of_not_blank hlive hblank number last rest

/-- Both loops evaluate a line of code, and go on or stop alike. -/
theorem agrees_cons_of_code {eval : Evaluator} {place : Place} {h : Handle} {input : Input}
    {line : String} {lines : List String} {number executed : Nat} {last : Value} {w w' : World}
    (hlive : w.ending h.session = none) (hcode : isSkippedLine line = false)
    (hline : Outcome.Related Eq World.SameButLast (eval h line w) (eval h line w'))
    (hrest : ∀ {v : Value} {w w' : World}, w.SameButLast w' →
      Agrees (executed + 1 + reachedCode eval h (number + 1) v lines w)
        (sequenceFrom eval h (number + 1) v (lines.map withoutHash) w)
        (runFrom eval place h (number + 1) (executed + 1) lines input w')) :
    Agrees (executed + reachedCode eval h number last (line :: lines) w)
      (sequenceFrom eval h number last ((line :: lines).map withoutHash) w)
      (match perform eval h number line w' with
        | (.ok true, w) => runFrom eval place h (number + 1) (executed + 1) lines input w
        | (.ok false, w) => (.ok { executed := executed + 1, failedAt := some number }, w)
        | (.error halt, w) => (.error halt, w)) := by
  have hstep := @sequenceFrom_of_code eval h line w hlive hcode number last
  rw [List.map_cons, perform]
  generalize eval h line w = o, eval h line w' = o' at hline hstep
  cases hline with
  | done v hw =>
    rw [reachedCode_of_continues hlive hstep, hstep, hcode, if_neg Bool.false_ne_true,
      ← Nat.add_assoc]
    exact hrest (hw.change (.setLast _ _))
  | failed he hw =>
    subst he
    rw [reachedCode_of_stops hlive (by simp [hstep]), hstep, hcode, if_neg Bool.false_ne_true]
    exact .failed hw
  | exited code hw =>
    rw [hstep]
    exact .exited hw
  | exhausted hw =>
    rw [hstep]
    exact .exhausted hw

theorem runFrom_agrees {engine : Engine}
    (hcustoms : engine.registry.CustomsHave Script.IgnoresLast) (fuel levels : Nat) (place : Place)
    (h : Handle) (input : Input) {lines : List String}
    (hshell : ∀ line ∈ lines, Text.trim line ≠ "ShellMode") (number executed : Nat) (last : Value)
    {w w' : World} (hw : w.SameButLast w') :
    Agrees (executed + reachedCode (engine.evaluate fuel levels) h number last lines w)
      (sequenceFrom (engine.evaluate fuel levels) h number last (lines.map withoutHash) w)
      (runFrom (engine.evaluate fuel levels) place h number executed lines input w') := by
  have hending : ∀ {w w' : World}, w.SameButLast w' → w.ending h.session = w'.ending h.session :=
    fun hw => hw.read_eq (World.blind_ending h.session)
  induction lines generalizing number executed last w w' with
  | nil => exact .done hw
  | cons line lines ih =>
    have ih := @ih fun line hline => hshell line (by simp [hline])
    rw [runFrom, ← hending hw]
    cases hended : w.ending h.session with
    | some v =>
      rw [reachedCode_of_ending hended, sequenceFrom_of_ending hended]
      exact .done hw
    | none =>
      rw [if_neg (by simp), lineKind, List.map_cons]
      cases hskipped : isSkippedLine line with
      | true =>
        obtain ⟨next, w₁, hw₁, hnext⟩ :=
          sequenceFrom_of_skipped engine hended hskipped fuel levels number last
        rw [reachedCode_of_continues hended hnext, hnext, hskipped]
        simp only [if_true, Nat.zero_add]
        exact ih (number + 1) executed next (hw₁.trans hw)
      | false =>
        rw [if_neg Bool.false_ne_true, if_neg (hshell line (by simp)), ← List.map_cons]
        exact agrees_cons_of_code hended hskipped
          (engine.ignoresLast_evaluate hcustoms fuel levels h line hw) fun hw => ih _ _ _ hw

/-- A command that gives the last result tells the two apart: behind a comment that begins with `//`
the sequence has the value of the comment, where the script has what was there before. -/
example :
    let latest : Command := .custom (.only []) fun h _ => .read fun w => (w.session h.session).last
    let engine : Engine :=
      { Program.standardEngine default with
        registry := Registry.standard.add "ks.commands.Latest" latest }
    let lines := ["// c", "StoreValue x \x7bLatest\x7d"]
    ((sequence (engine.evaluate 1 2) { session := 0 } lines (.start {})).world.valueOf? 0 "x").map
        Value.isNull = some false ∧
      ((run (engine.evaluate 1 2) default { session := 0 } ("\n".intercalate lines) []
        (.start {})).2.valueOf? 0 "x").map Value.isNull = some true := by
  decide +kernel

end ScriptFile
end BraceScript
