import BraceScript.Program
import BraceScript.Proofs.Dispatch
import BraceScript.Proofs.EvaluationClosure

/-!
# Limits that do not show

An evaluation works under two limits: the levels that are left to it, and the fuel. Of two runs with
different limits, either the one with less has an ending that tells of that, from which nothing
recovers, or both end alike (`Script.Unless`).

* A line that succeeds with some levels succeeds in the same way with more of them
  (`Engine.evaluate_eq_done_of_deeper`). The one thing that fewer levels can change is that some
  line fails.
* A line that ends within its fuel ends in the same way with more
  (`Engine.evaluate_unlessExhausted`).
* Fuel is for loops. Where there are none, every line and every sequence of lines comes to an end,
  whatever blocks run one another (`Engine.evaluate_ends_of_loopFree`): a block runs the lines that
  it held at the start, and each evaluation inside another has a level less.
-/

namespace BraceScript

/-! ### Two runs that differ in an ending -/

namespace Script

/-- The second run ends as the first one does, unless the first has an ending that is set apart. -/
def Unless (p : {α : Type} → Outcome α → Prop) {α : Type} (x x' : Script α) : Prop :=
  ∀ w, p (x w) ∨ x' w = x w

/-- Nothing recovers from such an ending. -/
structure IsFinal (p : {α : Type} → Outcome α → Prop) : Prop where
  bind {α β : Type} {x : Script α} {w : World} (f : α → Script β) : p (x w) → p ((x >>= f) w)
  mapError {α : Type} {x : Script α} {w : World} (f : ScriptError → ScriptError) :
    p (x w) → p (x.mapError f w)

namespace Unless
variable {p : {α : Type} → Outcome α → Prop} {α β : Type}

theorem refl (x : Script α) : Unless p x x :=
  fun _ => .inr rfl

theorem bind (hp : IsFinal p) {x x' : Script α} {f f' : α → Script β} (hx : Unless p x x')
    (hf : ∀ a, Unless p (f a) (f' a)) : Unless p (x >>= f) (x' >>= f') := by
  intro w
  rcases hx w with hfinal | heq
  · exact .inl (hp.bind f hfinal)
  · rw [bind_apply x', heq]
    cases hx : x w with
    | done a w₁ =>
      rw [bind_apply, hx]
      exact hf a w₁
    | _ => exact .inr (by rw [bind_apply, hx])

theorem mapError (hp : IsFinal p) {x x' : Script α} (f : ScriptError → ScriptError)
    (hx : Unless p x x') : Unless p (x.mapError f) (x'.mapError f) := by
  intro w
  rcases hx w with hfinal | heq
  · exact .inl (hp.mapError f hfinal)
  · exact .inr (by rw [Script.mapError, Script.mapError, heq])

theorem isCongruence (hp : IsFinal p) : IsCongruence (Unless p) where
  pure _ := refl _
  bind := bind hp
  fail _ := refl _
  exit _ := refl _
  read _ := refl _
  change _ := refl _
  mapError := mapError hp

end Unless

/-- The second run ends as the first one does, unless the first fails. -/
abbrev UnlessFailed {α : Type} (x x' : Script α) : Prop :=
  Unless (fun o => ∃ e w', o = .failed e w') x x'

theorem UnlessFailed.isCongruence : IsCongruence UnlessFailed :=
  Unless.isCongruence
    { bind := by
        rintro α β x w f ⟨e, w', hx⟩
        exact ⟨e, w', by rw [bind_apply, hx]⟩
      mapError := by
        rintro α x w f ⟨e, w', hx⟩
        exact ⟨f e, w', by rw [Script.mapError, hx]⟩ }

/-- The second run ends as the first one does, unless the first is given too little. -/
abbrev UnlessExhausted {α : Type} (x x' : Script α) : Prop :=
  Unless (fun o => ∃ w', o = .exhausted w') x x'

namespace UnlessExhausted
variable {α : Type}

theorem isCongruence : IsCongruence UnlessExhausted :=
  Unless.isCongruence
    { bind := by
        rintro α β x w f ⟨w', hx⟩
        exact ⟨w', by rw [bind_apply, hx]⟩
      mapError := by
        rintro α x w f ⟨w', hx⟩
        exact ⟨w', by rw [Script.mapError, hx]⟩ }

theorem of_exhausted (x : Script α) : UnlessExhausted .exhausted x :=
  fun w => .inl ⟨w, rfl⟩

theorem quietly {x x' : Script α} (hx : UnlessExhausted x x') :
    UnlessExhausted x.quietly x'.quietly := by
  intro w
  rcases hx w with ⟨w', hx⟩ | heq
  · exact .inl ⟨w', by rw [Script.quietly, hx]⟩
  · exact .inr (by rw [Script.quietly, Script.quietly, heq])

/-- A run that ends within what it was given ends the same with more. -/
theorem eq_of_ne {x x' : Script α} (hx : UnlessExhausted x x') {w : World} {o : Outcome α}
    (ho : x w = o) (hended : ∀ w', o ≠ .exhausted w') : x' w = o := by
  rcases hx w with ⟨w', hexhausted⟩ | heq
  · exact absurd (ho.symm.trans hexhausted) (hended w')
  · exact heq.trans ho

end UnlessExhausted
end Script

/-! ### Levels -/

namespace Evaluation
open Script (UnlessFailed)

/-- With fewer levels a line ends as with more, unless it fails. -/
theorem evaluateAt_unlessFailed (engine : Engine) (fuel : Nat) (waiting : Script Unit)
    {levels levels' : Nat} (hle : levels ≤ levels') (h : Handle) (line : String) :
    (evaluateAt engine fuel waiting levels h line).UnlessFailed
      (evaluateAt engine fuel waiting levels' h line) := by
  have hcommands : CommandsRelated UnlessFailed engine fuel fuel waiting waiting :=
    commandsRelated_of_exhausted UnlessFailed.isCongruence (.refl _) (fun _ _ _ => .refl _)
      (.refl _)
  induction levels generalizing levels' h line with
  | zero =>
    -- no level is left, so whatever needs one fails
    have hlower : ∀ lower', (evaluateLevel engine fuel waiting none h line).UnlessFailed
        (evaluateLevel engine fuel waiting lower' h line) := by
      intro lower'
      refine evaluateLevel_congr UnlessFailed.isCongruence hcommands ?_ h line
      intro run run' _ w
      exact .inl ⟨_, w, rfl⟩
    cases levels' with
    | zero => exact hlower none
    | succ levels' => exact hlower _
  | succ levels ih =>
    obtain ⟨levels', rfl⟩ := Nat.exists_eq_add_of_le' hle
    have ih : ∀ h line, (evaluateAt engine fuel waiting levels h line).UnlessFailed
        (evaluateAt engine fuel waiting (levels' + levels) h line) := ih (by omega)
    rw [← Nat.add_assoc, evaluateAt, evaluateAt]
    refine evaluateLevel_congr UnlessFailed.isCongruence hcommands ?_ h line
    intro run run' hrun
    exact hrun ih

end Evaluation

namespace Engine
open Evaluation

/-- A line that succeeds when it starts deep inside others succeeds in the same way, and leaves the
same world, when it starts less deep. -/
theorem evaluate_eq_done_of_deeper (engine : Engine) (fuel : Nat) (h : Handle) (line : String)
    {w s : World} {v : Value} {d d' : Nat} (hd : d ≤ d') (hd' : d' ≤ recursionLimit)
    (hdone : engine.evaluate fuel (recursionLimit - d') h line w = .done v s) :
    engine.evaluate fuel (recursionLimit - d) h line w = .done v s := by
  have hle : recursionLimit - d' ≤ recursionLimit - d := by omega
  have hlevels := evaluateAt_unlessFailed engine fuel (engine.waiting fuel) hle h line w
  rw [← evaluate_eq, ← evaluate_eq, hdone] at hlevels
  rcases hlevels with ⟨e, w', hfailed⟩ | heq
  · cases hfailed
  · exact heq

/-- A line with another one inside. -/
def notTrue : String := "Not \x7bTrue\x7d"

theorem evaluate_notTrue :
    (Program.standardEngine default).evaluate 1 2 { session := 0 } notTrue (.start {}) =
      .done (.boolean false) (.start {}) := by
  have hinner : (Program.standardEngine default).Dispatches (.start {}) 0 "True" "True" []
      (.leaf .trueValue) := ⟨rfl, by decide, by decide, by decide, by decide, _, rfl⟩
  have hline : (Program.standardEngine default).Dispatches (.start {}) 0 notTrue "Not"
      [.word "\x7bTrue\x7d"] (.leaf .not) :=
    ⟨rfl, by decide, by decide, by decide, by decide, _, rfl⟩
  have htrue : (Program.standardEngine default).evaluate 1 1 { session := 0 } "True" (.start {}) =
      .done (.boolean true) (.start {}) :=
    hinner.evaluate_of_argumentList (h := { session := 0 }) (.nil _ _)
  have hnested : Token.nestedLine? "\x7bTrue\x7d" = some "True" := by decide
  have harg : Argument ((Program.standardEngine default).evaluate 1 1) { session := 0 } .all 0
      (.start {}) (.word "\x7bTrue\x7d") (.done (.boolean true) (.start {})) := by
    rw [← htrue]
    exact .nested rfl hnested
  exact hline.evaluate_of_argumentList (h := { session := 0 }) (.cons harg (.nil _ _))

/-- The line takes two levels, and does the same with all of them. -/
theorem evaluate_eq_done_of_deeper_notTrue :
    (Program.standardEngine default).evaluate 1 1000 { session := 0 } notTrue (.start {}) =
      .done (.boolean false) (.start {}) :=
  evaluate_eq_done_of_deeper (Program.standardEngine default) 1 { session := 0 } notTrue
    (by decide : 0 ≤ 998) (by decide) evaluate_notTrue

end Engine

/-! ### More fuel -/

namespace Evaluation
open Script (UnlessExhausted)
variable {eval eval' : Evaluator}

theorem runLaunched_unlessExhausted
    (heval : ∀ h line, (eval h line).UnlessExhausted (eval' h line)) (task : Nat)
    (launch : Launch) :
    (runLaunched eval task launch).UnlessExhausted (runLaunched eval' task launch) := by
  have hquiet := (heval launch.handle launch.line).quietly
  intro w
  simp only [runLaunched]
  split
  · rcases hquiet { w with written := #[] } with ⟨w', hexhausted⟩ | heq
    · exact .inl ⟨_, by rw [hexhausted]; rfl⟩
    · exact .inr (by rw [heq])
  · rcases hquiet w with ⟨w', hexhausted⟩ | heq
    · exact .inl ⟨_, by rw [hexhausted]; rfl⟩
    · exact .inr (by rw [heq])

theorem settle_unlessExhausted (heval : ∀ h line, (eval h line).UnlessExhausted (eval' h line))
    {fuel fuel' : Nat} (hle : fuel ≤ fuel') :
    (settle eval fuel).UnlessExhausted (settle eval' fuel') := by
  induction fuel generalizing fuel' with
  | zero =>
    intro w
    cases hwaits : w.hasWaiting with
    | true => exact .inl ⟨w, by simp [settle, hwaits]⟩
    | false =>
      rw [settle_of_not_hasWaiting hwaits, settle_of_not_hasWaiting hwaits]
      exact .inr rfl
  | succ fuel ih =>
    obtain ⟨fuel', rfl⟩ := Nat.exists_eq_add_one_of_ne_zero (Nat.ne_zero_of_lt hle)
    have hle' : fuel ≤ fuel' := Nat.le_of_succ_le_succ hle
    intro w
    simp only [settle]
    cases w.startNext? with
    | none => exact .inr rfl
    | some next =>
      obtain ⟨⟨task, launch⟩, w₁⟩ := next
      exact UnlessExhausted.isCongruence.bind (runLaunched_unlessExhausted heval task launch)
        (fun _ => ih hle') w₁

theorem evaluateAt_unlessExhausted (engine : Engine) {waiting waiting' : Script Unit}
    (hwaiting : waiting.UnlessExhausted waiting') {fuel fuel' : Nat} (hle : fuel ≤ fuel')
    (levels : Nat) (h : Handle) (line : String) :
    (evaluateAt engine fuel waiting levels h line).UnlessExhausted
      (evaluateAt engine fuel' waiting' levels h line) := by
  obtain ⟨spare, rfl⟩ := Nat.exists_eq_add_of_le hle
  refine evaluateAt_congr UnlessExhausted.isCongruence ?_ levels h line
  refine commandsRelated UnlessExhausted.isCongruence (fun _ _ _ => .refl _) ?_
  intro eval eval' heval searchOrder name qualified _ h args
  exact runLoop_congr UnlessExhausted.isCongruence heval hwaiting fuel spare
    (fun _ _ _ _ => .of_exhausted _) h args

end Evaluation

namespace Engine
open Evaluation

theorem waiting_unlessExhausted (engine : Engine) {fuel fuel' : Nat} (hle : fuel ≤ fuel') :
    (engine.waiting fuel).UnlessExhausted (engine.waiting fuel') := by
  induction fuel generalizing fuel' with
  | zero =>
    cases fuel' with
    | zero => exact .refl _
    | succ fuel' => exact settle_unlessExhausted (fun _ _ => .of_exhausted _) (Nat.zero_le _)
  | succ fuel ih =>
    obtain ⟨fuel', rfl⟩ := Nat.exists_eq_add_one_of_ne_zero (Nat.ne_zero_of_lt hle)
    have hle' : fuel ≤ fuel' := Nat.le_of_succ_le_succ hle
    refine settle_unlessExhausted (fun h line => ?_) hle
    rw [evaluate_eq, evaluate_eq]
    exact evaluateAt_unlessExhausted engine (ih hle') hle' recursionLimit h line

/-- A line that ends within its fuel ends in the same way with more. -/
theorem evaluate_unlessExhausted (engine : Engine) {fuel fuel' : Nat} (hle : fuel ≤ fuel')
    (levels : Nat) (h : Handle) (line : String) :
    (engine.evaluate fuel levels h line).UnlessExhausted (engine.evaluate fuel' levels h line) := by
  rw [evaluate_eq, evaluate_eq]
  exact evaluateAt_unlessExhausted engine (engine.waiting_unlessExhausted hle) hle levels h line

end Engine

/-! ### Runs without loops -/

namespace Script

/-- The run comes to an end with what it was given. -/
def Ends {α : Type} (x : Script α) : Prop :=
  ∀ w w', x w ≠ .exhausted w'

theorem Ends.bind {α β : Type} {x : Script α} {f : α → Script β} (hx : x.Ends)
    (hf : ∀ a, (f a).Ends) : (x >>= f).Ends := by
  intro w w'
  have hended := hx w
  rw [bind_apply]
  generalize x w = o at hended ⊢
  cases o with
  | done a w₁ => exact hf a w₁ w'
  | failed e w₁ => simp
  | exited code w₁ => simp
  | exhausted w₁ => exact absurd rfl (hended w₁)

theorem Ends.mapError {α : Type} {x : Script α} (f : ScriptError → ScriptError) (hx : x.Ends) :
    (x.mapError f).Ends := by
  intro w w'
  have hended := hx w
  rw [Script.mapError]
  generalize x w = o at hended ⊢
  cases o with
  | exhausted w₁ => exact absurd rfl (hended w₁)
  | _ => simp

theorem isBuilt_ends : IsBuilt Ends where
  pure a w w' := by simp
  bind := .bind
  fail e w w' := by simp
  exit code w w' := by simp
  read hf w w' := by simp
  change hf w w' := by simp
  mapError := .mapError

end Script

/-- No name stands for a loop. -/
def Registry.IsLoopFree (r : Registry) : Prop :=
  r.All (· ≠ .control .loop)

namespace Engine
open Evaluation

/-- Without loops the fuel does not matter, and no run asks for more of it. -/
theorem evaluate_congr_of_loopFree {engine : Engine} (hloops : engine.registry.IsLoopFree)
    (hcustoms : engine.registry.CustomsHave Script.Ends) (fuel fuel' levels : Nat) (h : Handle)
    (line : String) :
    engine.evaluate fuel levels h line = engine.evaluate fuel' levels h line ∧
      (engine.evaluate fuel levels h line).Ends := by
  have hcommands : CommandsRelated (fun x x' => x = x' ∧ x.Ends) engine fuel fuel'
      (engine.waiting fuel) (engine.waiting fuel') := by
    refine commandsRelated Script.isBuilt_ends.isCongruence
      (fun hresolve h args => ⟨rfl, hcustoms hresolve h args⟩) ?_
    intro eval eval' _ searchOrder name qualified hresolve
    exact absurd rfl (hloops _ (Registry.mem_of_resolve? hresolve))
  rw [evaluate_eq, evaluate_eq]
  exact evaluateAt_congr Script.isBuilt_ends.isCongruence hcommands levels h line

/-- Where no name stands for a loop, and the commands of the host program come to an end, every line
and every sequence of lines does, from every world: it ends in one way, whatever the fuel, and that
is not for want of fuel. A line that is launched only waits. -/
theorem evaluate_ends_of_loopFree {engine : Engine} (hloops : engine.registry.IsLoopFree)
    (hcustoms : engine.registry.CustomsHave Script.Ends) (levels : Nat) (h : Handle) (w : World) :
    (∀ line, ∃ o, (∀ w', o ≠ .exhausted w') ∧
      ∀ fuel, engine.evaluate fuel levels h line w = o) ∧
    ∀ lines, ∃ o, (∀ w', o ≠ .exhausted w') ∧
      ∀ fuel, sequence (engine.evaluate fuel levels) h lines w = o := by
  have heval := evaluate_congr_of_loopFree hloops hcustoms
  have hsequence : ∀ fuel lines,
      sequence (engine.evaluate fuel levels) h lines = sequence (engine.evaluate 0 levels) h lines ∧
        (sequence (engine.evaluate fuel levels) h lines).Ends := fun fuel lines =>
    sequenceFrom_congr Script.isBuilt_ends.isCongruence
      (fun h line => heval fuel 0 levels h line) h 1 .null lines
  constructor
  · intro line
    refine ⟨engine.evaluate 0 levels h line w, (heval 0 0 levels h line).2 w, fun fuel => ?_⟩
    rw [(heval fuel 0 levels h line).1]
  · intro lines
    refine ⟨_, (hsequence 0 lines).2 w, fun fuel => ?_⟩
    rw [(hsequence fuel lines).1]

/-- The built-in commands but those that loop or launch lines. -/
def loopFree : Engine where
  registry := (((({} : Registry).addAll "ks.control" [.control .codeblock]).addAll "ks.commands"
    Registry.generalCommands).addAll "ks.types" Registry.typeCommands)
  hosts := .standard
  place := default

/-- A block that appends to itself and then runs itself. -/
def selfRunning : World :=
  let (id, w) := (World.start {}).makeBlock 0 "b"
  w.modifyBlock id ((·.push "Codeblock b run") ∘ (·.push "Codeblock b add Codeblock b run"))

theorem isLoopFree_loopFree : loopFree.registry.IsLoopFree := by
  refine (((Registry.all_empty _).addAll _ ?_).addAll _ ?_).addAll _ ?_
  · simp
  · simp [Registry.generalCommands]
  · simp [Registry.typeCommands]

theorem not_isCustom_loopFree : loopFree.registry.All (·.isCustom = false) :=
  (((Registry.all_empty _).addAll _ (by decide)).addAll _ (by decide)).addAll _ (by decide)

theorem evaluate_ends_of_loopFree_selfRunning :
    (∃ o, (∀ w', o ≠ .exhausted w') ∧ ∀ fuel,
      loopFree.evaluate fuel recursionLimit { session := 0 } "Codeblock b run" selfRunning = o) ∧
    ∃ o, (∀ w', o ≠ .exhausted w') ∧ ∀ fuel,
      sequence (loopFree.evaluate fuel recursionLimit) { session := 0 }
        ["Codeblock b add RunIf true Codeblock b run", "Codeblock b run"] selfRunning = o := by
  obtain ⟨hline, hlines⟩ := evaluate_ends_of_loopFree isLoopFree_loopFree
    (Registry.customsHave_of_not_isCustom not_isCustom_loopFree Script.Ends) recursionLimit
    { session := 0 } selfRunning
  exact ⟨hline _, hlines _⟩

end Engine
end BraceScript
