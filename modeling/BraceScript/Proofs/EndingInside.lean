import BraceScript.Proofs.Dispatch
import BraceScript.Proofs.Endings
import BraceScript.Proofs.LeafCommands

/-!
# A session that is terminated inside a line

A line looks at the end of its session once, before anything else. So an argument that terminates
the session does not stop the line around it: the tokens behind it are still substituted, which
changes nothing any more, and then the command is executed (`Engine.evaluate_of_ending_argument`).
What the line still does is what that command does in a terminated session: nothing to variables,
blocks and settings for most commands, but some write them still, as `StoreValue` does
(`Engine.not_sameStores_storeExit`).
-/

namespace BraceScript

/-! ### What most commands leave alone -/

/-- The second world has the variables, the blocks and the settings of the first. -/
structure World.SameStores (w w' : World) : Prop where
  bindings : ∀ id, (w'.session id).bindings = (w.session id).bindings
  blocks : w'.blocks = w.blocks
  environment : w'.environment = w.environment

theorem World.SameStores.refl (w : World) : w.SameStores w :=
  ⟨fun _ => rfl, rfl, rfl⟩

namespace Leaf

/-- Does the command leave variables, blocks and settings alone in a terminated session? -/
def isInert : Leaf → Bool
  | storeValue | freeValue | environment => false
  | _ => true

theorem Does.sameStores {place : Place} {h : Handle} {command : Leaf} {args : List Value}
    {v u : Value} {w w' : World} (hdoes : command.Does place h args w u w')
    (hinert : command.isInert = true) (hended : w.ending h.session = some v) :
    w.SameStores w' := by
  have hnew : ∀ entries, w.SameStores (w.newMap entries).2 := fun _ => ⟨fun _ => rfl, rfl, rfl⟩
  cases hdoes with
  | tell => exact .refl w
  | print line => exact ⟨fun _ => rfl, rfl, rfl⟩
  | terminate =>
    rw [World.terminate_of_ending hended]
    exact .refl w
  | build => exact hnew _
  | getItem => exact .refl w
  | putItem => exact hnew _
  | dropItem => exact hnew _
  | describe => exact hnew _
  | _ => cases hinert

theorem sameStores_run {command : Leaf} (hinert : command.isInert = true) (place : Place)
    {h : Handle} (args : List Value) {w : World} {v : Value}
    (hended : w.ending h.session = some v) :
    w.SameStores (command.run place h args w).world := by
  refine (run_checksFirst place h command args w).elim (P := (w.SameStores ·.world))
    (fun u w' hdoes => ?_) (fun _ => .refl w) (fun _ => .refl w) (.refl w)
  exact hdoes.sameStores hinert hended

end Leaf

namespace Evaluation
variable {eval : Evaluator} {h : Handle} {w : World} {v : Value}

theorem sameStores_runLoop (hended : w.ending h.session = some v) (waiting : Script Unit)
    (fuel : Nat) (args : List Value) :
    w.SameStores (runLoop eval waiting fuel h args w).world := by
  -- a loop looks at the end of the session before its first pass
  have hpasses : ∀ condition body, (passes h condition body 1 fuel w).world = w := by
    intro condition body
    cases fuel with
    | zero => rfl
    | succ fuel => rw [passes, Script.bind_apply, Script.read_apply, hended]; rfl
  unfold runLoop
  split
  · rename_i condition first rest
    have hworld := hpasses (test eval h condition)
      (pass eval waiting h (w.joinSource (first :: rest)))
    rw [Script.bind_apply, Script.read_apply]
    dsimp only
    rw [Script.bind_apply]
    generalize passes h _ _ 1 fuel w = o at hworld
    cases o <;> (obtain rfl := hworld; exact .refl _)
  · exact .refl w

theorem sameStores_runRunIf (heval : ∀ line, eval h line w = .done v w) (args : List Value) :
    w.SameStores (runRunIf eval h args w).world := by
  unfold runRunIf
  rw [Script.bind_apply]
  cases Leaf.checkCount args 2 none with
  | error c => exact .refl w
  | ok _ =>
    show w.SameStores (Outcome.world ((Script.orComplain "RunIf" (Leaf.truth (args.headD .null)) >>= _) w))
    rw [Script.bind_apply]
    cases Leaf.truth (args.headD .null) with
    | error c => exact .refl w
    | ok holds =>
      cases holds with
      | false => exact .refl w
      | true =>
        show w.SameStores (eval h (w.joinSource (args.drop 1)) w).world
        rw [heval]
        exact .refl w

end Evaluation

/-- Does the command leave variables, blocks and settings alone in a terminated session? -/
def Command.isInert : Command → Bool
  | leaf command => command.isInert
  | control .codeblock | control .invokeMethodOf => false
  | control _ => true
  | custom _ _ => false

namespace Evaluation
variable {engine : Engine} {eval : Evaluator} {h : Handle} {w : World} {v : Value}

theorem sameStores_execute {command : Command} (hinert : command.isInert = true)
    (heval : ∀ line, eval h line w = .done v w) (hended : w.ending h.session = some v) (fuel : Nat)
    (waiting : Script Unit) (args : List Value) :
    w.SameStores (execute engine fuel waiting eval h command args w).world := by
  cases command with
  | leaf command => exact Leaf.sameStores_run hinert engine.place args hended
  | custom pre run => cases hinert
  | control command =>
    cases command with
    | loop => exact sameStores_runLoop hended waiting fuel args
    | asynchronize =>
      show w.SameStores (runAsynchronize h args w).world
      unfold runAsynchronize
      split
      · exact .refl w
      · exact ⟨fun _ => rfl, rfl, rfl⟩
    | runIf => exact sameStores_runRunIf heval args
    | codeblock => cases hinert
    | invokeMethodOf => cases hinert

/-! ### Tokens after the end -/

theorem Argument.of_ending {pre : PreEvaluation} {position : Nat} {t : Token} {o : Outcome Value}
    (heval : ∀ line, eval h line w = .done v w) (ht : Argument eval h pre position w t o) :
    (∃ u, o = .done u w) ∨
      ∃ raw name, t = .word raw ∧ Token.variableName? raw = some name ∧
        w.valueOf? h.session name = none ∧ o = .failed ⟨.variableNotFound name, []⟩ w := by
  cases ht with
  | null => exact .inl ⟨_, rfl⟩
  | raw => exact .inl ⟨_, rfl⟩
  | bare => exact .inl ⟨_, rfl⟩
  | stored => exact .inl ⟨_, rfl⟩
  | missing _ hnamed hv => exact .inr ⟨_, _, rfl, hnamed, hv, rfl⟩
  | nested => exact .inl ⟨v, heval _⟩

theorem ArgumentList.eq_of_ending {pre : PreEvaluation} {position : Nat} {tokens : List Token}
    {vs : List Value} {w' : World} (heval : ∀ line, eval h line w = .done v w)
    (htokens : ArgumentList eval h pre position w tokens vs w') : w' = w := by
  induction htokens with
  | nil => rfl
  | cons ht _ ih =>
    rcases ht.of_ending heval with ⟨u, hu⟩ | ⟨raw, name, -, -, -, hfailed⟩
    · obtain ⟨rfl, rfl⟩ := Outcome.done.inj hu
      exact ih heval
    · cases hfailed

theorem ArgumentList.append {pre : PreEvaluation} {position : Nat} {w w₁ w₂ : World}
    {before after : List Token} {vs us : List Value}
    (hbefore : ArgumentList eval h pre position w before vs w₁)
    (hafter : ArgumentList eval h pre (position + before.length) w₁ after us w₂) :
    ArgumentList eval h pre position w (before ++ after) (vs ++ us) w₂ := by
  induction hbefore with
  | nil => exact hafter
  | cons ht _ ih =>
    refine .cons ht (ih ?_)
    rwa [List.length_cons, Nat.add_comm _ 1, ← Nat.add_assoc] at hafter

/-- The tokens behind some that have values change nothing, where the session is terminated in the
world that these left. -/
theorem dispatchTo_of_ending {pre : PreEvaluation} {run : List Value → Script Value}
    {line name : String} {tokens before after : List Token} {args : List Value} {w w₁ : World}
    (heval : ∀ line, eval h line w₁ = .done v w₁) (htokens : tokens = before ++ after)
    (hbefore : ArgumentList eval h pre 0 w before args w₁) :
    (∃ rest, ArgumentList eval h pre before.length w₁ after rest w₁ ∧
      dispatchTo eval h pre run line name tokens w =
        ((run (args ++ rest)).within (.command name line)) w₁) ∨
      ∃ middle last raw missing, after = middle ++ .word raw :: last ∧
        Token.variableName? raw = some missing ∧ w₁.valueOf? h.session missing = none ∧
        dispatchTo eval h pre run line name tokens w =
          .failed ⟨.variableNotFound missing, [.argument (before.length + middle.length) line]⟩
            w₁ := by
  rcases exists_argumentList eval h pre before.length w₁ after with
    ⟨rest, w₂, hrest⟩ | ⟨middle, t, last, vs, w₂, o, hafter, hmiddle, ht, hstops⟩
  · obtain rfl := hrest.eq_of_ending heval
    have hall := hbefore.append (by rwa [Nat.zero_add])
    rw [← htokens] at hall
    exact .inl ⟨rest, hrest, dispatchTo_of_argumentList hall⟩
  · obtain rfl := hmiddle.eq_of_ending heval
    rcases ht.of_ending heval with ⟨u, rfl⟩ | ⟨raw, missing, rfl, hnamed, hmissing, rfl⟩
    · exact absurd rfl (hstops u w₂)
    · have hupto := hbefore.append (by rwa [Nat.zero_add])
      have hsplit : tokens = before ++ middle ++ .word raw :: last := by
        rw [htokens, hafter, List.append_assoc]
      refine .inr ⟨middle, last, raw, missing, hafter, hnamed, hmissing, ?_⟩
      rw [← List.length_append] at ht ⊢
      exact dispatchTo_of_argument hsplit hupto ht hstops

end Evaluation

/-! ### The line around the argument -/

theorem Script.world_within {α : Type} (x : Script α) (frame : Frame) (w : World) :
    ((x.within frame) w).world = (x w).world := by
  rw [within_apply]
  cases x w <;> rfl

namespace Engine
open Evaluation

/-- The line goes on when one of its arguments has terminated the session. The tokens behind that
argument change nothing; one of them may stand for a variable that there is not, which makes the
line fail; otherwise the command is executed, in the world that the argument left. Commands that are
inert leave variables, blocks and settings alone then. -/
theorem evaluate_of_ending_argument {engine : Engine} {h : Handle} {line name : String}
    {tokens before after : List Token} {t : Token} {command : Command} {args : List Value}
    {u v : Value} {w w₀ w₁ : World} {fuel d : Nat}
    (hline : engine.Dispatches w h.session line name tokens command) (hd : d < recursionLimit)
    (htokens : tokens = before ++ t :: after)
    (hbefore : ArgumentList (engine.evaluate fuel (recursionLimit - (d + 1))) h
      command.preEvaluation 0 w before args w₀)
    (ht : Argument (engine.evaluate fuel (recursionLimit - (d + 1))) h command.preEvaluation
      before.length w₀ t (.done u w₁))
    (hended : w₁.ending h.session = some v) :
    ((∃ rest, ArgumentList (engine.evaluate fuel (recursionLimit - (d + 1))) h
          command.preEvaluation (before.length + 1) w₁ after rest w₁ ∧
        engine.evaluate fuel (recursionLimit - d) h line w =
          ((execute engine fuel (engine.waiting fuel)
            (engine.evaluate fuel (recursionLimit - (d + 1))) h command (args ++ u :: rest)).within
              (.command name line)) w₁) ∨
      ∃ middle last raw missing, after = middle ++ .word raw :: last ∧
        Token.variableName? raw = some missing ∧ w₁.valueOf? h.session missing = none ∧
        engine.evaluate fuel (recursionLimit - d) h line w =
          .failed ⟨.variableNotFound missing,
            [.argument (before.length + 1 + middle.length) line]⟩ w₁) ∧
    (command.isInert = true →
      w₁.SameStores (engine.evaluate fuel (recursionLimit - d) h line w).world) := by
  have hlevels : recursionLimit - d = recursionLimit - (d + 1) + 1 := by omega
  rw [hlevels, hline.evaluate_succ]
  have heval : ∀ line, engine.evaluate fuel (recursionLimit - (d + 1)) h line w₁ = .done v w₁ :=
    evaluate_of_ending hended fuel _
  have hupto := hbefore.append (.cons (by rwa [Nat.zero_add]) (.nil _ w₁))
  have hsplit : tokens = before ++ [t] ++ after := by rw [htokens, List.append_cons]
  have hends := @dispatchTo_of_ending _ _ _ _ (execute engine fuel (engine.waiting fuel)
    (engine.evaluate fuel (recursionLimit - (d + 1))) h command) line name _ _ _ _ _ _ heval hsplit
    hupto
  rw [List.length_append, List.length_singleton] at hends
  rcases hends with ⟨rest, hrest, hrun⟩ | hmissing
  · rw [List.append_assoc, List.singleton_append] at hrun
    refine ⟨.inl ⟨rest, hrest, hrun⟩, fun hinert => ?_⟩
    rw [hrun, Script.world_within]
    exact sameStores_execute hinert heval hended fuel _ _
  · refine ⟨.inr hmissing, fun _ => ?_⟩
    obtain ⟨middle, last, raw, missing, -, -, -, hfailed⟩ := hmissing
    rw [hfailed]
    exact .refl w₁

/-- A line whose second argument terminates the session. -/
def storeExit : String := "StoreValue x \x7bExit done\x7d"

/-- A new world in which the session has been terminated. -/
def endedWorld : World := ((World.start {}).terminate 0 (.text "done")).2

theorem dispatches_storeExit :
    (Program.standardEngine default).Dispatches (.start {}) 0 storeExit "StoreValue"
      [.word "x", .word "\x7bExit done\x7d"] (.leaf .storeValue) :=
  ⟨rfl, by decide, by decide, by decide, by decide, _, rfl⟩

theorem argumentList_storeExit (eval : Evaluator) (h : Handle) (w : World) :
    ArgumentList eval h .all 0 w [.word "x"] [.text "x"] w :=
  .cons (.bare (by decide) (by decide)) (.nil _ w)

theorem argument_storeExit :
    Argument ((Program.standardEngine default).evaluate 1 999) { session := 0 } .all 1 (.start {})
      (.word "\x7bExit done\x7d") (.done (.text "done") endedWorld) := by
  have hline : (Program.standardEngine default).Dispatches (.start {}) 0 "Exit done" "Exit"
      [.word "done"] (.leaf .exit) := ⟨rfl, by decide, by decide, by decide, by decide, _, rfl⟩
  have hargs : ArgumentList ((Program.standardEngine default).evaluate 1 998) { session := 0 } .all
      0 (.start {}) [.word "done"] [.text "done"] (.start {}) :=
    .cons (.bare (by decide) (by decide)) (.nil _ _)
  have hexit : (Program.standardEngine default).evaluate 1 999 { session := 0 } "Exit done"
      (.start {}) = .done (.text "done") endedWorld :=
    Dispatches.evaluate_of_argumentList (h := { session := 0 }) hline hargs
  have hnested : Token.nestedLine? "\x7bExit done\x7d" = some "Exit done" := by decide
  rw [← hexit]
  exact .nested rfl hnested

/-- The command of that line is executed in the terminated session. -/
theorem evaluate_of_ending_argument_storeExit :
    (Program.standardEngine default).evaluate 1 1000 { session := 0 } storeExit (.start {}) =
      ((Leaf.storeValue.run default { session := 0 } [.text "x", .text "done"]).within
        (.command "StoreValue" storeExit)) endedWorld := by
  have htokens : [Token.word "x", .word "\x7bExit done\x7d"] =
      [.word "x"] ++ .word "\x7bExit done\x7d" :: [] := rfl
  have hended := evaluate_of_ending_argument (h := { session := 0 }) (d := 0) dispatches_storeExit
    (by decide) htokens (argumentList_storeExit _ _ _) argument_storeExit rfl
  rcases hended.1 with ⟨rest, hrest, hrun⟩ | ⟨middle, last, raw, missing, hsplit, -⟩
  · cases hrest
    exact hrun
  · simp at hsplit

/-- The command writes a variable after an argument has terminated the session. -/
theorem not_sameStores_storeExit :
    ArgumentList ((Program.standardEngine default).evaluate 1 999) { session := 0 } .all 0
        (.start {}) [.word "x", .word "\x7bExit done\x7d"] [.text "x", .text "done"] endedWorld ∧
      (World.start {}).ending 0 = none ∧ endedWorld.ending 0 = some (.text "done") ∧
      ¬ endedWorld.SameStores ((Program.standardEngine default).evaluate 1 1000 { session := 0 }
        storeExit (.start {})).world := by
  have hargs : ArgumentList ((Program.standardEngine default).evaluate 1 999) { session := 0 } .all
      0 (.start {}) [.word "x", .word "\x7bExit done\x7d"] [.text "x", .text "done"] endedWorld :=
    .cons (.bare (by decide) (by decide)) (.cons argument_storeExit (.nil _ _))
  refine ⟨hargs, rfl, rfl, fun hstores => ?_⟩
  rw [Dispatches.evaluate_of_argumentList (h := { session := 0 }) dispatches_storeExit hargs]
    at hstores
  have hx : ([("x", Value.text "done")] : Table Value) = [] := hstores.bindings 0
  cases hx

end Engine
end BraceScript
