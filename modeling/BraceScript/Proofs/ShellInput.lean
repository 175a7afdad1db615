import BraceScript.Proofs.Accounts
import BraceScript.Proofs.TextBytes

/-!
# Scripts and their shell

A script hands its input to the first line that says `ShellMode`, and to no other. What happens
there is a conversation (`Shell.Conversation`): line by line a prompt, the evaluation, and what is
to be shown of it, until the input ends or the session is terminated. A later `ShellMode` finds the
input at its end, so it writes a prompt and is done. The course of the script around it
(`ScriptFile.Course`) knows of the input only whether a shell has been there.

The script runs as its course says, and what is written for the shell is what the course says
(`ScriptFile.run_eq_iff_course`). Evaluations write nothing there themselves.
-/

namespace BraceScript

/-! ### Lines of input -/

namespace Chars

/-- The pieces of `cs`, each up to a line feed and with it; `line` holds the current one, last
character first. -/
def feedLinesFrom : (line : List Char) → List Char → List (List Char)
  | [], [] => []
  | line, [] => [line.reverse]
  | line, c :: cs =>
    if c = '\n' then (c :: line).reverse :: feedLinesFrom [] cs else feedLinesFrom (c :: line) cs

end Chars

namespace Text

/-- The lines of a text, each with the line feed that ends it. -/
def feedLines (s : String) : List String :=
  (Chars.feedLinesFrom [] s.toList).map String.ofList

theorem not_mem_utf8EncodeChar {c : Char} (hc : c ≠ '\n') : 10 ∉ String.utf8EncodeChar c := by
  have hval : c.val.toNat ≠ 10 := fun h => hc (Char.ext (UInt32.toNat_inj.1 h))
  have hbyte : ∀ n : Nat, n < 256 → n ≠ 10 → (10 : UInt8) ≠ UInt8.ofNat n := by
    intro n hn hne heq
    have := congrArg UInt8.toNat heq
    simp at this
    omega
  simp only [String.utf8EncodeChar]
  repeat' split
  all_goals simp only [List.mem_cons, List.not_mem_nil, or_false, not_or]
  all_goals repeat' apply And.intro
  all_goals exact hbyte _ (by omega) (by omega)

theorem byteLinesFrom_append {bytes : List UInt8} (h : 10 ∉ bytes) (line rest : List UInt8) :
    byteLinesFrom line (bytes ++ rest) = byteLinesFrom (bytes.reverse ++ line) rest := by
  induction bytes generalizing line with
  | nil => rfl
  | cons b bytes ih =>
    have hb : b ≠ 10 := fun heq => h (by simp [heq])
    have hbytes : 10 ∉ bytes := fun hmem => h (List.mem_cons_of_mem b hmem)
    rw [List.cons_append, byteLinesFrom, if_neg hb, ih hbytes]
    simp

theorem byteLinesFrom_nil {line : List UInt8} (h : line ≠ []) :
    byteLinesFrom line [] = [line.reverse] := by
  cases line with
  | nil => exact absurd rfl h
  | cons b line => rfl

theorem byteLinesFrom_bytes (line cs : List Char) :
    byteLinesFrom (Chars.bytes line.reverse).reverse (Chars.bytes cs) =
      (Chars.feedLinesFrom line cs).map Chars.bytes := by
  induction cs generalizing line with
  | nil =>
    cases line with
    | nil => rfl
    | cons c line =>
      have hbytes : (Chars.bytes (c :: line).reverse).reverse ≠ [] := by simp [Chars.bytes_append]
      rw [Chars.bytes_nil, byteLinesFrom_nil hbytes, List.reverse_reverse]
      rfl
  | cons c cs ih =>
    by_cases hc : c = '\n'
    · have hfeed : String.utf8EncodeChar '\n' = [10] := rfl
      rw [hc, Chars.bytes_cons, hfeed, Chars.feedLinesFrom, if_pos rfl, List.map_cons, ← ih]
      simp [byteLinesFrom, Chars.bytes_append, hfeed]
    · rw [Chars.bytes_cons, byteLinesFrom_append (not_mem_utf8EncodeChar hc),
        Chars.feedLinesFrom, if_neg hc, ← ih]
      simp [Chars.bytes_append]

theorem fromUTF8?_bytes (cs : List Char) :
    String.fromUTF8? ⟨(Chars.bytes cs).toArray⟩ = some (String.ofList cs) := by
  have hbytes : (⟨(Chars.bytes cs).toArray⟩ : ByteArray) = cs.utf8Encode :=
    ByteArray.ext List.data_toByteArray.symm
  rw [hbytes, String.fromUTF8?, dif_pos ⟨cs, rfl⟩]
  rfl

/-- A text that is read line by line arrives as its lines. -/
theorem inputLines_toUTF8 (s : String) : inputLines s.toUTF8 = (feedLines s).map some := by
  have hlines : byteLinesFrom [] (Chars.bytes s.toList) = _ := byteLinesFrom_bytes [] s.toList
  rw [inputLines, toList_toUTF8, hlines, feedLines, List.map_map, List.map_map]
  exact List.map_congr_left fun cs _ => fromUTF8?_bytes cs

end Text

/-! ### Conversations -/

/-- The reason why a run breaks off what is around it. -/
def Outcome.halt? {α : Type} : Outcome α → Option Halt
  | exited code _ => some (.exited code)
  | exhausted _ => some .exhausted
  | _ => none

namespace Shell

/-- What is shown of a value: its display, on a line of its own, where the environment asks for
it. -/
def echo (w : World) (v : Value) : List String :=
  if w.environment.isEnabled Environment.echo then [w.display v ++ "\n"] else []

/-- The world after some texts have been shown. -/
def writeAll (w : World) (texts : List String) : World :=
  texts.foldl (·.write .shell ·) w

/-- A shell that reads some lines, what it writes, and how it ends. -/
inductive Conversation (eval : Evaluator) (place : Place) (h : Handle) :
    (input : List String) → World → (output : List String) → Ended Unit → Prop
  | terminated {input : List String} {w : World} {v : Value}
    (hended : w.ending h.session = some v) : Conversation eval place h input w [] (.ok (), w)
  | inputEnds {w : World} (hlive : w.ending h.session = none) :
    Conversation eval place h [] w [prompt place w] (.ok (), w.write .shell (prompt place w))
  | succeeds {line : String} {input output : List String} {w w₁ : World} {v : Value}
    {ended : Ended Unit} (hlive : w.ending h.session = none)
    (hline : eval h (Text.dropLineEnd line) (w.write .shell (prompt place w)) = .done v w₁)
    (hrest : Conversation eval place h input ((writeAll w₁ (echo w₁ v)).setLast h.session v)
      output ended) :
    Conversation eval place h (line :: input) w (prompt place w :: (echo w₁ v ++ output)) ended
  | fails {line : String} {input output : List String} {w w₁ : World} {e : ScriptError}
    {ended : Ended Unit} (hlive : w.ending h.session = none)
    (hline : eval h (Text.dropLineEnd line) (w.write .shell (prompt place w)) = .failed e w₁)
    (hrest : Conversation eval place h input (w₁.write .shell (errorLine e)) output ended) :
    Conversation eval place h (line :: input) w (prompt place w :: errorLine e :: output) ended
  /-- A line exits the program, or the bound on passes is reached. -/
  | breaks {line : String} {input : List String} {w : World} {o : Outcome Value} {halt : Halt}
    (hlive : w.ending h.session = none)
    (hline : eval h (Text.dropLineEnd line) (w.write .shell (prompt place w)) = o)
    (hhalt : o.halt? = some halt) :
    Conversation eval place h (line :: input) w [prompt place w] (.error halt, o.world)

section
variable {eval : Evaluator} {place : Place} {h : Handle}

theorem exists_conversation (eval : Evaluator) (place : Place) (h : Handle) (input : List String)
    (w : World) : ∃ output ended, Conversation eval place h input w output ended := by
  induction input generalizing w with
  | nil =>
    cases hended : w.ending h.session with
    | some v => exact ⟨_, _, .terminated hended⟩
    | none => exact ⟨_, _, .inputEnds hended⟩
  | cons line input ih =>
    cases hended : w.ending h.session with
    | some v => exact ⟨_, _, .terminated hended⟩
    | none =>
      cases hline : eval h (Text.dropLineEnd line) (w.write .shell (prompt place w)) with
      | done v w₁ =>
        obtain ⟨output, ended, hrest⟩ := ih ((writeAll w₁ (echo w₁ v)).setLast h.session v)
        exact ⟨_, _, .succeeds hended hline hrest⟩
      | failed e w₁ =>
        obtain ⟨output, ended, hrest⟩ := ih (w₁.write .shell (errorLine e))
        exact ⟨_, _, .fails hended hline hrest⟩
      | exited code w₁ => exact ⟨_, _, .breaks hended hline rfl⟩
      | exhausted w₁ => exact ⟨_, _, .breaks hended hline rfl⟩

theorem reply_of_done {line : String} {w w₁ : World} {v : Value}
    (hline : eval h (Text.dropLineEnd line) w = .done v w₁) :
    reply eval h line w = (.ok (), (writeAll w₁ (echo w₁ v)).setLast h.session v) := by
  rw [reply, hline, echo]
  dsimp only
  split <;> rfl

/-- The shell runs as the conversation goes; what it leaves of the input is nothing, or the session
is terminated. -/
theorem Conversation.run_eq {input output : List String} {w : World} {ended : Ended Unit}
    (hc : Conversation eval place h input w output ended) :
    ∃ rest, run eval place h (input.map some) w = (ended.1.map fun _ => rest, ended.2) ∧
      (rest = [] ∨ (ended.2.ending h.session).isSome) := by
  induction hc with
  | @terminated input w v hended =>
    refine ⟨input.map some, ?_, .inr (by rw [hended]; rfl)⟩
    cases input with
    | nil => simp [run, hended, Except.map]
    | cons line input => simp [run, hended, Except.map]
  | inputEnds hlive =>
    refine ⟨[], ?_, .inl rfl⟩
    simp [run, hlive, Except.map]
  | succeeds hlive hline hrest ih =>
    obtain ⟨rest, hrun, hleft⟩ := ih
    refine ⟨rest, ?_, hleft⟩
    simp [run, hlive, reply_of_done hline, hrun]
  | fails hlive hline hrest ih =>
    obtain ⟨rest, hrun, hleft⟩ := ih
    refine ⟨rest, ?_, hleft⟩
    simp [run, hlive, reply, hline, hrun]
  | @breaks line input w o halt hlive hline hhalt =>
    refine ⟨[], ?_, .inl rfl⟩
    cases o with
    | done v w₁ => cases hhalt
    | failed e w₁ => cases hhalt
    | exited code w₁ =>
      cases hhalt
      simp [run, hlive, reply, hline, Except.map, Outcome.world]
    | exhausted w₁ =>
      cases hhalt
      simp [run, hlive, reply, hline, Except.map, Outcome.world]

end
end Shell

/-! ### The course of a script -/

namespace ScriptFile
open Shell (Conversation prompt errorLine)

/-- The lines of a script from a number on, after `executed` evaluated ones: what is written for the
shell, and how the script ends. No shell has read the input while it is `unread`. -/
inductive Course (eval : Evaluator) (place : Place) (h : Handle) :
    (unread : Option (List String)) → (number executed : Nat) → List String → World →
      (output : List String) → Ended Report → Prop
  | finished {unread : Option (List String)} {number executed : Nat} {w : World} :
    Course eval place h unread number executed [] w [] (.ok { executed }, w)
  | terminated {unread : Option (List String)} {number executed : Nat} {line : String}
    {lines : List String} {w : World} {v : Value} (hended : w.ending h.session = some v) :
    Course eval place h unread number executed (line :: lines) w [] (.ok { executed }, w)
  | skipped {unread : Option (List String)} {number executed : Nat} {line : String}
    {lines output : List String} {w : World} {ended : Ended Report}
    (hlive : w.ending h.session = none) (hkind : lineKind line = .skipped)
    (hrest : Course eval place h unread (number + 1) executed lines w output ended) :
    Course eval place h unread number executed (line :: lines) w output ended
  /-- The first shell reads the input, and the script goes on. -/
  | firstShell {input : List String} {number executed : Nat} {line : String}
    {lines talk output : List String} {w w₁ : World} {ended : Ended Report}
    (hlive : w.ending h.session = none) (hkind : lineKind line = .shell)
    (hshell : Conversation eval place h input w talk (.ok (), w₁))
    (hrest : Course eval place h none (number + 1) executed lines w₁ output ended) :
    Course eval place h (some input) number executed (line :: lines) w (talk ++ output) ended
  | shellBreaks {input : List String} {number executed : Nat} {line : String}
    {lines talk : List String} {w w₁ : World} {halt : Halt}
    (hlive : w.ending h.session = none) (hkind : lineKind line = .shell)
    (hshell : Conversation eval place h input w talk (.error halt, w₁)) :
    Course eval place h (some input) number executed (line :: lines) w talk (.error halt, w₁)
  /-- A later shell writes one prompt. -/
  | laterShell {number executed : Nat} {line : String} {lines output : List String} {w : World}
    {ended : Ended Report} (hlive : w.ending h.session = none) (hkind : lineKind line = .shell)
    (hrest : Course eval place h none (number + 1) executed lines
      (w.write .shell (prompt place w)) output ended) :
    Course eval place h none number executed (line :: lines) w (prompt place w :: output) ended
  | succeeds {unread : Option (List String)} {number executed : Nat} {line : String}
    {lines output : List String} {w w₁ : World} {v : Value} {ended : Ended Report}
    (hlive : w.ending h.session = none) (hkind : lineKind line = .code)
    (hline : eval h line w = .done v w₁)
    (hrest : Course eval place h unread (number + 1) (executed + 1) lines
      (w₁.setLast h.session v) output ended) :
    Course eval place h unread number executed (line :: lines) w output ended
  | fails {unread : Option (List String)} {number executed : Nat} {line : String}
    {lines : List String} {w w₁ : World} {e : ScriptError}
    (hlive : w.ending h.session = none) (hkind : lineKind line = .code)
    (hline : eval h line w = .failed e w₁) :
    Course eval place h unread number executed (line :: lines) w
      [errorLine e, failureLine number line]
      (.ok { executed := executed + 1, failedAt := some number },
        (w₁.write .shell (errorLine e)).write .shell (failureLine number line))
  | breaks {unread : Option (List String)} {number executed : Nat} {line : String}
    {lines : List String} {w : World} {o : Outcome Value} {halt : Halt}
    (hlive : w.ending h.session = none) (hkind : lineKind line = .code)
    (hline : eval h line w = o) (hhalt : o.halt? = some halt) :
    Course eval place h unread number executed (line :: lines) w [] (.error halt, o.world)

section
variable {eval : Evaluator} {place : Place} {h : Handle}

theorem exists_course (eval : Evaluator) (place : Place) (h : Handle)
    (unread : Option (List String)) (number executed : Nat) (lines : List String) (w : World) :
    ∃ output ended, Course eval place h unread number executed lines w output ended := by
  induction lines generalizing unread number executed w with
  | nil => exact ⟨_, _, .finished⟩
  | cons line lines ih =>
    cases hended : w.ending h.session with
    | some v => exact ⟨_, _, .terminated hended⟩
    | none =>
      cases hkind : lineKind line with
      | skipped =>
        obtain ⟨output, ended, hrest⟩ := ih unread (number + 1) executed w
        exact ⟨_, _, .skipped hended hkind hrest⟩
      | shell =>
        cases unread with
        | none =>
          obtain ⟨output, ended, hrest⟩ :=
            ih none (number + 1) executed (w.write .shell (prompt place w))
          exact ⟨_, _, .laterShell hended hkind hrest⟩
        | some input =>
          obtain ⟨talk, ⟨result, w₁⟩, hshell⟩ := Shell.exists_conversation eval place h input w
          cases result with
          | error halt => exact ⟨_, _, .shellBreaks hended hkind hshell⟩
          | ok _ =>
            obtain ⟨output, ended, hrest⟩ := ih none (number + 1) executed w₁
            exact ⟨_, _, .firstShell hended hkind hshell hrest⟩
      | code =>
        cases hline : eval h line w with
        | done v w₁ =>
          obtain ⟨output, ended, hrest⟩ :=
            ih unread (number + 1) (executed + 1) (w₁.setLast h.session v)
          exact ⟨_, _, .succeeds hended hkind hline hrest⟩
        | failed e w₁ => exact ⟨_, _, .fails hended hkind hline⟩
        | exited code w₁ => exact ⟨_, _, .breaks hended hkind hline rfl⟩
        | exhausted w₁ => exact ⟨_, _, .breaks hended hkind hline rfl⟩

/-- The input that is left: all of it while it is unread; later none, unless the session has been
terminated meanwhile. -/
def Left (unread : Option (List String)) (ended : Bool) (rest : Input) : Prop :=
  match unread with
  | some input => rest = input.map some
  | none => rest = [] ∨ ended = true

/-- In a session that goes on nothing is left of an input that has been read. -/
theorem Left.of_live {unread : Option (List String)} {rest : Input}
    (hleft : Left unread false rest) (ended : Bool) : Left unread ended rest := by
  cases unread with
  | some input => exact hleft
  | none => exact .inl (hleft.resolve_right Bool.false_ne_true)

theorem Course.runFrom_eq {unread : Option (List String)} {number executed : Nat}
    {lines output : List String} {w : World} {ended : Ended Report}
    (hc : Course eval place h unread number executed lines w output ended) {rest : Input}
    (hleft : Left unread (w.ending h.session).isSome rest) :
    runFrom eval place h number executed lines rest w = ended := by
  induction hc generalizing rest with
  | finished => rfl
  | terminated hended => simp [runFrom, hended]
  | skipped hlive hkind hrest ih => simp [runFrom, hlive, hkind, ih hleft]
  | firstShell hlive hkind hshell hrest ih =>
    obtain ⟨rest', hrun, hrest'⟩ := hshell.run_eq
    rw [Left] at hleft
    simp [runFrom, hlive, hkind, hleft, hrun, Except.map, ih hrest']
  | shellBreaks hlive hkind hshell =>
    obtain ⟨rest', hrun, -⟩ := hshell.run_eq
    rw [Left] at hleft
    simp [runFrom, hlive, hkind, hleft, hrun, Except.map]
  | laterShell hlive hkind hrest ih =>
    rw [hlive] at hleft
    obtain rfl : rest = [] := hleft.resolve_right Bool.false_ne_true
    simp [runFrom, hlive, hkind, Shell.run, ih (.inl rfl)]
  | succeeds hlive hkind hline hrest ih =>
    rw [hlive] at hleft
    simp [runFrom, hlive, hkind, perform, hline, ih (hleft.of_live _)]
  | fails hlive hkind hline => simp [runFrom, hlive, hkind, perform, hline]
  | @breaks _ _ _ _ _ _ o halt hlive hkind hline hhalt =>
    cases o with
    | done v w₁ => cases hhalt
    | failed e w₁ => cases hhalt
    | exited code w₁ =>
      cases hhalt
      simp [runFrom, hlive, hkind, perform, hline, Outcome.world]
    | exhausted w₁ =>
      cases hhalt
      simp [runFrom, hlive, hkind, perform, hline, Outcome.world]

end
end ScriptFile

/-! ### What is written for the shell -/

/-- The run writes nothing for the shell. -/
def Script.KeepsShell {α : Type} (x : Script α) : Prop :=
  ∀ w, (x w).world.shellWritten = w.shellWritten

/-- Nothing is written for the shell. -/
def shellKept : Account :=
  fun _ w _ w' _ => w'.shellWritten = w.shellWritten

theorem isAccount_shellKept : IsModestAccount shellKept where
  modest hw _ := hw.shell
  trans h h' := h'.trans h
  mono _ _ h := h
  started _ h := h
  executed _ h := h
  launched _ _ _ := rfl
  aside {_ w w' _} task _ := by
    show (w'.closeAside w.written task).shellWritten = w.shellWritten
    rw [World.closeAside]
    split <;> rfl

theorem host_shellKept {engine : Engine}
    (hcustoms : engine.registry.CustomsHave Script.KeepsShell) :
    IsAccount.Host shellKept engine where
  custom hresolve h args w := hcustoms hresolve h args w
  compute _ _ _ _ _ := rfl

/-- No evaluation writes anything for the shell. -/
theorem Engine.keepsShell {engine : Engine}
    (hcustoms : engine.registry.CustomsHave Script.KeepsShell) (fuel levels : Nat) (h : Handle)
    (line : String) : (engine.evaluate fuel levels h line).KeepsShell :=
  fun w => isAccount_shellKept.evaluate (host_shellKept hcustoms) fuel levels h line w

theorem World.writtenOn_shell (w : World) :
    w.writtenOn .shell = String.join (w.shellWritten.map Written.text) := rfl

theorem World.writtenOn_write (w : World) (s : String) :
    (w.write .shell s).writtenOn .shell = w.writtenOn .shell ++ s := by
  simp [writtenOn, write, String.join_append]

theorem World.writtenOn_setLast (w : World) (id : Nat) (v : Value) :
    (w.setLast id v).writtenOn .shell = w.writtenOn .shell := rfl

theorem World.writtenOn_of_keepsShell {α : Type} {x : Script α} (hx : x.KeepsShell) {w : World}
    {o : Outcome α} (ho : x w = o) : o.world.writtenOn .shell = w.writtenOn .shell := by
  rw [writtenOn_shell, writtenOn_shell, ← ho, hx w]

namespace Shell

theorem writtenOn_writeAll (w : World) (texts : List String) :
    (writeAll w texts).writtenOn .shell = w.writtenOn .shell ++ String.join texts := by
  induction texts generalizing w with
  | nil => simp [writeAll]
  | cons s texts ih =>
    rw [show writeAll w (s :: texts) = writeAll (w.write .shell s) texts from rfl, ih,
      World.writtenOn_write, String.join_cons, String.append_assoc]

variable {eval : Evaluator} {place : Place} {h : Handle}

theorem Conversation.written (heval : ∀ line, (eval h line).KeepsShell)
    {input output : List String} {w : World} {ended : Ended Unit}
    (hc : Conversation eval place h input w output ended) :
    ended.2.writtenOn .shell = w.writtenOn .shell ++ String.join output := by
  induction hc with
  | terminated => simp
  | inputEnds => simp [World.writtenOn_write]
  | @succeeds line input output w w₁ v ended hlive hline hrest ih =>
    have hkept : w₁.writtenOn .shell = _ := World.writtenOn_of_keepsShell (heval _) hline
    rw [ih, World.writtenOn_setLast, writtenOn_writeAll, hkept, World.writtenOn_write,
      String.join_cons, String.join_append]
    simp only [String.append_assoc]
  | @fails line input output w w₁ e ended hlive hline hrest ih =>
    have hkept : w₁.writtenOn .shell = _ := World.writtenOn_of_keepsShell (heval _) hline
    rw [ih, World.writtenOn_write, hkept, World.writtenOn_write, String.join_cons,
      String.join_cons]
    simp only [String.append_assoc]
  | breaks hlive hline hhalt =>
    have hkept := World.writtenOn_of_keepsShell (heval _) hline
    rw [hkept, World.writtenOn_write, String.join_cons, String.join_nil, String.append_empty]

end Shell

namespace ScriptFile
open Shell (prompt)

variable {eval : Evaluator} {place : Place} {h : Handle}

theorem Course.written (heval : ∀ line, (eval h line).KeepsShell) {unread : Option (List String)}
    {number executed : Nat} {lines output : List String} {w : World} {ended : Ended Report}
    (hc : Course eval place h unread number executed lines w output ended) :
    ended.2.writtenOn .shell = w.writtenOn .shell ++ String.join output := by
  induction hc with
  | finished => simp
  | terminated => simp
  | skipped hlive hkind hrest ih => exact ih
  | firstShell hlive hkind hshell hrest ih =>
    rw [ih, hshell.written heval, String.join_append, String.append_assoc]
  | shellBreaks hlive hkind hshell => exact hshell.written heval
  | laterShell hlive hkind hrest ih =>
    rw [ih, World.writtenOn_write, String.join_cons, String.append_assoc]
  | @succeeds unread number executed line lines output w w₁ v ended hlive hkind hline hrest ih =>
    have hkept : w₁.writtenOn .shell = _ := World.writtenOn_of_keepsShell (heval _) hline
    rw [ih, World.writtenOn_setLast, hkept]
  | @fails unread number executed line lines w w₁ e hlive hkind hline =>
    have hkept : w₁.writtenOn .shell = _ := World.writtenOn_of_keepsShell (heval _) hline
    rw [World.writtenOn_write, World.writtenOn_write, hkept]
    simp [String.append_assoc]
  | breaks hlive hkind hline hhalt =>
    rw [World.writtenOn_of_keepsShell (heval _) hline]
    simp

/-- A script runs as its course says, and in no other way. The first `ShellMode` that it reaches
reads all of the input, line by line, a line that fails being told and passed over, until the input
ends or the session is terminated; each later one writes one prompt and nothing else happens. What
is written for the shell is what the course says, piece by piece; and a shell moves neither the
count of evaluated lines nor, whatever becomes of its lines, the number of one that fails. -/
theorem run_eq_iff_course {engine : Engine}
    (hcustoms : engine.registry.CustomsHave Script.KeepsShell) (fuel levels : Nat) (h : Handle)
    (source input : String) (w : World) (ended : Ended Report) :
    run (engine.evaluate fuel levels) engine.place h source (Text.inputLines input.toUTF8) w =
        ended ↔
      ∃ output, Course (engine.evaluate fuel levels) engine.place h (some (Text.feedLines input))
          1 0 (Text.lines source) w output ended ∧
        ended.2.writtenOn .shell = w.writtenOn .shell ++ String.join output := by
  rw [Text.inputLines_toUTF8, run]
  constructor
  · intro hrun
    obtain ⟨output, ended', hcourse⟩ := exists_course (engine.evaluate fuel levels) engine.place h
      (some (Text.feedLines input)) 1 0 (Text.lines source) w
    obtain rfl : ended' = ended := (hcourse.runFrom_eq rfl).symm.trans hrun
    exact ⟨output, hcourse, hcourse.written (engine.keepsShell hcustoms fuel levels h)⟩
  · rintro ⟨output, hcourse, -⟩
    exact hcourse.runFrom_eq rfl

/-- Two shells and one line of input, which names no command: the first shell reads it and tells
that it failed, and the second has only its prompt to write. -/
theorem run_eq_iff_course_twoShells :
    ∃ w', run ((Program.standardEngine default).evaluate 1 9) default { session := 0 }
        "ShellMode\nShellMode" (Text.inputLines "Nope\n".toUTF8) (World.start {}) =
          (.ok { executed := 0 }, w') ∧
      w'.writtenOn .shell =
        String.join [prompt default (World.start {}), "error: command not found: Nope\n",
          prompt default (World.start {}), prompt default (World.start {})] := by
  have hcustoms : (Program.standardEngine default).registry.CustomsHave Script.KeepsShell :=
    Registry.customsHave_standard _
  have hkind : lineKind "ShellMode" = .shell := by decide
  have hlines : Text.lines "ShellMode\nShellMode" = ["ShellMode", "ShellMode"] := by decide
  have hinput : Text.feedLines "Nope\n" = ["Nope\n"] := by decide
  have hline : (Program.standardEngine default).evaluate 1 9 { session := 0 }
      (Text.dropLineEnd "Nope\n")
      ((World.start {}).write .shell (prompt default (World.start {}))) =
      .failed ⟨.commandNotFound "Nope", []⟩
        ((World.start {}).write .shell (prompt default (World.start {}))) := rfl
  have hshown : Shell.errorLine ⟨.commandNotFound "Nope", []⟩ =
      "error: command not found: Nope\n" := by decide
  obtain ⟨w', hcourse⟩ : ∃ w', Course ((Program.standardEngine default).evaluate 1 9) default
      { session := 0 } (some (Text.feedLines "Nope\n")) 1 0 (Text.lines "ShellMode\nShellMode")
      (World.start {}) [prompt default (World.start {}), "error: command not found: Nope\n",
        prompt default (World.start {}), prompt default (World.start {})]
      (.ok { executed := 0 }, w') := by
    rw [hlines, hinput, ← hshown]
    exact ⟨_, .firstShell rfl hkind (.fails rfl hline (.inputEnds rfl))
      (.laterShell rfl hkind .finished)⟩
  have hwritten := hcourse.written ((Program.standardEngine default).keepsShell hcustoms 1 9 _)
  have hrun := (run_eq_iff_course hcustoms 1 9 _ _ _ _ _).2 ⟨_, hcourse, hwritten⟩
  exact ⟨w', hrun, hwritten⟩

end ScriptFile
end BraceScript
