import BraceScript.Mode
import BraceScript.Proofs.Rejoining

/-!
# The words of a command line

The program's arguments are joined into one line, an empty word and a word that holds a blank being
written as quoted spans. A word that begins and ends with a brace is taken for a brace group and
written bare, and so is every word without a blank.

A bare word is one token exactly when its blanks and double quotes stand inside brace groups and its
groups are closed, unless nothing follows it. So the tokens of the line are the words exactly when
that holds of every bare word (`Mode.scan_joinWords_iff`).
-/

namespace BraceScript
namespace Mode
open LineGrammar

/-- Is the word written as a quoted span? -/
def isSpanned (w : String) : Bool :=
  let braced := ['{'].isPrefixOf w.toList && ['}'].isSuffixOf w.toList
  w.isEmpty || (!braced && Text.hasBlank w)

/-- Does the word come back as one token of the line it is joined into? A bare word that leaves a
brace open takes in all that follows it. -/
def comesBack (isLast : Bool) (w : String) : Bool :=
  isSpanned w || (Text.isBare w && (isLast || Text.openBraces 0 w.toList = 0))

/-- Do all words come back from the line they are joined into? -/
def allComeBack : List String → Bool
  | [] => true
  | w :: ws => comesBack ws.isEmpty w && allComeBack ws

theorem word_eq (w : String) :
    joinWords.word w = if isSpanned w = true then Text.span w else w := rfl

theorem head_of_not_isSpanned {w : String} (h : isSpanned w = false) :
    w ≠ "" ∧ ∀ c ∈ w.toList.head?, isBlank c = false := by
  obtain ⟨hne, hblank⟩ : w ≠ "" ∧ (['{'].isPrefixOf w.toList = true ∨ Text.hasBlank w = false) := by
    rw [isSpanned, Bool.or_eq_false_iff, Bool.and_eq_false_iff] at h
    refine ⟨by simpa using h.1, h.2.imp_left fun hbraced => ?_⟩
    rw [Bool.not_eq_false', Bool.and_eq_true] at hbraced
    exact hbraced.1
  refine ⟨hne, fun c hc => ?_⟩
  -- a bare word begins with a brace, or it has no blank at all
  rcases hblank with hbraced | hblank
  · obtain ⟨cs, hcs⟩ := List.isPrefixOf_iff_prefix.1 hbraced
    obtain rfl : '{' = c := by simpa [← hcs] using hc
    rfl
  · exact Bool.eq_false_iff.2 (List.any_eq_false.1 hblank c (List.mem_of_mem_head? hc))

theorem scanFrom_word_iff (w : String) {rest : List Char} (hrest : Separates rest)
    (ts : List Token) :
    Token.scanFrom .between [] ((joinWords.word w).toList ++ rest) =
        Token.ofValue w.toList :: ts ↔
      comesBack rest.isEmpty w = true ∧ Token.scanFrom .between [] rest = ts := by
  cases hw : isSpanned w with
  | true => rw [word_eq, hw, if_pos rfl, scanFrom_span_iff hrest, comesBack, hw, Bool.true_or,
      and_iff_right rfl]
  | false =>
    obtain ⟨hne, hhead⟩ := head_of_not_isSpanned hw
    rw [word_eq, hw, if_neg Bool.false_ne_true, scanFrom_bare_iff hhead hne hrest, comesBack, hw,
      Bool.false_or]

theorem toList_joinWords_cons_cons (w w' : String) (ws : List String) :
    (joinWords (w :: w' :: ws)).toList =
      (joinWords.word w).toList ++ ' ' :: (joinWords (w' :: ws)).toList := by
  simp [joinWords]

/-- The tokens of the line that words are joined into are the words, an empty one being null,
exactly when they all come back: each word that is written bare has its blanks and double quotes in
brace groups, and its groups closed unless it is the last. -/
theorem scan_joinWords_iff (words : List String) :
    Token.scan (joinWords words) = words.map (fun w => Token.ofValue w.toList) ↔
      allComeBack words = true := by
  simp only [Token.scan]
  induction words with
  | nil => decide
  | cons w ws ih =>
    rw [List.map_cons, allComeBack, Bool.and_eq_true]
    cases ws with
    | nil =>
      have hword := scanFrom_word_iff w .nothing []
      rw [List.append_nil] at hword
      simpa [joinWords, allComeBack, Token.scanFrom] using hword
    | cons w' ws =>
      rw [toList_joinWords_cons_cons, scanFrom_word_iff w (.space _),
        scanFrom_between_of_isBlank rfl, ih]
      rfl

/-- Two groups with a blank between them are taken for one, and become two tokens. -/
theorem scan_joinWords_ne_of_two_groups :
    Token.scan (joinWords ["\x7ba\x7d \x7bb\x7d"]) ≠ [.word "\x7ba\x7d \x7bb\x7d"] := by
  decide

end Mode
end BraceScript
