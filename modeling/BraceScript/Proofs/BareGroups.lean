import BraceScript.Proofs.Rejoining

/-!
# Lines whose brace groups stand bare

A line is *deferrable* when it has a token and no token of it has both a brace and a double quote
outside of its groups. All its tokens come back, so that the line joined from them has the same
tokens (`Deferrable.scan_joinSource`).
-/

namespace BraceScript
namespace LineGrammar
open Text (bracesBehind openBraces)

/-- No piece of the token is a quoted span, so that its only double quotes stand in groups. -/
def Written.HasNoSpan (t : Written) : Prop :=
  (∀ p ∈ t.pieces, ∀ body, p ≠ .span body) ∧ ∀ body backslash, t.cut ≠ some (.span body backslash)

/-- Tokens that have a brace are written without a double quote outside of their groups. -/
def Reading.LeavesGroupsBare (r : Reading) : Prop :=
  ∀ t ∈ r.written, '{' ∈ t.value → t.HasNoSpan

theorem Written.value_eq_source {t : Written} (h : t.HasNoSpan) : t.value = t.source := by
  obtain ⟨ps, cut⟩ := t
  have hpieces : ps.flatMap Piece.value = ps.flatMap Piece.source := by
    refine List.flatMap_congr fun p hp => ?_
    cases p with
    | plain c hc => rfl
    | span body => exact absurd rfl (h.1 _ hp body)
    | group cs hcs => rfl
  have hcut : (cut.map OpenPiece.value).getD [] = (cut.map OpenPiece.source).getD [] := by
    match cut with
    | none => rfl
    | some (.span body backslash) => exact absurd rfl (h.2 body backslash)
    | some (.group cs hcs) => rfl
  rw [value, source, hpieces, hcut]

theorem bareFrom_of_not_mem {cs : List Char} (hopen : '{' ∉ cs)
    (h : ∀ c ∈ cs, Text.breaksBare c = false) : BareFrom 0 cs ∧ openBraces 0 cs = 0 := by
  induction cs with
  | nil => exact ⟨bareFrom_nil 0, rfl⟩
  | cons c cs ih =>
    obtain ⟨hc, hcs⟩ : '{' ≠ c ∧ '{' ∉ cs := by simpa using hopen
    have hzero : bracesBehind 0 c = 0 := by simp [bracesBehind, hc.symm]
    obtain ⟨hbare, hclosed⟩ := ih hcs fun d hd => h d (by simp [hd])
    refine ⟨bareFrom_cons.2 ⟨fun _ => h c (by simp), ?_⟩, ?_⟩
    · rw [hzero]
      exact hbare
    · rw [openBraces, List.foldl_cons, hzero]
      exact hclosed

theorem comesBack_ofValue {cs : List Char} {isLast : Bool} (hbare : BareFrom 0 cs)
    (hopen : isLast = true ∨ openBraces 0 cs = 0) : (Token.ofValue cs).comesBack isLast = true := by
  by_cases hne : cs = []
  · rw [hne]; rfl
  · have : Text.isBare (String.ofList cs) = true := by
      simpa [Text.isBare, BareFrom] using hbare
    simp [ofValue_eq_word hne, Token.comesBack, this, hopen]

/-- A token without a brace comes back, however it was written. -/
theorem comesBack_of_not_mem {cs : List Char} (hopen : '{' ∉ cs) (isLast : Bool) :
    (Token.ofValue cs).comesBack isLast = true := by
  by_cases hne : cs = []
  · rw [hne]; rfl
  cases hq : Text.needsQuotes (String.ofList cs) with
  | true => simp [ofValue_eq_word hne, Token.comesBack, hq]
  | false =>
    have hhead := (needsQuotes_eq_false_iff.1 hq).2
    have htake : cs.takeWhile (· ≠ '{') = cs :=
      List.takeWhile_eq_self_iff.2 fun d hd => by
        have : d ≠ '{' := fun h => hopen (h ▸ hd)
        simpa using this
    rw [String.toList_ofList, htake] at hhead
    have := bareFrom_of_not_mem hopen fun d hd => by simp [Text.breaksBare, hhead d hd]
    exact comesBack_ofValue this.1 (.inr this.2)

/-- A token written without spans is bare text. -/
theorem Written.bareFrom {t : Written} (h : t.HasNoSpan) : BareFrom 0 t.value := by
  have hscan : Token.scanFrom .plain [] t.value = [Token.ofValue t.value] := by
    nth_rewrite 1 [value_eq_source h]
    rw [source, scanFrom_plain_pieces, List.append_nil, value]
    cases t.cut with
    | none => simp [Token.scanFrom, ofReversed_eq]
    | some p => simp [scanFrom_plain_openPiece, ofReversed_eq]
  exact bareFrom_of_scanFrom_eq .nothing (by rwa [List.append_nil])

/-- A token that is not cut off and is written without spans has its groups closed. -/
theorem Word.openBraces_eq_zero {w : Word} (h : w.written.HasNoSpan) :
    openBraces 0 w.written.value = 0 := by
  have hsource : w.written.source = (w.first :: w.rest).flatMap Piece.source := by
    simp [Written.source, Word.written]
  have hvalue : w.written.value = (w.first :: w.rest).flatMap Piece.value := by
    simp [Written.value, Word.written]
  have hscan : Token.scanFrom .plain [] (w.written.value ++ [' ']) =
      [Token.ofValue w.written.value] := by
    nth_rewrite 1 [Written.value_eq_source h]
    rw [hsource, scanFrom_plain_pieces, scanFrom_plain_of_isBlank rfl, hvalue, ofReversed_eq]
    simp [Token.scanFrom]
  exact openBraces_of_scanFrom_eq (Written.bareFrom h) hscan

theorem comesBack_of_comesBack_false {t : Token} (h : t.comesBack false = true) (isLast : Bool) :
    t.comesBack isLast = true := by
  cases t with
  | null => rfl
  | word s =>
    simp only [Token.comesBack, Bool.false_or, Bool.or_eq_true, Bool.and_eq_true] at h ⊢
    exact h.imp_right fun h => ⟨h.1, .inr h.2⟩

theorem allComeBack_append {ts us : List Token} (hts : ∀ t ∈ ts, t.comesBack false = true)
    (hus : Token.allComeBack us = true) : Token.allComeBack (ts ++ us) = true := by
  induction ts with
  | nil => exact hus
  | cons t ts ih =>
    have ht := comesBack_of_comesBack_false (hts t (by simp)) (ts ++ us).isEmpty
    rw [List.cons_append, Token.allComeBack, ht, ih fun u hu => hts u (by simp [hu])]
    rfl

theorem Reading.allComeBack {r : Reading} (h : r.LeavesGroupsBare) :
    Token.allComeBack (r.values.map Token.ofValue) = true := by
  have hword : ∀ (w : Word) (isLast : Bool), w.written ∈ r.written →
      (Token.ofValue w.written.value).comesBack isLast = true := by
    intro w isLast hw
    by_cases hopen : '{' ∈ w.written.value
    · have hspan := h _ hw hopen
      exact comesBack_ofValue (Written.bareFrom hspan) (.inr (Word.openBraces_eq_zero hspan))
    · exact comesBack_of_not_mem hopen isLast
  rw [values, written, List.map_append, List.map_append]
  refine allComeBack_append (fun t ht => ?_) ?_
  · simp only [List.map_map, List.mem_map, Function.comp] at ht
    obtain ⟨p, hp, rfl⟩ := ht
    exact hword p.1 false (List.mem_append_left _ (List.mem_map.2 ⟨p, hp, rfl⟩))
  · cases he : r.ending with
    | blank => rfl
    | word w =>
      have hw : w.written ∈ r.written := List.mem_append_right _ (by simp [he, Ending.written])
      simp [Ending.written, Token.allComeBack, hword w true hw]
    | cut ps p =>
      have hmem : (⟨ps, some p⟩ : Written) ∈ r.written :=
        List.mem_append_right _ (by simp [he, Ending.written])
      have hlast : (Token.ofValue (Written.value ⟨ps, some p⟩)).comesBack true = true := by
        by_cases hopen : '{' ∈ Written.value ⟨ps, some p⟩
        · exact comesBack_ofValue (Written.bareFrom (h _ hmem hopen)) (.inl rfl)
        · exact comesBack_of_not_mem hopen true
      simp [Ending.written, Token.allComeBack, hlast]

end LineGrammar

open LineGrammar

/-- A line that has a token, and whose tokens with a brace are written without a double quote
outside of their groups. -/
structure Deferrable (line : String) : Prop where
  scan_ne_nil : Token.scan line ≠ []
  leavesGroupsBare : ∀ r : Reading, r.source = line.toList → r.LeavesGroupsBare

/-- A line joined from the tokens of a deferrable one has the same tokens. -/
theorem Deferrable.scan_joinSource {line : String} (h : Deferrable line) (blocks : Array Block) :
    Token.scan (Value.joinSource blocks ((Token.scan line).map Token.toValue)) =
      Token.scan line := by
  have hback : Token.allComeBack (Token.scan line) = true := by
    obtain ⟨r, hr⟩ := Reading.exists_source_eq line.toList
    rw [Token.scan, ← hr, r.scan_source]
    exact Reading.allComeBack (h.leavesGroupsBare r hr)
  nth_rewrite 1 [Token.scan]
  rw [toList_joinSource]
  exact (scanFrom_joined_iff (Token.word_empty_not_mem_scan line)).2 hback

end BraceScript
