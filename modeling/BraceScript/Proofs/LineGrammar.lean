import BraceScript.Token

/-!
# The grammar of a line

A line is blanks, then tokens with a run of blanks after each, the last token aside, which may end
the line. A token is written as a row of pieces: plain characters, quoted spans, and brace groups.
The last token may end in a piece that is not closed. `Reading` is a line taken apart in that way;
its types leave no room for a reading that breaks a rule.

`Reading.scan_source` says what the scanner makes of the text of a reading, piece by piece, so that
the scanner is never followed through a half-read token. That every line has exactly one reading is
shown in `Proofs/UniqueReading`, without the scanner.
-/

namespace BraceScript

/-- The token that stands for some characters: null where there are none. -/
def Token.ofValue : List Char → Token
  | [] => null
  | c :: cs => word (String.ofList (c :: cs))

namespace LineGrammar

open Token (scanFrom ofReversed)

/-! ### The scanner around blanks -/

theorem scanFrom_between_of_not_isBlank {c : Char} (hc : isBlank c = false)
    (token cs : List Char) : scanFrom .between token (c :: cs) = scanFrom .plain [] (c :: cs) := by
  simp only [scanFrom, hc, Bool.false_eq_true, if_false]

theorem scanFrom_between_of_isBlank {c : Char} (hc : isBlank c = true) (token cs : List Char) :
    scanFrom .between token (c :: cs) = scanFrom .between [] cs := by
  have hq : c ≠ '"' := by rintro rfl; simp [isBlank] at hc
  have hb : c ≠ '{' := by rintro rfl; simp [isBlank] at hc
  simp only [scanFrom, hq, hb, hc, if_false, if_true]

theorem scanFrom_plain_of_isBlank {c : Char} (hc : isBlank c = true) (token cs : List Char) :
    scanFrom .plain token (c :: cs) = ofReversed token :: scanFrom .between [] cs := by
  have hq : c ≠ '"' := by rintro rfl; simp [isBlank] at hc
  have hb : c ≠ '{' := by rintro rfl; simp [isBlank] at hc
  simp only [scanFrom, hq, hb, hc, if_false, if_true]

/-! ### Brace depth -/

/-- How many more braces are opened than closed. -/
def depth (cs : List Char) : Int :=
  cs.count '{' - cs.count '}'

@[simp] theorem depth_nil : depth [] = 0 := rfl

theorem depth_cons (c : Char) (cs : List Char) : depth (c :: cs) = depth [c] + depth cs := by
  simp only [depth, List.count_cons, List.count_nil]
  omega

@[simp] theorem depth_open : depth ['{'] = 1 := rfl

@[simp] theorem depth_close : depth ['}'] = -1 := rfl

theorem depth_other {c : Char} (h : c ≠ '{') (h' : c ≠ '}') : depth [c] = 0 := by
  simp [depth, h, h']

theorem neg_one_le_depth (c : Char) : -1 ≤ depth [c] := by
  by_cases h : c = '{'
  · simp [h]
  by_cases h' : c = '}'
  · simp [h']
  · simp [depth_other h h']

/-- A brace group: from an opening brace to the brace that balances it. -/
structure IsGroup (cs : List Char) : Prop where
  opens : cs.head? = some '{'
  inside : ∀ p, p <+: cs → p ≠ [] → p ≠ cs → 0 < depth p
  closes : depth cs = 0

/-- The beginning of a brace group that nothing closes. -/
structure IsOpenGroup (cs : List Char) : Prop where
  opens : cs.head? = some '{'
  inside : ∀ p, p <+: cs → p ≠ [] → 0 < depth p

/-- With `n` braces open, the characters close the last of them at their end and not before. -/
def ClosesFrom (n : Int) (cs : List Char) : Prop :=
  (∀ p, p <+: cs → p ≠ cs → 0 < n + depth p) ∧ n + depth cs = 0

/-- With `n` braces open, the characters never close the last of them. -/
def StaysOpenFrom (n : Int) (cs : List Char) : Prop :=
  ∀ p, p <+: cs → 0 < n + depth p

theorem closesFrom_nil {n : Int} : ClosesFrom n [] ↔ n = 0 := by
  constructor
  · rintro ⟨-, h⟩
    simpa using h
  · rintro rfl
    exact ⟨fun p hp hne => absurd (List.prefix_nil.1 hp) hne, by simp⟩

theorem closesFrom_cons {n : Int} {c : Char} {cs : List Char} :
    ClosesFrom n (c :: cs) ↔ 0 < n ∧ ClosesFrom (n + depth [c]) cs := by
  constructor
  · rintro ⟨hin, hend⟩
    refine ⟨by simpa using hin [] List.nil_prefix (by simp), fun p hp hne => ?_, ?_⟩
    · have := hin (c :: p) (List.cons_prefix_cons.2 ⟨rfl, hp⟩) (by simpa using hne)
      rw [depth_cons] at this
      omega
    · rw [depth_cons] at hend
      omega
  · rintro ⟨hn, hin, hend⟩
    refine ⟨fun p hp hne => ?_, by rw [depth_cons]; omega⟩
    rcases List.prefix_cons_iff.1 hp with rfl | ⟨q, rfl, hq⟩
    · simpa using hn
    · have := hin q hq (by simpa using hne)
      rw [depth_cons]
      omega

theorem staysOpenFrom_nil {n : Int} : StaysOpenFrom n [] ↔ 0 < n := by
  constructor
  · intro h
    simpa using h [] List.nil_prefix
  · intro h p hp
    rw [List.prefix_nil.1 hp]
    simpa using h

theorem staysOpenFrom_cons {n : Int} {c : Char} {cs : List Char} :
    StaysOpenFrom n (c :: cs) ↔ 0 < n ∧ StaysOpenFrom (n + depth [c]) cs := by
  constructor
  · intro h
    refine ⟨by simpa using h [] List.nil_prefix, fun p hp => ?_⟩
    have := h (c :: p) (List.cons_prefix_cons.2 ⟨rfl, hp⟩)
    rw [depth_cons] at this
    omega
  · rintro ⟨hn, h⟩ p hp
    rcases List.prefix_cons_iff.1 hp with rfl | ⟨q, rfl, hq⟩
    · simpa using hn
    · have := h q hq
      rw [depth_cons]
      omega

theorem isGroup_iff {cs : List Char} : IsGroup cs ↔ ∃ t, cs = '{' :: t ∧ ClosesFrom 1 t := by
  constructor
  · intro h
    match cs, h with
    | c :: t, h =>
      obtain rfl : c = '{' := by simpa using h.opens
      refine ⟨t, rfl, fun p hp hne => ?_, ?_⟩
      · have := h.inside ('{' :: p) (List.cons_prefix_cons.2 ⟨rfl, hp⟩) (by simp)
          (by simpa using hne)
        rwa [depth_cons, depth_open] at this
      · have := h.closes
        rwa [depth_cons, depth_open] at this
    | [], h => exact absurd h.opens (by simp)
  · rintro ⟨t, rfl, hin, hend⟩
    refine ⟨rfl, fun p hp hne hne' => ?_, by rwa [depth_cons, depth_open]⟩
    rcases List.prefix_cons_iff.1 hp with rfl | ⟨q, rfl, hq⟩
    · exact absurd rfl hne
    · rw [depth_cons, depth_open]
      exact hin q hq (by simpa using hne')

theorem isOpenGroup_iff {cs : List Char} :
    IsOpenGroup cs ↔ ∃ t, cs = '{' :: t ∧ StaysOpenFrom 1 t := by
  constructor
  · intro h
    match cs, h with
    | c :: t, h =>
      obtain rfl : c = '{' := by simpa using h.opens
      refine ⟨t, rfl, fun p hp => ?_⟩
      have := h.inside ('{' :: p) (List.cons_prefix_cons.2 ⟨rfl, hp⟩) (by simp)
      rwa [depth_cons, depth_open] at this
    | [], h => exact absurd h.opens (by simp)
  · rintro ⟨t, rfl, hin⟩
    refine ⟨rfl, fun p hp hne => ?_⟩
    rcases List.prefix_cons_iff.1 hp with rfl | ⟨q, rfl, hq⟩
    · exact absurd rfl hne
    · rw [depth_cons, depth_open]
      exact hin q hq

/-- Characters that stand behind open braces either leave one open or begin with what closes them
all. -/
theorem staysOpenFrom_or_closesFrom {n : Int} (hn : 0 < n) (cs : List Char) :
    StaysOpenFrom n cs ∨ ∃ t rest, cs = t ++ rest ∧ ClosesFrom n t := by
  induction cs generalizing n with
  | nil => exact .inl (staysOpenFrom_nil.2 hn)
  | cons c cs ih =>
    have hd := neg_one_le_depth c
    by_cases hz : n + depth [c] = 0
    · exact .inr ⟨[c], cs, rfl, closesFrom_cons.2 ⟨hn, closesFrom_nil.2 hz⟩⟩
    · rcases ih (n := n + depth [c]) (by omega) with h | ⟨t, rest, rfl, h⟩
      · exact .inl (staysOpenFrom_cons.2 ⟨hn, h⟩)
      · exact .inr ⟨c :: t, rest, rfl, closesFrom_cons.2 ⟨hn, h⟩⟩

/-! ### The grammar -/

/-- A blank character. -/
abbrev Blank := { c : Char // isBlank c = true }

/-- A character in a quoted span as it is written: behind a backslash, or by itself. -/
inductive SpanItem where
  | escaped (c : Char)
  | literal (c : Char) (h : c ≠ '"' ∧ c ≠ '\\')

/-- How a character in a quoted span is written. -/
def SpanItem.source : SpanItem → List Char
  | escaped c => ['\\', c]
  | literal c _ => [c]

/-- The character that is meant. -/
def SpanItem.value : SpanItem → Char
  | escaped c => c
  | literal c _ => c

/-- A piece of a token. -/
inductive Piece where
  | plain (c : Char) (h : isBlank c = false ∧ c ≠ '"' ∧ c ≠ '{')
  | span (body : List SpanItem)
  | group (cs : List Char) (h : IsGroup cs)

/-- How a piece is written. -/
def Piece.source : Piece → List Char
  | plain c _ => [c]
  | span body => '"' :: (body.flatMap SpanItem.source ++ ['"'])
  | group cs _ => cs

/-- What a piece stands for. -/
def Piece.value : Piece → List Char
  | plain c _ => [c]
  | span body => body.map SpanItem.value
  | group cs _ => cs

/-- A piece that the end of the line cuts off; a span may end in a backslash, which stands for
nothing. -/
inductive OpenPiece where
  | span (body : List SpanItem) (backslash : Bool)
  | group (cs : List Char) (h : IsOpenGroup cs)

/-- How a piece that is cut off is written. -/
def OpenPiece.source : OpenPiece → List Char
  | span body backslash =>
    '"' :: (body.flatMap SpanItem.source ++ if backslash then ['\\'] else [])
  | group cs _ => cs

/-- What a piece that is cut off stands for. -/
def OpenPiece.value : OpenPiece → List Char
  | span body _ => body.map SpanItem.value
  | group cs _ => cs

/-- A token as it is written: its pieces, and the one that is cut off, if the token has one. -/
structure Written where
  pieces : List Piece
  cut : Option OpenPiece := none

namespace Written

/-- The text of a token. -/
def source (t : Written) : List Char :=
  t.pieces.flatMap Piece.source ++ (t.cut.map OpenPiece.source).getD []

/-- The characters that a token stands for. -/
def value (t : Written) : List Char :=
  t.pieces.flatMap Piece.value ++ (t.cut.map OpenPiece.value).getD []

end Written

/-- The pieces of a token that no end of line cuts off. -/
structure Word where
  first : Piece
  rest : List Piece

/-- The token as it is written. -/
def Word.written (w : Word) : Written where
  pieces := w.first :: w.rest

/-- A run of blanks that is not empty. -/
structure Gap where
  first : Blank
  rest : List Blank

/-- The text of a run of blanks. -/
def Gap.source (g : Gap) : List Char :=
  (g.first :: g.rest).map Subtype.val

/-- How a line ends: behind the last run of blanks, with a token, or with one that is cut off. -/
inductive Ending where
  | blank
  | word (w : Word)
  | cut (pieces : List Piece) (last : OpenPiece)

/-- The token that ends the line, if one does. -/
def Ending.written : Ending → List Written
  | blank => []
  | word w => [w.written]
  | cut pieces last => [{ pieces, cut := some last }]

/-- A line taken apart: blanks, tokens with a run of blanks after each, and what ends the line. -/
structure Reading where
  lead : List Blank
  words : List (Word × Gap)
  ending : Ending

namespace Reading

/-- The tokens as they are written. -/
def written (r : Reading) : List Written :=
  r.words.map (·.1.written) ++ r.ending.written

/-- The text of the line behind the blanks it begins with. -/
def body (r : Reading) : List Char :=
  r.words.flatMap (fun p => p.1.written.source ++ p.2.source) ++ r.ending.written.flatMap (·.source)

/-- The text of the line. -/
def source (r : Reading) : List Char :=
  r.lead.map Subtype.val ++ r.body

/-- What the tokens stand for. -/
def values (r : Reading) : List (List Char) :=
  r.written.map Written.value

end Reading

/-! ### The scanner on a piece -/

theorem ofReversed_eq (cs : List Char) : ofReversed cs = Token.ofValue cs.reverse := by
  rw [ofReversed]
  cases h : cs.reverse with
  | nil => simp [List.reverse_eq_nil_iff.1 h, Token.ofValue]
  | cons c t =>
    have hne : cs.isEmpty = false := by
      cases cs with
      | nil => simp at h
      | cons a as => rfl
    simp [hne, Token.ofValue]

theorem scanFrom_quoted_item (i : SpanItem) (token cs : List Char) :
    scanFrom .quoted token (i.source ++ cs) = scanFrom .quoted (i.value :: token) cs := by
  cases i with
  | escaped c => simp [SpanItem.source, SpanItem.value, scanFrom]
  | literal c h => simp [SpanItem.source, SpanItem.value, scanFrom, h.1, h.2]

theorem scanFrom_quoted_items (body : List SpanItem) (token cs : List Char) :
    scanFrom .quoted token (body.flatMap SpanItem.source ++ cs) =
      scanFrom .quoted ((body.map SpanItem.value).reverse ++ token) cs := by
  induction body generalizing token with
  | nil => rfl
  | cons i body ih =>
    rw [List.flatMap_cons, List.append_assoc, scanFrom_quoted_item, ih]
    simp

theorem scanFrom_braced_cons {d d' : Nat} {c : Char} (h : (d + 1 : Int) + depth [c] = d' + 1)
    (token cs : List Char) :
    scanFrom (.braced d) token (c :: cs) = scanFrom (.braced d') (c :: token) cs := by
  by_cases hopen : c = '{'
  · subst hopen
    obtain rfl : d' = d + 1 := by rw [depth_open] at h; omega
    simp only [scanFrom, if_true]
  by_cases hclose : c = '}'
  · subst hclose
    obtain rfl : d = d' + 1 := by rw [depth_close] at h; omega
    simp only [scanFrom, hopen, if_false, if_true]
  · obtain rfl : d' = d := by rw [depth_other hopen hclose] at h; omega
    simp only [scanFrom, hopen, hclose, if_false]

theorem scanFrom_braced_close {d : Nat} {c : Char} (h : (d + 1 : Int) + depth [c] = 0)
    (token cs : List Char) :
    scanFrom (.braced d) token (c :: cs) = scanFrom .plain (c :: token) cs := by
  obtain ⟨rfl, rfl⟩ : c = '}' ∧ d = 0 := by
    by_cases hopen : c = '{'
    · rw [hopen, depth_open] at h; omega
    by_cases hclose : c = '}'
    · rw [hclose, depth_close] at h; exact ⟨hclose, by omega⟩
    · rw [depth_other hopen hclose] at h; omega
  simp [scanFrom]

/-- The braces that are open behind a character of a group: none, or one and some more. -/
theorem depth_behind (d : Nat) (c : Char) :
    (d + 1 : Int) + depth [c] = 0 ∨ ∃ d' : Nat, (d + 1 : Int) + depth [c] = d' + 1 := by
  have := neg_one_le_depth c
  by_cases h : (d + 1 : Int) + depth [c] = 0
  · exact .inl h
  · exact .inr ⟨((d : Int) + depth [c]).toNat, by omega⟩

theorem scanFrom_braced_of_closesFrom {d : Nat} {t : List Char} (h : ClosesFrom (d + 1) t)
    (token rest : List Char) :
    scanFrom (.braced d) token (t ++ rest) = scanFrom .plain (t.reverse ++ token) rest := by
  induction t generalizing d token with
  | nil =>
    have := closesFrom_nil.1 h
    omega
  | cons c t ih =>
    obtain ⟨-, h⟩ := closesFrom_cons.1 h
    rw [List.cons_append, List.reverse_cons, List.append_assoc, List.singleton_append]
    rcases depth_behind d c with hd | ⟨d', hd⟩
    · rw [hd] at h
      match t, h with
      | [], _ => exact scanFrom_braced_close hd token rest
      | a :: t, h => exact absurd (closesFrom_cons.1 h).1 (by omega)
    · rw [hd] at h
      rw [scanFrom_braced_cons hd]
      exact ih h (c :: token)

theorem scanFrom_braced_of_staysOpenFrom {d : Nat} {t : List Char} (h : StaysOpenFrom (d + 1) t)
    (token : List Char) : scanFrom (.braced d) token t = [ofReversed (t.reverse ++ token)] := by
  induction t generalizing d token with
  | nil => rfl
  | cons c t ih =>
    obtain ⟨-, h⟩ := staysOpenFrom_cons.1 h
    rw [List.reverse_cons, List.append_assoc, List.singleton_append]
    rcases depth_behind d c with hd | ⟨d', hd⟩
    · rw [hd] at h
      exact absurd (h [] List.nil_prefix) (by simp)
    · rw [hd] at h
      rw [scanFrom_braced_cons hd]
      exact ih h (c :: token)

theorem scanFrom_plain_piece (p : Piece) (token rest : List Char) :
    scanFrom .plain token (p.source ++ rest) = scanFrom .plain (p.value.reverse ++ token) rest := by
  cases p with
  | plain c h => simp [Piece.source, Piece.value, scanFrom, h.1, h.2.1, h.2.2]
  | span body =>
    rw [Piece.source, List.cons_append, List.append_assoc, scanFrom, if_pos rfl,
      scanFrom_quoted_items]
    simp [Piece.value, scanFrom]
  | group cs h =>
    obtain ⟨t, rfl, ht⟩ := isGroup_iff.1 h
    rw [Piece.source, List.cons_append, scanFrom, if_neg (by decide), if_pos rfl,
      scanFrom_braced_of_closesFrom (by simpa using ht)]
    simp [Piece.value]

theorem scanFrom_plain_pieces (ps : List Piece) (token rest : List Char) :
    scanFrom .plain token (ps.flatMap Piece.source ++ rest) =
      scanFrom .plain ((ps.flatMap Piece.value).reverse ++ token) rest := by
  induction ps generalizing token with
  | nil => rfl
  | cons p ps ih =>
    rw [List.flatMap_cons, List.append_assoc, scanFrom_plain_piece, ih]
    simp

theorem scanFrom_plain_openPiece (p : OpenPiece) (token : List Char) :
    scanFrom .plain token p.source = [ofReversed (p.value.reverse ++ token)] := by
  cases p with
  | span body backslash =>
    rw [OpenPiece.source, scanFrom, if_pos rfl, scanFrom_quoted_items]
    cases backslash <;> simp [OpenPiece.value, scanFrom]
  | group cs h =>
    obtain ⟨t, rfl, ht⟩ := isOpenGroup_iff.1 h
    rw [OpenPiece.source, scanFrom, if_neg (by decide), if_pos rfl,
      scanFrom_braced_of_staysOpenFrom (by simpa using ht)]
    simp [OpenPiece.value]

/-! ### The scanner on a reading -/

theorem Piece.exists_source_eq (p : Piece) :
    ∃ c cs, p.source = c :: cs ∧ isBlank c = false := by
  cases p with
  | plain c h => exact ⟨c, [], rfl, h.1⟩
  | span body => exact ⟨'"', _, rfl, rfl⟩
  | group cs h =>
    obtain ⟨t, rfl, -⟩ := isGroup_iff.1 h
    exact ⟨'{', t, rfl, rfl⟩

theorem OpenPiece.exists_source_eq (p : OpenPiece) :
    ∃ c cs, p.source = c :: cs ∧ isBlank c = false := by
  cases p with
  | span body backslash => exact ⟨'"', _, rfl, rfl⟩
  | group cs h =>
    obtain ⟨t, rfl, -⟩ := isOpenGroup_iff.1 h
    exact ⟨'{', t, rfl, rfl⟩

theorem scanFrom_between_piece (p : Piece) (rest : List Char) :
    scanFrom .between [] (p.source ++ rest) = scanFrom .plain p.value.reverse rest := by
  obtain ⟨c, cs, hc, hblank⟩ := p.exists_source_eq
  have hplain : scanFrom .between [] (p.source ++ rest) =
      scanFrom .plain [] (p.source ++ rest) := by
    rw [hc, List.cons_append, scanFrom_between_of_not_isBlank hblank]
  rw [hplain, scanFrom_plain_piece, List.append_nil]

theorem scanFrom_between_openPiece (p : OpenPiece) :
    scanFrom .between [] p.source = [Token.ofValue p.value] := by
  obtain ⟨c, cs, hc, hblank⟩ := p.exists_source_eq
  have hplain : scanFrom .between [] p.source = scanFrom .plain [] p.source := by
    rw [hc, scanFrom_between_of_not_isBlank hblank]
  rw [hplain, scanFrom_plain_openPiece, List.append_nil, ofReversed_eq, List.reverse_reverse]

theorem scanFrom_between_blanks (bs : List Blank) (rest : List Char) :
    scanFrom .between [] (bs.map Subtype.val ++ rest) = scanFrom .between [] rest := by
  induction bs with
  | nil => rfl
  | cons b bs ih => rw [List.map_cons, List.cons_append, scanFrom_between_of_isBlank b.2, ih]

theorem scanFrom_between_word (w : Word) (rest : List Char) :
    scanFrom .between [] (w.written.source ++ rest) =
      scanFrom .plain w.written.value.reverse rest := by
  have hsource : w.written.source = w.first.source ++ w.rest.flatMap Piece.source := by
    simp [Written.source, Word.written]
  have hvalue : w.written.value = w.first.value ++ w.rest.flatMap Piece.value := by
    simp [Written.value, Word.written]
  rw [hsource, hvalue, List.append_assoc, scanFrom_between_piece, scanFrom_plain_pieces,
    List.reverse_append]

theorem scanFrom_plain_gap (g : Gap) (token rest : List Char) :
    scanFrom .plain token (g.source ++ rest) = ofReversed token :: scanFrom .between [] rest := by
  rw [Gap.source, List.map_cons, List.cons_append, scanFrom_plain_of_isBlank g.first.2,
    scanFrom_between_blanks]

theorem scanFrom_between_cut (pieces : List Piece) (last : OpenPiece) :
    scanFrom .between [] (pieces.flatMap Piece.source ++ last.source) =
      [Token.ofValue (pieces.flatMap Piece.value ++ last.value)] := by
  cases pieces with
  | nil => exact scanFrom_between_openPiece last
  | cons p ps =>
    rw [List.flatMap_cons, List.append_assoc, scanFrom_between_piece, scanFrom_plain_pieces,
      scanFrom_plain_openPiece, ofReversed_eq]
    simp

theorem scanFrom_between_ending (e : Ending) :
    scanFrom .between [] (e.written.flatMap Written.source) =
      (e.written.map Written.value).map Token.ofValue := by
  cases e with
  | blank => rfl
  | word w =>
    have := scanFrom_between_word w []
    rw [List.append_nil] at this
    simp [Ending.written, this, scanFrom, ofReversed_eq]
  | cut pieces last =>
    simpa [Ending.written, Written.source, Written.value] using scanFrom_between_cut pieces last

/-- The scanner gives the tokens of a reading. -/
theorem Reading.scan_source (r : Reading) :
    scanFrom .between [] r.source = r.values.map Token.ofValue := by
  rw [source, scanFrom_between_blanks, body, values, written]
  induction r.words with
  | nil => simpa using scanFrom_between_ending r.ending
  | cons p words ih =>
    rw [List.flatMap_cons, List.append_assoc, List.append_assoc, scanFrom_between_word,
      scanFrom_plain_gap, ih, ofReversed_eq, List.reverse_reverse]
    simp

/-! ### The first token of a line -/

/-- The scanner keeps what it has of a token. -/
theorem exists_scanFrom_eq {m : Token.Mode} (hm : m ≠ .between) (token cs : List Char) :
    ∃ x ts, scanFrom m token cs = Token.ofValue (token.reverse ++ x) :: ts := by
  have hkept : ∀ {c : Char} {token : List Char} {r : List Token},
      (∃ x ts, r = Token.ofValue ((c :: token).reverse ++ x) :: ts) →
        ∃ x ts, r = Token.ofValue (token.reverse ++ x) :: ts := by
    rintro c token r ⟨x, ts, rfl⟩
    exact ⟨c :: x, ts, by simp⟩
  fun_induction scanFrom m token cs with
  | case1 | case3 | case4 | case5 | case6 => exact absurd rfl hm
  | case2 => exact ⟨[], [], by rw [ofReversed_eq, List.append_nil]⟩
  | case9 => exact ⟨[], _, by rw [ofReversed_eq, List.append_nil]⟩
  | case7 _ _ ih => exact ih (by simp)
  | case12 _ _ _ ih => exact ih (by simp)
  | case13 _ _ _ _ ih => exact ih (by simp)
  | case8 _ _ _ ih => exact hkept (ih (by simp))
  | case10 _ _ _ _ _ _ ih => exact hkept (ih (by simp))
  | case11 _ _ _ ih => exact hkept (ih (by simp))
  | case14 _ _ _ _ _ _ ih => exact hkept (ih (by simp))
  | case15 _ _ _ ih => exact hkept (ih (by simp))
  | case16 _ _ _ ih => exact hkept (ih (by simp))
  | case17 _ _ _ _ ih => exact hkept (ih (by simp))
  | case18 _ _ _ _ _ _ ih => exact hkept (ih (by simp))

theorem scanFrom_between_ne_nil {c : Char} (hc : isBlank c = false) (cs : List Char) :
    scanFrom .between [] (c :: cs) ≠ [] := by
  rw [scanFrom_between_of_not_isBlank hc]
  obtain ⟨x, ts, h⟩ := exists_scanFrom_eq (m := .plain) (by simp) [] (c :: cs)
  simp [h]

/-- A line is blank exactly when it has no token. -/
theorem isAllBlank_iff {line : String} : Text.isAllBlank line = true ↔ Token.scan line = [] := by
  rw [Text.isAllBlank, Token.scan]
  induction line.toList with
  | nil => simp [scanFrom]
  | cons c cs ih =>
    cases hc : isBlank c with
    | true => simpa [hc, scanFrom_between_of_isBlank hc] using ih
    | false => simpa [hc] using scanFrom_between_ne_nil hc cs

end LineGrammar
end BraceScript
