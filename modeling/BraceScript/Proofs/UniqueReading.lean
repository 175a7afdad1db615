import BraceScript.Proofs.LineGrammar

/-!
# Every line has exactly one reading

Each part of a reading is known from the text that begins with it: no piece is the beginning of
another, and none begins a text that may follow the last piece of a token (`flatMap_append_inj`). So
two readings of a text agree part by part (`Reading.source_injective`). In the other direction a
text is taken apart from the front (`Reading.exists_source_eq`).
-/

namespace BraceScript
namespace LineGrammar

/-! ### A line has at most one reading -/

/-- A row of parts is known from the text that begins with it, where each part is, and none begins
a text that may follow the row. -/
theorem flatMap_append_inj {α : Type} {source : α → List Char} (Follows : List Char → Prop)
    (hinj : ∀ {x y : α} {a b : List Char}, source x ++ a = source y ++ b → x = y ∧ a = b)
    (hfollows : ∀ (x : α) (rest : List Char), ¬ Follows (source x ++ rest))
    {xs ys : List α} {a b : List Char} (ha : Follows a) (hb : Follows b)
    (h : xs.flatMap source ++ a = ys.flatMap source ++ b) : xs = ys ∧ a = b := by
  induction xs generalizing ys with
  | nil =>
    cases ys with
    | nil => exact ⟨rfl, h⟩
    | cons y ys =>
      rw [List.flatMap_nil, List.nil_append, List.flatMap_cons, List.append_assoc] at h
      exact absurd (h ▸ ha) (hfollows y _)
  | cons x xs ih =>
    cases ys with
    | nil =>
      rw [List.flatMap_nil, List.nil_append, List.flatMap_cons, List.append_assoc] at h
      exact absurd (h ▸ hb) (hfollows x _)
    | cons y ys =>
      rw [List.flatMap_cons, List.append_assoc, List.flatMap_cons, List.append_assoc] at h
      obtain ⟨hxy, hrest⟩ := hinj h
      obtain ⟨hxs, hab⟩ := ih hrest
      exact ⟨by rw [hxy, hxs], hab⟩

/-- What may stand behind the characters of a quoted span. -/
inductive SpanEnd : List Char → Prop
  | closed (rest : List Char) : SpanEnd ('"' :: rest)
  | cut : SpanEnd []
  | backslash : SpanEnd ['\\']

theorem spanEnd_of_backslash (backslash : Bool) :
    SpanEnd (if backslash then ['\\'] else []) := by
  cases backslash with
  | false => exact .cut
  | true => exact .backslash

theorem SpanItem.not_spanEnd (i : SpanItem) (rest : List Char) : ¬ SpanEnd (i.source ++ rest) := by
  intro h
  cases i with
  | escaped c => cases h
  | literal c hc =>
    cases h with
    | closed => exact hc.1 rfl
    | backslash => exact hc.2 rfl

theorem SpanItem.append_inj {i j : SpanItem} {a b : List Char}
    (h : i.source ++ a = j.source ++ b) : i = j ∧ a = b := by
  cases i with
  | escaped c =>
    cases j with
    | escaped d => simpa [SpanItem.source] using h
    | literal d hd => exact absurd (List.cons.inj h).1.symm hd.2
  | literal c hc =>
    cases j with
    | escaped d => exact absurd (List.cons.inj h).1 hc.2
    | literal d hd => simpa [SpanItem.source] using h

theorem spanItems_append_inj {body body' : List SpanItem} {a b : List Char} (ha : SpanEnd a)
    (hb : SpanEnd b)
    (h : body.flatMap SpanItem.source ++ a = body'.flatMap SpanItem.source ++ b) :
    body = body' ∧ a = b :=
  flatMap_append_inj SpanEnd SpanItem.append_inj SpanItem.not_spanEnd ha hb h

/-- A group does not begin a longer text in which braces stay open up to its end. -/
theorem IsGroup.eq_of_prefix {cs t : List Char} (h : IsGroup cs)
    (ht : ∀ p, p <+: t → p ≠ [] → p ≠ t → 0 < depth p) (hp : cs <+: t) : cs = t := by
  refine Classical.byContradiction fun hne => ?_
  have := ht cs hp (by rintro rfl; simpa using h.opens) hne
  rw [h.closes] at this
  omega

theorem IsGroup.append_inj {cs cs' a b : List Char} (h : IsGroup cs) (h' : IsGroup cs')
    (heq : cs ++ a = cs' ++ b) : cs = cs' ∧ a = b := by
  have hcs : cs = cs' := by
    rcases List.prefix_or_prefix_of_prefix (List.prefix_append cs a)
      (heq ▸ List.prefix_append cs' b) with hp | hp
    · exact h.eq_of_prefix h'.inside hp
    · exact (h'.eq_of_prefix h.inside hp).symm
  subst hcs
  exact ⟨rfl, List.append_cancel_left heq⟩

theorem Piece.append_inj {p q : Piece} {a b : List Char} (h : p.source ++ a = q.source ++ b) :
    p = q ∧ a = b := by
  match p, q with
  | plain c hc, plain d hd => simpa [Piece.source] using h
  | plain c hc, span body => exact absurd (List.cons.inj h).1 hc.2.1
  | span body, plain d hd => exact absurd (List.cons.inj h).1.symm hd.2.1
  | plain c hc, group cs hcs =>
    obtain ⟨t, rfl, -⟩ := isGroup_iff.1 hcs
    exact absurd (List.cons.inj h).1 hc.2.2
  | group cs hcs, plain d hd =>
    obtain ⟨t, rfl, -⟩ := isGroup_iff.1 hcs
    exact absurd (List.cons.inj h).1.symm hd.2.2
  | span body, span body' =>
    have h' := (List.cons.inj h).2
    rw [List.append_eq, List.append_eq, List.append_assoc, List.append_assoc] at h'
    obtain ⟨rfl, hab⟩ := spanItems_append_inj (.closed a) (.closed b) h'
    exact ⟨rfl, (List.cons.inj hab).2⟩
  | span body, group cs hcs =>
    obtain ⟨t, rfl, -⟩ := isGroup_iff.1 hcs
    exact absurd (List.cons.inj h).1 (by decide)
  | group cs hcs, span body =>
    obtain ⟨t, rfl, -⟩ := isGroup_iff.1 hcs
    exact absurd (List.cons.inj h).1 (by decide)
  | group cs hcs, group cs' hcs' =>
    obtain ⟨rfl, hab⟩ := hcs.append_inj hcs' h
    exact ⟨rfl, hab⟩

/-- What may stand behind the pieces of a token: nothing, a blank, or a piece that is cut off. -/
inductive WordEnd : List Char → Prop
  | nothing : WordEnd []
  | blank {c : Char} (hc : isBlank c = true) (rest : List Char) : WordEnd (c :: rest)
  | cut (p : OpenPiece) : WordEnd p.source

theorem Piece.ne_openPiece (p : Piece) (q : OpenPiece) (rest : List Char) :
    p.source ++ rest ≠ q.source := by
  intro h
  match p, q with
  | plain c hc, .span body backslash => exact hc.2.1 (List.cons.inj h).1
  | plain c hc, .group cs hcs =>
    obtain ⟨t, rfl, -⟩ := isOpenGroup_iff.1 hcs
    exact hc.2.2 (List.cons.inj h).1
  | span body, .span body' backslash =>
    have h' := (List.cons.inj h).2
    rw [List.append_eq, List.append_assoc] at h'
    have hend := (spanItems_append_inj (.closed rest) (spanEnd_of_backslash backslash) h').2
    cases backslash <;> simp at hend
  | span body, .group cs hcs =>
    obtain ⟨t, rfl, -⟩ := isOpenGroup_iff.1 hcs
    exact absurd (List.cons.inj h).1 (by decide)
  | group cs hcs, .span body backslash =>
    obtain ⟨t, rfl, -⟩ := isGroup_iff.1 hcs
    exact absurd (List.cons.inj h).1 (by decide)
  | group cs hcs, .group cs' hcs' =>
    have := hcs'.inside cs ⟨rest, h⟩ (by rintro rfl; simpa using hcs.opens)
    rw [hcs.closes] at this
    omega

theorem Piece.not_wordEnd (p : Piece) (rest : List Char) : ¬ WordEnd (p.source ++ rest) := by
  intro h
  obtain ⟨c, cs, hc, hblank⟩ := p.exists_source_eq
  generalize ht : p.source ++ rest = t at h
  cases h with
  | nothing => simp [hc] at ht
  | blank hb rest' =>
    rw [hc, List.cons_append] at ht
    obtain ⟨rfl, -⟩ := List.cons.inj ht
    simp [hb] at hblank
  | cut q => exact p.ne_openPiece q rest ht

theorem pieces_append_inj {ps qs : List Piece} {a b : List Char} (ha : WordEnd a) (hb : WordEnd b)
    (h : ps.flatMap Piece.source ++ a = qs.flatMap Piece.source ++ b) : ps = qs ∧ a = b :=
  flatMap_append_inj WordEnd Piece.append_inj Piece.not_wordEnd ha hb h

/-- The text does not begin with a blank. -/
def BeginsUnblank (cs : List Char) : Prop :=
  ∀ c rest, cs = c :: rest → isBlank c = false

theorem blanks_append_inj {bs bs' : List Blank} {a b : List Char} (ha : BeginsUnblank a)
    (hb : BeginsUnblank b) (h : bs.map Subtype.val ++ a = bs'.map Subtype.val ++ b) :
    bs = bs' ∧ a = b := by
  have hsource : ∀ bs : List Blank, bs.map Subtype.val = bs.flatMap fun b => [b.val] :=
    fun bs => List.map_eq_flatMap
  rw [hsource, hsource] at h
  refine flatMap_append_inj BeginsUnblank (fun h => ?_) (fun x rest hx => ?_) ha hb h
  · obtain ⟨hxy, hab⟩ := List.cons.inj h
    exact ⟨Subtype.ext hxy, hab⟩
  · have := hx _ _ rfl
    rw [x.2] at this
    exact Bool.noConfusion this

theorem OpenPiece.source_injective {p q : OpenPiece} (h : p.source = q.source) : p = q := by
  match p, q with
  | span body backslash, span body' backslash' =>
    obtain ⟨rfl, hend⟩ := spanItems_append_inj (spanEnd_of_backslash backslash)
      (spanEnd_of_backslash backslash') (List.cons.inj h).2
    cases backslash <;> cases backslash' <;> simp at hend ⊢
  | span body backslash, group cs hcs =>
    obtain ⟨t, rfl, -⟩ := isOpenGroup_iff.1 hcs
    exact absurd (List.cons.inj h).1 (by decide)
  | group cs hcs, span body backslash =>
    obtain ⟨t, rfl, -⟩ := isOpenGroup_iff.1 hcs
    exact absurd (List.cons.inj h).1 (by decide)
  | group cs hcs, group cs' hcs' =>
    obtain rfl : cs = cs' := h
    rfl

/-- What stands at the end of a line behind the pieces of its last token. -/
def Ending.last : Ending → List Char
  | blank => []
  | word _ => []
  | cut _ last => last.source

/-- The pieces of the token that ends the line. -/
def Ending.pieces : Ending → List Piece
  | blank => []
  | word w => w.first :: w.rest
  | cut pieces _ => pieces

theorem Ending.flatMap_source (e : Ending) :
    e.written.flatMap Written.source = e.pieces.flatMap Piece.source ++ e.last := by
  cases e <;> simp [Ending.written, Ending.pieces, Ending.last, Written.source, Word.written]

theorem Ending.wordEnd_last (e : Ending) : WordEnd e.last := by
  cases e with
  | blank => exact .nothing
  | word w => exact .nothing
  | cut ps p => exact .cut p

theorem Ending.eq_of_pieces {e e' : Ending} (hp : e.pieces = e'.pieces) (hl : e.last = e'.last) :
    e = e' := by
  have hne : ∀ p : OpenPiece, [] ≠ p.source := by
    intro p hp
    obtain ⟨c, cs, hc, -⟩ := p.exists_source_eq
    simp [hc] at hp
  match e, e' with
  | blank, blank => rfl
  | blank, word w => exact absurd hp (by simp [pieces])
  | word w, blank => exact absurd hp (by simp [pieces])
  | blank, cut ps p => exact absurd hl (hne p)
  | cut ps p, blank => exact absurd hl.symm (hne p)
  | word w, cut ps p => exact absurd hl (hne p)
  | cut ps p, word w => exact absurd hl.symm (hne p)
  | word ⟨p, ps⟩, word ⟨q, qs⟩ =>
    obtain ⟨rfl, rfl⟩ := List.cons.inj hp
    rfl
  | cut ps p, cut qs q =>
    obtain rfl : ps = qs := hp
    obtain rfl := OpenPiece.source_injective hl
    rfl

/-- The text of tokens with a run of blanks after each, and of what ends the line. -/
def bodyOf (words : List (Word × Gap)) (ending : Ending) : List Char :=
  (Reading.mk [] words ending).body

theorem bodyOf_nil (e : Ending) : bodyOf [] e = e.pieces.flatMap Piece.source ++ e.last := by
  rw [← e.flatMap_source]
  rfl

theorem bodyOf_cons (w : Word) (g : Gap) (words : List (Word × Gap)) (e : Ending) :
    bodyOf ((w, g) :: words) e =
      (w.first :: w.rest).flatMap Piece.source ++
        (g.first.val :: (g.rest.map Subtype.val ++ bodyOf words e)) := by
  simp [bodyOf, Reading.body, Written.source, Word.written, Gap.source]

theorem beginsUnblank_pieces {ps : List Piece} {rest : List Char}
    (h : ps = [] → BeginsUnblank rest) :
    BeginsUnblank (ps.flatMap Piece.source ++ rest) := by
  cases ps with
  | nil => exact h rfl
  | cons p ps =>
    obtain ⟨c, cs, hc, hblank⟩ := p.exists_source_eq
    intro c' rest' h'
    rw [List.flatMap_cons, hc] at h'
    obtain ⟨rfl, -⟩ := List.cons.inj h'
    exact hblank

theorem Ending.beginsUnblank_last (e : Ending) : BeginsUnblank e.last := by
  cases e with
  | blank => exact fun _ _ h => absurd h (by simp [last])
  | word w => exact fun _ _ h => absurd h (by simp [last])
  | cut ps p =>
    obtain ⟨c, cs, hc, hblank⟩ := p.exists_source_eq
    intro c' rest h
    rw [last, hc] at h
    obtain ⟨rfl, -⟩ := List.cons.inj h
    exact hblank

theorem beginsUnblank_bodyOf (words : List (Word × Gap)) (e : Ending) :
    BeginsUnblank (bodyOf words e) := by
  cases words with
  | nil =>
    rw [bodyOf_nil]
    exact beginsUnblank_pieces fun _ => e.beginsUnblank_last
  | cons p words =>
    rw [bodyOf_cons]
    exact beginsUnblank_pieces fun h => absurd h (by simp)

theorem bodyOf_injective {words words' : List (Word × Gap)} {e e' : Ending}
    (h : bodyOf words e = bodyOf words' e') : words = words' ∧ e = e' := by
  induction words generalizing words' with
  | nil =>
    cases words' with
    | nil =>
      rw [bodyOf_nil, bodyOf_nil] at h
      obtain ⟨hp, hl⟩ := pieces_append_inj e.wordEnd_last e'.wordEnd_last h
      exact ⟨rfl, Ending.eq_of_pieces hp hl⟩
    | cons p' words' =>
      rw [bodyOf_nil, bodyOf_cons] at h
      obtain ⟨-, hl⟩ := pieces_append_inj e.wordEnd_last (.blank p'.2.first.2 _) h
      have := e.beginsUnblank_last _ _ hl
      simp [p'.2.first.2] at this
  | cons p words ih =>
    cases words' with
    | nil =>
      rw [bodyOf_nil, bodyOf_cons] at h
      obtain ⟨-, hl⟩ := pieces_append_inj (.blank p.2.first.2 _) e'.wordEnd_last h
      have := e'.beginsUnblank_last _ _ hl.symm
      simp [p.2.first.2] at this
    | cons p' words' =>
      obtain ⟨⟨p₁, ps⟩, ⟨b, bs⟩⟩ := p
      obtain ⟨⟨q₁, qs⟩, ⟨b', bs'⟩⟩ := p'
      rw [bodyOf_cons, bodyOf_cons] at h
      obtain ⟨hp, hrest⟩ := pieces_append_inj (.blank b.2 _) (.blank b'.2 _) h
      obtain ⟨hb, hblanks⟩ := List.cons.inj hrest
      obtain ⟨rfl, hbody⟩ := blanks_append_inj (beginsUnblank_bodyOf words e)
        (beginsUnblank_bodyOf words' e') hblanks
      obtain ⟨rfl, rfl⟩ := ih hbody
      obtain ⟨rfl, rfl⟩ := List.cons.inj hp
      obtain rfl := Subtype.ext hb
      exact ⟨rfl, rfl⟩

/-- Two readings of the same text are the same. -/
theorem Reading.source_injective {r r' : Reading} (h : r.source = r'.source) : r = r' := by
  obtain ⟨lead, words, e⟩ := r
  obtain ⟨lead', words', e'⟩ := r'
  obtain ⟨rfl, hbody⟩ := blanks_append_inj (beginsUnblank_bodyOf words e)
    (beginsUnblank_bodyOf words' e') h
  obtain ⟨rfl, rfl⟩ := bodyOf_injective hbody
  rfl

/-! ### A line has a reading -/

theorem exists_spanItems (cs : List Char) :
    ∃ (body : List SpanItem) (rest : List Char),
      cs = body.flatMap SpanItem.source ++ rest ∧ SpanEnd rest := by
  match cs with
  | [] => exact ⟨[], [], rfl, .cut⟩
  | c :: cs =>
    by_cases hq : c = '"'
    · subst hq
      exact ⟨[], '"' :: cs, rfl, .closed cs⟩
    by_cases hb : c = '\\'
    · subst hb
      cases cs with
      | nil => exact ⟨[], ['\\'], rfl, .backslash⟩
      | cons d cs =>
        obtain ⟨body, rest, rfl, hrest⟩ := exists_spanItems cs
        exact ⟨.escaped d :: body, rest, rfl, hrest⟩
    · obtain ⟨body, rest, rfl, hrest⟩ := exists_spanItems cs
      exact ⟨.literal c ⟨hq, hb⟩ :: body, rest, rfl, hrest⟩
termination_by cs.length

/-- What may follow the pieces of a token is all that a piece cannot be cut off from. -/
theorem wordEnd_or_exists_piece (cs : List Char) :
    WordEnd cs ∨ ∃ (p : Piece) (rest : List Char), cs = p.source ++ rest := by
  match cs with
  | [] => exact .inl .nothing
  | c :: cs =>
    by_cases hq : c = '"'
    · subst hq
      obtain ⟨body, rest, rfl, hrest⟩ := exists_spanItems cs
      cases hrest with
      | closed rest => exact .inr ⟨.span body, rest, by simp [Piece.source]⟩
      | cut => exact .inl (.cut (.span body false))
      | backslash => exact .inl (.cut (.span body true))
    by_cases hb : c = '{'
    · subst hb
      rcases staysOpenFrom_or_closesFrom (n := 1) (by decide) cs with h | ⟨t, rest, rfl, h⟩
      · exact .inl (.cut (.group ('{' :: cs) (isOpenGroup_iff.2 ⟨cs, rfl, h⟩)))
      · exact .inr ⟨.group ('{' :: t) (isGroup_iff.2 ⟨t, rfl, h⟩), rest, rfl⟩
    cases hblank : isBlank c with
    | true => exact .inl (.blank hblank cs)
    | false => exact .inr ⟨.plain c ⟨hblank, hq, hb⟩, cs, rfl⟩

theorem exists_pieces (cs : List Char) :
    ∃ (ps : List Piece) (rest : List Char),
      cs = ps.flatMap Piece.source ++ rest ∧ WordEnd rest := by
  rcases wordEnd_or_exists_piece cs with h | ⟨p, rest, rfl⟩
  · exact ⟨[], cs, rfl, h⟩
  · have : rest.length < (p.source ++ rest).length := by
      obtain ⟨c, cs, hc, -⟩ := p.exists_source_eq
      simp only [hc, List.length_append, List.length_cons]
      omega
    obtain ⟨ps, rest', rfl, hrest⟩ := exists_pieces rest
    exact ⟨p :: ps, rest', by simp, hrest⟩
termination_by cs.length

/-- Every text has a reading. -/
theorem Reading.exists_source_eq (cs : List Char) : ∃ r : Reading, r.source = cs := by
  match cs with
  | [] => exact ⟨⟨[], [], .blank⟩, rfl⟩
  | c :: cs =>
    cases hblank : isBlank c with
    | true =>
      obtain ⟨⟨lead, words, e⟩, rfl⟩ := exists_source_eq cs
      exact ⟨⟨⟨c, hblank⟩ :: lead, words, e⟩, rfl⟩
    | false =>
      obtain ⟨ps, rest, h, hrest⟩ := exists_pieces (c :: cs)
      cases hrest with
      | nothing =>
        cases ps with
        | nil => simp at h
        | cons p ps => exact ⟨⟨[], [], .word ⟨p, ps⟩⟩, (bodyOf_nil _).trans h.symm⟩
      | cut q => exact ⟨⟨[], [], .cut ps q⟩, (bodyOf_nil _).trans h.symm⟩
      | @blank b hb rest =>
        cases ps with
        | nil =>
          obtain ⟨rfl, -⟩ := List.cons.inj h
          simp [hblank] at hb
        | cons p ps =>
          have : rest.length < (c :: cs).length := by
            rw [h, List.length_append, List.length_cons]
            omega
          obtain ⟨⟨lead, words, e⟩, hr⟩ := exists_source_eq rest
          refine ⟨⟨[], (⟨p, ps⟩, ⟨⟨b, hb⟩, lead⟩) :: words, e⟩, (bodyOf_cons ..).trans ?_⟩
          rw [h, ← hr]
          rfl
termination_by cs.length
decreasing_by
  · assumption
  · exact Nat.lt_succ_self _

/-- The scanner is its grammar: a line has exactly one reading, and the tokens of the line are what
the tokens of that reading stand for, null for those that stand for nothing. -/
theorem scan_eq_values_of_unique_reading (line : String) :
    ∃ r : Reading, (∀ r' : Reading, r'.source = line.toList ↔ r' = r) ∧
      Token.scan line = r.values.map Token.ofValue := by
  obtain ⟨r, hr⟩ := Reading.exists_source_eq line.toList
  refine ⟨r, fun r' => ⟨fun h => Reading.source_injective (h.trans hr.symm), fun h => h ▸ hr⟩, ?_⟩
  rw [Token.scan, ← hr, r.scan_source]

end LineGrammar
end BraceScript
