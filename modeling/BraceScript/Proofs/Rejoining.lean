import BraceScript.Proofs.UniqueReading
import BraceScript.Value.Source
import Mathlib.Data.List.Basic
import Mathlib.Data.List.TakeWhile

/-!
# Joining tokens back into a line

The tokens of a line are joined back by `Value.joinSource`: a token gets quotes by what stands
before its first brace, and is written bare otherwise. A bare token comes back as itself exactly
when every blank and every double quote in it stands inside a brace group, and when its groups are
closed, unless the line ends with it. So the joined line has the tokens it was joined from exactly
when that holds of all its bare tokens (`scanFrom_joined_iff`).

That nothing else comes back rests on `scanFrom_ne_of_owing`: once the scanner has dropped a double
quote that belongs to the token, it owes the token a character that only an escape can bring, and
each escape takes a further character from the text that is left.
-/

namespace BraceScript

/-- A token as the value that a command is given for it, where the command wants it raw. -/
def Token.toValue : Token → Value
  | null => .null
  | word s => .text s

namespace Text

/-- How many braces are open behind a character, where `n` were open before it. A closing brace that
closes none stands for itself. -/
def bracesBehind (n : Nat) (c : Char) : Nat :=
  if c = '{' then n + 1 else if c = '}' then n - 1 else n

/-- How many braces the characters leave open, where `n` were open before them. -/
def openBraces (n : Nat) (cs : List Char) : Nat :=
  cs.foldl bracesBehind n

/-- The characters outside of brace groups, where `n` braces were open before them. -/
def outside : (n : Nat) → List Char → List Char
  | _, [] => []
  | n, c :: cs =>
    if n = 0 then c :: outside (bracesBehind n c) cs else outside (bracesBehind n c) cs

/-- Is it a character that does not stand for itself outside of spans and groups? -/
def breaksBare (c : Char) : Bool :=
  isBlank c || c = '"'

/-- Does every blank and every double quote of the text stand inside a brace group? -/
def isBare (s : String) : Bool :=
  (outside 0 s.toList).all (!breaksBare ·)

end Text

namespace Token

/-- Does the token come back from the line it is joined into? A bare token that leaves a brace open
takes in all that follows it. -/
def comesBack (isLast : Bool) : Token → Bool
  | null => true
  | word s =>
    Text.needsQuotes s || (Text.isBare s && (isLast || Text.openBraces 0 s.toList = 0))

/-- Do all tokens come back from the line they are joined into? -/
def allComeBack : List Token → Bool
  | [] => true
  | t :: ts => t.comesBack ts.isEmpty && allComeBack ts

end Token

namespace LineGrammar

open Token (scanFrom ofReversed)
open Text (bracesBehind openBraces outside breaksBare)

/-! ### Bare text -/

/-- Where the scanner stands in a token, by the number of open braces. -/
def modeAt : Nat → Token.Mode
  | 0 => .plain
  | n + 1 => .braced n

theorem scanFrom_modeAt {n : Nat} {c : Char} (h : n = 0 → breaksBare c = false)
    (token cs : List Char) :
    scanFrom (modeAt n) token (c :: cs) = scanFrom (modeAt (bracesBehind n c)) (c :: token) cs := by
  cases n with
  | zero =>
    obtain ⟨hblank, hquote⟩ : isBlank c = false ∧ c ≠ '"' := by
      simpa [breaksBare] using h rfl
    by_cases hopen : c = '{'
    · subst hopen
      simp [modeAt, bracesBehind, scanFrom]
    · simp [modeAt, bracesBehind, scanFrom, hblank, hquote, hopen]
  | succ n =>
    by_cases hopen : c = '{'
    · subst hopen
      simp [modeAt, bracesBehind, scanFrom]
    by_cases hclose : c = '}'
    · subst hclose
      cases n <;> simp [modeAt, bracesBehind, scanFrom]
    · simp [modeAt, bracesBehind, scanFrom, hopen, hclose]

/-- Every blank and every double quote stands inside a brace group, where `n` braces are open before
the characters. -/
def BareFrom (n : Nat) (cs : List Char) : Prop :=
  ∀ c ∈ outside n cs, breaksBare c = false

theorem bareFrom_nil (n : Nat) : BareFrom n [] :=
  fun _ h => absurd h (by simp [outside])

theorem bareFrom_cons {n : Nat} {c : Char} {cs : List Char} :
    BareFrom n (c :: cs) ↔ (n = 0 → breaksBare c = false) ∧ BareFrom (bracesBehind n c) cs := by
  rw [BareFrom, outside]
  split
  · rename_i hn
    rw [List.forall_mem_cons]
    exact ⟨fun h => ⟨fun _ => h.1, h.2⟩, fun h => ⟨h.1 hn, h.2⟩⟩
  · rename_i hn
    exact ⟨fun h => ⟨fun h' => absurd h' hn, h⟩, fun h => h.2⟩

/-- The scanner keeps bare text as it is. -/
theorem scanFrom_bare {n : Nat} {cs : List Char} (h : BareFrom n cs) (token rest : List Char) :
    scanFrom (modeAt n) token (cs ++ rest) =
      scanFrom (modeAt (openBraces n cs)) (cs.reverse ++ token) rest := by
  induction cs generalizing n token with
  | nil => rfl
  | cons c cs ih =>
    obtain ⟨hc, hcs⟩ := bareFrom_cons.1 h
    rw [List.cons_append, scanFrom_modeAt hc, ih hcs]
    simp [openBraces]

/-- Text that is not bare has a first blank or double quote outside of its groups. -/
theorem exists_first_break {n : Nat} {cs : List Char} (h : ¬ BareFrom n cs) :
    ∃ u c v, cs = u ++ c :: v ∧ BareFrom n u ∧ openBraces n u = 0 ∧ breaksBare c = true := by
  induction cs generalizing n with
  | nil => exact absurd (bareFrom_nil n) h
  | cons c cs ih =>
    by_cases hc : n = 0 ∧ breaksBare c = true
    · exact ⟨[], c, cs, rfl, bareFrom_nil n, hc.1, hc.2⟩
    · have hc' : n = 0 → breaksBare c = false := fun hn => by simpa [hn] using hc
      obtain ⟨u, d, v, rfl, hu, hopen, hd⟩ := ih fun hcs => h (bareFrom_cons.2 ⟨hc', hcs⟩)
      exact ⟨c :: u, d, v, rfl, bareFrom_cons.2 ⟨hc', hu⟩, hopen, hd⟩

/-! ### The first token -/

theorem ofValue_injective {cs cs' : List Char} (h : Token.ofValue cs = Token.ofValue cs') :
    cs = cs' := by
  match cs, cs' with
  | [], [] => rfl
  | [], c :: cs' => simp [Token.ofValue] at h
  | c :: cs, [] => simp [Token.ofValue] at h
  | c :: cs, c' :: cs' =>
    simp only [Token.ofValue, Token.word.injEq] at h
    exact String.ofList_injective h

/-- The first token does not begin with `a` where the scanner has the beginning `b` of it, and the
two part. -/
theorem scanFrom_ne {m : Token.Mode} (hm : m ≠ .between) {token a : List Char}
    (h : ¬ token.reverse <+: a) (cs : List Char) (ts : List Token) :
    scanFrom m token cs ≠ Token.ofValue a :: ts := by
  intro heq
  obtain ⟨x, ts', hx⟩ := exists_scanFrom_eq hm token cs
  rw [hx, List.cons.injEq] at heq
  exact h ⟨x, ofValue_injective heq.1⟩

theorem ofReversed_ne (token : List Char) {a : List Char} (ha : a ≠ []) :
    ofReversed token ≠ Token.ofValue (token.reverse ++ a) := by
  intro h
  rw [ofReversed_eq] at h
  exact ha (List.append_right_eq_self.1 (ofValue_injective h).symm)

/-! ### A scanner that owes a quote -/

/-- What stands between two tokens of a joined line, or behind the last. -/
inductive Separates : List Char → Prop
  | nothing : Separates []
  | space (rest : List Char) : Separates (' ' :: rest)

/-- A double quote or a backslash. -/
def IsMark (c : Char) : Prop :=
  c = '"' ∨ c = '\\'

/-- What the scanner does next outside of groups, on a token of which it has `token`: it ends the
token, it drops a double quote, it gives the token a character that is no mark, or it gives it a
mark and takes marks for it. -/
inductive Advance (token rest : List Char) : List Char → List Token → Prop
  | stops (cs : List Char) (ts : List Token) : Advance token rest cs (ofReversed token :: ts)
  | drops {m : Token.Mode} (hm : m = .plain ∨ m = .quoted) (cs : List Char) :
    Advance token rest ('"' :: cs) (scanFrom m token (cs ++ rest))
  | givesOther {m : Token.Mode} (hm : m ≠ .between) {d : Char} (hd : ¬ IsMark d)
    (cs cs' : List Char) : Advance token rest cs (scanFrom m (d :: token) cs')
  | givesMark {m : Token.Mode} (hm : m = .plain ∨ m = .quoted) {d c : Char} (hd : IsMark d)
    (taken : List Char) (ht : ∀ x ∈ c :: taken, IsMark x) (cs : List Char) :
    Advance token rest (c :: taken ++ cs) (scanFrom m (d :: token) (cs ++ rest))

theorem advance_plain {rest : List Char} (hrest : Separates rest) (token cs : List Char) :
    Advance token rest cs (scanFrom .plain token (cs ++ rest)) := by
  match cs with
  | [] =>
    cases hrest with
    | nothing => exact .stops [] []
    | space rest =>
      rw [List.nil_append, scanFrom_plain_of_isBlank rfl]
      exact .stops [] _
  | c :: cs =>
    by_cases hquote : c = '"'
    · subst hquote
      simpa [scanFrom] using Advance.drops (.inr rfl) cs
    by_cases hopen : c = '{'
    · subst hopen
      simpa [scanFrom] using
        Advance.givesOther (m := .braced 0) (by simp) (by simp [IsMark]) ('{' :: cs) (cs ++ rest)
    cases hblank : isBlank c with
    | true =>
      rw [List.cons_append, scanFrom_plain_of_isBlank hblank]
      exact .stops _ _
    | false =>
      rw [List.cons_append, scanFrom, if_neg hquote, if_neg hopen, hblank, if_neg (by simp)]
      by_cases hback : c = '\\'
      · subst hback
        exact .givesMark (.inl rfl) (.inr rfl) [] (by simp [IsMark]) cs
      · exact .givesOther (by simp) (by simp [IsMark, hquote, hback]) (c :: cs) _

theorem advance_quoted {rest : List Char} (hrest : Separates rest) (token cs : List Char) :
    Advance token rest cs (scanFrom .quoted token (cs ++ rest)) := by
  have hspace : ¬ IsMark ' ' := by simp [IsMark]
  match cs with
  | [] =>
    cases hrest with
    | nothing => exact .stops [] []
    | space rest =>
      simpa [scanFrom] using Advance.givesOther (m := .quoted) (by simp) hspace [] rest
  | c :: cs =>
    by_cases hquote : c = '"'
    · subst hquote
      simpa [scanFrom] using Advance.drops (.inl rfl) cs
    by_cases hback : c = '\\'
    · subst hback
      match cs with
      | [] =>
        cases hrest with
        | nothing => simpa [scanFrom] using Advance.stops ['\\'] []
        | space rest =>
          simpa [scanFrom] using Advance.givesOther (m := .quoted) (by simp) hspace ['\\'] rest
      | d :: cs =>
        rw [List.cons_append, List.cons_append, scanFrom]
        by_cases hd : IsMark d
        · exact .givesMark (.inr rfl) hd [d] (by simpa [IsMark] using hd) cs
        · exact .givesOther (by simp) hd _ _
    · simpa [scanFrom, hquote, hback] using
        Advance.givesOther (m := .quoted) (by simp) (by simp [IsMark, hquote, hback]) (c :: cs)
          (cs ++ rest)

/-- A scanner that owes a token some marks never gives that token: what it drops it owes as well,
and for a mark that it gives it takes marks, so that it goes on owing. -/
theorem scanFrom_ne_of_owing {m : Token.Mode} (hm : m = .plain ∨ m = .quoted) (owed : List Char)
    (hne : owed ≠ []) (howed : ∀ c ∈ owed, IsMark c) {rest : List Char} (hrest : Separates rest)
    (token cs : List Char) (ts : List Token) :
    scanFrom m token (cs ++ rest) ≠ Token.ofValue (token.reverse ++ (owed ++ cs)) :: ts := by
  have hadvance : Advance token rest cs (scanFrom m token (cs ++ rest)) := by
    rcases hm with rfl | rfl
    · exact advance_plain hrest token cs
    · exact advance_quoted hrest token cs
  obtain ⟨o, owed, rfl⟩ := List.exists_cons_of_ne_nil hne
  -- the next character that the scanner gives is the first one that it owes
  have hnext : ∀ {m : Token.Mode} {d : Char} {cs cs' : List Char}, m ≠ .between →
      scanFrom m (d :: token) cs' = Token.ofValue (token.reverse ++ (o :: owed ++ cs)) :: ts →
        d = o := by
    intro m d cs cs' hm h
    refine Classical.byContradiction fun hd => scanFrom_ne hm (fun hp => hd ?_) cs' ts h
    rw [List.reverse_cons, List.prefix_append_right_inj, List.cons_append,
      List.cons_prefix_cons] at hp
    exact hp.1
  generalize hr : scanFrom m token (cs ++ rest) = r at hadvance ⊢
  intro h
  cases hadvance with
  | stops => exact ofReversed_ne _ (by simp) (List.cons.inj h).1
  | drops hm cs =>
    refine scanFrom_ne_of_owing hm (o :: owed ++ ['"']) (by simp) (fun c hc => ?_) hrest token cs
      ts (by simpa using h)
    rcases List.mem_append.1 hc with hc | hc
    · exact howed c hc
    · exact .inl (by simpa using hc)
  | givesOther hm hd => exact hd (hnext hm h ▸ howed o (by simp))
  | @givesMark m hm d c hd taken ht cs =>
    have hm' : m ≠ .between := by rcases hm with rfl | rfl <;> simp
    obtain rfl := hnext hm' h
    refine scanFrom_ne_of_owing hm (owed ++ c :: taken) (by simp) (fun x hx => ?_) hrest
      (d :: token) cs ts (by simpa using h)
    rcases List.mem_append.1 hx with hx | hx
    · exact howed x (by simp [hx])
    · exact ht x hx
termination_by cs.length

/-! ### One token of a joined line -/

/-- How the characters of a quoted span are written by `Text.span`. -/
def SpanItem.ofChar (c : Char) : SpanItem :=
  if h : c ≠ '"' ∧ c ≠ '\\' then .literal c h else .escaped c

theorem SpanItem.value_ofChar (c : Char) : (ofChar c).value = c := by
  rw [ofChar]
  split <;> rfl

theorem SpanItem.source_ofChar (c : Char) :
    (ofChar c).source = if c = '\\' || c = '"' then ['\\', c] else [c] := by
  by_cases hq : c = '"'
  · simp [ofChar, hq, source]
  by_cases hb : c = '\\'
  · simp [ofChar, hb, source]
  · simp [ofChar, hq, hb, source]

theorem span_source (s : String) :
    (Piece.span (s.toList.map SpanItem.ofChar)).source = (Text.span s).toList := by
  rw [Piece.source, Text.span, String.toList_ofList, List.flatMap_map]
  simp only [SpanItem.source_ofChar]

theorem span_value (s : String) :
    (Piece.span (s.toList.map SpanItem.ofChar)).value = s.toList := by
  simp [Piece.value, Function.comp_def, SpanItem.value_ofChar]

/-- A quoted span is one token, whatever follows it. -/
theorem scanFrom_between_span (s : String) (rest : List Char) :
    scanFrom .between [] ((Text.span s).toList ++ rest) =
      scanFrom .plain s.toList.reverse rest := by
  rw [← span_source, scanFrom_between_piece, span_value]

theorem scanFrom_plain_of_separates {rest : List Char} (hrest : Separates rest)
    (token : List Char) :
    scanFrom .plain token rest = ofReversed token :: scanFrom .between [] rest := by
  cases hrest with
  | nothing => rfl
  | space rest => rw [scanFrom_plain_of_isBlank rfl, scanFrom_between_of_isBlank rfl]

/-- Bare text is one token where its groups are closed or nothing follows it. -/
theorem scanFrom_plain_bare {cs rest : List Char} (hrest : Separates rest) (hbare : BareFrom 0 cs)
    (hopen : rest = [] ∨ openBraces 0 cs = 0) :
    scanFrom .plain [] (cs ++ rest) = Token.ofValue cs :: scanFrom .between [] rest := by
  have h := scanFrom_bare hbare [] rest
  rw [List.append_nil] at h
  rw [show Token.Mode.plain = modeAt 0 from rfl, h]
  rcases hopen with rfl | hopen
  · cases openBraces 0 cs <;> simp [modeAt, scanFrom, ofReversed_eq]
  · rw [hopen, modeAt, scanFrom_plain_of_separates hrest, ofReversed_eq, List.reverse_reverse]

/-- Text that comes back as a token is bare. -/
theorem bareFrom_of_scanFrom_eq {cs rest : List Char} (hrest : Separates rest) {ts : List Token}
    (h : scanFrom .plain [] (cs ++ rest) = Token.ofValue cs :: ts) : BareFrom 0 cs := by
  refine Classical.byContradiction fun hbare => ?_
  obtain ⟨u, c, v, rfl, hu, hopen, hc⟩ := exists_first_break hbare
  rw [List.append_assoc, show Token.Mode.plain = modeAt 0 from rfl, scanFrom_bare hu, hopen,
    List.append_nil, List.cons_append] at h
  by_cases hquote : c = '"'
  · subst hquote
    simp only [modeAt, scanFrom, if_true] at h
    exact scanFrom_ne_of_owing (.inr rfl) ['"'] (by simp) (by simp [IsMark]) hrest
      u.reverse v ts (by simpa using h)
  · have hblank : isBlank c = true := by simpa [Text.breaksBare, hquote] using hc
    rw [modeAt, scanFrom_plain_of_isBlank hblank, List.cons.injEq] at h
    refine ofReversed_ne u.reverse (List.cons_ne_nil c v) ?_
    simpa using h.1

/-- Text that comes back as a token with something after it has its groups closed. -/
theorem openBraces_of_scanFrom_eq {cs rest : List Char} {ts : List Token} (hbare : BareFrom 0 cs)
    (h : scanFrom .plain [] (cs ++ ' ' :: rest) = Token.ofValue cs :: ts) :
    openBraces 0 cs = 0 := by
  refine Classical.byContradiction fun hopen => ?_
  rw [show Token.Mode.plain = modeAt 0 from rfl, scanFrom_bare hbare, List.append_nil,
    scanFrom_modeAt (fun hn => absurd hn hopen)] at h
  refine scanFrom_ne ?_ (fun hp => ?_) rest ts h
  · cases bracesBehind (openBraces 0 cs) ' ' <;> simp [modeAt]
  · have := hp.length_le
    simp only [List.length_reverse, List.length_cons] at this
    omega

theorem scanFrom_span_iff {rest : List Char} (hrest : Separates rest) (s : String)
    {ts : List Token} :
    scanFrom .between [] ((Text.span s).toList ++ rest) = Token.ofValue s.toList :: ts ↔
      scanFrom .between [] rest = ts := by
  rw [scanFrom_between_span, scanFrom_plain_of_separates hrest, ofReversed_eq,
    List.reverse_reverse, List.cons.injEq, and_iff_right rfl]

/-- Text that does not begin with a blank is a token, without quotes, exactly when it is bare and
its groups are closed or nothing follows it. -/
theorem scanFrom_bare_iff {s : String} (hs : ∀ c ∈ s.toList.head?, isBlank c = false)
    (hne : s ≠ "") {rest : List Char} (hrest : Separates rest) {ts : List Token} :
    scanFrom .between [] (s.toList ++ rest) = Token.ofValue s.toList :: ts ↔
      (Text.isBare s && (rest.isEmpty || openBraces 0 s.toList = 0)) = true ∧
        scanFrom .between [] rest = ts := by
  obtain ⟨c, cs, hcs⟩ := List.exists_cons_of_ne_nil (l := s.toList) (by simpa using hne)
  have hplain : scanFrom .between [] (s.toList ++ rest) =
      scanFrom .plain [] (s.toList ++ rest) := by
    rw [hcs, List.cons_append, scanFrom_between_of_not_isBlank (hs c (by simp [hcs]))]
  have hback : (Text.isBare s && (rest.isEmpty || openBraces 0 s.toList = 0)) = true ↔
      BareFrom 0 s.toList ∧ (rest = [] ∨ openBraces 0 s.toList = 0) := by
    simp [Text.isBare, BareFrom]
  rw [hplain, hback]
  constructor
  · intro h
    have hbare := bareFrom_of_scanFrom_eq hrest h
    have hopen : rest = [] ∨ openBraces 0 s.toList = 0 := by
      cases hrest with
      | nothing => exact .inl rfl
      | space rest => exact .inr (openBraces_of_scanFrom_eq hbare h)
    rw [scanFrom_plain_bare hrest hbare hopen] at h
    exact ⟨⟨hbare, hopen⟩, (List.cons.inj h).2⟩
  · rintro ⟨⟨hbare, hopen⟩, h⟩
    rw [scanFrom_plain_bare hrest hbare hopen, h]

/-! ### A joined line -/

/-- The text that a token is written as. -/
def fragment (t : Token) : List Char :=
  (Value.source #[] t.toValue).toList

theorem source_toValue (blocks : Array Block) (t : Token) :
    (Value.source blocks t.toValue).toList = fragment t := by
  cases t <;> rfl

theorem fragment_of_needsQuotes {s : String} (h : Text.needsQuotes s = true) :
    fragment (.word s) = (Text.span s).toList := by
  simp [fragment, Token.toValue, Value.source, h]

theorem fragment_of_not_needsQuotes {s : String} (h : Text.needsQuotes s = false) :
    fragment (.word s) = s.toList := by
  simp [fragment, Token.toValue, Value.source, h]

theorem needsQuotes_eq_false_iff {s : String} :
    Text.needsQuotes s = false ↔ s.toList ≠ [] ∧
      ∀ c ∈ s.toList.takeWhile (· ≠ '{'), isBlank c = false ∧ c ≠ '"' ∧ c ≠ '\\' := by
  simp [Text.needsQuotes, and_assoc]

theorem isBlank_head_of_not_needsQuotes {s : String} (h : Text.needsQuotes s = false) :
    ∀ c ∈ s.toList.head?, isBlank c = false := by
  obtain ⟨hne, hhead⟩ := needsQuotes_eq_false_iff.1 h
  obtain ⟨c, cs, hs⟩ := List.exists_cons_of_ne_nil hne
  simp only [hs, List.head?_cons, Option.mem_some_iff]
  rintro _ rfl
  by_cases hc : c = '{'
  · rw [hc]; rfl
  · exact (hhead c (by simp [hs, hc])).1

theorem ofValue_eq_word {cs : List Char} (h : cs ≠ []) :
    Token.ofValue cs = .word (String.ofList cs) := by
  cases cs with
  | nil => exact absurd rfl h
  | cons c cs => rfl

theorem ofValue_toList {s : String} (h : s ≠ "") : Token.ofValue s.toList = .word s := by
  rw [ofValue_eq_word (by simpa using h), String.ofList_toList]

/-- A token is the first token of the line from its text on exactly when it comes back. -/
theorem scanFrom_fragment_iff {t : Token} (ht : t ≠ .word "") {rest : List Char}
    (hrest : Separates rest) {ts : List Token} :
    scanFrom .between [] (fragment t ++ rest) = t :: ts ↔
      t.comesBack rest.isEmpty = true ∧ scanFrom .between [] rest = ts := by
  cases t with
  | null => exact (scanFrom_span_iff hrest "").trans (and_iff_right rfl).symm
  | word s =>
    have hs : s ≠ "" := fun hs => ht (by rw [hs])
    have htoken : Token.word s = Token.ofValue s.toList := (ofValue_toList hs).symm
    cases hq : Text.needsQuotes s with
    | true =>
      rw [fragment_of_needsQuotes hq, Token.comesBack, hq, Bool.true_or, and_iff_right rfl, htoken,
        scanFrom_span_iff hrest]
    | false =>
      rw [fragment_of_not_needsQuotes hq, Token.comesBack, hq, Bool.false_or, htoken,
        scanFrom_bare_iff (isBlank_head_of_not_needsQuotes hq) hs hrest]

/-- The text of a line joined from tokens. -/
def joined : List Token → List Char
  | [] => []
  | [t] => fragment t
  | t :: ts => fragment t ++ ' ' :: joined ts

/-- What follows the first token of a joined line. -/
def joinedBehind (ts : List Token) : List Char :=
  if ts.isEmpty then [] else ' ' :: joined ts

theorem joined_cons (t : Token) (ts : List Token) :
    joined (t :: ts) = fragment t ++ joinedBehind ts := by
  cases ts <;> simp [joined, joinedBehind]

theorem separates_joinedBehind (ts : List Token) : Separates (joinedBehind ts) := by
  rw [joinedBehind]
  split
  · exact .nothing
  · exact .space _

theorem scanFrom_joinedBehind (ts : List Token) :
    scanFrom .between [] (joinedBehind ts) = scanFrom .between [] (joined ts) := by
  cases ts with
  | nil => rfl
  | cons t ts => exact scanFrom_between_of_isBlank rfl _ _

theorem isEmpty_joinedBehind (ts : List Token) : (joinedBehind ts).isEmpty = ts.isEmpty := by
  cases ts <;> rfl

theorem toList_joinSource (blocks : Array Block) (ts : List Token) :
    (Value.joinSource blocks (ts.map Token.toValue)).toList = joined ts := by
  rw [Value.joinSource, String.toList_intercalate, List.map_map, List.map_map]
  simp only [Function.comp_def, source_toValue]
  induction ts with
  | nil => rfl
  | cons t ts ih =>
    cases ts with
    | nil => simp [joined]
    | cons u us =>
      rw [List.map_cons, List.map_cons, List.intercalate_cons_cons, ← List.map_cons, ih]
      simp [joined]

/-- A joined line has the tokens it was joined from exactly when they all come back. -/
theorem scanFrom_joined_iff {ts : List Token} (hts : .word "" ∉ ts) :
    scanFrom .between [] (joined ts) = ts ↔ Token.allComeBack ts = true := by
  induction ts with
  | nil => simp [joined, scanFrom, Token.allComeBack]
  | cons t ts ih =>
    obtain ⟨ht, hts⟩ : t ≠ .word "" ∧ .word "" ∉ ts := by
      simpa [eq_comm] using hts
    rw [joined_cons, scanFrom_fragment_iff ht (separates_joinedBehind ts), isEmpty_joinedBehind,
      scanFrom_joinedBehind, ih hts, Token.allComeBack, Bool.and_eq_true]

end LineGrammar

namespace Token
open LineGrammar

theorem word_empty_not_mem_scan (line : String) : .word "" ∉ scan line := by
  obtain ⟨r, hr⟩ := Reading.exists_source_eq line.toList
  rw [scan, ← hr, r.scan_source, List.mem_map]
  rintro ⟨cs, -, h⟩
  cases cs <;> simp [ofValue] at h

/-- The tokens of a line, joined back, make a line with the same tokens exactly when they all come
back: each token that is written bare has its blanks and double quotes in brace groups, and its
groups closed unless it is the last. -/
theorem scan_joinSource_scan_iff (blocks : Array Block) (line : String) :
    scan (Value.joinSource blocks ((scan line).map toValue)) = scan line ↔
      allComeBack (scan line) = true := by
  rw [scan, toList_joinSource]
  exact scanFrom_joined_iff (word_empty_not_mem_scan line)

/-- A quoted blank behind a brace group is joined back without its quotes, and parts the token. -/
theorem scan_joinSource_ne_of_span_behind_group :
    scan (Value.joinSource #[] ((scan "\x7bb\x7d\"c d\"").map toValue)) ≠
      scan "\x7bb\x7d\"c d\"" := by
  decide

end Token
end BraceScript
