import BraceScript.Proofs.FirstOccurrence

/-!
# Places in bytes

A text is kept as the bytes of its characters. A search that goes by bytes turns the place where it
starts into an offset, and the offset at which it finds the needle back into a place
(`Text.indexOfBytes`). It comes to what `Text.indexOf` gives, which goes by characters
(`Text.indexOfBytes_eq`). The byte with which a character begins is never one of those that follow
in a character (`Chars.exists_place_of_isFirst`), so a needle is met in the bytes only where a
character begins.
-/

namespace BraceScript

namespace Chars
variable {needle cs : List Char} {k : ℕ}

/-- The bytes of some characters. -/
def bytes (cs : List Char) : List UInt8 :=
  cs.flatMap String.utf8EncodeChar

/-- The number of bytes before a place. -/
def offset (cs : List Char) (n : ℕ) : ℕ :=
  (bytes (cs.take n)).length

/-- The offset of the character at a place, if there is one. -/
def offset? : List Char → ℕ → Option ℕ
  | [], _ => none
  | _ :: _, 0 => some 0
  | c :: cs, n + 1 => (offset? cs n).map (c.utf8Size + ·)

/-- The number of characters that begin among some bytes. -/
def begun (bytes : List UInt8) : ℕ :=
  bytes.countP (·.IsUTF8FirstByte)

/-- The first offset at which some bytes go on with others. -/
def findBytes? (needle bytes : List UInt8) : Option ℕ :=
  (List.range (bytes.length + 1)).find? fun k => needle.isPrefixOf (bytes.drop k)

@[simp] theorem bytes_nil : bytes [] = [] := rfl

@[simp] theorem bytes_cons (c : Char) (cs : List Char) :
    bytes (c :: cs) = String.utf8EncodeChar c ++ bytes cs :=
  List.flatMap_cons

theorem bytes_append (cs ds : List Char) : bytes (cs ++ ds) = bytes cs ++ bytes ds :=
  List.flatMap_append

theorem utf8Encode_eq (cs : List Char) : cs.utf8Encode = (bytes cs).toByteArray := rfl

/-! ### Offsets -/

theorem bytes_eq_append (cs : List Char) (n : ℕ) :
    bytes cs = bytes (cs.take n) ++ bytes (cs.drop n) := by
  rw [← bytes_append, List.take_append_drop]

theorem drop_offset (cs : List Char) (n : ℕ) :
    (bytes cs).drop (offset cs n) = bytes (cs.drop n) := by
  rw [bytes_eq_append cs n, offset, List.drop_left]

theorem take_offset (cs : List Char) (n : ℕ) :
    (bytes cs).take (offset cs n) = bytes (cs.take n) := by
  rw [bytes_eq_append cs n, offset, List.take_left]

theorem offset_mono (cs : List Char) {m n : ℕ} (h : m ≤ n) : offset cs m ≤ offset cs n := by
  obtain ⟨k, rfl⟩ := Nat.exists_eq_add_of_le h
  rw [offset, offset, List.take_add, bytes_append, List.length_append]
  exact Nat.le_add_right _ _

theorem offset_le (cs : List Char) (n : ℕ) : offset cs n ≤ (bytes cs).length := by
  rw [bytes_eq_append cs n, List.length_append]
  exact Nat.le_add_right _ _

theorem offset?_eq (cs : List Char) (n : ℕ) :
    offset? cs n = if n < cs.length then some (offset cs n) else none := by
  induction cs generalizing n with
  | nil => rfl
  | cons c cs ih =>
    cases n with
    | zero => simp [offset?, offset]
    | succ n =>
      rw [offset?, ih]
      by_cases hn : n < cs.length <;> simp [hn, offset, String.length_utf8EncodeChar]

/-! ### Where characters begin -/

/-- A character begins with its first byte and with no other. -/
theorem utf8EncodeChar_eq_cons (c : Char) :
    ∃ first rest, String.utf8EncodeChar c = first :: rest ∧ first.IsUTF8FirstByte ∧
      ∀ b ∈ rest, ¬ b.IsUTF8FirstByte := by
  have hne : String.utf8EncodeChar c ≠ [] := String.utf8EncodeChar_ne_nil
  obtain ⟨first, rest, hbytes⟩ := List.exists_cons_of_ne_nil hne
  have hfirst : ∀ (i : ℕ) (hi : i < (first :: rest).length),
      (first :: rest)[i].IsUTF8FirstByte ↔ i = 0 := by
    simp only [← hbytes]
    exact fun i hi => UInt8.isUTF8FirstByte_getElem_utf8EncodeChar
  refine ⟨first, rest, hbytes, (hfirst 0 (by simp)).2 rfl, fun b hb => ?_⟩
  obtain ⟨i, hi, rfl⟩ := List.mem_iff_getElem.1 hb
  exact fun h => absurd ((hfirst (i + 1) (by simpa using hi)).1 h) (Nat.succ_ne_zero i)

theorem begun_bytes (cs : List Char) : begun (bytes cs) = cs.length := by
  induction cs with
  | nil => rfl
  | cons c cs ih =>
    obtain ⟨first, rest, hbytes, hfirst, hrest⟩ := utf8EncodeChar_eq_cons c
    have hnone : rest.countP (·.IsUTF8FirstByte) = 0 := by simpa [List.countP_eq_zero] using hrest
    rw [begun] at ih
    simp [begun, hbytes, hfirst, hnone, ih]

theorem exists_place_of_isFirst {b : UInt8} (hk : (bytes cs)[k]? = some b)
    (hb : b.IsUTF8FirstByte) : ∃ n, k = offset cs n := by
  induction cs generalizing k with
  | nil => cases hk
  | cons c cs ih =>
    rw [bytes_cons, List.getElem?_append] at hk
    split at hk
    next hinside =>
      -- inside the first character only its beginning is one
      obtain ⟨hlt, rfl⟩ := List.getElem?_eq_some_iff.1 hk
      exact ⟨0, UInt8.isUTF8FirstByte_getElem_utf8EncodeChar.1 hb⟩
    next houtside =>
      obtain ⟨n, hn⟩ := ih hk
      refine ⟨n + 1, ?_⟩
      simp only [offset, List.take_succ_cons, bytes_cons, List.length_append] at hn ⊢
      omega

theorem bytes_prefix_bytes_iff : bytes needle <+: bytes cs ↔ needle <+: cs := by
  constructor
  · rintro ⟨rest, hrest⟩
    refine List.isPrefix_of_utf8Encode_append_eq_utf8Encode rest.toByteArray ?_
    rw [utf8Encode_eq, utf8Encode_eq, ← hrest, List.toByteArray_append]
  · rintro ⟨rest, rfl⟩
    exact ⟨bytes rest, (bytes_append needle rest).symm⟩

/-! ### The search -/

/-- Where bytes go on with those of a needle, the characters do so, there or before. -/
theorem exists_place_of_goesOn (h : bytes needle <+: (bytes cs).drop k) :
    ∃ n, needle <+: cs.drop n ∧ offset cs n ≤ k := by
  cases needle with
  | nil => exact ⟨0, List.nil_prefix, Nat.zero_le k⟩
  | cons c needle =>
    obtain ⟨first, rest, hbytes, hfirst, -⟩ := utf8EncodeChar_eq_cons c
    have hk : (bytes cs)[k]? = some first := by
      obtain ⟨behind, hbehind⟩ := h
      rw [← List.head?_drop, ← hbehind, bytes_cons, hbytes]
      rfl
    obtain ⟨n, rfl⟩ := exists_place_of_isFirst hk hfirst
    rw [drop_offset] at h
    exact ⟨n, bytes_prefix_bytes_iff.1 h, le_refl _⟩

theorem findBytes?_bytes (needle cs : List Char) :
    findBytes? (bytes needle) (bytes cs) = (find? needle cs).map (offset cs) := by
  cases hfind : find? needle cs with
  | none =>
    rw [findBytes?, Option.map_none, List.find?_range_eq_none]
    intro k hk
    rw [Bool.not_eq_true', ← Bool.not_eq_true, List.isPrefixOf_iff_prefix]
    intro h
    obtain ⟨n, hn, -⟩ := exists_place_of_goesOn h
    exact not_occurs_of_find?_eq_none hfind n hn
  | some n =>
    obtain ⟨hhere, hfirst⟩ := isLeast_of_find?_eq_some hfind
    rw [findBytes?, Option.map_some, List.find?_range_eq_some]
    refine ⟨?_, ?_, ?_⟩
    · rw [List.isPrefixOf_iff_prefix, drop_offset, bytes_prefix_bytes_iff]
      exact hhere
    · exact List.mem_range.2 (Nat.lt_succ_of_le (offset_le cs n))
    · intro k hk
      rw [Bool.not_eq_true', ← Bool.not_eq_true, List.isPrefixOf_iff_prefix]
      intro h
      obtain ⟨m, hm, hle⟩ := exists_place_of_goesOn h
      exact absurd ((offset_mono cs (hfirst hm)).trans hle) (Nat.not_le.2 hk)

end Chars

namespace Text

theorem toList_toUTF8 (s : String) : s.toUTF8.data.toList = Chars.bytes s.toList := by
  rw [String.toUTF8_eq_toByteArray, ← String.ofList_toList (s := s), String.toByteArray_ofList]
  simp [Chars.utf8Encode_eq]

/-- The place of the first occurrence of `needle` in `s` at or after `start`, or -1, by a search in
the bytes. -/
def indexOfBytes (s needle : String) (start : Int) : Int :=
  let bytes := s.toUTF8.data.toList
  match Chars.offset? s.toList start.toNat with
  | none => if needle.isEmpty then s.length else -1
  | some offset =>
    match Chars.findBytes? needle.toUTF8.data.toList (bytes.drop offset) with
    | some found => (start.toNat + Chars.begun ((bytes.drop offset).take found) : ℕ)
    | none => -1

/-- **A search in the bytes of a text finds what a search in its characters does.** -/
theorem indexOfBytes_eq (s needle : String) (start : Int) :
    indexOfBytes s needle start = indexOf s needle start := by
  simp only [indexOfBytes, Chars.offset?_eq, String.length_toList, toList_toUTF8]
  by_cases hstart : start.toNat < s.length
  · rw [if_pos hstart, indexOf_of_inside hstart]
    simp only [Chars.drop_offset, Chars.findBytes?_bytes]
    cases hfind : Chars.find? needle.toList (s.toList.drop start.toNat) with
    | none => rfl
    | some n =>
      have hfits := Chars.add_length_le_of_find?_eq_some hfind
      simp only [Option.map_some, Chars.take_offset, Chars.begun_bytes]
      rw [List.length_take_of_le (Nat.le_of_add_right_le hfits)]
  · rw [if_neg hstart, indexOf_of_past (not_lt.1 hstart)]
    simp only [String.isEmpty_iff]

end Text
end BraceScript
