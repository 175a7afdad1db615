/-!
# Blank characters and trimming

A character is *blank* when it has the Unicode property `White_Space`: the five control characters
from tab to carriage return, the next-line control and every space and line separator, the
no-break ones included. Blanks separate tokens, are trimmed from lines and numerals, and make a
line empty. The zero-width characters (`U+200B`, `U+FEFF`, `U+180E`) are not blank.

Functions on lists of characters stand in `Chars`, their forms on texts in `Text`.
-/

namespace BraceScript

/-- The characters with the property `White_Space`. -/
def isBlank (c : Char) : Bool :=
  let n := c.toNat
  (9 ≤ n && n ≤ 13) || n == 0x20 || n == 0x85 || n == 0xA0 || n == 0x1680 ||
    (0x2000 ≤ n && n ≤ 0x200A) || n == 0x2028 || n == 0x2029 || n == 0x202F || n == 0x205F ||
    n == 0x3000

namespace Chars

/-- Characters without the blanks they begin with. -/
def trimStart (cs : List Char) : List Char :=
  cs.dropWhile isBlank

/-- Characters without the blanks they end in. -/
def trimEnd (cs : List Char) : List Char :=
  (cs.reverse.dropWhile isBlank).reverse

/-- Characters without the blanks at their two ends. -/
def trim (cs : List Char) : List Char :=
  trimEnd (trimStart cs)

end Chars

namespace Text

/-- A text without the blanks at its two ends. -/
def trim (s : String) : String :=
  String.ofList (Chars.trim s.toList)

/-- Does the text hold a blank? -/
def hasBlank (s : String) : Bool :=
  s.toList.any isBlank

/-- Does the text hold nothing but blanks? -/
def isAllBlank (s : String) : Bool :=
  s.toList.all isBlank

end Text
end BraceScript
