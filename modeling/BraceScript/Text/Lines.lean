/-!
# Lines of a text

A line ends at a line feed, which a single carriage return may precede; neither belongs to the
line. A text that ends in a line feed has no further, empty line after it, and a carriage return
anywhere else is an ordinary character.

Input that is read line by line arrives as bytes: `Text.inputLines` cuts it after every line feed
and decodes each piece on its own, so that one that is not valid UTF-8 spoils only itself.
-/

namespace BraceScript
namespace Chars

/-- A line without the carriage return it may end in. -/
def dropReturn (line : List Char) : List Char :=
  (['\r'].isSuffixOf? line).getD line

/-- The lines of `cs`; `line` holds the current line, last character first. -/
def linesFrom : (line : List Char) → List Char → List (List Char)
  | [], [] => []
  | line, [] => [line.reverse]
  | line, c :: cs =>
    if c = '\n' then dropReturn line.reverse :: linesFrom [] cs else linesFrom (c :: line) cs

end Chars

namespace Text

/-- The lines of a text. -/
def lines (s : String) : List String :=
  (Chars.linesFrom [] s.toList).map String.ofList

/-- A text without the line feeds and carriage returns it ends in. -/
def dropLineEnd (s : String) : String :=
  String.ofList ((s.toList.reverse.dropWhile fun c => c = '\n' || c = '\r').reverse)

/-- The bytes cut after every line feed; `line` holds the current piece, last byte first. -/
def byteLinesFrom : (line : List UInt8) → List UInt8 → List (List UInt8)
  | [], [] => []
  | line, [] => [line.reverse]
  | line, b :: bs =>
    if b = 10 then (b :: line).reverse :: byteLinesFrom [] bs else byteLinesFrom (b :: line) bs

/-- Input read line by line, each line with the line feed that ends it; `none` stands for a line
that is not valid UTF-8. -/
def inputLines (bytes : ByteArray) : List (Option String) :=
  (byteLinesFrom [] bytes.data.toList).map fun line => String.fromUTF8? ⟨line.toArray⟩

end Text
end BraceScript
