import BraceScript.Text.Hidden

/-!
# Quoted texts

How a message quotes a text it complains about: between double quotes, with the quote, the backslash
and the common controls escaped by a backslash, and every other character that does not show on its
own written `\u{…}` with its code point in hexadecimal. A single quote stands for itself.
-/

namespace BraceScript

/-- The characters that stand for `c` in a quoted text. -/
def escapeChar (c : Char) : List Char :=
  if c = '"' then ['\\', '"']
  else if c = '\\' then ['\\', '\\']
  else if c = '\t' then ['\\', 't']
  else if c = '\n' then ['\\', 'n']
  else if c = '\r' then ['\\', 'r']
  else if c.toNat = 0 then ['\\', '0']
  else if hidden.holds c then ['\\', 'u', '{'] ++ Nat.toDigits 16 c.toNat ++ ['}']
  else [c]

/-- A text as a message quotes it. -/
def Text.quoted (s : String) : String :=
  String.ofList ('"' :: (s.toList.flatMap escapeChar ++ ['"']))

end BraceScript
