import Waymark.Text.Printable

/-!
# Quoted texts

A text between double quotes, as a literal of generated code or in a diagnostic dump. A backslash,
a double quote and the four usual controls have a short escape; a character that is not visible, or
that would attach itself to the quote or letter before it, is written by its code point.
-/

namespace Waymark.Text.Quoted

/-- A digit in base sixteen, in lower case. -/
def hexDigit (n : Nat) : Char :=
  if n < 10 then Char.ofNat (48 + n) else Char.ofNat (87 + n)

/-- The base-sixteen digits of a number below `16 ^ fuel`, most significant first, without leading
zeros. -/
def hexDigits : Nat → Nat → List Char
  | 0, _ => []
  | fuel + 1, n => if n < 16 then [hexDigit n] else hexDigits fuel (n / 16) ++ [hexDigit (n % 16)]

/-- A character by its code point. -/
def byCodePoint (c : Char) : List Char :=
  '\\' :: 'u' :: '{' :: hexDigits 6 c.toNat ++ ['}']

/-- How one character is written. -/
def escape (c : Char) : List Char :=
  if c = '\x00' then ['\\', '0']
  else if c = '\t' then ['\\', 't']
  else if c = '\r' then ['\\', 'r']
  else if c = '\n' then ['\\', 'n']
  else if c = '\\' then ['\\', '\\']
  else if c = '"' then ['\\', '"']
  else if isExtender c || !isVisible c then byCodePoint c
  else [c]

/-- The characters of the quoted text, quotes included. -/
def encode (text : List Char) : List Char :=
  '"' :: text.flatMap escape ++ ['"']

end Waymark.Text.Quoted

namespace Waymark.Text

/-- A string between double quotes. -/
def quoted (s : String) : String := String.ofList (Quoted.encode s.toList)

end Waymark.Text
