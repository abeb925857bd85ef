import Waymark.Decimal.Shortest
import Waymark.Json.Value

/-!
# Writing JSON

Two forms of a value: `compact` on one line without blanks, and `pretty` with one item a line and
two blanks of indentation for each level. Fractions are written with the fewest digits that read
back, positionally between `1e-5` and `1e16`.
-/

namespace Waymark.Json

/-- The characters of a string inside its quotes, one character at a time. -/
def escape (c : Char) : List Char :=
  if c = '"' then ['\\', '"']
  else if c = '\\' then ['\\', '\\']
  else if c = '\x08' then ['\\', 'b']
  else if c = '\x0c' then ['\\', 'f']
  else if c = '\n' then ['\\', 'n']
  else if c = '\r' then ['\\', 'r']
  else if c = '\t' then ['\\', 't']
  else if c.toNat < 0x20 then
    ['\\', 'u', '0', '0', Nat.digitChar (c.toNat / 16), Nat.digitChar (c.toNat % 16)]
  else [c]

/-- A string with its quotes. -/
def quote (s : String) : String :=
  String.ofList ('"' :: s.toList.flatMap escape ++ ['"'])

/-- That many zeros. -/
def zeros (n : Nat) : String := String.ofList (List.replicate n '0')

/-- A positive decimal. The point stands behind the digit that `point` counts to, or in front of the
digits when it is not positive. -/
def decimalText (d : Decimal.Numeral) : String :=
  let digits := toString d.digits
  let point := (digits.length : Int) + d.exponent
  if 0 ≤ d.exponent && point ≤ 16 then digits ++ zeros d.exponent.toNat ++ ".0"
  else if 0 < point && point ≤ 16 then
    String.ofList (digits.toList.take point.toNat) ++ "."
      ++ String.ofList (digits.toList.drop point.toNat)
  else if -5 < point && point ≤ 0 then "0." ++ zeros (-point).toNat ++ digits
  else
    let mantissa :=
      if digits.length = 1 then digits
      else String.ofList (digits.toList.take 1) ++ "." ++ String.ofList (digits.toList.drop 1)
    mantissa ++ (if 0 < point then "e+" else "e") ++ toString (point - 1)

/-- A fraction; what is no number is written as `null`. -/
def fractionText (x : Float) : String :=
  if x.isFinite then
    let (negative, size) := Decimal.ofFloat x
    (if negative then "-" else "") ++
      match size with
      | none => "0.0"
      | some b => decimalText (Decimal.shortest b)
  else "null"

/-- The text of a number. -/
def Number.text : Number → String
  | .whole i => toString i
  | .fraction x => fractionText x

mutual

/-- The value on one line, without blanks. -/
def compact : Json → String
  | .null => "null"
  | .bool b => if b then "true" else "false"
  | .number n => n.text
  | .string s => quote s
  | .array items => "[" ++ compactItems items ++ "]"
  | .object members => "\x7b" ++ compactMembers members ++ "\x7d"

/-- Items separated by commas. -/
def compactItems : List Json → String
  | [] => ""
  | [v] => compact v
  | v :: w :: rest => compact v ++ "," ++ compactItems (w :: rest)

/-- Members separated by commas. -/
def compactMembers : List (String × Json) → String
  | [] => ""
  | [(n, v)] => quote n ++ ":" ++ compact v
  | (n, v) :: m :: rest => quote n ++ ":" ++ compact v ++ "," ++ compactMembers (m :: rest)

end

/-- A new line with two blanks for each level. -/
def newLine (level : Nat) : String := "\n" ++ String.ofList (List.replicate (2 * level) ' ')

mutual

/-- The value with one item a line; an empty array or object stays on its line. -/
def prettyAt (level : Nat) : Json → String
  | .array [] => "[]"
  | .array (v :: rest) =>
    "[" ++ newLine (level + 1) ++ prettyAt (level + 1) v ++ prettyItems (level + 1) rest
      ++ newLine level ++ "]"
  | .object [] => "\x7b\x7d"
  | .object ((n, v) :: rest) =>
    "\x7b" ++ newLine (level + 1) ++ quote n ++ ": " ++ prettyAt (level + 1) v
      ++ prettyMembers (level + 1) rest ++ newLine level ++ "\x7d"
  | .null => "null"
  | .bool b => if b then "true" else "false"
  | .number n => n.text
  | .string s => quote s

/-- Items after the first, each behind a comma and on its own line. -/
def prettyItems (level : Nat) : List Json → String
  | [] => ""
  | v :: rest => "," ++ newLine level ++ prettyAt level v ++ prettyItems level rest

/-- Members after the first, each behind a comma and on its own line. -/
def prettyMembers (level : Nat) : List (String × Json) → String
  | [] => ""
  | (n, v) :: rest =>
    "," ++ newLine level ++ quote n ++ ": " ++ prettyAt level v ++ prettyMembers level rest

end

/-- The value with one item a line. -/
def pretty (v : Json) : String := prettyAt 0 v

end Waymark.Json
