import Waymark.Toml.Value

/-!
# Keys, texts, numbers and moments

Readers of the parts of a document that stand on their own. Each gives what it read and what
follows, or nothing where the text is malformed.

* `Reader.basicText`, `Reader.literalText`, `Reader.text`: texts in one or more lines;
* `Reader.number`: whole numbers in four bases and numbers with a fraction or an exponent;
* `Reader.moment`: dates and times.
-/

namespace Waymark.Toml

/-- Reads from the front of a text. -/
abbrev Reader (α : Type) := List Char → Option (α × List Char)

namespace Reader

/-- A blank inside a line. -/
def isBlank (c : Char) : Bool := c = ' ' || c = '\t'

/-- A character of a comment, and of a text once quotes and escapes are taken away. -/
def isPlain (c : Char) : Bool := c = '\t' || (0x20 ≤ c.toNat && c.toNat ≠ 0x7F)

/-- A decimal digit. -/
def isDigit (c : Char) : Bool := '0' ≤ c && c ≤ '9'

/-- The value of a hexadecimal digit. -/
def hex? (c : Char) : Option Nat :=
  if isDigit c then some (c.toNat - 48)
  else if 'a' ≤ c && c ≤ 'f' then some (c.toNat - 87)
  else if 'A' ≤ c && c ≤ 'F' then some (c.toNat - 55)
  else none

/-- The value of so many hexadecimal digits. -/
def hexDigits : Nat → Nat → Reader Nat
  | 0, value, text => some (value, text)
  | _ + 1, _, [] => none
  | n + 1, value, c :: rest => (hex? c).bind fun d => hexDigits n (value * 16 + d) rest

/-- The character with a code. -/
def charOf? (code : Nat) : Option Char :=
  if code < 0xD800 || (0xE000 ≤ code && code < 0x110000) then some (Char.ofNat code) else none

/-- The character that an escape stands for, behind its backslash. -/
def escape : Reader Char
  | 'b' :: rest => some ('\x08', rest)
  | 't' :: rest => some ('\t', rest)
  | 'n' :: rest => some ('\n', rest)
  | 'f' :: rest => some ('\x0c', rest)
  | 'r' :: rest => some ('\r', rest)
  | '"' :: rest => some ('"', rest)
  | '\\' :: rest => some ('\\', rest)
  | 'u' :: rest => (hexDigits 4 0 rest).bind fun (code, rest) => (charOf? code).map (·, rest)
  | 'U' :: rest => (hexDigits 8 0 rest).bind fun (code, rest) => (charOf? code).map (·, rest)
  | _ => none

/-- The end of a line. -/
def lineEnd : Reader Unit
  | '\n' :: rest => some ((), rest)
  | '\r' :: '\n' :: rest => some ((), rest)
  | _ => none

/-- A text between double quotes on one line, behind the first quote. -/
def basicText : Nat → List Char → Reader String
  | 0, _, _ => none
  | _ + 1, _, [] => none
  | fuel + 1, read, c :: rest =>
    if c = '"' then some (String.ofList read.reverse, rest)
    else if c = '\\' then (escape rest).bind fun (e, rest) => basicText fuel (e :: read) rest
    else if isPlain c then basicText fuel (c :: read) rest
    else none

/-- A text between single quotes on one line, behind the first quote. -/
def literalText : List Char → Reader String
  | _, [] => none
  | read, c :: rest =>
    if c = '\'' then some (String.ofList read.reverse, rest)
    else if isPlain c then literalText (c :: read) rest
    else none

/-- The text behind blanks and line ends. -/
def skipSpace : List Char → List Char
  | '\r' :: '\n' :: rest => skipSpace rest
  | c :: rest => if c = '\n' || isBlank c then skipSpace rest else c :: rest
  | [] => []

/-- What follows an escaped line end: blanks, the line end, and further blanks and line ends. -/
def continued (text : List Char) : Option (List Char) :=
  (lineEnd (text.dropWhile isBlank)).map fun (_, rest) => skipSpace rest

/-- How many quotes stand at the front. -/
def quotes (q : Char) (text : List Char) : Nat := (text.takeWhile (· = q)).length

/-- The end of a text in several lines, where quotes stand: three close it, and up to two more
before them belong to it. Fewer than three belong to the text. -/
def closing (q : Char) (read : List Char) (text : List Char) :
    (List Char × List Char) ⊕ (String × List Char) :=
  let n := quotes q text
  if n < 3 then .inl (List.replicate n q ++ read, text.drop n)
  else
    let own := min (n - 3) 2
    .inr (String.ofList (List.replicate own q ++ read).reverse, text.drop (own + 3))

/-- A text in several lines between double quotes, behind the first three. -/
def basicLines : Nat → List Char → Reader String
  | 0, _, _ => none
  | _ + 1, _, [] => none
  | fuel + 1, read, c :: rest =>
    if c = '"' then
      match closing '"' read (c :: rest) with
      | .inl (read, rest) => basicLines fuel read rest
      | .inr found => some found
    else if c = '\\' then
      match escape rest with
      | some (e, rest) => basicLines fuel (e :: read) rest
      | none => (continued rest).bind fun rest => basicLines fuel read rest
    else match lineEnd (c :: rest) with
      | some (_, rest) => basicLines fuel ('\n' :: read) rest
      | none => if isPlain c then basicLines fuel (c :: read) rest else none

/-- A text in several lines between single quotes, behind the first three. -/
def literalLines : Nat → List Char → Reader String
  | 0, _, _ => none
  | _ + 1, _, [] => none
  | fuel + 1, read, c :: rest =>
    if c = '\'' then
      match closing '\'' read (c :: rest) with
      | .inl (read, rest) => literalLines fuel read rest
      | .inr found => some found
    else match lineEnd (c :: rest) with
      | some (_, rest) => literalLines fuel ('\n' :: read) rest
      | none => if isPlain c then literalLines fuel (c :: read) rest else none

/-- The text behind one line end, if it begins with one. -/
def withoutLineEnd (text : List Char) : List Char :=
  match lineEnd text with
  | some (_, rest) => rest
  | none => text

/-- A text in any of its four forms. -/
def text : Reader String
  | '"' :: '"' :: '"' :: rest => basicLines (rest.length + 1) [] (withoutLineEnd rest)
  | '\'' :: '\'' :: '\'' :: rest => literalLines (rest.length + 1) [] (withoutLineEnd rest)
  | '"' :: rest => basicText (rest.length + 1) [] rest
  | '\'' :: rest => literalText [] rest
  | _ => none

/-- A character of a bare key. -/
def isKeyChar (c : Char) : Bool := c.isAlphanum || c = '-' || c = '_'

/-- One part of a key: bare, or a text on one line. -/
def simpleKey : Reader String
  | '"' :: rest => basicText (rest.length + 1) [] rest
  | '\'' :: rest => literalText [] rest
  | text =>
    let name := text.takeWhile isKeyChar
    if name.isEmpty then none else some (String.ofList name, text.dropWhile isKeyChar)

/-- Digits of a base with single underscores between them, behind at least one: their value and what
follows. An underscore without a digit behind it is refused. -/
def moreDigits (base : Nat) : Nat → Reader Nat
  | value, [] => some (value, [])
  | value, '_' :: c :: rest =>
    match hex? c with
    | some d => if d < base then moreDigits base (value * base + d) rest else none
    | none => none
  | value, c :: rest =>
    if c = '_' then none
    else match hex? c with
      | some d =>
        if d < base then moreDigits base (value * base + d) rest else some (value, c :: rest)
      | none => some (value, c :: rest)

/-- Digits of a base with single underscores between them. -/
def digits (base : Nat) : Reader Nat
  | [] => none
  | c :: rest => (hex? c).bind fun d => if d < base then moreDigits base d rest else none

/-- The sign of a number, if it has one: whether it is negative. -/
def sign : List Char → Bool × List Char
  | '+' :: rest => (false, rest)
  | '-' :: rest => (true, rest)
  | text => (false, text)

/-- A decimal whole number without its sign; only zero itself begins with a zero. -/
def decimal : Reader Nat
  | '0' :: rest => some (0, rest)
  | text => digits 10 text

/-- A whole number that fits into 64 bits with its sign. -/
def within64 (value : Int) : Option Toml :=
  if -0x8000000000000000 ≤ value && value < 0x8000000000000000 then some (.whole value) else none

/-- A whole number with a mark for its base. -/
def basedNumber : List Char → Option (Option (Toml × List Char))
  | '0' :: 'x' :: rest => some (based 16 rest)
  | '0' :: 'o' :: rest => some (based 8 rest)
  | '0' :: 'b' :: rest => some (based 2 rest)
  | _ => none
where
  based (base : Nat) (rest : List Char) : Option (Toml × List Char) :=
    (digits base rest).bind fun (n, rest) => (within64 n).map (·, rest)

/-- How many digits were read between two texts, underscores apart. -/
def digitCount (text rest : List Char) : Nat :=
  ((text.take (text.length - rest.length)).filter isDigit).length

/-- The fraction behind a point: its digits as a number, and how many they are. -/
def fractionPart : List Char → Option (Option ((Nat × Nat) × List Char))
  | '.' :: rest => some ((digits 10 rest).map fun (n, after) => ((n, digitCount rest after), after))
  | _ => none

/-- The exponent behind its mark. -/
def exponentPart : List Char → Option (Option (Int × List Char))
  | c :: rest =>
    if c = 'e' || c = 'E' then
      let (negative, rest) := sign rest
      some ((digits 10 rest).map fun (n, after) => (if negative then -(n : Int) else n, after))
    else none
  | [] => none

/-- The number does not round to infinity: it lies below the middle between the greatest finite
number and the next power of two. -/
def isFinite (significand : Nat) (exponent : Int) : Bool :=
  let bound := Nat.pow 2 1024 - Nat.pow 2 970
  match exponent with
  | .ofNat n => significand = 0 || (n ≤ 400 && significand * Nat.pow 10 n < bound)
  | .negSucc n => significand < bound * Nat.pow 10 (min (n + 1) significand.log2)

/-- A number with a fraction, an exponent or both, behind its whole part; nothing where neither
follows. -/
def floating (negative : Bool) (whole : Nat) (text : List Char) :
    Option (Option (Toml × List Char)) :=
  let finish (significand : Nat) (exponent : Int) (rest : List Char) : Option (Toml × List Char) :=
    if negative || isFinite significand exponent then some (.fraction, rest) else none
  match exponentPart text with
  | some e => some (e.bind fun (n, rest) => finish whole n rest)
  | none =>
    match fractionPart text with
    | none => none
    | some none => some none
    | some (some ((n, places), rest)) =>
      let significand := whole * Nat.pow 10 places + n
      match exponentPart rest with
      | some e => some (e.bind fun (x, rest) => finish significand (x - places) rest)
      | none => some (finish significand (-(places : Int)) rest)

/-- A number. -/
def number (text : List Char) : Option (Toml × List Char) :=
  match basedNumber text with
  | some found => found
  | none =>
    let (negative, rest) := sign text
    match rest with
    | 'i' :: 'n' :: 'f' :: rest => some (.fraction, rest)
    | 'n' :: 'a' :: 'n' :: rest => some (.fraction, rest)
    | _ =>
      (decimal rest).bind fun (n, rest) =>
        match floating negative n rest with
        | some found => found
        | none => (within64 (if negative then -(n : Int) else n)).map (·, rest)

/-- A number of so many digits between two bounds. -/
def fixed (count least most : Nat) (text : List Char) : Option (Nat × List Char) :=
  let front := text.take count
  if front.length = count && front.all isDigit then
    let value := front.foldl (fun n c => n * 10 + (c.toNat - 48)) 0
    if least ≤ value && value ≤ most then some (value, text.drop count) else none
  else none

/-- A certain character. -/
def exactly (c : Char) : List Char → Option (List Char)
  | d :: rest => if c = d then some rest else none
  | [] => none

/-- How many days a month has. -/
def daysIn (year month : Nat) : Nat :=
  if month = 2 then
    if year % 4 = 0 && (year % 100 ≠ 0 || year % 400 = 0) then 29 else 28
  else if month = 4 || month = 6 || month = 9 || month = 11 then 30
  else 31

/-- A date: what follows it. -/
def date (text : List Char) : Option (List Char) := do
  let (year, rest) ← fixed 4 0 9999 text
  let rest ← exactly '-' rest
  let (month, rest) ← fixed 2 1 12 rest
  let rest ← exactly '-' rest
  let (_, rest) ← fixed 2 1 (daysIn year month) rest
  return rest

/-- A time of day: what follows it. -/
def time (text : List Char) : Option (List Char) := do
  let (_, rest) ← fixed 2 0 23 text
  let rest ← exactly ':' rest
  let (_, rest) ← fixed 2 0 59 rest
  let rest ← exactly ':' rest
  let (_, rest) ← fixed 2 0 60 rest
  match rest with
  | '.' :: c :: more => if isDigit c then return more.dropWhile isDigit else return rest
  | _ => return rest

/-- The distance of a time from the common one, if it is given: what follows it. -/
def zone (text : List Char) : Option (List Char) :=
  match text with
  | 'Z' :: rest | 'z' :: rest => some rest
  | '+' :: rest | '-' :: rest => do
    let (_, rest) ← fixed 2 0 23 rest
    let rest ← exactly ':' rest
    let (_, rest) ← fixed 2 0 59 rest
    return rest
  | _ => some text

/-- The time behind a date, if there is one: what follows it. -/
def timeBehind (text : List Char) : Option (List Char) :=
  match text with
  | c :: rest =>
    if c = 'T' || c = 't' || c = ' ' then
      match time rest with
      | some rest => zone rest
      | none => some text
    else some text
  | [] => some text

/-- A date, a time of day, or both: what follows. -/
def moment (text : List Char) : Option (Toml × List Char) :=
  match date text with
  | some rest => (timeBehind rest).map (.moment, ·)
  | none => (time text).map (.moment, ·)

end Reader

end Waymark.Toml
