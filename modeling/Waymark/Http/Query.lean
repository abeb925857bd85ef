import Waymark.Text.Utf8

/-!
# Query strings

A query string is cut at `&` into pairs, each cut at its first `=`. A plus sign stands for a blank,
a percent sign with two base-sixteen digits for a byte; the bytes that come out are read as UTF-8
with faults replaced.
-/

namespace Waymark.Http.Query

/-- The value of a base-sixteen digit. -/
def hexValue? (b : UInt8) : Option UInt8 :=
  if 0x30 ≤ b && b ≤ 0x39 then some (b - 0x30)
  else if 0x41 ≤ b && b ≤ 0x46 then some (b - 0x37)
  else if 0x61 ≤ b && b ≤ 0x66 then some (b - 0x57)
  else none

/-- The pieces of a byte sequence between separators. -/
def splitBytes (sep : UInt8) : List UInt8 → List (List UInt8)
  | [] => [[]]
  | b :: rest =>
    if b = sep then [] :: splitBytes sep rest
    else match splitBytes sep rest with
      | [] => [[b]]
      | piece :: pieces => (b :: piece) :: pieces

/-- Percent escapes replaced by their bytes and plus signs by blanks; an escape without two digits
stays as it is. -/
def unescape : List UInt8 → List UInt8
  | [] => []
  | [b] => [if b = 0x2B then 0x20 else b]
  | [b, c] => unescapeOne b :: unescape [c]
  | b :: h :: l :: rest =>
    if b = 0x25 then
      match hexValue? h, hexValue? l with
      | some x, some y => (x * 16 + y) :: unescape rest
      | _, _ => b :: unescape (h :: l :: rest)
    else unescapeOne b :: unescape (h :: l :: rest)
where
  /-- A plus sign is a blank. -/
  unescapeOne (b : UInt8) : UInt8 := if b = 0x2B then 0x20 else b

/-- A name and a value, cut at the first equals sign. -/
def pair (piece : List UInt8) : String × String :=
  let name := piece.takeWhile (· ≠ 0x3D)
  let value := (piece.dropWhile (· ≠ 0x3D)).drop 1
  (Text.Utf8.lossy (unescape name), Text.Utf8.lossy (unescape value))

/-- The pairs of a query string in order; empty pieces are no pairs. -/
def pairs (query : String) : List (String × String) :=
  ((splitBytes 0x26 query.toUTF8.toList).filter (fun piece => !piece.isEmpty)).map pair

end Waymark.Http.Query
