/-!
# Positions in a text

A position is a line and a column, as an editor shows them; an offset counts bytes. A cursor is a
place in a text together with what is left of it:

* `Cursor.advance`: passing over characters keeps the position true;
* `suffixAt`, `offset`: the rest of a text behind a position and where it begins;
* `between`: the text between two positions.
-/

namespace Waymark.Source

/-- A place in a text: the line from one, and how many characters of the line stand before it. -/
structure Position where
  line : Nat
  column : Nat
deriving DecidableEq

/-- Where a piece of text begins and where it has ended. -/
structure Span where
  start : Position
  stop : Position
deriving DecidableEq

/-- The first place of a text. -/
def Position.origin : Position := ⟨1, 0⟩

/-- The place behind one character. -/
def Position.next (p : Position) (c : Char) : Position :=
  if c = '\n' then ⟨p.line + 1, 0⟩ else ⟨p.line, p.column + 1⟩

/-- What is left of a text, and the position at which that begins. -/
structure Cursor where
  rest : List Char
  position : Position

/-- Passes over that many characters. -/
def Cursor.advance : Nat → Cursor → Cursor
  | 0, c => c
  | _ + 1, ⟨[], p⟩ => ⟨[], p⟩
  | n + 1, ⟨ch :: rest, p⟩ => Cursor.advance n ⟨rest, p.next ch⟩

/-- How many bytes a text takes. -/
def byteLength : List Char → Nat
  | [] => 0
  | c :: rest => c.utf8Size + byteLength rest

/-- The text behind its first `n` line ends. -/
def dropLines : Nat → List Char → List Char
  | 0, text => text
  | _ + 1, [] => []
  | n + 1, c :: rest => if c = '\n' then dropLines n rest else dropLines (n + 1) rest

/-- The rest of a text from a position on; nothing when the position lies behind the text. -/
def suffixAt (text : List Char) (p : Position) : List Char :=
  (dropLines (p.line - 1) text).drop p.column

/-- The byte offset of a position; a position behind the text stands for its end. -/
def offset (text : List Char) (p : Position) : Nat :=
  byteLength text - byteLength (suffixAt text p)

/-- The text between two positions. -/
def between (text : List Char) (start stop : Position) : List Char :=
  let tail := suffixAt text start
  tail.take (tail.length - (suffixAt text stop).length)

/-- The text behind its first `n` bytes; a character begun before that is passed over. -/
def dropBytes : Nat → List Char → List Char
  | _, [] => []
  | n, c :: rest => if n = 0 then c :: rest else dropBytes (n - c.utf8Size) rest

/-- The first `n` bytes of a text, rounded up to a whole character. -/
def takeBytes : Nat → List Char → List Char
  | _, [] => []
  | n, c :: rest => if n = 0 then [] else c :: takeBytes (n - c.utf8Size) rest

end Waymark.Source
