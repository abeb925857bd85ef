import Waymark.Source.Literal

/-!
# From text to token trees

The text is read piece by piece: blanks and comments, documentation comments, delimiters and leaves.

* `piece`: what stands at the beginning of a text and how long it is;
* `Reading.step`: one piece, with the delimiters that are still open;
* `lex`: the token trees of a text, or the place where it breaks off: a bad token, a closing
  delimiter that closes nothing, or the last delimiter that is never closed.
-/

namespace Waymark.Source.Lexer

open Waymark.Text

/-- The text begins with these characters. -/
def begins (start : String) (text : List Char) : Bool := start.toList.isPrefixOf text

/-- How many characters stand from here to behind the end of a comment that is `depth` deep. -/
def blockFrom : Nat → List Char → Option Nat
  | _, [] => none
  | _, [_] => none
  | depth, '/' :: '*' :: rest => (blockFrom (depth + 1) rest).map (· + 2)
  | depth, '*' :: '/' :: rest =>
    if depth ≤ 1 then some 2 else (blockFrom (depth - 1) rest).map (· + 2)
  | depth, _ :: b :: rest => (blockFrom depth (b :: rest)).map (· + 1)

/-- The length of a comment between `/*` and its end, with the comments inside. -/
def blockComment (text : List Char) : Option Nat := blockFrom 0 text

/-- The length of a line without its end. -/
def lineLength (text : List Char) : Nat := (text.takeWhile (· ≠ '\n')).length

/-- A carriage return stands without its line feed. -/
def hasBareReturn : List Char → Bool
  | [] => false
  | '\r' :: '\n' :: rest => hasBareReturn rest
  | '\r' :: _ => true
  | _ :: rest => hasBareReturn rest

/-- A line comment that documents nothing. -/
def isPlainLineComment (text : List Char) : Bool :=
  begins "//" text && (!begins "///" text || begins "////" text) && !begins "//!" text

/-- A block comment that documents nothing. -/
def isPlainBlockComment (text : List Char) : Bool :=
  begins "/**/" text
    || begins "/*" text && (!begins "/**" text || begins "/***" text) && !begins "/*!" text

/-- What passes between tokens: a blank, or a comment that documents nothing. -/
def blank (text : List Char) : Option Nat :=
  if isPlainLineComment text then some (lineLength text)
  else if isPlainBlockComment text then blockComment text
  else match text with
    | c :: _ => if isBlank c then some 1 else none
    | [] => none

/-- A documentation comment: its length, and whether it documents what encloses it. -/
def documentation (text : List Char) : Option (Nat × Bool) :=
  let inner := begins "//!" text || begins "/*!" text
  if begins "//!" text || begins "///" text && !begins "////" text then
    let n := lineLength text
    if hasBareReturn (text.take (n + 1)) then none else some (n, inner)
  else if begins "/*!" text || begins "/**" text && !begins "/***" text then
    (blockComment text).bind fun n =>
      if hasBareReturn ((text.take (n - 2)).drop 3) then none else some (n, inner)
  else none

/-- The mark at the beginning of a text; the beginning of a comment is none. -/
def mark? (text : List Char) : Option Char :=
  if begins "//" text || begins "/*" text then none
  else match text with
    | c :: _ => if "~!@#$%^&*-=+|;:,<.>/?'".toList.contains c then some c else none
    | [] => none

/-- Beginnings of literals, at which no word begins. -/
def literalStarts : List String :=
  ["r\"", "r#\"", "r##", "b\"", "b'", "br\"", "br#", "c\"", "cr\"", "cr#"]

/-- The length of a word with its mark for raw words. -/
def anyWord (text : List Char) : Option Nat :=
  if begins "r#" text then
    let name := text.drop 2
    (Literal.identifier? name).bind fun n =>
      if ["_", "super", "self", "Self", "crate"].contains (String.ofList (name.take n)) then none
      else some (n + 2)
  else Literal.identifier? text

/-- The length of the word at the beginning of a text. -/
def word? (text : List Char) : Option Nat :=
  if literalStarts.any (begins · text) then none else anyWord text

/-- A quote that begins a lifetime: a word follows that no quote closes. -/
def isLifetime (text : List Char) : Bool :=
  match anyWord text with
  | none => false
  | some n =>
    match text.drop n with
    | '\'' :: _ => false
    | '#' :: _ => begins "r#" text
    | _ => true

/-- What stands at the beginning of a text. -/
inductive Piece where
  | blank (length : Nat)
  | documentation (length : Nat) (inner : Bool)
  | opening (delimiter : Delimiter)
  | closing (delimiter : Delimiter)
  | leaf (length : Nat) (make : Span → Tree)

/-- A literal, a mark or a word. -/
def leaf (text : List Char) : Option Piece :=
  match Literal.read text with
  | some (n, value) => some (.leaf n (.literal value))
  | none =>
    match mark? text with
    | some '\'' => if isLifetime text.tail then some (.leaf 1 (.mark '\'' true)) else none
    | some c => some (.leaf 1 (.mark c (mark? text.tail).isSome))
    | none =>
      match word? text with
      | some n => some (.leaf n (.word (String.ofList (text.take n))))
      | none =>
        if Literal.faulty.isPrefixOf text then
          some (.leaf Literal.faulty.length (.literal .other))
        else none

/-- The piece at the beginning of a text, when it begins with one. -/
def piece (text : List Char) : Option Piece :=
  match blank text with
  | some n => some (.blank n)
  | none =>
    match documentation text with
    | some (n, inner) => some (.documentation n inner)
    | none =>
      match text with
      | '(' :: _ => if Literal.faulty.isPrefixOf text then leaf text else some (.opening .paren)
      | '[' :: _ => some (.opening .bracket)
      | '\x7b' :: _ => some (.opening .brace)
      | ')' :: _ => some (.closing .paren)
      | ']' :: _ => some (.closing .bracket)
      | '\x7d' :: _ => some (.closing .brace)
      | _ => leaf text

/-- An open delimiter, and what stood before it at its level, the last tree first. -/
structure Frame where
  delimiter : Delimiter
  start : Position
  before : List Tree

/-- How far the text is read. -/
structure Reading where
  cursor : Cursor
  frames : List Frame
  /-- What was read since the last open delimiter, the last tree first. -/
  trees : List Tree

/-- The trees for which a documentation comment stands, the last first. -/
def documentationTrees (span : Span) (inner : Bool) : List Tree :=
  let note : Tree := .group .bracket span span.start
    [.word "doc" span, .mark '=' false span, .literal .text span]
  if inner then [note, .mark '!' false span, .mark '#' false span]
  else [note, .mark '#' false span]

/-- Reads one piece, or gives the place at which there is none to read. -/
def Reading.step (r : Reading) : Except Position Reading :=
  let start := r.cursor.position
  match piece r.cursor.rest with
  | none => .error start
  | some (.blank n) => .ok { r with cursor := r.cursor.advance n }
  | some (.documentation n inner) =>
    let next := r.cursor.advance n
    .ok { r with
      cursor := next
      trees := documentationTrees ⟨start, next.position⟩ inner ++ r.trees }
  | some (.opening d) => .ok ⟨r.cursor.advance 1, ⟨d, start, r.trees⟩ :: r.frames, []⟩
  | some (.closing d) =>
    match r.frames with
    | [] => .error start
    | frame :: frames =>
      if frame.delimiter = d then
        let next := r.cursor.advance 1
        let group : Tree := .group d ⟨frame.start, next.position⟩ start r.trees.reverse
        .ok ⟨next, frames, group :: frame.before⟩
      else .error start
  | some (.leaf n make) =>
    let next := r.cursor.advance n
    .ok { r with cursor := next, trees := make ⟨start, next.position⟩ :: r.trees }

/-- Reads to the end of the text, with a bound on the number of pieces. -/
def lexFrom : Nat → Reading → Except Position (List Tree)
  | fuel, r =>
    match r.cursor.rest, r.frames with
    | [], [] => .ok r.trees.reverse
    | [], frame :: _ => .error frame.start
    | _ :: _, _ =>
      match fuel with
      | 0 => .error r.cursor.position
      | fuel + 1 => r.step.bind (lexFrom fuel)

/-- The token trees of a text, or the place where it breaks off. Every piece takes a character, so
as many pieces as characters suffice. -/
def lex (cursor : Cursor) : Except Position (List Tree) :=
  lexFrom cursor.rest.length ⟨cursor, [], []⟩

end Waymark.Source.Lexer
