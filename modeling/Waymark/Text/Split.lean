/-!
# Splitting and joining

Texts cut at a separator and put together again, as recursion on characters:

* `split`: the pieces between separators, always at least one;
* `join`: the pieces with one separator between neighbours;
* `withoutPrefix`, `withoutSuffix`: what is left once a fixed beginning or end is taken off.
-/

namespace Waymark.Text

/-- The pieces between separators; a text without a separator is one piece. -/
def split (sep : Char) : List Char → List (List Char)
  | [] => [[]]
  | c :: rest =>
    if c = sep then [] :: split sep rest
    else match split sep rest with
      | [] => [[c]]
      | piece :: pieces => (c :: piece) :: pieces

/-- The pieces in order, one separator between neighbours. -/
def join (sep : Char) : List (List Char) → List Char
  | [] => []
  | [piece] => piece
  | piece :: next :: pieces => piece ++ sep :: join sep (next :: pieces)

/-- The text behind a fixed beginning, when it starts with it. -/
def withoutPrefix {α : Type} [DecidableEq α] : List α → List α → Option (List α)
  | [], text => some text
  | _ :: _, [] => none
  | p :: ps, c :: cs => if p = c then withoutPrefix ps cs else none

/-- The text before a fixed end, when it closes with it. -/
def withoutSuffix (ending text : List Char) : Option (List Char) :=
  (withoutPrefix ending.reverse text.reverse).map List.reverse

/-- The pieces of a string between separators. -/
def splitString (sep : Char) (s : String) : List String :=
  (split sep s.toList).map String.ofList

/-- The non-empty pieces of a string between separators. -/
def splitNonEmpty (sep : Char) (s : String) : List String :=
  (splitString sep s).filter (· ≠ "")

/-- Strings joined by one separator character. -/
def joinStrings (sep : Char) (pieces : List String) : String :=
  String.ofList (join sep (pieces.map String.toList))

end Waymark.Text
