import Waymark.Source.Position

/-!
# Token trees

Source text as tokens, in which every pair of delimiters holds the tokens between them. A mark is
one character; a mark written directly before another is joint with it.
-/

namespace Waymark.Source

/-- The kinds of brackets that hold tokens. -/
inductive Delimiter where
  | paren
  | bracket
  | brace
deriving DecidableEq

/-- What matters of a literal. -/
inductive Literal where
  /-- A text between double quotes. -/
  | text
  /-- A whole number; with its value when it can number a field. -/
  | whole (index : Option Nat)
  /-- A number with a point or an exponent: whether its parts between points can number fields, and
  whether it ends with a point. -/
  | fraction (indices : Bool) (endsInPoint : Bool)
  /-- Bytes, characters and all else. -/
  | other
deriving DecidableEq

/-- A token, or a pair of delimiters with what they hold. -/
inductive Tree where
  /-- A word; a raw word keeps its mark `r#`. -/
  | word (name : String) (span : Span)
  | mark (symbol : Char) (joint : Bool) (span : Span)
  | literal (value : Literal) (span : Span)
  /-- What stands between two delimiters, with the place of the closing one. -/
  | group (delimiter : Delimiter) (span : Span) (closing : Position) (content : List Tree)

/-- Where a tree stands; a group with its delimiters. -/
def Tree.span : Tree → Span
  | word _ s | mark _ _ s | literal _ s | group _ s _ _ => s

/-- How many tokens some trees hold, a pair of delimiters counting as one more. -/
def tokenCount : List Tree → Nat
  | [] => 0
  | .group _ _ _ content :: rest => 1 + tokenCount content + tokenCount rest
  | _ :: rest => 1 + tokenCount rest

end Waymark.Source
