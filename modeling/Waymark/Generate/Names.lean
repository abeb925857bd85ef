import Waymark.Routing.Pattern

/-!
# Names of generated functions

Every function that is emitted gets a name of its own, made from the pattern or the directories of
its file.

* `snakeCase`: ASCII letters and digits in lower case, with one underscore for anything between
  them;
* `patternStem`, `scopeStem`: the name of a pattern and of a chain of directories;
* `Names.allocate`: a name that was not given out before.
-/

namespace Waymark.Generate

open Waymark.Routing

/-- Letters and digits in lower case; what stands between them becomes one underscore. The first
flag says that something was written, the second that something else followed it. -/
def snakeFrom : Bool → Bool → List Char → List Char
  | _, _, [] => []
  | written, apart, c :: rest =>
    if c.isAlphanum then
      if written && apart then '_' :: c.toLower :: snakeFrom true false rest
      else c.toLower :: snakeFrom true false rest
    else snakeFrom written true rest

/-- A text in lower snake case: its ASCII letters and digits, with one underscore for each gap
between them. -/
def snakeCase (raw : String) : String := String.ofList (snakeFrom false false raw.toList)

/-- The name between the braces of a parameter. -/
def parameterName? (part : String) : Option String :=
  ((Text.withoutPrefix ['{'] part.toList).bind (Text.withoutSuffix ['}'])).map String.ofList

/-- What a component of a pattern contributes to a name. -/
def partStem (part : String) : String :=
  if part = "*" then "catchall"
  else match parameterName? part with
    | some name => snakeCase name
    | none => snakeCase part

/-- Non-empty parts joined by underscores, or a name for none at all. -/
def joinStems (ifNone : String) (parts : List String) : String :=
  match parts.filter (· ≠ "") with
  | [] => ifNone
  | kept => Text.joinStrings '_' kept

/-- The name of a pattern. -/
def patternStem (pattern : String) : String :=
  joinStems "index" ((Text.splitNonEmpty '/' pattern).map partStem)

/-- What a directory contributes to a name. -/
def segmentStem (s : Segment) : String :=
  match s.kind with
  | .group => "group_" ++ snakeCase s.name
  | .catchAll | .optionalCatchAll => "catchall"
  | .dynamic => snakeCase s.name
  | .static => snakeCase s.raw

/-- The name of a chain of directories. -/
def scopeStem (chain : List Segment) : String := joinStems "root" (chain.map segmentStem)

/-- The names that are given out. -/
structure Names where
  used : List String

namespace Names

/-- No name is given out yet. -/
def empty : Names := ⟨[]⟩

/-- A name that does not begin with a digit. -/
def identifierOf (base : String) : String :=
  match base.toList with
  | c :: _ => if c.isDigit then "_" ++ base else base
  | [] => base

/-- The names that stand for a base, in the order in which they are tried. The number is counted
without a bound, which a counter of 32 bits would reach behind two thousand million functions
only. -/
def candidate (base : String) : Nat → String
  | 0 => base
  | n + 1 => base ++ "_" ++ toString (n + 2)

/-- The first name from the `n`-th on that is free, among so many more. -/
def firstFree (used : List String) (base : String) : Nat → Nat → String
  | 0, n => candidate base n
  | more + 1, n =>
    if used.contains (candidate base n) then firstFree used base more (n + 1) else candidate base n

/-- A free name for a base. No more names are tried than are given out, and one. -/
def allocate (names : Names) (base : String) : String × Names :=
  let name := firstFree names.used (identifierOf base) names.used.length 0
  (name, ⟨name :: names.used⟩)

end Names

end Waymark.Generate
