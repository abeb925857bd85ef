import Waymark.Text.Split

/-!
# Directory names as route segments

A directory name is read by two grammars. Brackets come first, then underscores, and every other
name is a literal:

* `[[...n]]` or `___n`: an optional catch-all;
* `[...n]` or `__n`: a catch-all;
* `[n]` or `_n`: a parameter;
* `(n)`, `_group_n` or `_n_`: a group, which is no part of the address.

A name `n` holds ASCII letters, digits, `_` and `-`, with at least one letter or digit. Directories
that begin with a dot and four reserved ones are private.
-/

namespace Waymark.Routing

open Waymark.Text (withoutPrefix withoutSuffix)

/-- What a directory name stands for. -/
inductive SegmentKind where
  | static
  | dynamic
  | catchAll
  | optionalCatchAll
  | group
deriving DecidableEq

/-- The name of a kind. -/
def SegmentKind.name : SegmentKind → String
  | static => "Static"
  | dynamic => "Dynamic"
  | catchAll => "CatchAll"
  | optionalCatchAll => "OptionalCatchAll"
  | group => "Group"

/-- A classified directory name. -/
structure Segment where
  /-- The name on disk. -/
  raw : String
  /-- The name of the parameter or group; the raw name of a literal. -/
  name : String
  kind : SegmentKind
deriving DecidableEq

namespace Segment

/-- Folders of shared code, never parameters. -/
def reservedFolders : List String := ["_components", "_lib", "_utils", "_private"]

/-- A character of a parameter or group name. -/
def isNameChar (c : Char) : Bool := c.isAlphanum || c = '_' || c = '-'

/-- The names of parameters and groups. -/
def isValidName (name : List Char) : Bool := name.all isNameChar && name.any Char.isAlphanum

/-- A valid name between a fixed beginning and end. -/
def between? (opening closing : String) (raw : List Char) : Option (List Char) :=
  ((withoutPrefix opening.toList raw).bind (withoutSuffix closing.toList)).filter isValidName

/-- A valid name behind a fixed beginning. -/
def behind? (opening : String) (raw : List Char) : Option (List Char) :=
  (withoutPrefix opening.toList raw).filter isValidName

/-- The directory and all below it are left out of a scan. -/
def isPrivate (raw : String) : Bool := raw.toList.head? = some '.' || reservedFolders.contains raw

/-- The bracket grammar. -/
def ofBrackets? (raw : List Char) : Option (SegmentKind × List Char) :=
  ((between? "[[..." "]]" raw).map (Prod.mk SegmentKind.optionalCatchAll))
    <|> ((between? "[..." "]" raw).map (Prod.mk SegmentKind.catchAll))
    <|> ((between? "[" "]" raw).map (Prod.mk SegmentKind.dynamic))
    <|> ((between? "(" ")" raw).map (Prod.mk SegmentKind.group))

/-- The underscore grammar. -/
def ofUnderscores? (raw : List Char) : Option (SegmentKind × List Char) :=
  if isPrivate (String.ofList raw) then none
  else
    ((behind? "___" raw).map (Prod.mk SegmentKind.optionalCatchAll))
      <|> ((behind? "__" raw).map (Prod.mk SegmentKind.catchAll))
      <|> ((behind? "_group_" raw).map (Prod.mk SegmentKind.group))
      <|> ((between? "_" "_" raw).map (Prod.mk SegmentKind.group))
      <|> ((behind? "_" raw).map (Prod.mk SegmentKind.dynamic))

/-- Reads a directory name; every name is a segment. -/
def classify (raw : String) : Segment :=
  match ofBrackets? raw.toList <|> ofUnderscores? raw.toList with
  | some (kind, name) => ⟨raw, String.ofList name, kind⟩
  | none => ⟨raw, raw, .static⟩

/-- The segment takes the rest of a path. -/
def isWildcard (s : Segment) : Bool := s.kind = .catchAll || s.kind = .optionalCatchAll

/-- The segment is a group. -/
def isGroup (s : Segment) : Bool := s.kind = .group

/-- A literal that would read as a wildcard in a pattern. -/
def isUnroutable (s : Segment) : Bool := s.kind = .static && s.raw = "*"

end Segment

end Waymark.Routing
