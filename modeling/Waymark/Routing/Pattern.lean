import Waymark.Routing.Segment

/-!
# Patterns and scopes

A chain of segments has an address pattern and a scope. In a pattern `{n}` is a parameter, `*` or
`{*n}` a wildcard, and the braces of a literal are doubled, so that a literal never reads as a
parameter. Groups are left out, and the first wildcard ends the pattern. A scope holds every raw
name, groups included.

* `urlPattern`, `scopeOf`: pattern and scope of a chain;
* `isWildcardPart`, `isPlaceholderPart`: what a component of a pattern is;
* `priority`: 5 with a wildcard, else 50 with a parameter, else 100;
* `scopeContains`: a scope covers itself and the scopes of directories below.
-/

namespace Waymark.Routing

open Waymark.Text (splitString joinStrings withoutPrefix)

/-- A literal with its braces doubled. -/
def escapeLiteral (raw : String) : String :=
  String.ofList (raw.toList.flatMap fun c => if c = '{' || c = '}' then [c, c] else [c])

/-- A parameter in a pattern. -/
def placeholder (name : String) : String := String.ofList ('{' :: name.toList ++ ['}'])

/-- The component of a pattern that a segment becomes; none for groups. -/
def Segment.patternPart? (s : Segment) : Option String :=
  match s.kind with
  | .static => some (escapeLiteral s.raw)
  | .dynamic => some (placeholder s.name)
  | .catchAll => some "*"
  | .optionalCatchAll => some "*"
  | .group => none

/-- A component that takes the rest of a path. -/
def isWildcardPart (part : String) : Bool :=
  part = "*" || (withoutPrefix ['{', '*'] part.toList).isSome

/-- A component that takes one component of a path. -/
def isPlaceholderPart (part : String) : Bool :=
  2 < part.length && part.toList.head? = some '{' && !(withoutPrefix ['{', '{'] part.toList).isSome
    && part.toList.getLast? = some '}'

/-- The chain up to and with its first wildcard. -/
def throughWildcard : List Segment → List Segment
  | [] => []
  | s :: rest => if s.isWildcard then [s] else s :: throughWildcard rest

/-- The components of the pattern of a chain. -/
def patternParts (chain : List Segment) : List String :=
  (throughWildcard chain).filterMap Segment.patternPart?

/-- The address pattern of a chain. -/
def urlPattern (chain : List Segment) : String :=
  "/" ++ joinStrings '/' (patternParts chain)

/-- The scope of a chain. -/
def scopeOf (chain : List Segment) : String := joinStrings '/' (chain.map Segment.raw)

/-- The first wildcard of a chain. -/
def catchAll? (chain : List Segment) : Option Segment := chain.find? Segment.isWildcard

/-- The name of the first wildcard of a chain, and whether it also takes the empty rest. -/
def catchAllParam? (chain : List Segment) : Option (String × Bool) :=
  (catchAll? chain).map fun s => (s.name, decide (s.kind = .optionalCatchAll))

/-- A scope covers a route: it is empty, the route's own scope, or that of a directory above. -/
def scopeContains (scope routeScope : String) : Bool :=
  scope = "" || routeScope = scope
    || ((withoutPrefix scope.toList routeScope.toList).any fun rest => rest.head? = some '/')

/-- Precedence of a pattern of literals only. -/
def staticPriority : UInt8 := 100

/-- Precedence of a pattern with a parameter. -/
def dynamicPriority : UInt8 := 50

/-- Precedence of a pattern with a wildcard. -/
def catchAllPriority : UInt8 := 5

/-- Precedence of a pattern. -/
def priority (pattern : String) : UInt8 :=
  let parts := splitString '/' pattern
  if parts.any isWildcardPart then catchAllPriority
  else if parts.any isPlaceholderPart then dynamicPriority
  else staticPriority

end Waymark.Routing
