import Waymark.Routing.PathIndex.Node

/-!
# Searching the path index

A path is followed down the index, a literal child before the placeholder; where the literal child
leads nowhere, the placeholder is tried. A placeholder takes a non-empty piece up to the next slash,
less the longest suffix that fits; a wildcard takes a non-empty rest.
-/

namespace Waymark.Routing

/-- What a path leads to: a value, and the captures with their names. -/
structure Found (α : Type) where
  value : α
  captures : List (List UInt8 × List UInt8)

namespace Node

variable {α : Type}

/-- The bytes of a path up to the next slash, and the rest from the slash on. -/
def segmentOf (path : List UInt8) : List UInt8 × List UInt8 :=
  (path.takeWhile (· ≠ Template.slash), path.dropWhile (· ≠ Template.slash))

/-- The value of a node under the names of its own template. -/
def found? (n : Node α) (captured : List (List UInt8)) : Option (Found α) :=
  n.value.map fun v => ⟨v, n.names.zip captured⟩

/-- The bytes behind a fixed beginning. -/
def behind? : List UInt8 → List UInt8 → Option (List UInt8)
  | [], path => some path
  | _ :: _, [] => none
  | l :: ls, b :: bs => if l = b then behind? ls bs else none

mutual

/-- Follows a path from a node whose label lies ahead. -/
def search : Node α → List (List UInt8) → List UInt8 → Option (Found α)
  | mk label _ hasWild firstBytes _ children value names, captured, path =>
    match behind? (label.map Symbol.byte) path with
    | none => none
    | some [] => value.map fun v => ⟨v, names.zip captured⟩
    | some (next :: rest) =>
      match searchLiteral firstBytes children captured next (next :: rest) with
      | some found => some found
      | none => if hasWild then searchWild children captured (next :: rest) else none

/-- Follows a path into the literal child with the next byte. -/
def searchLiteral : List UInt8 → List (Node α) → List (List UInt8) → UInt8 → List UInt8 →
    Option (Found α)
  | first :: firsts, child :: children, captured, next, path =>
    if first = next then child.search captured path
    else searchLiteral firsts children captured next path
  | _, _, _, _, _ => none

/-- Follows a path into the last child, which is a placeholder. -/
def searchWild : List (Node α) → List (List UInt8) → List UInt8 → Option (Found α)
  | [], _, _ => none
  | [child], captured, path => child.capture captured path
  | _ :: children, captured, path => searchWild children captured path

/-- Lets a placeholder take its part of a path. -/
def capture : Node α → List (List UInt8) → List UInt8 → Option (Found α)
  | mk label _ _ _ kind children value names, captured, path =>
    match kind with
    | .literal => none
    | .wildcard =>
      let name := ((label.map Symbol.byte).drop 2).dropLast
      value.map fun v => ⟨v, names.zip captured ++ [(name, path)]⟩
    | .placeholder false =>
      match segmentOf path with
      | ([], _) => none
      | (taken, []) => value.map fun v => ⟨v, names.zip (captured ++ [taken])⟩
      | (taken, rest) => searchOnly children (captured ++ [taken]) rest
    | .placeholder true =>
      match segmentOf path with
      | ([], _) => none
      | (taken, rest) =>
        let piece := taken ++ rest.take 1
        match searchSuffix children captured piece path with
        | some outcome => outcome
        | none =>
          if rest.isEmpty then value.map fun v => ⟨v, names.zip (captured ++ [taken])⟩ else none

/-- Follows a path into the only child. -/
def searchOnly : List (Node α) → List (List UInt8) → List UInt8 → Option (Found α)
  | [child], captured, path => child.search captured path
  | _, _, _ => none

/-- Follows a path into the first child whose label ends the piece and leaves something to take;
`none` when there is no such child. -/
def searchSuffix : List (Node α) → List (List UInt8) → List UInt8 → List UInt8 →
    Option (Option (Found α))
  | [], _, _, _ => none
  | child :: children, captured, piece, path =>
    let suffix := child.label.map Symbol.byte
    let taken := piece.length - suffix.length
    if suffix.length < piece.length && piece.drop taken = suffix then
      some (child.search (captured ++ [piece.take taken]) (path.drop taken))
    else searchSuffix children captured piece path

end

/-- Follows a whole path from the root. -/
def at? (n : Node α) (path : String) : Option (Found α) := n.search [] path.toUTF8.toList

end Node

/-- The text of captured bytes. -/
def Found.textOf (bytes : List UInt8) : String := (String.fromUTF8? ⟨bytes.toArray⟩).getD ""

/-- The captures with their names, in the order of the path. -/
def Found.params {α : Type} (found : Found α) : List (String × String) :=
  found.captures.map fun c => (textOf c.1, textOf c.2)

end Waymark.Routing
