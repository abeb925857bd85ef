import Waymark.Source.Grammar.Generics
import Waymark.Source.Grammar.Statements

/-!
# Functions and their parameters

How an item is made known, the head of a function, and its body.
-/

namespace Waymark.Source.Grammar

open Ahead Waymark.Source.Parser

/-- The place in parentheses behind the keyword of a visibility. Other parentheses belong to what
follows and are left. -/
def visibilityPlace : Parser Unit := do
  let _ ← within .paren do
    if ← sees (words ["crate", "self", "super"]) then
      let _ ← anyName
      if !(← atEnd) then fail
    else
      let _ ← keyword "in"
      plainPath

/-- How an item is made known. -/
def visibility : Parser Visibility := do
  if ← sees (word "pub") then
    let start ← keyword "pub"
    match ← ahead with
    | .group .paren _ _ content :: _ =>
      if word "in" content then
        visibilityPlace
        return .within start
      match ← attempt visibilityPlace with
      | some () => return .within start
      | none => return .everywhere start
    | _ => return .everywhere start
  else return .inherited

/-- A visibility that is no keyword. -/
def isInherited : Visibility → Bool
  | .inherited => true
  | _ => false

/-- The head of a function comes next; the flag admits `safe`. -/
def seesSignature (allowSafe : Bool) (trees : List Tree) : Bool :=
  let afterWord (name : String) (trees : List Tree) : List Tree :=
    if word name trees then trees.drop 1 else trees
  let trees := afterWord "async" (afterWord "const" trees)
  let trees :=
    if allowSafe && word "safe" trees then trees.drop 1 else afterWord "unsafe" trees
  let trees :=
    if word "extern" trees then
      let trees := trees.drop 1
      if textLiteral trees then trees.drop 1 else trees
    else trees
  word "fn" trees

/-- The parameter `self`, by value or by reference; gives where the word stands. -/
def receiver (g : Grammar) : Parser Position := do
  if ← optionalMarks "&" then
    let _ ← optional Ahead.lifetime Parser.lifetime
    let _ ← optionalWord "mut"
    keyword "self"
  else
    let _ ← optionalWord "mut"
    let start ← keyword "self"
    if ← optionalMarks ":" then
      let _ ← g.ty true
    return start

/-- A parameter behind its attributes. Dots in place of its type end the parameters, and it is then
not counted; where a receiver stands its word is given. -/
def parameter (g : Grammar) : Parser (Option Parameter × Option Position) := do
  match ← attempt g.receiver with
  | some start => return (some .receiver, some start)
  | none =>
    if ← sees (allOf [identifier, second (Ahead.marks "<")]) then
      return (some (.typed (← g.ty true)), none)
    let _ ← g.pattern
    let _ ← Parser.marks ":"
    if ← optionalMarks "..." then return (none, none)
    return (some (.typed (← g.ty true)), none)

/-- The parameters of a function. Only the first can be a receiver, and dots can end them. -/
def parameters (g : Grammar) : Parser (List Parameter) :=
  loop (fun found => do
    if ← atEnd then return .inr found.reverse
    let _ ← g.outerAttributes
    if ← optionalMarks "..." then
      if !(← atEnd) then comma
      return .inr found.reverse
    match ← g.parameter with
    | (none, _) =>
      if !(← atEnd) then comma
      return .inr found.reverse
    | (some parameter, receiver) =>
      match receiver with
      | some start => if !found.isEmpty then failAt start
      | none => pure ()
      let found := parameter :: found
      if ← atEnd then return .inr found.reverse
      comma
      return .inl found) []

/-- The head of a function; the flag admits `safe`, and the result says whether that was there. -/
def signature (g : Grammar) (allowSafe : Bool) : Parser (Signature × Bool) := do
  let _ ← optionalWord "const"
  let isAsync ← optionalWord "async"
  let isUnsafe ← optionalWord "unsafe"
  let isSafe ← if allowSafe && !isUnsafe then optionalWord "safe" else pure false
  let _ ← optional (word "extern") abi
  let start ← keyword "fn"
  let (functionName, span) ← name
  let genericCount ← g.generics
  let (found, _) ← within .paren g.parameters
  let output ← g.output true
  let _ ← g.whereClause
  return (⟨isAsync, start, functionName, span, genericCount, found, output⟩, isSafe)

end Waymark.Source.Grammar
