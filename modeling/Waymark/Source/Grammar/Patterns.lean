import Waymark.Source.Grammar.Types

/-!
# Patterns

A pattern without alternatives, and patterns joined by bars. Inside brackets a range needs both
ends.
-/

namespace Waymark.Source.Grammar

open Ahead Waymark.Source.Parser

/-- The dots of a range; the second flag admits three dots, which stand for a closed range. Gives
whether the range is closed, and where the dots stand. -/
def rangeDots (admitsThree : Bool) : Parser (Bool × Position) := do
  let start ← place
  if ← sees (Ahead.marks "..=") then
    let _ ← Parser.marks "..="
    return (true, start)
  if ← sees (Ahead.marks "...") then
    if admitsThree then
      let _ ← Parser.marks "..."
      return (true, start)
    else fail
  let _ ← Parser.marks ".."
  return (false, start)

/-- An alternative comes next, and no other operator that begins with a bar. -/
def seesAlternative : Test := only "|" ["||", "|="]

/-- Patterns joined by bars, one of which may stand before the first. -/
def alternatives (g : Grammar) : Parser Pattern := do
  let leading ← optionalMarks "|"
  let first ← g.pattern
  let more ← many seesAlternative do
    let _ ← Parser.marks "|"
    g.pattern
  return if leading || !more.isEmpty then .other else first

/-- What ends a pattern, so that the range before it has no end. -/
def seesPatternEnd : Test :=
  anyOf [nothing, Ahead.marks "|", Ahead.marks "=", only ":" ["::"], Ahead.marks ",",
    Ahead.marks ";", word "if"]

/-- The end of a range, if there is one. -/
def rangeBound (g : Grammar) : Parser Bool := do
  if ← sees seesPatternEnd then return false
  if ← sees Ahead.literal then
    Parser.literal
    return true
  if ← sees (anyOf [identifier, Ahead.marks "::", Ahead.marks "<",
      words ["self", "Self", "super", "crate"]]) then
    let _ ← g.outerAttributes
    let _ ← g.qualifiedPath true
    return true
  if ← optionalWord "const" then
    let _ ← g.attributedBlock
    return true
  fail

/-- A range whose first end is read. -/
def rangeFrom (g : Grammar) : Parser Pattern := do
  let (closed, dots) ← rangeDots true
  if ← g.rangeBound then return .other
  if closed then fail else return .openRange dots

/-- A range without a first end, or two dots alone. -/
def rangeUpTo (g : Grammar) : Parser Pattern := do
  let (closed, dots) ← rangeDots false
  if ← g.rangeBound then return .openRange dots
  if closed then fail else return .rest

/-- A literal, a constant, or a range that begins with one. -/
def literalPattern (g : Grammar) : Parser Pattern := do
  if ← g.rangeBound then
    if ← sees (Ahead.marks "..") then g.rangeFrom else return .other
  else fail

/-- The name of a field, or its number; says whether it is a name. -/
def member : Parser Bool :=
  satisfying fun
    | .word n _ => if keywords.contains n then none else some true
    | .literal (.whole (some _)) _ => some false
    | _ => none

/-- A field of a record pattern. -/
def fieldPattern (g : Grammar) : Parser Unit := do
  let boxed ← optionalWord "box"
  let byRef ← optionalWord "ref"
  let mutable ← optionalWord "mut"
  let isPlain := !boxed && !byRef && !mutable
  let isNamed ← if isPlain then member else do
    let _ ← name
    pure true
  if (isPlain && (← sees (Ahead.marks ":"))) || !isNamed then
    let _ ← Parser.marks ":"
    let _ ← g.alternatives

/-- The fields of a record pattern, which two dots may end. -/
def fieldPatterns (g : Grammar) : Parser Unit :=
  loop (fun () => do
    if ← atEnd then return .inr ()
    let _ ← g.outerAttributes
    if ← optionalMarks ".." then return .inr ()
    g.fieldPattern
    if ← atEnd then return .inr ()
    comma
    return .inl ()) ()

/-- A pattern that begins with a path. -/
def pathPattern (g : Grammar) : Parser Pattern := do
  let (isQualified, p) ← g.qualifiedPath true
  if !isQualified && p.isPlain && (← sees (only "!" ["!="])) then
    let _ ← macroRest
    return .other
  if ← sees (group .brace) then
    let _ ← within .brace g.fieldPatterns
    return .other
  if ← sees (group .paren) then
    let _ ← within .paren (listed g.alternatives)
    return .other
  if ← sees (Ahead.marks "..") then g.rangeFrom else return .other

/-- A name that is bound, perhaps to what a further pattern describes. -/
def namePattern (g : Grammar) : Parser Pattern := do
  let _ ← optionalWord "ref"
  let _ ← optionalWord "mut"
  if ← sees (word "self") then
    let _ ← anyName
  else
    let _ ← name
  if ← optionalMarks "@" then
    let _ ← g.pattern
  return .other

/-- An element of a slice pattern; a range has to have both ends there. -/
def sliceElement (g : Grammar) : Parser Unit := do
  match ← g.alternatives with
  | .openRange dots => failAt dots
  | .rest | .other => pure ()

/-- A pattern without alternatives. -/
def patternRule (g : Grammar) : Parser Pattern := do
  let namesPath : Test := allOf [identifier, second (anyOf [Ahead.marks "::", Ahead.marks "!",
    group .brace, group .paren, Ahead.marks ".."])]
  if ← sees (anyOf [namesPath, allOf [word "self", second (Ahead.marks "::")], Ahead.marks "::",
      Ahead.marks "<", words ["Self", "super", "crate"]]) then g.pathPattern
  else if ← optionalWord "_" then return .other
  else if ← optionalWord "box" then
    let _ ← g.pattern
    return .other
  else if ← sees (anyOf [Ahead.marks "-", Ahead.literal, word "const"]) then g.literalPattern
  else if ← sees (anyOf [words ["ref", "mut", "self"], identifier]) then g.namePattern
  else if ← optionalMarks "&" then
    let _ ← optionalWord "mut"
    let _ ← g.pattern
    return .other
  else if ← sees (group .paren) then
    let _ ← within .paren (listed g.alternatives)
    return .other
  else if ← sees (group .bracket) then
    let _ ← within .bracket (listed g.sliceElement)
    return .other
  else if ← sees (only ".." ["..."]) then g.rangeUpTo
  else fail

end Waymark.Source.Grammar
