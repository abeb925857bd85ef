import Waymark.Source.Grammar.Basic

/-!
# Types and paths

Paths with their arguments, sums of bounds, and the forms of types. In an expression a path has its
arguments behind a double colon only.
-/

namespace Waymark.Source.Grammar

open Ahead Waymark.Source.Parser

/-- Items between angle brackets, with commas between them. -/
def angled {α : Type} (item : Parser α) : Parser (List α) := do
  let _ ← Parser.marks "<"
  let (found, _) ← separated (Ahead.marks ">") comma item
  let _ ← Parser.marks ">"
  return found

/-- The lifetimes that a bound or a function type is made for. -/
def forLifetimes (g : Grammar) : Parser Unit := do
  let _ ← keyword "for"
  let _ ← angled do
    let _ ← g.outerAttributes
    Parser.lifetime

/-- An arrow and a type, if an arrow is next; the flag admits a sum of bounds. -/
def output (g : Grammar) (allowPlus : Bool) : Parser (Option Ty) := do
  if ← optionalMarks "->" then return some (← g.ty allowPlus) else return none

/-- Arguments between parentheses, and the type behind an arrow. -/
def callArguments (g : Grammar) : Parser (Option Ty) := do
  let _ ← within .paren (listed (g.ty true))
  g.output false

/-- The arguments that end in a type, or in nothing. -/
def Arguments.ofOutput (output : Option Ty) : Arguments :=
  .call ((output.map Ty.endsInBrace).getD false)

/-- A constant as an argument: a literal, a name or a block. -/
def constantArgument (g : Grammar) : Parser Unit := do
  if ← sees Ahead.literal then Parser.literal
  else if ← sees identifier then
    let _ ← name
  else if ← sees (group .brace) then
    let _ ← g.attributedBlock
  else fail

/-- The bounds of an associated type, as a constraint gives them. -/
def constraintBounds (g : Grammar) : Parser Unit :=
  loop (fun () => do
    if ← sees (anyOf [Ahead.marks ",", Ahead.marks ">"]) then return .inr ()
    let _ ← g.bound false true
    if ← optionalMarks "+" then return .inl () else return .inr ()) ()

/-- The type is a single name that can stand before a constraint. -/
def isConstrainable : Ty → Bool
  | .path false false [(_, .none)] | .path false false [(_, .generic _)] => true
  | _ => false

/-- An argument between angle brackets; its type, when it is one. -/
def genericArgument (g : Grammar) : Parser (Option Ty) := do
  if ← sees (allOf [Ahead.lifetime, isNot (second (Ahead.marks "+"))]) then
    Parser.lifetime
    return none
  if ← sees (anyOf [Ahead.literal, group .brace]) then
    g.constantArgument
    return none
  let argument ← g.ty true
  if isConstrainable argument then
    if ← optionalMarks "=" then
      if ← sees (anyOf [Ahead.literal, group .brace]) then g.constantArgument
      else let _ ← g.ty true
      return none
    if ← optionalMarks ":" then
      g.constraintBounds
      return none
  return some argument

/-- One name of a path with its arguments. -/
def pathSegment (g : Grammar) (inExpression : Bool) : Parser (String × Arguments) := do
  if ← sees (words ["super", "self", "crate", "try"]) then
    return ((← anyName).1, .none)
  let (segment, _) ← if ← sees (word "Self") then anyName else name
  let isGeneric : Test := fun trees =>
    !inExpression && only "<" ["<=", "<<="] trees
      || Ahead.marks "::" trees && third (Ahead.marks "<") trees
  if ← sees isGeneric then
    let _ ← optionalMarks "::"
    return (segment, .generic (← angled g.genericArgument))
  return (segment, .none)

/-- More names of a path, each behind a double colon. -/
def pathRest (g : Grammar) (inExpression : Bool) : Parser (List (String × Arguments)) :=
  many (allOf [Ahead.marks "::", isNot (third (group .paren))]) do
    let _ ← Parser.marks "::"
    g.pathSegment inExpression

/-- A path with its arguments. -/
def path (g : Grammar) (inExpression : Bool) : Parser NamePath := do
  let fromRoot ← optionalMarks "::"
  let first ← g.pathSegment inExpression
  return ⟨fromRoot, first :: (← g.pathRest inExpression)⟩

/-- A path that may begin with a type between angle brackets; the flag says that it does. -/
def qualifiedPath (g : Grammar) (inExpression : Bool) : Parser (Bool × NamePath) := do
  if ← sees (Ahead.marks "<") then
    let _ ← Parser.marks "<"
    let _ ← g.ty true
    if ← optionalWord "as" then
      let _ ← g.path false
    let _ ← Parser.marks ">"
    let _ ← Parser.marks "::"
    let first ← g.pathSegment inExpression
    let more ← many (Ahead.marks "::") do
      let _ ← Parser.marks "::"
      g.pathSegment inExpression
    return (true, ⟨false, first :: more⟩)
  return (false, ← g.path inExpression)

/-- Arguments between parentheses come next, perhaps behind a double colon. -/
def seesCall : Test :=
  anyOf [group .paren, allOf [Ahead.marks "::", third (group .paren)]]

/-- The trait that a bound names. -/
def interfaceBound (g : Grammar) (allowConst : Bool) : Parser Bound := do
  let forGiven ← optional (word "for") g.forLifetimes
  let mark ← place
  if ← sees (group .bracket) then
    let _ ← within .bracket (keyword "const")
    if !allowConst then failAt mark
  else if ← optionalWord "const" then
    if !allowConst then failAt mark
  if ← optionalMarks "?" then
    if forGiven.isNone then
      let _ ← optional (word "for") g.forLifetimes
  let p ← g.path false
  if (lastArguments p.segments).isEmpty then
    if ← sees seesCall then
      let _ ← optionalMarks "::"
      return .interface (Arguments.ofOutput (← g.callArguments)).endsInBrace
  return .interface (lastArguments p.segments).endsInBrace

/-- One name that an opaque type may use. -/
def capturedName : Parser Unit := do
  if ← sees Ahead.lifetime then Parser.lifetime
  else if ← sees (anyOf [identifier, word "Self"]) then
    let _ ← anyName
  else fail

/-- A part of a sum of bounds. -/
def boundRule (g : Grammar) (allowCaptures allowConst : Bool) : Parser Bound := do
  if ← sees Ahead.lifetime then
    Parser.lifetime
    return .lifetime
  if ← sees (word "use") then
    let start ← keyword "use"
    let _ ← angled capturedName
    if allowCaptures then return .captures else failAt start
  if ← sees (group .paren) then
    return (← within .paren (g.interfaceBound allowConst)).1
  g.interfaceBound allowConst

/-- What can go on a sum of bounds. -/
def seesBound : Test :=
  anyOf [anyWord, Ahead.marks "::", Ahead.marks "?", Ahead.lifetime, group .paren]

/-- A sum of bounds; the flags admit a plus, captured names and constant traits. Besides the bounds
it gives whether a plus is last. -/
def sum (g : Grammar) (allowPlus allowCaptures allowConst : Bool) :
    Parser (List Bound × Bool) :=
  loop (fun found => do
    let found := found ++ [← g.bound allowCaptures allowConst]
    if !allowPlus then return .inr (found, false)
    if ← optionalMarks "+" then
      if ← sees (fun trees =>
          seesBound trees || allowConst && (group .bracket trees || word "const" trees)) then
        return .inl found
      return .inr (found, true)
    return .inr (found, false)) []

/-- The last of some bounds closes with a brace. -/
def lastEndsInBrace (bounds : List Bound) : Bool :=
  (bounds.getLast?.map Bound.endsInBrace).getD false

/-- The bounds of a trait object, which have to name a trait; a failure is reported at `start`. -/
def objectBounds (g : Grammar) (start : Position) (allowPlus : Bool) :
    Parser (List Bound × Bool) := do
  let (bounds, trailing) ← g.sum allowPlus false false
  if bounds.any Bound.isInterface then return (bounds, trailing) else failAt start

/-- A trait object without a keyword. -/
def bareObject (g : Grammar) : Parser Ty := do
  let (bounds, trailing) ← g.objectBounds (← place) true
  return .bounds bounds.length trailing (lastEndsInBrace bounds)

/-- Bounds behind the first of a sum, each with its plus before it. -/
def moreBounds (g : Grammar) : Parser (List Bound) :=
  many (Ahead.marks "+") do
    plus
    g.bound true true

/-- A sum of bounds whose first part is read, as a type. -/
def sumFrom (g : Grammar) (first : Bound) : Parser Ty := do
  let bounds := first :: (← g.moreBounds)
  return .bounds bounds.length false (lastEndsInBrace bounds)

/-- What stands between the parentheses of a type. -/
inductive ParenContent where
  | finished (type : Ty)
  /-- A relaxed bound, which more bounds can follow. -/
  | relaxed (bound : Bound)
  | single (type : Ty)

/-- Reads what stands between the parentheses of a type. -/
def parenContent (g : Grammar) : Parser ParenContent := do
  if ← atEnd then return .finished (.tuple 0)
  if ← sees Ahead.lifetime then return .finished (.paren (← g.bareObject))
  if ← sees (Ahead.marks "?") then return .relaxed (← g.interfaceBound false)
  let first ← g.ty true
  if ← sees (Ahead.marks ",") then
    comma
    let more ← listed (g.ty true)
    return .finished (.tuple (more.length + 1))
  return .single first

/-- A type between parentheses as the first part of a sum of bounds. -/
def asBound : Ty → Option Bound
  | .path false _ segments => some (.interface (lastArguments segments).endsInBrace)
  | .bounds 1 false braced => some (.interface braced)
  | _ => none

/-- A tuple, a type between parentheses, or a sum of bounds that begins with one. -/
def parenType (g : Grammar) (allowPlus : Bool) : Parser Ty := do
  let (content, _) ← within .paren g.parenContent
  match content with
  | .finished type => return type
  | .relaxed bound => g.sumFrom bound
  | .single type =>
    if allowPlus && (← sees (Ahead.marks "+")) then
      match asBound type with
      | some bound => g.sumFrom bound
      | none => return .paren type
    else return .paren type

/-- The name and the colon of a parameter of a function type. -/
def seesParameterName : Test :=
  allOf [anyOf [identifier, word "_"], second (Ahead.marks ":")]

/-- A parameter of a function type; the first may be `self`. -/
def functionTypeParameter (g : Grammar) (allowSelf : Bool) : Parser Unit := do
  let _ ← g.outerAttributes
  let mutableSelf ← sees fun t => allowSelf && allOf [word "mut", second (word "self")] t
  if mutableSelf then
    let _ ← keyword "mut"
  let isSelf ← sees fun t => allowSelf && word "self" t
  let isNamed ← sees fun t =>
    (isSelf || anyOf [identifier, word "_"] t) && second (only ":" ["::"]) t
  if isNamed then
    let _ ← anyName
    let _ ← Parser.marks ":"
  let namesSelf := isNamed && isSelf
  if ← sees fun t => allowSelf && !namesSelf && allOf [word "mut", second (word "self")] t then
    let _ ← keyword "mut"
    let _ ← keyword "self"
  else if mutableSelf && !isNamed then
    let _ ← keyword "self"
  else
    let _ ← g.ty true

/-- The parameters of a function type, which may end in dots. -/
def functionTypeParameters (g : Grammar) : Parser Unit :=
  loop (fun isFirst => do
    if ← atEnd then return .inr ()
    let _ ← g.outerAttributes
    if ← sees (anyOf [Ahead.marks "...", allOf [seesParameterName, third (Ahead.marks "...")]]) then
      if ← sees anyWord then
        let _ ← anyName
        let _ ← Parser.marks ":"
      let _ ← Parser.marks "..."
      let _ ← optionalMarks ","
      return .inr ()
    g.functionTypeParameter isFirst
    if ← atEnd then return .inr ()
    comma
    return .inl false) true

/-- The keyword of a foreign interface, and its name. -/
def abi : Parser Unit := do
  let _ ← keyword "extern"
  if ← sees textLiteral then skipTrees 1

/-- The type of a function. -/
def functionType (g : Grammar) : Parser Ty := do
  let _ ← optional (word "for") g.forLifetimes
  let _ ← optionalWord "unsafe"
  let _ ← optional (word "extern") abi
  let _ ← keyword "fn"
  let _ ← within .paren g.functionTypeParameters
  return .other (((← g.output false).map Ty.endsInBrace).getD false)

/-- A type that begins with a path; `forGiven` says that lifetimes stand before it. Arguments
between parentheses belong to bounds only. -/
def pathType (g : Grammar) (allowPlus forGiven : Bool) : Parser Ty := do
  let (isQualified, p) ← g.qualifiedPath false
  if isQualified then return .path true p.fromRoot p.segments
  if p.isPlain && (← sees (only "!" ["!="])) then
    return .other (← macroRest)
  if forGiven || allowPlus && (← sees (Ahead.marks "+")) then
    let first : Bound := .interface (lastArguments p.segments).endsInBrace
    if !allowPlus then return .bounds 1 false first.endsInBrace
    loop (fun bounds => do
      if ← optionalMarks "+" then
        if ← sees seesBound then return .inl (bounds ++ [← g.bound true true])
        return .inr (.bounds bounds.length true (lastEndsInBrace bounds))
      return .inr (.bounds bounds.length false (lastEndsInBrace bounds))) [first]
  else return .path false p.fromRoot p.segments

/-- A slice or an array. -/
def sliceType (g : Grammar) : Parser Ty := do
  let _ ← within .bracket do
    let _ ← g.ty true
    if ← optionalMarks ";" then
      let _ ← g.expression true
  return .other false

/-- What begins a path in a type. -/
def seesPath : Test :=
  anyOf [identifier, words ["super", "self", "Self", "crate"], Ahead.marks "::", Ahead.marks "<"]

/-- A type; the flag admits a sum of bounds. -/
def typeRule (g : Grammar) (allowPlus : Bool) : Parser Ty := do
  let forGiven := (← optional (word "for") g.forLifetimes).isSome
  if forGiven && !(← sees (anyOf [identifier,
      words ["fn", "unsafe", "extern", "super", "self", "Self", "crate"]])) then fail
  else if ← sees (group .paren) then g.parenType allowPlus
  else if ← sees (words ["fn", "unsafe", "extern"]) then g.functionType
  else if ← sees seesPath then g.pathType allowPlus forGiven
  else if ← sees (word "dyn") then
    let start ← keyword "dyn"
    let _ ← optionalMarks "*"
    let (bounds, _) ← g.objectBounds start allowPlus
    return .other (lastEndsInBrace bounds)
  else if ← sees (group .bracket) then g.sliceType
  else if ← optionalMarks "*" then
    if ← sees (words ["const", "mut"]) then
      let _ ← anyName
      return .other (← g.ty false).endsInBrace
    else fail
  else if ← optionalMarks "&" then
    let _ ← optional Ahead.lifetime Parser.lifetime
    let isMutable ← optionalWord "mut"
    return .reference isMutable (← g.ty false)
  else if ← sees (only "!" ["="]) then
    let _ ← Parser.marks "!"
    return .other false
  else if ← sees (word "impl") then
    let start ← keyword "impl"
    let (bounds, _) ← g.sum allowPlus true true
    if bounds.any Bound.isInterface then return .other (lastEndsInBrace bounds) else failAt start
  else if ← optionalWord "_" then return .other false
  else if ← sees Ahead.lifetime then g.bareObject
  else fail

end Waymark.Source.Grammar
