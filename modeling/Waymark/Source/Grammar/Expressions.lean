import Waymark.Source.Grammar.Operators

/-!
# Expressions

Operands with the marks before them and the calls, fields and indices behind them, and the forms
that begin with a keyword. Where a brace would open a block, a record with its fields in braces is
not admitted.
-/

namespace Waymark.Source.Grammar

open Ahead Waymark.Source.Parser

/-- A form that closes with a block and is a statement by itself. -/
def closedByBlock : Expr := ⟨.block, true⟩

/-- An expression that closes with something other than a brace. -/
def plainExpr : Expr := ⟨.other, false⟩

/-- What can begin an expression behind a keyword that may stand alone. -/
def seesExpression : Test :=
  anyOf [anyWord, group .paren, group .bracket, group .brace, Ahead.literal, only "!" ["!="],
    only "-" ["-=", "->"], only "*" ["*="], only "|" ["|="], only "&" ["&="], Ahead.marks "..",
    only "<" ["<=", "<<="], Ahead.marks "::", Ahead.lifetime, Ahead.marks "#"]

/-- The expression behind a keyword that may stand alone. -/
def optionalExpression (g : Grammar) : Parser Expr := do
  match ← optional seesExpression (g.expression true) with
  | some e => return ⟨.other, e.endsInBrace⟩
  | none => return plainExpr

/-- Expressions between delimiters, with commas between them. -/
def argumentList (g : Grammar) (d : Delimiter) : Parser Unit := do
  let _ ← within d (listed (g.expression true))

/-- The name or number of a member, and the arguments of a call. -/
def memberName (g : Grammar) : Parser Unit := do
  if ← optionalWord "await" then return
  let isNamed ← member
  if isNamed && (← sees (Ahead.marks "::")) then
    let _ ← Parser.marks "::"
    let _ ← angled g.genericArgument
    g.argumentList .paren
  else if isNamed && (← sees (group .paren)) then g.argumentList .paren

/-- A member behind its point: a field, a call of a method, or a number that stands for fields. -/
def memberAccess (g : Grammar) : Parser Unit := do
  let _ ← Parser.marks "."
  match ← ahead with
  | .literal (.fraction indices endsInPoint) _ :: _ =>
    if !indices then fail
    skipTrees 1
    if endsInPoint then g.memberName
  | _ => g.memberName

/-- What follows an operand without an operator: calls, members, indices and question marks. -/
def trailers (g : Grammar) (start : Expr) : Parser Expr :=
  loop (fun (e : Expr) => do
    if ← sees (group .paren) then
      g.argumentList .paren
      return .inl plainExpr
    if e.kind ≠ .range && (← sees (only "." [".."])) then
      g.memberAccess
      return .inl plainExpr
    if ← sees (group .bracket) then
      let _ ← within .bracket (g.expression true)
      return .inl plainExpr
    if e.kind ≠ .range && (← sees (Ahead.marks "?")) then
      let _ ← Parser.marks "?"
      return .inl plainExpr
    return .inr e) start

/-- A field of a record. -/
def recordField (g : Grammar) : Parser Unit := do
  let _ ← g.outerAttributes
  let isNamed ← member
  if !isNamed || (← sees (Ahead.marks ":")) then
    let _ ← Parser.marks ":"
    let _ ← g.expression true

/-- The fields of a record, which two dots and a base may end. -/
def recordFields (g : Grammar) : Parser Unit :=
  loop (fun () => do
    if ← atEnd then return .inr ()
    if ← optionalMarks ".." then
      if !(← atEnd) then
        let _ ← g.expression true
      return .inr ()
    g.recordField
    if ← atEnd then return .inr ()
    comma
    return .inl ()) ()

/-- A path, a macro call, or a record. -/
def pathExpression (g : Grammar) (allowRecord : Bool) : Parser Expr := do
  let (isQualified, p) ← g.qualifiedPath true
  if !isQualified && p.isPlain && (← sees (only "!" ["!="])) then
    let braced ← macroRest
    return ⟨.macroCall braced, braced⟩
  if allowRecord && (← sees (group .brace)) then
    let _ ← within .brace g.recordFields
    return ⟨.other, true⟩
  return plainExpr

/-- The elements of an array, or one with a number of times. -/
def arrayContent (g : Grammar) : Parser Unit := do
  if ← atEnd then return
  let _ ← g.expression true
  if ← atEnd then return
  if ← optionalMarks "," then
    let _ ← listed (g.expression true)
  else
    let _ ← Parser.marks ";"
    let _ ← g.expression true

/-- The content of a tuple or of a parenthesis. -/
def tupleContent (g : Grammar) : Parser Unit := do
  let _ ← listed (g.expression true)

/-- A parameter of a closure. -/
def closureParameter (g : Grammar) : Parser Unit := do
  let _ ← g.outerAttributes
  let _ ← g.pattern
  if ← optionalMarks ":" then
    let _ ← g.ty true

/-- A closure. -/
def closure (g : Grammar) (allowRecord : Bool) : Parser Expr := do
  let _ ← optional (word "for") g.forLifetimes
  let _ ← optionalWord "const"
  let _ ← optionalWord "static"
  let _ ← optionalWord "async"
  let _ ← optionalWord "move"
  let _ ← Parser.marks "|"
  let _ ← separated (Ahead.marks "|") comma g.closureParameter
  let _ ← Parser.marks "|"
  if ← optionalMarks "->" then
    let _ ← g.ty true
    let _ ← g.block
    return ⟨.other, true⟩
  return ⟨.other, (← g.expression allowRecord).endsInBrace⟩

/-- A condition with its branches. -/
def condition (g : Grammar) : Parser Expr :=
  loop (fun () => do
    let _ ← keyword "if"
    let _ ← g.expression false
    let _ ← g.block
    if ← optionalWord "else" then
      if ← sees (word "if") then return .inl ()
      if ← sees (group .brace) then
        let _ ← g.block
        return .inr closedByBlock
      fail
    return .inr closedByBlock) ()

/-- An arm of a match. -/
def arm (g : Grammar) : Parser Unit := do
  let _ ← g.outerAttributes
  let _ ← g.alternatives
  if ← optionalWord "if" then
    let _ ← g.expression true
  let _ ← Parser.marks "=>"
  let body ← g.statementExpression
  if body.kind = .block || (← atEnd) then
    let _ ← optionalMarks ","
  else comma

/-- A match with its arms. -/
def matching (g : Grammar) : Parser Expr := do
  let _ ← keyword "match"
  let _ ← g.expression false
  g.bracedItems g.arm
  return closedByBlock

/-- A loop, or a block, which a label may stand before. -/
def loopOrBlock (g : Grammar) : Parser Expr := do
  if ← optionalWord "while" then
    let _ ← g.expression false
    let _ ← g.attributedBlock
    return closedByBlock
  if ← optionalWord "for" then
    let _ ← g.alternatives
    let _ ← keyword "in"
    let _ ← g.expression false
    let _ ← g.attributedBlock
    return closedByBlock
  if ← optionalWord "loop" then
    let _ ← g.attributedBlock
    return closedByBlock
  if ← sees (group .brace) then
    let _ ← g.attributedBlock
    return closedByBlock
  fail

/-- A label and what it names. -/
def labelled (g : Grammar) : Parser Expr := do
  Parser.lifetime
  let _ ← Parser.marks ":"
  g.loopOrBlock

/-- The end of a loop, with a label and a value. -/
def breaking (g : Grammar) (allowRecord : Bool) : Parser Expr := do
  let _ ← keyword "break"
  let start ← place
  if ← sees (allOf [Ahead.lifetime, second (Ahead.marks ":")]) then
    let _ ← g.expression true
    failAt start
  let _ ← optional Ahead.lifetime Parser.lifetime
  if ← sees (fun t => seesExpression t && (allowRecord || !group .brace t)) then
    return ⟨.other, (← g.expression true).endsInBrace⟩
  return plainExpr

/-- A test of a value against a pattern. -/
def letting (g : Grammar) (allowRecord : Bool) : Parser Expr := do
  let _ ← keyword "let"
  let _ ← g.alternatives
  let _ ← Parser.marks "="
  let left ← g.operand allowRecord
  return ⟨.other, (← g.operators allowRecord .compare left).endsInBrace⟩

/-- A closure comes next. -/
def seesClosure : Test :=
  anyOf [Ahead.marks "|", word "move",
    allOf [word "for", second (Ahead.marks "<"), third (anyOf [Ahead.lifetime, Ahead.marks ">"])],
    allOf [word "const", isNot (second (group .brace))], word "static",
    allOf [word "async", second (anyOf [Ahead.marks "|", word "move"])]]

/-- An asynchronous block comes next. -/
def seesAsyncBlock : Test :=
  allOf [word "async",
    anyOf [second (group .brace), allOf [second (word "move"), third (group .brace)]]]

/-- A path comes next. -/
def seesPathExpression : Test :=
  anyOf [identifier, Ahead.marks "::", Ahead.marks "<", words ["self", "Self", "super", "crate"],
    allOf [word "try", second (anyOf [Ahead.marks "!", Ahead.marks "::"])]]

/-- An operand without what stands before and behind it. -/
def atom (g : Grammar) (allowRecord : Bool) : Parser Expr := do
  if ← sees Ahead.literal then
    Parser.literal
    return plainExpr
  if ← sees seesAsyncBlock then
    let _ ← keyword "async"
    let _ ← optionalWord "move"
    let _ ← g.block
    return ⟨.other, true⟩
  if ← sees (allOf [word "try", second (group .brace)]) then
    let _ ← keyword "try"
    let _ ← g.block
    return closedByBlock
  if ← sees seesClosure then g.closure allowRecord
  else if ← sees (allOf [word "builtin", second (Ahead.marks "#")]) then
    let _ ← keyword "builtin"
    let _ ← Parser.marks "#"
    let _ ← name
    opaqueGroup .paren
    return plainExpr
  else if ← sees seesPathExpression then g.pathExpression allowRecord
  else if ← sees (group .paren) then
    let _ ← within .paren g.tupleContent
    return plainExpr
  else if ← sees (word "break") then g.breaking allowRecord
  else if ← optionalWord "continue" then
    let _ ← optional Ahead.lifetime Parser.lifetime
    return plainExpr
  else if ← optionalWord "return" then g.optionalExpression
  else if ← optionalWord "become" then
    return ⟨.other, (← g.expression true).endsInBrace⟩
  else if ← sees (group .bracket) then
    let _ ← within .bracket g.arrayContent
    return plainExpr
  else if ← sees (word "let") then g.letting allowRecord
  else if ← sees (word "if") then g.condition
  else if ← sees (words ["while", "for", "loop"]) then g.loopOrBlock
  else if ← sees (word "match") then g.matching
  else if ← optionalWord "yield" then g.optionalExpression
  else if ← sees (words ["unsafe", "const"]) then
    let _ ← anyName
    let _ ← g.attributedBlock
    return closedByBlock
  else if ← sees (group .brace) then g.loopOrBlock
  else if ← sees (Ahead.marks "..") then g.rangeExpression allowRecord
  else if ← optionalWord "_" then return plainExpr
  else if ← sees Ahead.lifetime then g.labelled
  else fail

/-- The operand behind attributes, with its calls, members and indices. -/
def trailed (g : Grammar) (allowRecord hasAttributes : Bool) : Parser Expr := do
  let start ← place
  let e ← g.trailers (← g.atom allowRecord)
  if hasAttributes && e.kind = .range then failAt start else return e

/-- An operand with what stands before and behind it. -/
def operandRule (g : Grammar) (allowRecord : Bool) : Parser Expr := do
  let attributes ← g.outerAttributes
  if ← sees (Ahead.marks "&") then
    let _ ← Parser.marks "&"
    if ← sees (allOf [word "raw", second (words ["mut", "const"])]) then
      let _ ← keyword "raw"
      let _ ← anyName
    else
      let _ ← optionalWord "mut"
    return ⟨.other, (← g.operand allowRecord).endsInBrace⟩
  if ← sees (anyOf [Ahead.marks "*", Ahead.marks "!", Ahead.marks "-"]) then
    skipTrees 1
    return ⟨.other, (← g.operand allowRecord).endsInBrace⟩
  g.trailed allowRecord (!attributes.isEmpty)

/-- An expression. -/
def expressionRule (g : Grammar) (allowRecord : Bool) : Parser Expr := do
  let left ← g.operand allowRecord
  g.operators allowRecord .jump left

/-- A form that closes with a block, or an operand. -/
def statementStart (g : Grammar) : Parser Expr := do
  if ← sees (word "if") then g.condition
  else if ← sees (words ["while", "loop"]) then g.loopOrBlock
  else if ← sees (allOf [word "for", isNot seesClosure]) then g.loopOrBlock
  else if ← sees (word "match") then g.matching
  else if ← sees (anyOf [allOf [words ["try", "const"], second (group .brace)], word "unsafe"]) then
    g.atom true
  else if ← sees (group .brace) then g.loopOrBlock
  else if ← sees Ahead.lifetime then g.labelled
  else g.operand true

/-- An expression as a statement or the body of an arm. One that closes with a block ends there,
unless a member or a question mark follows. -/
def statementExpressionRule (g : Grammar) : Parser Expr := do
  let _ ← g.outerAttributes
  let e ← g.statementStart
  if e.kind ≠ .block then g.operators true .jump e
  else if ← sees (anyOf [only "." [".."], Ahead.marks "?"]) then
    g.operators true .jump (← g.trailers e)
  else return e

end Waymark.Source.Grammar
