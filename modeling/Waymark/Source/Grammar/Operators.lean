import Waymark.Source.Grammar.Patterns

/-!
# Operators

How an operand is joined with what follows it: binary operators by how tightly they bind,
assignment, ranges and casts. A range is no left side of an operator, and comparisons are not
chained.
-/

namespace Waymark.Source.Grammar

open Ahead Waymark.Source.Parser

/-- The operators between two operands, so that one that begins another stands behind it. -/
def binaryOperators : List (String × Precedence) :=
  [("+=", .assign), ("-=", .assign), ("*=", .assign), ("/=", .assign), ("%=", .assign),
    ("^=", .assign), ("&=", .assign), ("|=", .assign), ("<<=", .assign), (">>=", .assign),
    ("&&", .conjunction), ("||", .disjunction), ("<<", .shift), (">>", .shift), ("==", .compare),
    ("<=", .compare), ("!=", .compare), (">=", .compare), ("+", .sum), ("-", .sum),
    ("*", .product), ("/", .product), ("%", .product), ("^", .bitXor), ("&", .bitAnd),
    ("|", .bitOr), ("<", .compare), (">", .compare)]

/-- The operator between two operands that comes next. -/
def nextOperator (trees : List Tree) : Option (String × Precedence) :=
  binaryOperators.find? fun operator => Ahead.marks operator.1 trees

/-- An assignment comes next. -/
def seesAssignment : Test := only "=" ["=>"]

/-- How tightly what comes next binds; the loosest when no operator does. -/
def nextPrecedence (trees : List Tree) : Precedence :=
  match nextOperator trees with
  | some (_, precedence) => precedence
  | none =>
    if seesAssignment trees then .assign
    else if Ahead.marks ".." trees then .range
    else if word "as" trees then .cast
    else .jump

/-- A range without an end stops here. -/
def seesRangeEnd (allowRecord : Bool) : Test := fun trees =>
  anyOf [nothing, Ahead.marks ",", Ahead.marks ";", only "." [".."], Ahead.marks "?",
    Ahead.marks "=>", Ahead.marks "=", Ahead.marks "+", Ahead.marks "/", Ahead.marks "%",
    Ahead.marks "^", Ahead.marks ">", Ahead.marks "<=", Ahead.marks "!=", Ahead.marks "-=",
    Ahead.marks "*=", Ahead.marks "&=", Ahead.marks "|=", Ahead.marks "<<=", word "as"] trees
    || !allowRecord && group .brace trees

/-- The dots of a range and its end; an open range may have none. -/
def rangeExpression (g : Grammar) (allowRecord : Bool) : Parser Expr := do
  let (closed, _) ← rangeDots false
  if !closed && (← sees (seesRangeEnd allowRecord)) then return ⟨.range, false⟩
  return ⟨.range, (← g.rightSide allowRecord .range).endsInBrace⟩

/-- Nothing that binds to an operand follows a cast. -/
def castEnd : Parser Unit := do
  if ← sees (anyOf [only "." [".."], Ahead.marks "?", group .bracket, group .paren]) then fail

/-- The right side of an operator: an operand with all that binds more tightly. -/
def rightSideRule (g : Grammar) (allowRecord : Bool) (precedence : Precedence) : Parser Expr := do
  let start ← g.operand allowRecord
  loop (fun right => do
    let next := nextPrecedence (← ahead)
    if precedence.rank < next.rank || next = precedence && precedence = .assign then
      let before := (← ahead).length
      let right ← g.operators allowRecord next right
      if (← ahead).length < before then return .inl right else return .inr right
    else return .inr right) start

/-- The operators behind an operand that bind at least so tightly. -/
def operatorsRule (g : Grammar) (allowRecord : Bool) (base : Precedence) (left : Expr) :
    Parser Expr :=
  loop (fun (left : Expr) => do
    if left.kind = .range then return .inr left
    match nextOperator (← ahead) with
    | some (operator, precedence) =>
      if precedence.rank < base.rank then return .inr left
      if precedence = .compare && left.kind = .comparison then fail
      let _ ← Parser.marks operator
      let right ← g.rightSide allowRecord precedence
      return .inl ⟨if precedence = .compare then .comparison else .other, right.endsInBrace⟩
    | none =>
      if base.rank ≤ Precedence.assign.rank && (← sees seesAssignment) then
        let _ ← Parser.marks "="
        return .inl ⟨.other, (← g.rightSide allowRecord .assign).endsInBrace⟩
      if base.rank ≤ Precedence.range.rank && (← sees (Ahead.marks "..")) then
        return .inl (← g.rangeExpression allowRecord)
      if ← sees (word "as") then
        let _ ← keyword "as"
        let target ← g.ty false
        castEnd
        return .inl ⟨.other, target.endsInBrace⟩
      return .inr left) left

end Waymark.Source.Grammar
