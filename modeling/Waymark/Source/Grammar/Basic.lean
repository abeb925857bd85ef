import Waymark.Source.Grammar.Ahead
import Waymark.Source.Syntax

/-!
# Parsers of single tokens

Words, marks, names and lifetimes, and the record through which the rules of the grammar reach each
other: a rule that needs another one below a token takes it from a `Grammar`, so that the rules of
one depth are built from those of the next.
-/

namespace Waymark.Source

/-- How tightly an operator binds, the loosest first. -/
inductive Precedence where
  | jump
  | assign
  | range
  | disjunction
  | conjunction
  | compare
  | bitOr
  | bitXor
  | bitAnd
  | shift
  | sum
  | product
  | cast
deriving DecidableEq

/-- The place of a precedence in the order. -/
def Precedence.rank : Precedence → Nat
  | jump => 0
  | assign => 1
  | range => 2
  | disjunction => 3
  | conjunction => 4
  | compare => 5
  | bitOr => 6
  | bitXor => 7
  | bitAnd => 8
  | shift => 9
  | sum => 10
  | product => 11
  | cast => 12

/-- The rules that other rules build on. -/
structure Grammar where
  /-- A type; the flag admits a sum of bounds. -/
  ty : Bool → Parser Ty
  /-- A part of a sum of bounds; the flags admit captured names and constant traits. -/
  bound : Bool → Bool → Parser Bound
  /-- An expression; the flag admits a record with its fields in braces. -/
  expression : Bool → Parser Expr
  /-- An operand with what stands before and behind it. -/
  operand : Bool → Parser Expr
  /-- The operators behind an operand that bind at least so tightly. -/
  operators : Bool → Precedence → Expr → Parser Expr
  /-- The right side of an operator. -/
  rightSide : Bool → Precedence → Parser Expr
  /-- An expression as a statement or the body of an arm: one that closes with a block ends
  there. -/
  statementExpression : Parser Expr
  /-- A pattern without alternatives. -/
  pattern : Parser Pattern
  /-- The statements of a block. -/
  statements : Parser Unit
  /-- An item of a file or a block, its attributes included. -/
  item : Parser Item
  /-- What an import names; the flag admits a double colon at the front inside braces. The result
  says whether there was none. -/
  importTree : Bool → Parser Bool

namespace Parser

open Ahead

/-- A certain word. -/
def keyword (name : String) : Parser Position :=
  satisfying fun
    | .word n span => if n = name then some span.start else none
    | _ => none

/-- Any word. -/
def anyName : Parser (String × Span) :=
  satisfying fun
    | .word n span => some (n, span)
    | _ => none

/-- A word that is no keyword. -/
def name : Parser (String × Span) :=
  satisfying fun
    | .word n span => if keywords.contains n then none else some (n, span)
    | _ => none

/-- Takes that many trees. -/
def skipTrees : Nat → Parser Unit
  | 0 => pure ()
  | n + 1 => do
    let _ ← tree
    skipTrees n

/-- Certain marks without a blank between them; gives where the first stands. -/
def marks (text : String) : Parser Span := do
  if ← sees (Ahead.marks text) then
    let first ← tree
    skipTrees (text.length - 1)
    return first.span
  else fail

/-- Takes a word if it is next. -/
def optionalWord (name : String) : Parser Bool := do
  return (← optional (word name) (keyword name)).isSome

/-- Takes marks if they are next. -/
def optionalMarks (text : String) : Parser Bool := do
  return (← optional (Ahead.marks text) (marks text)).isSome

/-- A comma. -/
def comma : Parser Unit := do
  let _ ← marks ","

/-- A plus. -/
def plus : Parser Unit := do
  let _ ← marks "+"

/-- A quote and the name of a lifetime. -/
def lifetime : Parser Unit := do
  if ← sees Ahead.lifetime then skipTrees 2 else fail

/-- Any literal. -/
def literal : Parser Unit := do
  if ← sees Ahead.literal then
    if ← sees (Ahead.marks "-") then skipTrees 2 else skipTrees 1
  else fail

/-- Any pair of delimiters with whatever they hold; says whether they are braces. -/
def anyGroup : Parser Bool :=
  satisfying fun
    | .group d _ _ _ => some (d = .brace)
    | _ => none

/-- A pair of certain delimiters with whatever they hold. -/
def opaqueGroup (d : Delimiter) : Parser Unit :=
  satisfying fun
    | .group d' _ _ _ => if d = d' then some () else none
    | _ => none

/-- Items between delimiters, up to their end, with commas between them. -/
def listed {α : Type} (item : Parser α) : Parser (List α) := do
  return (← separated nothing comma item).1

/-- Names joined by double colons, without arguments. -/
def plainPath : Parser Unit := do
  let _ ← optionalMarks "::"
  if ← sees pathWord then
    loop (fun () => do
      let _ ← anyName
      if ← optionalMarks "::" then
        if ← sees pathWord then return .inl () else fail
      else return .inr ()) ()
  else
    let _ ← name

/-- A macro call behind its path: the exclamation mark and what the macro is given. -/
def macroRest : Parser Bool := do
  let _ ← marks "!"
  anyGroup

end Parser

namespace Grammar

open Ahead Waymark.Source.Parser

/-- What stands between the brackets of an attribute. -/
def attributeContent (g : Grammar) : Parser Unit := do
  if ← sees (word "unsafe") then
    let _ ← keyword "unsafe"
  else plainPath
  if ← sees (anyOf [group .paren, group .bracket, group .brace]) then
    let _ ← anyGroup
  else if ← sees (only "=" ["==", "=>"]) then
    let _ ← marks "="
    match ← attempt (do literal; if ← atEnd then pure () else fail) with
    | some () => pure ()
    | none =>
      if ← sees (allOf [Ahead.marks "#", second (group .bracket)]) then fail
      else let _ ← g.expression true

/-- An attribute of what follows it. -/
def outerAttribute (g : Grammar) : Parser Position := do
  let mark ← marks "#"
  let _ ← within .bracket g.attributeContent
  return mark.start

/-- An attribute of what encloses it. -/
def innerAttribute (g : Grammar) : Parser Position := do
  let mark ← marks "#"
  let _ ← marks "!"
  let _ ← within .bracket g.attributeContent
  return mark.start

/-- The attributes before something; gives where they begin. -/
def outerAttributes (g : Grammar) : Parser (List Position) :=
  many (Ahead.marks "#") g.outerAttribute

/-- The attributes that open what encloses them; gives where they begin. -/
def innerAttributes (g : Grammar) : Parser (List Position) :=
  many (allOf [Ahead.marks "#", second (Ahead.marks "!")]) g.innerAttribute

/-- A block; gives where it ends. -/
def block (g : Grammar) : Parser Position := do
  let (_, span, _) ← within .brace g.statements
  return span.stop

/-- A block that attributes may open; gives where those begin and where it ends. -/
def attributedBlock (g : Grammar) : Parser (List Position × Position) := do
  let (attributes, span, _) ← within .brace do
    let attributes ← g.innerAttributes
    g.statements
    return attributes
  return (attributes, span.stop)

/-- Items between braces that attributes may open. -/
def bracedItems (g : Grammar) {α : Type} (item : Parser α) : Parser Unit := do
  let _ ← within .brace do
    let _ ← g.innerAttributes
    many (isNot nothing) item

/-- Nothing can be read. -/
def bottom : Grammar where
  ty _ := fail
  bound _ _ := fail
  expression _ := fail
  operand _ := fail
  operators _ _ _ := fail
  rightSide _ _ := fail
  statementExpression := fail
  pattern := fail
  statements := fail
  item := fail
  importTree _ := fail

end Grammar

end Waymark.Source
