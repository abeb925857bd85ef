import Waymark.Source.Grammar.Expressions

/-!
# Statements

Bindings, items, macro calls and expressions in a block. An expression that does not close with a
block needs a semicolon before a further statement.
-/

namespace Waymark.Source.Grammar

open Ahead Waymark.Source.Parser

/-- A binding, perhaps with a block for the case that the pattern does not match. -/
def binding (g : Grammar) : Parser Unit := do
  let _ ← keyword "let"
  let _ ← g.pattern
  if ← optionalMarks ":" then
    let _ ← g.ty true
  if ← optionalMarks "=" then
    let value ← g.expression true
    if !value.endsInBrace then
      if ← optionalWord "else" then
        let _ ← g.block
  let _ ← Parser.marks ";"

/-- An item comes next, and not an expression. -/
def seesItem : Test :=
  anyOf [word "pub",
    allOf [word "crate", isNot (second (Ahead.marks "::"))],
    words ["extern", "use", "fn", "mod", "type", "struct", "enum", "trait", "impl", "macro"],
    allOf [word "static", second (anyOf [word "mut", identifier])],
    allOf [word "const", isNot (second (anyOf [group .brace, word "static", word "move",
      Ahead.marks "|"])), isNot (allOf [second (word "async"),
        isNot (third (words ["unsafe", "extern", "fn"]))])],
    allOf [word "unsafe", isNot (second (group .brace))],
    allOf [word "async", second (words ["unsafe", "extern", "fn"])],
    allOf [word "union", second identifier],
    allOf [word "auto", second (word "trait")],
    allOf [word "default", second (words ["unsafe", "impl"])]]

/-- The beginning of a macro call, as far as it decides what kind of statement it is. -/
inductive MacroStart where
  /-- The call names what it defines, so that it is an item. -/
  | item
  /-- The call has braces and is a statement by itself. -/
  | statement
  | none

/-- Looks for a macro call that is no expression. -/
def macroStart : Parser MacroStart := do
  match ← attempt (lookahead (do plainPath; ahead)) with
  | some trees =>
    if !Ahead.marks "!" trees then return .none
    else if second (anyOf [identifier, word "try"]) trees then return .item
    else if second (group .brace) trees
        && !third (anyOf [only "." [".."], Ahead.marks "?"]) trees then return .statement
    else return .none
  | none => return .none

/-- One statement; says whether a semicolon has to follow before a further one. -/
def statement (g : Grammar) : Parser Bool := do
  let start ← lookahead (do
    let _ ← g.outerAttributes
    return (← macroStart, ← ahead))
  match start with
  | (.statement, _) =>
    let _ ← g.outerAttributes
    plainPath
    let _ ← macroRest
    let _ ← optionalMarks ";"
    return false
  | (kind, trees) =>
    let isItem := match kind with
      | .item => true
      | _ => seesItem trees
    if word "let" trees then
      let _ ← g.outerAttributes
      g.binding
      return false
    else if isItem then
      let _ ← g.item
      return false
    else
      let _ ← g.outerAttributes
      let e ← g.statementExpression
      if ← optionalMarks ";" then return false
      return e.needsSemicolon

/-- The statements of a block. -/
def statementsRule (g : Grammar) : Parser Unit :=
  loop (fun () => do
    let _ ← many (Ahead.marks ";") (Parser.marks ";")
    if ← atEnd then return .inr ()
    let needsSemicolon ← g.statement
    if ← atEnd then return .inr ()
    if needsSemicolon then fail
    return .inl ()) ()

end Waymark.Source.Grammar
