import Waymark.Source.Grammar.Items
import Waymark.Source.Lexer

/-!
# Whole files

The rules of the grammar tied to each other, and a file read from its text. A first line that begins
with `#!` and no attribute is the interpreter's and is passed over.
-/

namespace Waymark.Source

open Ahead Waymark.Source.Parser

namespace Grammar

/-- The rules that use those of another grammar one level below. -/
def step (g : Grammar) : Grammar where
  ty := g.typeRule
  bound := g.boundRule
  expression := g.expressionRule
  operand := g.operandRule
  operators := g.operatorsRule
  rightSide := g.rightSideRule
  statementExpression := g.statementExpressionRule
  pattern := g.patternRule
  statements := g.statementsRule
  item := g.itemRule
  importTree := g.importTreeRule

/-- The grammar in which rules use each other that many levels deep. -/
def atDepth : Nat → Grammar
  | 0 => bottom
  | depth + 1 => (atDepth depth).step

/-- The items of a file behind the attributes that open it. -/
def file (g : Grammar) : Parser (List Item) := do
  let _ ← g.innerAttributes
  many (isNot nothing) g.item

end Grammar

/-- The mark that some texts begin with to tell their byte order. -/
def byteOrderMark : Char := '\uFEFF'

/-- The text without a byte order mark at its front. -/
def withoutByteOrderMark : List Char → List Char
  | [] => []
  | c :: rest => if c = byteOrderMark then rest else c :: rest

/-- The text behind blanks and comments, with a bound on their number. -/
def skipBlanks : Nat → List Char → List Char
  | 0, text => text
  | fuel + 1, text =>
    match Lexer.blank text with
    | some n => skipBlanks fuel (text.drop n)
    | none => text

/-- The text without an interpreter's line, the end of that line kept. -/
def withoutInterpreter : List Char → List Char
  | '#' :: '!' :: rest =>
    match skipBlanks rest.length rest with
    | '[' :: _ => '#' :: '!' :: rest
    | _ => rest.dropWhile (· ≠ '\n')
  | text => text

/-- Where a text is read from. A byte order mark at its front counts as a column. -/
def cursorOf : List Char → Cursor
  | [] => ⟨[], Position.origin⟩
  | c :: rest =>
    if c = byteOrderMark then ⟨rest, Position.origin.next c⟩ else ⟨c :: rest, Position.origin⟩

/-- The token trees of a whole text, or the place where it breaks off. -/
def treesOf (text : List Char) : Except Position (List Tree) :=
  Lexer.lex (cursorOf (withoutInterpreter (withoutByteOrderMark text)))

/-- How deep rules use each other at most for so many tokens: between two tokens that a rule takes
on its way down lie a few rules. -/
def depthFor (tokens : Nat) : Nat := 16 * (tokens + 1)

/-- The items of a file, or the place where it is no file of the language. -/
def itemsOf (text : List Char) : Except Position (List Item) := do
  let trees ← treesOf text
  (Grammar.atDepth (depthFor (tokenCount trees))).file.complete trees

end Waymark.Source
