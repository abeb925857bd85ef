import Waymark.Source.Token

/-!
# What is kept of the source

The grammar reads whole files, but only functions and imports are kept, with the places at which
they begin and end. Of types the shape is kept as far as a signature is judged by it; of expressions
and patterns only what decides how the text around them is read.
-/

namespace Waymark.Source

mutual

/-- A type. -/
inductive Ty where
  | reference (isMutable : Bool) (target : Ty)
  /-- A path; a qualified one begins with a type between angle brackets, one from the root with a
  double colon. -/
  | path (isQualified fromRoot : Bool) (segments : List (String × Arguments))
  | paren (inner : Ty)
  | tuple (size : Nat)
  /-- A sum of bounds without a keyword before it: how many, and whether a plus is last. -/
  | bounds (count : Nat) (trailing endsInBrace : Bool)
  | other (endsInBrace : Bool)

/-- What follows a name in a path. -/
inductive Arguments where
  | none
  /-- Between angle brackets; what is no type is left out. -/
  | generic (arguments : List (Option Ty))
  /-- Between parentheses, with what may follow an arrow. -/
  | call (endsInBrace : Bool)

end

namespace Arguments

/-- There are no arguments at all. -/
def isNone : Arguments → Bool
  | none => true
  | _ => false

/-- There are no arguments, or none between the brackets. -/
def isEmpty : Arguments → Bool
  | none => true
  | generic arguments => arguments.isEmpty
  | call _ => false

/-- The arguments close with a type that closes with a brace. -/
def endsInBrace : Arguments → Bool
  | call braced => braced
  | _ => false

end Arguments

/-- Names joined by double colons. -/
structure NamePath where
  fromRoot : Bool
  segments : List (String × Arguments)

/-- A path of names alone. -/
def NamePath.isPlain (p : NamePath) : Bool := p.segments.all fun s => s.2.isNone

/-- The arguments of the last of some names. -/
def lastArguments (segments : List (String × Arguments)) : Arguments :=
  match segments.getLast? with
  | some (_, arguments) => arguments
  | none => .none

/-- The type closes with a brace. -/
def Ty.endsInBrace : Ty → Bool
  | reference _ target => target.endsInBrace
  | path _ _ segments => (lastArguments segments).endsInBrace
  | paren _ | tuple _ => false
  | bounds _ _ braced | other braced => braced

/-- One part of a sum of bounds. -/
inductive Bound where
  | lifetime
  /-- The names that an opaque type may use. -/
  | captures
  /-- A trait, and whether its path closes with a brace. -/
  | interface (endsInBrace : Bool)

/-- The part is a trait. -/
def Bound.isInterface : Bound → Bool
  | interface _ => true
  | lifetime | captures => false

/-- The part closes with a brace. -/
def Bound.endsInBrace : Bound → Bool
  | interface braced => braced
  | lifetime | captures => false

/-- The kinds of expressions that differ in what may follow them. -/
inductive ExprKind where
  /-- A block, or a form that closes with one, which is a statement by itself. -/
  | block
  | macroCall (braced : Bool)
  | range
  | comparison
  | other
deriving DecidableEq

/-- An expression. -/
structure Expr where
  kind : ExprKind
  endsInBrace : Bool

/-- The expression needs a semicolon to be a statement before others. -/
def Expr.needsSemicolon (e : Expr) : Bool :=
  e.kind ≠ .block && e.kind ≠ .macroCall true

/-- A pattern. -/
inductive Pattern where
  /-- Two dots alone. -/
  | rest
  /-- A range without one of its ends, and where its dots stand. -/
  | openRange (dots : Position)
  | other

/-- A parameter of a function; `self` has no type of its own. -/
inductive Parameter where
  | receiver
  | typed (type : Ty)

/-- How an item is made known. -/
inductive Visibility where
  | inherited
  /-- The keyword alone. -/
  | everywhere (keyword : Position)
  /-- The keyword with a place in parentheses. -/
  | within (keyword : Position)

/-- Where the keyword of a visibility stands. -/
def Visibility.keyword? : Visibility → Option Position
  | inherited => none
  | everywhere keyword | within keyword => some keyword

/-- The head of a function. -/
structure Signature where
  isAsync : Bool
  keyword : Position
  name : String
  nameSpan : Span
  genericCount : Nat
  parameters : List Parameter
  output : Option Ty

/-- A function with its body. -/
structure FunctionItem where
  /-- Where its attributes begin: those before it, then those that open its body. -/
  attributes : List Position
  visibility : Visibility
  signature : Signature
  /-- The place behind the closing brace of the body. -/
  stop : Position

/-- An import. -/
structure ImportItem where
  attributes : List Position
  visibility : Visibility
  keyword : Position
  /-- The place behind its semicolon. -/
  stop : Position

/-- An item of a file. -/
inductive Item where
  | function (f : FunctionItem)
  | import (i : ImportItem)
  | other

end Waymark.Source
