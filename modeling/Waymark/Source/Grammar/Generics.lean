import Waymark.Source.Grammar.Types

/-!
# Generics

Parameters between angle brackets and the predicates behind `where`.
-/

namespace Waymark.Source.Grammar

open Ahead Waymark.Source.Parser

/-- Bounds joined by a plus, up to where `stop` holds or no plus follows. -/
def boundsUpTo (g : Grammar) (stop : Test) : Parser Unit :=
  loop (fun () => do
    if ← sees stop then return .inr ()
    let _ ← g.bound false true
    if ← optionalMarks "+" then return .inl () else return .inr ()) ()

/-- Bounds with a plus between neighbours, up to where `stop` holds. -/
def boundsUntil (g : Grammar) (stop : Test) : Parser Unit := do
  let _ ← separated stop plus (g.bound false true)

/-- Lifetimes joined by a plus, up to where `stop` holds or no plus follows. -/
def lifetimesUpTo (stop : Test) : Parser Unit :=
  loop (fun () => do
    if ← sees stop then return .inr ()
    Parser.lifetime
    if ← optionalMarks "+" then return .inl () else return .inr ()) ()

/-- A parameter that stands for a lifetime. -/
def lifetimeParameter : Parser Unit := do
  Parser.lifetime
  if ← optionalMarks ":" then
    lifetimesUpTo (anyOf [nothing, Ahead.marks ",", Ahead.marks ">"])

/-- A parameter that stands for a type. -/
def typeParameter (g : Grammar) : Parser Unit := do
  let _ ← name
  if ← optionalMarks ":" then
    g.boundsUpTo (anyOf [nothing, Ahead.marks ",", Ahead.marks ">", Ahead.marks "="])
  if ← optionalMarks "=" then
    let _ ← g.ty true

/-- A parameter that stands for a constant. -/
def constantParameter (g : Grammar) : Parser Unit := do
  let _ ← keyword "const"
  let _ ← name
  let _ ← Parser.marks ":"
  let _ ← g.ty true
  if ← optionalMarks "=" then g.constantArgument

/-- A parameter of a generic item. -/
def genericParameter (g : Grammar) : Parser Unit := do
  let _ ← g.outerAttributes
  if ← sees Ahead.lifetime then lifetimeParameter
  else if ← sees identifier then g.typeParameter
  else if ← sees (word "const") then g.constantParameter
  else
    let _ ← keyword "_"

/-- The parameters between angle brackets, if there are any; gives how many. -/
def generics (g : Grammar) : Parser Nat := do
  if ← sees (Ahead.marks "<") then return (← angled g.genericParameter).length else return 0

/-- What ends the predicates behind `where`. -/
def seesWhereEnd : Test :=
  anyOf [nothing, group .brace, Ahead.marks ",", Ahead.marks ";", only ":" ["::"],
    Ahead.marks "="]

/-- A predicate behind `where`. -/
def wherePredicate (g : Grammar) : Parser Unit := do
  if ← sees (allOf [Ahead.lifetime, second (Ahead.marks ":")]) then
    Parser.lifetime
    let _ ← Parser.marks ":"
    lifetimesUpTo (anyOf [seesWhereEnd, Ahead.marks ":"])
  else
    let _ ← optional (word "for") g.forLifetimes
    let _ ← g.ty true
    let _ ← Parser.marks ":"
    g.boundsUpTo seesWhereEnd

/-- The predicates behind `where`, if the word is next; says whether it was. -/
def whereClause (g : Grammar) : Parser Bool := do
  if ← optionalWord "where" then
    loop (fun () => do
      if ← sees seesWhereEnd then return .inr true
      g.wherePredicate
      if ← optionalMarks "," then return .inl () else return .inr true) ()
  else return false

end Waymark.Source.Grammar
