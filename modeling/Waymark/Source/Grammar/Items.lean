import Waymark.Source.Grammar.Functions

/-!
# Items

The items of a file, of a module, of a trait and of an implementation. Of all of them only functions
with a body and imports leave something behind.
-/

namespace Waymark.Source.Grammar

open Ahead Waymark.Source.Parser

/-- The names that an import goes through or ends in. -/
def importTreeRule (g : Grammar) (admitsRoot : Bool) : Parser Bool := do
  if ← sees (anyOf [identifier, words ["self", "super", "crate", "try"]]) then
    let _ ← anyName
    if ← optionalMarks "::" then
      let _ ← g.importTree false
    else if ← optionalWord "as" then
      if ← sees (anyOf [identifier, word "_"]) then
        let _ ← anyName
      else fail
    return true
  if ← optionalMarks "*" then return true
  if ← sees (group .brace) then
    let (found, _) ← within .brace (listed do
      let atRoot ← if admitsRoot then optionalMarks "::" else pure false
      let plain ← g.importTree (admitsRoot && !atRoot)
      return plain && !atRoot)
    return found.all id
  fail

/-- An import behind its attributes; nothing is kept of one that names the root inside braces. -/
def importItem (g : Grammar) (attributes : List Position) : Parser Item := do
  let visibility ← visibility
  let start ← keyword "use"
  let fromRoot ← optionalMarks "::"
  let plain ← g.importTree (!fromRoot)
  let stop := (← Parser.marks ";").stop
  return if plain then .import ⟨attributes, visibility, start, stop⟩ else .other

/-- A function behind its attributes; nothing is kept of one without a body. -/
def functionItem (g : Grammar) (attributes : List Position) : Parser Item := do
  let visibility ← visibility
  let (head, _) ← g.signature false
  if ← optionalMarks ";" then return .other
  let (inner, stop) ← g.attributedBlock
  return .function ⟨attributes ++ inner, visibility, head, stop⟩

/-- A macro call as an item, which may name what it defines. -/
def macroItem : Parser Unit := do
  plainPath
  let _ ← Parser.marks "!"
  let _ ← optional (anyOf [identifier, word "try"]) anyName
  let braced ← anyGroup
  if !braced then
    let _ ← Parser.marks ";"

/-- A macro call among the items of a trait or an implementation. -/
def innerMacro : Parser Unit := do
  plainPath
  let braced ← macroRest
  if !braced then
    let _ ← Parser.marks ";"

/-- What begins a macro call as an item. -/
def seesMacro : Test :=
  anyOf [identifier, words ["self", "super", "crate"], Ahead.marks "::"]

/-- A name of a constant, which may be an underscore. -/
def constantName : Parser Unit := do
  if ← sees (anyOf [identifier, word "_"]) then
    let _ ← anyName
  else fail

/-- A constant from its name on; its value may be left out. -/
def constantRest (g : Grammar) : Parser Unit := do
  constantName
  let _ ← g.generics
  let _ ← Parser.marks ":"
  let _ ← g.ty true
  if ← optionalMarks "=" then
    let _ ← g.expression true
  let _ ← g.whereClause
  let _ ← Parser.marks ";"

/-- A static from its keyword on; its type or its value may be left out. -/
def staticItem (g : Grammar) : Parser Unit := do
  let _ ← keyword "static"
  let _ ← optionalWord "mut"
  let _ ← name
  if ← optionalMarks "=" then
    let _ ← g.expression true
  else
    let _ ← Parser.marks ":"
    let _ ← g.ty true
    if !(← sees (Ahead.marks ";")) then
      let _ ← Parser.marks "="
      let _ ← g.expression true
  let _ ← Parser.marks ";"

/-- A static of a foreign interface, behind its visibility. -/
def foreignStatic (g : Grammar) : Parser Unit := do
  if !(← optionalWord "unsafe") then
    let _ ← optionalWord "safe"
  let _ ← keyword "static"
  let _ ← optionalWord "mut"
  let _ ← name
  let _ ← Parser.marks ":"
  let _ ← g.ty true
  if ← optionalMarks "=" then
    let _ ← g.expression true
  let _ ← Parser.marks ";"

/-- Where the predicates of a type item can stand. -/
inductive WherePlace where
  | beforeEquals
  | afterEquals
  | either
deriving DecidableEq

/-- A type item from its visibility on; bounds and definition may be left out. -/
def typeItem (g : Grammar) (allowDefault : Bool) (wherePlace : WherePlace) : Parser Unit := do
  let _ ← visibility
  if allowDefault then
    let _ ← optionalWord "default"
  let _ ← keyword "type"
  let _ ← name
  let _ ← g.generics
  if ← optionalMarks ":" then
    g.boundsUntil (anyOf [word "where", Ahead.marks "=", Ahead.marks ";"])
  let before ← if wherePlace = .afterEquals then pure false else g.whereClause
  if ← optionalMarks "=" then
    let _ ← g.ty true
  if !before && wherePlace ≠ .beforeEquals then
    let _ ← g.whereClause
  let _ ← Parser.marks ";"

/-- An item of a foreign interface. -/
def foreignItem (g : Grammar) : Parser Unit := do
  let _ ← g.outerAttributes
  let (visible, trees) ← lookahead (do return (← visibility, ← ahead))
  if word "fn" trees || seesSignature true trees then
    let _ ← visibility
    let _ ← g.signature true
    if ← sees (group .brace) then
      let _ ← g.attributedBlock
    else
      let _ ← Parser.marks ";"
  else if word "static" trees
      || words ["unsafe", "safe"] trees && second (word "static") trees then
    let _ ← visibility
    g.foreignStatic
  else if word "type" trees then g.typeItem false .either
  else if isInherited visible && seesMacro trees then innerMacro
  else
    let _ ← visibility
    fail

/-- A foreign interface. -/
def foreignItems (g : Grammar) : Parser Unit := do
  let _ ← optionalWord "unsafe"
  abi
  g.bracedItems g.foreignItem

/-- An item that begins with `extern` behind its visibility. -/
def externItem (g : Grammar) (trees : List Tree) : Parser Unit := do
  let behind := trees.drop 1
  if word "crate" behind then
    let _ ← visibility
    let _ ← keyword "extern"
    let _ ← keyword "crate"
    if ← sees (word "self") then
      let _ ← anyName
    else
      let _ ← name
    if ← optionalWord "as" then
      if ← sees (word "_") then
        let _ ← anyName
      else
        let _ ← name
    let _ ← Parser.marks ";"
  else if group .brace behind || textLiteral behind && group .brace (behind.drop 1) then
    g.foreignItems
  else
    let _ ← visibility
    skipTrees (if textLiteral behind then 2 else 1)
    fail

/-- A module, with its items in braces or elsewhere. -/
def moduleItem (g : Grammar) : Parser Unit := do
  let _ ← visibility
  let _ ← optionalWord "unsafe"
  let _ ← keyword "mod"
  if ← sees (word "try") then
    let _ ← anyName
  else
    let _ ← name
  if ← optionalMarks ";" then return
  g.bracedItems g.item

/-- The type of a field, which a record without a name can stand for. -/
def namedField (g : Grammar) (fields : Parser Unit) : Parser Unit := do
  let _ ← g.outerAttributes
  let _ ← visibility
  let unnamed ← optionalWord "_"
  if !unnamed then
    let _ ← name
  let _ ← Parser.marks ":"
  if unnamed && (← sees (anyOf [word "struct", allOf [word "union", second (group .brace)]])) then
    let _ ← anyName
    fields
  else
    let _ ← g.ty true

/-- Named fields in braces; records without a name nest as deep as the first argument allows. -/
def namedFields (g : Grammar) : Nat → Parser Unit
  | 0 => fail
  | depth + 1 => do
    let _ ← within .brace (listed (g.namedField (namedFields g depth)))

/-- Named fields in braces. -/
def recordBody (g : Grammar) : Parser Unit := do
  g.namedFields (tokenCount (← ahead))

/-- Fields without names in parentheses. -/
def unnamedFields (g : Grammar) : Parser Unit := do
  let _ ← within .paren (listed do
    let _ ← g.outerAttributes
    let _ ← visibility
    g.ty true)

/-- The fields of a structure. -/
def structureBody (g : Grammar) : Parser Unit := do
  let constrained ← g.whereClause
  if !constrained && (← sees (group .paren)) then
    g.unnamedFields
    let _ ← g.whereClause
    let _ ← Parser.marks ";"
  else if ← sees (group .brace) then g.recordBody
  else
    let _ ← Parser.marks ";"

/-- A variant of an enumeration. -/
def variant (g : Grammar) : Parser Unit := do
  let _ ← g.outerAttributes
  let _ ← visibility
  let _ ← name
  if ← sees (group .brace) then g.recordBody
  else if ← sees (group .paren) then g.unnamedFields
  if ← optionalMarks "=" then
    let _ ← g.expression true

/-- A structure, an enumeration or a union. -/
def dataItem (g : Grammar) (word : String) : Parser Unit := do
  let _ ← visibility
  let _ ← keyword word
  let _ ← name
  let _ ← g.generics
  if word = "struct" then g.structureBody
  else
    let _ ← g.whereClause
    if word = "enum" then
      let _ ← within .brace (listed g.variant)
    else g.recordBody

/-- An item of a trait. -/
def traitItem (g : Grammar) : Parser Unit := do
  let _ ← g.outerAttributes
  let visible ← visibility
  let isDefault ← optionalWord "default"
  let trees ← ahead
  let function : Parser Unit := do
    let _ ← g.signature false
    if ← sees (group .brace) then
      let _ ← g.attributedBlock
    else
      let _ ← Parser.marks ";"
  if word "fn" trees || seesSignature false trees then function
  else if word "const" trees then
    if second (anyOf [identifier, word "_"]) trees then
      let _ ← keyword "const"
      g.constantRest
    else if second (words ["async", "unsafe", "extern", "fn"]) trees then function
    else
      let _ ← keyword "const"
      fail
  else if word "type" trees then g.typeItem false .afterEquals
  else if isInherited visible && !isDefault && seesMacro trees then innerMacro
  else fail

/-- What a trait consists of behind its name and parameters. -/
def traitRest (g : Grammar) : Parser Unit := do
  if ← optionalMarks ":" then g.boundsUntil (anyOf [word "where", group .brace])
  let _ ← g.whereClause
  g.bracedItems g.traitItem

/-- A trait behind which its keyword may have others before it. -/
def traitDefinition (g : Grammar) : Parser Unit := do
  let _ ← visibility
  let _ ← optionalWord "unsafe"
  let _ ← optionalWord "auto"
  let _ ← keyword "trait"
  let _ ← name
  let _ ← g.generics
  g.traitRest

/-- A trait, or a name for a sum of bounds. -/
def traitOrAlias (g : Grammar) : Parser Unit := do
  let _ ← visibility
  let _ ← keyword "trait"
  let _ ← name
  let _ ← g.generics
  if ← sees (anyOf [group .brace, Ahead.marks ":", word "where"]) then g.traitRest
  else
    let _ ← Parser.marks "="
    g.boundsUntil (anyOf [word "where", Ahead.marks ";"])
    let _ ← g.whereClause
    let _ ← Parser.marks ";"

/-- An item of an implementation. -/
def implementationItem (g : Grammar) : Parser Unit := do
  let _ ← g.outerAttributes
  let front : Parser (Visibility × Bool) := do
    let visible ← visibility
    if ← sees (allOf [word "default", isNot (second (Ahead.marks "!"))]) then
      let _ ← keyword "default"
      return (visible, true)
    return (visible, false)
  let ((visible, isDefault), trees) ← lookahead (do return (← front, ← ahead))
  if word "fn" trees || seesSignature false trees then
    let _ ← visibility
    let _ ← optionalWord "default"
    let _ ← g.signature false
    if ← optionalMarks ";" then return
    let _ ← g.attributedBlock
  else if word "const" trees then
    let _ ← front
    let _ ← keyword "const"
    g.constantRest
  else if word "type" trees then g.typeItem true .afterEquals
  else if isInherited visible && !isDefault && seesMacro trees then innerMacro
  else
    let _ ← front
    fail

/-- Parameters of an implementation come next, and not a type between angle brackets. -/
def seesImplementationGenerics : Test :=
  allOf [Ahead.marks "<", anyOf [second (anyOf [Ahead.marks ">", Ahead.marks "#", word "const"]),
    allOf [second (anyOf [Ahead.lifetime, identifier]),
      third (anyOf [Ahead.marks ">", Ahead.marks ",", only ":" ["::"], Ahead.marks "="])]]]

/-- An implementation. -/
def implementation (g : Grammar) : Parser Unit := do
  let _ ← visibility
  let _ ← optionalWord "default"
  let _ ← optionalWord "unsafe"
  let _ ← keyword "impl"
  if ← sees seesImplementationGenerics then
    let _ ← g.generics
  if ← sees (anyOf [word "const", allOf [Ahead.marks "?", second (word "const")]]) then
    let _ ← optionalMarks "?"
    let _ ← keyword "const"
  if ← sees (allOf [Ahead.marks "!", isNot (second (group .brace))]) then
    let _ ← Parser.marks "!"
  let _ ← g.ty true
  if ← optionalWord "for" then
    let _ ← g.ty true
  let _ ← g.whereClause
  g.bracedItems g.implementationItem

/-- A macro defined by its parameters and body. -/
def macroDefinition : Parser Unit := do
  let _ ← visibility
  let _ ← keyword "macro"
  let _ ← name
  if ← sees (group .paren) then opaqueGroup .paren
  opaqueGroup .brace

/-- Reads an item of which nothing is kept. -/
def discarding (rule : Parser Unit) : Parser Item := do
  rule
  return .other

/-- An item of which nothing is kept and that begins with `unsafe` behind its visibility. -/
def unsafeItem (g : Grammar) (trees : List Tree) : Parser Unit := do
  if second (word "trait") trees || second (word "auto") trees && third (word "trait") trees then
    g.traitDefinition
  else if second (word "impl") trees then g.implementation
  else if second (word "extern") trees then g.foreignItems
  else if second (word "mod") trees then g.moduleItem
  else
    let _ ← visibility
    let _ ← keyword "unsafe"
    fail

/-- An item, its attributes included. -/
def itemRule (g : Grammar) : Parser Item := do
  let attributes ← g.outerAttributes
  let (visible, trees) ← lookahead (do return (← visibility, ← ahead))
  if word "fn" trees || seesSignature false trees then g.functionItem attributes
  else if word "use" trees then g.importItem attributes
  else discarding do
    if word "extern" trees then g.externItem trees
    else if word "static" trees then
      let _ ← visibility
      g.staticItem
    else if word "const" trees then
      let _ ← visibility
      let _ ← keyword "const"
      g.constantRest
    else if word "unsafe" trees then g.unsafeItem trees
    else if word "mod" trees then g.moduleItem
    else if word "type" trees then g.typeItem false .beforeEquals
    else if word "struct" trees then g.dataItem "struct"
    else if word "enum" trees then g.dataItem "enum"
    else if word "union" trees && second identifier trees then g.dataItem "union"
    else if word "trait" trees then g.traitOrAlias
    else if word "auto" trees && second (word "trait") trees then g.traitDefinition
    else if word "impl" trees || word "default" trees && !second (Ahead.marks "!") trees then
      g.implementation
    else if word "macro" trees then macroDefinition
    else if isInherited visible && seesMacro trees then macroItem
    else
      let _ ← visibility
      fail

end Waymark.Source.Grammar
