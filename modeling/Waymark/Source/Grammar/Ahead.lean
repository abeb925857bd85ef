import Waymark.Source.Parser

/-!
# Looking ahead

Tests on the trees to come. A test asks about the first tree; `second` and `third` move it on, a
lifetime counting as one tree.
-/

namespace Waymark.Source

/-- A question about the trees to come. -/
abbrev Test := List Tree → Bool

/-- The words that are no identifiers. -/
def keywords : List String :=
  ["_", "abstract", "as", "async", "await", "become", "box", "break", "const", "continue", "crate",
    "do", "dyn", "else", "enum", "extern", "false", "final", "fn", "for", "if", "impl", "in", "let",
    "loop", "macro", "match", "mod", "move", "mut", "override", "priv", "pub", "ref", "return",
    "Self", "self", "static", "struct", "super", "trait", "true", "try", "type", "typeof", "unsafe",
    "unsized", "use", "virtual", "where", "while", "yield"]

/-- The number of a literal, which a minus can stand before. -/
def Literal.isNumber : Literal → Bool
  | whole _ | fraction _ _ => true
  | text | other => false

namespace Ahead

/-- A certain word. -/
def word (name : String) : Test
  | .word n _ :: _ => n = name
  | _ => false

/-- Any word. -/
def anyWord : Test
  | .word _ _ :: _ => true
  | _ => false

/-- A word that is no keyword. -/
def identifier : Test
  | .word n _ :: _ => !keywords.contains n
  | _ => false

/-- A quote that begins a lifetime, and its name. -/
def lifetime : Test
  | .mark '\'' true _ :: .word _ _ :: _ => true
  | _ => false

/-- Certain marks without a blank between them. -/
def marksOf : List Char → Test
  | [], _ => false
  | [c], .mark d _ _ :: _ => c = d
  | c :: next :: more, .mark d joint _ :: rest => c = d && joint && marksOf (next :: more) rest
  | _, _ => false

/-- Certain marks without a blank between them; more marks may follow. -/
def marks (text : String) : Test := marksOf text.toList

/-- A pair of delimiters. -/
def group (d : Delimiter) : Test
  | .group d' _ _ _ :: _ => d = d'
  | _ => false

/-- A literal; `true` and `false` are, and so is a minus before a number. -/
def literal : Test
  | .literal _ _ :: _ => true
  | .word n _ :: _ => n = "true" || n = "false"
  | .mark '-' _ _ :: .literal l _ :: _ => l.isNumber
  | _ => false

/-- A text between double quotes. -/
def textLiteral : Test
  | .literal .text _ :: _ => true
  | _ => false

/-- The end of the trees. -/
def nothing : Test := List.isEmpty

/-- The trees behind the first. -/
def skip : List Tree → List Tree
  | .mark '\'' true _ :: .word _ _ :: rest => rest
  | _ :: rest => rest
  | [] => []

/-- A test of the second tree. -/
def second (test : Test) : Test
  | [] => false
  | trees => test (skip trees)

/-- A test of the third tree. -/
def third (test : Test) : Test := second (second test)

/-- One of some tests holds. -/
def anyOf (tests : List Test) : Test := fun trees => tests.any (· trees)

/-- All of some tests hold. -/
def allOf (tests : List Test) : Test := fun trees => tests.all (· trees)

/-- A test does not hold. -/
def isNot (test : Test) : Test := fun trees => !test trees

/-- One of some words. -/
def words (names : List String) : Test := anyOf (names.map word)

/-- A single mark that is not the beginning of a longer one. -/
def only (text : String) (longer : List String) : Test := fun trees =>
  marks text trees && !longer.any (marks · trees)

/-- What begins a name in a path of names alone. -/
def pathWord : Test := anyOf [identifier, words ["super", "self", "Self", "crate"]]

end Ahead

end Waymark.Source
