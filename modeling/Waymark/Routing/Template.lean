/-!
# Route templates

A template is a pattern in bytes. A doubled brace stands for one literal brace, which is marked as
escaped; a name between single braces is a placeholder, and a name behind `*` a wildcard.

* `ofPattern`: a pattern with its doubled braces resolved;
* `nextPlaceholder`: the first placeholder, or why the template is not well formed;
* `normalize`: placeholders renamed to `a`, `b`, `c`, … in order, so that templates which differ
  only in names become equal, and the names they had;
* `restore`: the old names put back.
-/

namespace Waymark.Routing

/-- One byte of a template. -/
structure Symbol where
  byte : UInt8
  /-- The byte is a literal brace that was doubled in the pattern. -/
  escaped : Bool
deriving DecidableEq

/-- A pattern in bytes. -/
abbrev Template := List Symbol

/-- Why a template is refused. -/
inductive TemplateError where
  /-- A placeholder without a proper name, or a brace without its partner. -/
  | invalidName
  /-- Two placeholders between two slashes. -/
  | crowdedSegment
  /-- Something behind a wildcard. -/
  | wildcardNotLast
  /-- More placeholders than there are letters. -/
  | tooManyPlaceholders
deriving DecidableEq

/-- The wording of a refusal. -/
def TemplateError.message : TemplateError → String
  | invalidName => "Parameters must be registered with a valid name"
  | crowdedSegment => "Only one parameter is allowed per path segment"
  | wildcardNotLast => "Catch-all parameters are only allowed at the end of a route"
  | tooManyPlaceholders => "Too many route parameters."

namespace Template

/-- `{` -/
def openBrace : UInt8 := 0x7B
/-- `}` -/
def closeBrace : UInt8 := 0x7D
/-- `*` -/
def star : UInt8 := 0x2A
/-- `/` -/
def slash : UInt8 := 0x2F

/-- A byte that stands for itself. -/
def plain (b : UInt8) : Symbol := ⟨b, false⟩

/-- Resolves doubled braces. -/
def ofBytes : List UInt8 → Template
  | [] => []
  | [b] => [plain b]
  | b :: c :: rest =>
    if b = c && (b = openBrace || b = closeBrace) then ⟨b, true⟩ :: ofBytes rest
    else plain b :: ofBytes (c :: rest)

/-- The template of a pattern. -/
def ofPattern (pattern : String) : Template := ofBytes pattern.toUTF8.toList

/-- The bytes of a template, with each literal brace written once. -/
def bytes (t : Template) : List UInt8 := t.map Symbol.byte

/-- An opening brace of a placeholder. -/
def opens (s : Symbol) : Bool := s.byte = openBrace && !s.escaped

/-- A closing brace of a placeholder. -/
def closes (s : Symbol) : Bool := s.byte = closeBrace && !s.escaped

/-- A placeholder inside a template. -/
structure Placeholder where
  /-- What stands in front of it. -/
  before : Template
  /-- The placeholder with its braces. -/
  itself : Template
  /-- What follows it. -/
  after : Template

/-- Reads a name up to its closing brace; `read` holds what was read of the placeholder, last
first. -/
def closeName (before read : Template) : Template → Except TemplateError Placeholder
  | [] => .error .invalidName
  | s :: rest =>
    if s.byte = closeBrace then
      if s.escaped then closeName before (s :: read) rest
      else if (read.head?.map Symbol.byte) = some star then .error .invalidName
      else .ok ⟨before, (s :: read).reverse, rest⟩
    else if s.byte = star || s.byte = slash then .error .invalidName
    else closeName before (s :: read) rest

/-- The first placeholder of a template; `passed` holds what was passed, last first. A name is at
least one byte long, and its first byte may be anything but a closing brace. -/
def nextPlaceholderFrom (passed : Template) : Template → Except TemplateError (Option Placeholder)
  | [] => .ok none
  | s :: rest =>
    if closes s then .error .invalidName
    else if opens s then
      match rest with
      | [] => .error .invalidName
      | first :: rest =>
        if first.byte = closeBrace then .error .invalidName
        else (closeName passed.reverse [first, s] rest).map some
    else nextPlaceholderFrom (s :: passed) rest

/-- The first placeholder of a template. -/
def nextPlaceholder (t : Template) : Except TemplateError (Option Placeholder) :=
  nextPlaceholderFrom [] t

/-- The placeholder takes the rest of a path. -/
def Placeholder.isWildcard (p : Placeholder) : Bool := (p.itself.map Symbol.byte)[1]? = some star

/-- The bytes between the braces. -/
def Placeholder.name (p : Placeholder) : List UInt8 := ((bytes p.itself).drop 1).dropLast

/-- An escape directly behind a placeholder keeps its distance from the beginning of the template
when the placeholder becomes `n` bytes shorter. -/
def keepFirstEscape : Nat → Template → Template
  | n + 1, ⟨b, true⟩ :: rest => plain b :: rest.modify n (fun x => ⟨x.byte, true⟩)
  | _, t => t

/-- A placeholder named by one letter. -/
def lettered (letter : UInt8) : Template := [plain openBrace, plain letter, plain closeBrace]

/-- Renames placeholders in order, beginning with `letter`; `done` is what lies behind, and `names`
the names found so far, last first. -/
def normalizeFrom : Nat → UInt8 → Template → List (List UInt8) → Template →
    Except TemplateError (Template × List (List UInt8))
  | 0, _, _, _, _ => .error .tooManyPlaceholders
  | fuel + 1, letter, done, names, t =>
    match nextPlaceholder t with
    | .error e => .error e
    | .ok none => .ok (done ++ t, names.reverse)
    | .ok (some p) =>
      if p.isWildcard then
        normalizeFrom fuel letter (done ++ p.before ++ p.itself) names p.after
      else if letter = 0x7A then .error .tooManyPlaceholders
      else
        normalizeFrom fuel (letter + 1) (done ++ p.before ++ lettered letter) (p.name :: names)
          (keepFirstEscape (p.itself.length - 3) p.after)

/-- The template with its placeholders renamed to letters, and their names in order. -/
def normalize (t : Template) : Except TemplateError (Template × List (List UInt8)) :=
  normalizeFrom (t.length + 1) 0x61 [] [] t

/-- Puts names back in order; what is no placeholder stays. -/
def restore : List (List UInt8) → Template → Template
  | [], t => t
  | name :: names, t =>
    match nextPlaceholder t with
    | .ok (some p) =>
      p.before ++ plain openBrace :: name.map plain ++ plain closeBrace :: restore names p.after
    | _ => t

/-- The text of a template, with each literal brace written once. -/
def text (t : Template) : String := (String.fromUTF8? ⟨(bytes t).toArray⟩).getD ""

end Template

end Waymark.Routing
