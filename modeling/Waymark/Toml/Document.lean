import Waymark.Toml.Scalar

/-!
# TOML documents

A document is a sequence of entries, headers and comments, one to a line.

* `Reader.valueWithin`: a value with so many arrays and tables inside each other;
* `Line.read`: what a line holds;
* `Toml.read`: the table of a whole document.
-/

namespace Waymark.Toml

namespace Reader

/-- How many levels of arrays and tables a value may have, and how many parts a key. -/
def mostLevels : Nat := 79

/-- The parts of a key, with points and blanks between them. -/
def keyParts : Nat → Reader (List String)
  | 0, _ => none
  | fuel + 1, text =>
    (simpleKey (text.dropWhile isBlank)).bind fun (part, rest) =>
      match rest.dropWhile isBlank with
      | '.' :: rest => (keyParts fuel rest).map fun (parts, rest) => (part :: parts, rest)
      | rest => some ([part], rest)

/-- A key: the path to its table and its last part. -/
def key (text : List Char) : Option ((List String × String) × List Char) :=
  (keyParts mostLevels text).bind fun (parts, rest) =>
    parts.getLast?.map fun last => ((parts.dropLast, last), rest)

/-- A comment up to the end of its line. -/
def comment (text : List Char) : Option (List Char) :=
  match text with
  | '#' :: rest => some (rest.dropWhile isPlain)
  | _ => none

/-- Blanks, comments and line ends between the elements of an array, with a bound on their number. A
comment has to close with a line end. -/
def skipBetween : Nat → List Char → List Char
  | 0, text => text
  | fuel + 1, text =>
    match text with
    | [] => []
    | c :: rest =>
      if isBlank c then skipBetween fuel rest
      else match lineEnd (c :: rest) with
        | some (_, rest) => skipBetween fuel rest
        | none =>
          match (comment (c :: rest)).bind lineEnd with
          | some (_, rest) => skipBetween fuel rest
          | none => c :: rest

/-- The text behind blanks, comments and line ends. -/
def between (text : List Char) : List Char := skipBetween text.length text

/-- The elements of an array behind its opening bracket, with a bound on their number. -/
def elements (value : Reader Toml) : Nat → List Toml → Reader (List Toml)
  | 0, _, _ => none
  | fuel + 1, found, text =>
    match between text with
    | ']' :: rest => some (found.reverse, rest)
    | text =>
      (value text).bind fun (v, rest) =>
        match between rest with
        | ',' :: rest => elements value fuel (v :: found) rest
        | ']' :: rest => some ((v :: found).reverse, rest)
        | _ => none

/-- A key, an equals sign and a value. -/
def entry (value : Reader Toml) (text : List Char) :
    Option ((List String × String × Toml) × List Char) :=
  (key text).bind fun ((path, name), rest) =>
    match rest with
    | '=' :: rest =>
      (value (rest.dropWhile isBlank)).map fun (v, rest) => ((path, name, v), rest)
    | _ => none

/-- The entries of a table between braces, behind the first of them, with a bound on their
number. -/
def entries (value : Reader Toml) : Nat → Table → Reader Table
  | 0, _, _ => none
  | fuel + 1, found, text =>
    (entry value text).bind fun ((path, name, v), rest) =>
      match found.insert path name v with
      | .error _ => none
      | .ok found =>
        match rest.dropWhile isBlank with
        | ',' :: rest => entries value fuel found rest
        | '\x7d' :: rest => some (found, rest)
        | _ => none

/-- A table between braces, behind the opening one. -/
def inlineTable (value : Reader Toml) (text : List Char) : Option (Toml × List Char) :=
  match text.dropWhile isBlank with
  | '\x7d' :: rest => some (.table [], rest)
  | text => (entries value text.length Table.fresh text).map fun (t, rest) => (t.toToml, rest)

/-- A value without elements or entries. -/
def scalar (text : List Char) : Option (Toml × List Char) :=
  match text with
  | '"' :: _ | '\'' :: _ => (Reader.text text).map fun (s, rest) => (.string s, rest)
  | 't' :: 'r' :: 'u' :: 'e' :: rest => some (.boolean true, rest)
  | 'f' :: 'a' :: 'l' :: 's' :: 'e' :: rest => some (.boolean false, rest)
  | _ =>
    match moment text with
    | some found => some found
    | none => number text

/-- A value with at most so many arrays and tables inside each other. -/
def valueWithin : Nat → Reader Toml
  | 0, text =>
    match text with
    | '[' :: _ | '\x7b' :: _ => none
    | _ => scalar text
  | levels + 1, text =>
    match text with
    | '[' :: rest =>
      (elements (valueWithin levels) (rest.length + 1) [] rest).map fun (vs, rest) =>
        (.array vs, rest)
    | '\x7b' :: rest => inlineTable (valueWithin levels) rest
    | _ => scalar text

/-- What may stand behind an entry or a header: blanks, a comment, and the end of the line or of the
document. -/
def lineRest (text : List Char) : Option (List Char) :=
  let text := text.dropWhile isBlank
  let text := (comment text).getD text
  match text with
  | [] => some []
  | text => (lineEnd text).map Prod.snd

end Reader

/-- What a line of a document holds. -/
inductive Line where
  | entry (path : List String) (name : String) (value : Toml)
  | header (path : List String) (name : String)
  | element (path : List String) (name : String)
  /-- A comment, or nothing at all. -/
  | blank

namespace Line

open Reader

/-- Takes so many closing brackets and the end of the line. -/
def headerEnd : Nat → List Char → Option (List Char)
  | 0, text => lineRest text
  | n + 1, ']' :: rest => headerEnd n rest
  | _ + 1, _ => none

/-- Reads a line of a document that is not at its end. -/
def read (text : List Char) : Option (Line × List Char) :=
  match text.dropWhile isBlank with
  | '[' :: '[' :: rest => do
    let ((path, name), rest) ← key rest
    return (element path name, ← headerEnd 2 rest)
  | '[' :: rest => do
    let ((path, name), rest) ← key rest
    return (header path name, ← headerEnd 1 rest)
  | [] => some (blank, [])
  | c :: rest =>
    if c = '#' || c = '\n' || c = '\r' then (lineRest (c :: rest)).map (blank, ·)
    else do
      let ((path, name, v), rest) ← Reader.entry (valueWithin mostLevels) (c :: rest)
      return (entry path name v, ← lineRest rest)

/-- The lines of a document, with a bound on their number. -/
def readAll : Nat → List Char → Option (List Line)
  | _, [] => some []
  | 0, _ :: _ => none
  | fuel + 1, text => do
    let (line, rest) ← read text
    return line :: (← readAll fuel rest)

end Line

/-- A header and the entries below it. -/
structure Section where
  /-- The path and name that the header gives, and whether it opens one table of several; the
  entries before all headers have none. -/
  header : Option (Bool × List String × String)
  entries : List (List String × String × Toml)

/-- The lines put below their headers. -/
def sections (lines : List Line) : List Section :=
  lines.foldr (fun line found =>
    let (open_, rest) : List (List String × String × Toml) × List Section :=
      match found with
      | ⟨none, entries⟩ :: rest => (entries, rest)
      | rest => ([], rest)
    match line with
    | .blank => ⟨none, open_⟩ :: rest
    | .entry path name v => ⟨none, (path, name, v) :: open_⟩ :: rest
    | .header path name => ⟨none, []⟩ :: ⟨some (false, path, name), open_⟩ :: rest
    | .element path name => ⟨none, []⟩ :: ⟨some (true, path, name), open_⟩ :: rest) []

/-- Sets entries of a table in order. -/
def fill (entries : List (List String × String × Toml)) (t : Table) : Except Fault Table :=
  entries.foldlM (fun t (path, name, v) => t.insert path name v) t

/-- Adds a header with its entries to a document. -/
def addSection (t : Table) (s : Section) : Except Fault Table :=
  match s.header with
  | none => fill s.entries t
  | some (false, path, name) => t.openTable path name (fill s.entries)
  | some (true, path, name) => t.openElement path name (fill s.entries)

/-- The table of a document. A byte order mark at its front is passed over. -/
def read (text : String) : Except Fault Toml :=
  let chars := match text.toList with
    | '\uFEFF' :: rest => rest
    | chars => chars
  match Line.readAll (chars.length + 1) chars with
  | none => .error .malformed
  | some lines => ((sections lines).foldlM addSection Table.fresh).map Table.toToml

end Waymark.Toml
