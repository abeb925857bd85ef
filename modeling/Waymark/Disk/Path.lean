import Waymark.Text.Utf8

/-!
# Paths

A path is the bytes it is written with, which need not be UTF-8. Its components leave out repeated
separators and single dots behind the first place.

* `Path.join`: a path taken from another; an absolute one stands alone;
* `Path.components`, `Path.fileName?`, `Path.parent?`, `Path.extension?`: its parts;
* `Path.withoutPrefix?`: what is left of a path below another.
-/

namespace Waymark.Disk

/-- A file name, as bytes. -/
abbrev Name := List UInt8

/-- The byte between the names of a path. -/
def separator : UInt8 := 0x2F

/-- A single dot, the directory itself. -/
def selfName : Name := [0x2E]

/-- Two dots, the directory above. -/
def upName : Name := [0x2E, 0x2E]

/-- A path as it is written. -/
structure Path where
  bytes : List UInt8
deriving DecidableEq

/-- A part of a path. -/
inductive Component where
  | root
  /-- A dot at the front of a relative path. -/
  | current
  | parent
  | name (bytes : Name)
deriving DecidableEq

/-- The text of a name, with a mark for each part that is no text. -/
def Name.display (n : Name) : String := Text.Utf8.lossy n

/-- The name of a text. -/
def Name.ofString (s : String) : Name := s.toUTF8.toList

namespace Path

/-- The path that a text writes. -/
def ofString (s : String) : Path := ⟨s.toUTF8.toList⟩

/-- The text of a path, with a mark for each part that is no text. -/
def display (p : Path) : String := Text.Utf8.lossy p.bytes

/-- The text of a path that is one. -/
def text? (p : Path) : Option String := Text.Utf8.decode? ⟨p.bytes.toArray⟩

/-- The path begins at the root. -/
def isAbsolute (p : Path) : Bool := p.bytes.head? = some separator

/-- A path taken from another; an absolute one stands alone. -/
def join (base p : Path) : Path :=
  if p.isAbsolute then p
  else match base.bytes.getLast? with
    | none => p
    | some last =>
      if last = separator then ⟨base.bytes ++ p.bytes⟩
      else ⟨base.bytes ++ separator :: p.bytes⟩

/-- A path taken from another by its name. -/
def joinName (base : Path) (n : Name) : Path := base.join ⟨n⟩

/-- The pieces between separators, empty ones included. -/
def pieces : List UInt8 → List Name
  | [] => [[]]
  | b :: rest =>
    match pieces rest with
    | [] => [[b]]
    | piece :: more => if b = separator then [] :: piece :: more else (b :: piece) :: more

/-- The component that a piece stands for behind the first place. -/
def componentOf (piece : Name) : Option Component :=
  if piece = [] || piece = selfName then none
  else if piece = upName then some .parent
  else some (.name piece)

/-- The parts of a path. -/
def components (p : Path) : List Component :=
  let found := pieces p.bytes
  let front : List Component :=
    if p.isAbsolute then [.root]
    else if found.head? = some selfName then [.current]
    else []
  front ++ found.filterMap componentOf

/-- The name at the end of a path; a path that ends in two dots has none. -/
def fileName? (p : Path) : Option Name :=
  match p.components.getLast? with
  | some (.name n) => some n
  | _ => none

/-- What follows the last dot of the name at the end, unless nothing stands before that dot. -/
def extension? (p : Path) : Option Name :=
  p.fileName?.bind fun n =>
    let ending := n.reverse.takeWhile (· ≠ 0x2E)
    if n.length ≤ ending.length + 1 then none else some ending.reverse

/-- The bytes without separators and single dots at the front. -/
def trimFront : List UInt8 → List UInt8
  | [] => []
  | b :: rest =>
    if b = separator then trimFront rest
    else if b = 0x2E && (rest.head? = none || rest.head? = some separator) then trimFront rest
    else b :: rest

/-- The bytes without separators and single dots at the end; the dots have to stand behind a
separator. -/
def trimBack (bytes : List UInt8) : List UInt8 :=
  (go bytes.reverse).reverse
where
  go : List UInt8 → List UInt8
    | [] => []
    | b :: rest =>
      if b = separator then go rest
      else if b = 0x2E && rest.head? = some separator then go rest
      else b :: rest

/-- The first part of a path behind its first place, and the bytes behind it. -/
def nextName (bytes : List UInt8) : Option (Component × List UInt8) :=
  let bytes := trimFront bytes
  match componentOf (bytes.takeWhile (· ≠ separator)) with
  | some c => some (c, bytes.dropWhile (· ≠ separator))
  | none => none

/-- The bytes behind the first place of a path: its root or its leading dot. -/
def behindFront (p : Path) : Option (Component × List UInt8) :=
  match p.components.head? with
  | some .root => some (.root, p.bytes.drop 1)
  | some .current => some (.current, p.bytes.drop 1)
  | _ => none

/-- The bytes behind some parts, if those come first. -/
def behindNames : List Component → List UInt8 → Option (List UInt8)
  | [], bytes => some bytes
  | c :: rest, bytes =>
    match nextName bytes with
    | some (found, behind) => if found = c then behindNames rest behind else none
    | none => none

/-- What is left of a path below another, when it lies there. -/
def withoutPrefix? (p base : Path) : Option Path :=
  match base.components with
  | [] => some ⟨trimBack p.bytes⟩
  | first :: rest =>
    let behind? : Option (List UInt8) :=
      match p.behindFront with
      | some (c, bytes) => if c = first then behindNames rest bytes else none
      | none => behindNames (first :: rest) p.bytes
    behind?.map fun bytes => ⟨trimBack (trimFront bytes)⟩

/-- A path below another, or the whole path where it lies elsewhere. -/
def below (p base : Path) : Path := (p.withoutPrefix? base).getD p

/-- The path without its last part; the root and the empty path have none. -/
def parent? (p : Path) : Option Path :=
  match p.components.getLast? with
  | none | some .root => none
  | some .current => some ⟨[]⟩
  | some _ =>
    let kept := (trimBack p.bytes).reverse.dropWhile (· ≠ separator) |>.reverse
    let trimmed := trimBack kept
    some ⟨if trimmed = [] && p.isAbsolute then [separator] else trimmed⟩

end Path

end Waymark.Disk
