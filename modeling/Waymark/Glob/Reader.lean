import Waymark.Glob.Part

/-!
# Reading globs

In a glob `?` stands for one byte, `*` for any bytes, brackets for one byte out of a class, braces
for a choice between globs, and a backslash takes away the meaning of the character behind it. Two
stars stand for whole directories where separators or the ends of the text are around them, and for
one star elsewhere.

* `classFrom`: the ranges of a class;
* `doubleStar`: the part that two stars stand for;
* `Glob.read`: the glob of a text.
-/

namespace Waymark.Glob

/-- The ranges of a class behind its opening bracket, and the text behind the closing one. A bracket
or a dash in the first place stands for itself, and so does a dash in the last. The flags say that
nothing was read yet, and that a dash waits for the end of a range. -/
def classFrom : Bool → Bool → List (Char × Char) → List Char →
    Option (List (Char × Char) × List Char)
  | _, _, _, [] => none
  | isFirst, isOpen, found, c :: rest =>
    if c = ']' && !isFirst then some (if isOpen then ('-', '-') :: found else found, rest)
    else if c = '-' && !isFirst && !isOpen then classFrom false true found rest
    else if isOpen then
      match found with
      | [] => none
      | (low, _) :: more =>
        if c < low then none else classFrom false false ((low, c) :: more) rest
    else classFrom false false ((c, c) :: found) rest

/-- The bytes of a character. -/
def bytesOf (c : Char) : List UInt8 := (String.singleton c).toUTF8.toList

/-- The bytes that a range of characters stands for. Only the last byte of its low end and the first
of its high end span a range; every other byte stands for itself. -/
def byteRanges (low high : Char) : List (UInt8 × UInt8) :=
  let single (bytes : List UInt8) : List (UInt8 × UInt8) := bytes.map fun b => (b, b)
  if low = high then single (bytesOf low)
  else match (bytesOf low).getLast?, bytesOf high with
    | some first, last :: rest => single (bytesOf low).dropLast ++ (first, last) :: single rest
    | _, _ => []

/-- A class behind its opening bracket. -/
def classPart (text : List Char) : Option (Part × List Char) :=
  let (negated, text) : Bool × List Char :=
    match text with
    | '!' :: rest | '^' :: rest => (true, rest)
    | text => (false, text)
  (classFrom true false [] text).map fun (ranges, rest) =>
    (.oneOf negated (ranges.flatMap fun r => byteRanges r.1 r.2), rest)

/-- A group of braces that is not closed yet: what stands in front of it, and its branches so far,
all with the last one first. -/
structure Group where
  before : List Part
  branches : List (List Part)

/-- What was read so far: the parts of the innermost branch, the last one first, and the groups
around it, the innermost first. -/
structure Progress where
  parts : List Part
  groups : List Group

namespace Progress

/-- Adds a part. -/
def add (s : Progress) (p : Part) : Progress := { s with parts := p :: s.parts }

/-- The innermost branch belongs to a group. -/
def isInside (s : Progress) : Bool := !s.groups.isEmpty

/-- Opens a group. -/
def openGroup (s : Progress) : Progress := ⟨[], ⟨s.parts, []⟩ :: s.groups⟩

/-- Begins the next branch of a group; elsewhere a comma stands for itself. -/
def nextBranch (s : Progress) : Progress :=
  match s.groups with
  | [] => s.add (.literal ',')
  | g :: outer => ⟨[], ⟨g.before, s.parts :: g.branches⟩ :: outer⟩

/-- Closes a group. -/
def closeGroup (s : Progress) : Option Progress :=
  match s.groups with
  | [] => none
  | g :: outer =>
    some ⟨.choice ((s.parts :: g.branches).reverse.map List.reverse) :: g.before, outer⟩

/-- Puts a part in place of the last one, which was the separator in front of two stars. Stars that
stand for directories already keep what they stand for. -/
def replaceLast (s : Progress) (p : Part) : Progress :=
  match s.parts with
  | [] => s.add p
  | .directoriesFirst :: _ | .allBelow :: _ => s
  | _ :: rest => { s with parts := p :: rest }

/-- Adds two stars that stand for no directories. -/
def addStars (s : Progress) : Progress := (s.add .anything).add .anything

end Progress

/-- Adds two stars, given the character in front of them and the text behind them. Gives the last
character that was taken, too. -/
def doubleStar (previous : Option Char) (s : Progress) (text : List Char) :
    Progress × Char × List Char :=
  if s.parts.isEmpty then
    match text with
    | [] => (s.add .directoriesFirst, '*', [])
    | '/' :: rest => (s.add .directoriesFirst, '/', rest)
    | text => (s.addStars, '*', text)
  else if previous = some '/' || (s.isInside && (previous = some ',' || previous = some '{')) then
    match text with
    | [] => (s.replaceLast .allBelow, '*', [])
    | '/' :: rest => (s.replaceLast .directoriesBetween, '/', rest)
    | c :: rest =>
      if s.isInside && (c = ',' || c = '}') then (s.replaceLast .allBelow, '*', c :: rest)
      else (s.addStars, '*', c :: rest)
  else (s.addStars, '*', text)

/-- Reads a text with a bound on the number of its parts. -/
def readFrom : Nat → Option Char → Progress → List Char → Option Progress
  | _, _, s, [] => some s
  | 0, _, _, _ :: _ => none
  | fuel + 1, previous, s, c :: rest =>
    match c with
    | '?' => readFrom fuel (some c) (s.add .anyByte) rest
    | '*' =>
      match rest with
      | '*' :: rest =>
        let (s, last, rest) := doubleStar previous s rest
        readFrom fuel (some last) s rest
      | rest => readFrom fuel (some c) (s.add .anything) rest
    | '[' => (classPart rest).bind fun (p, rest) => readFrom fuel (some ']') (s.add p) rest
    | '{' => readFrom fuel (some c) s.openGroup rest
    | '}' => s.closeGroup.bind fun s => readFrom fuel (some c) s rest
    | ',' => readFrom fuel (some c) s.nextBranch rest
    | '\\' =>
      match rest with
      | [] => none
      | c :: rest => readFrom fuel (some c) (s.add (.literal c)) rest
    | c => readFrom fuel (some c) (s.add (.literal c)) rest

/-- The glob of a text; a class or group that is not closed, and a group that is not opened, make it
none. -/
def read (text : String) : Option Glob :=
  (readFrom text.toList.length none ⟨[], []⟩ text.toList).bind fun s =>
    if s.isInside then none else some ⟨s.parts.reverse⟩

end Waymark.Glob
