import Waymark.Text.Split

/-!
# Globs

A glob is a sequence of parts, each of which takes some bytes of a path. A part may take bytes in
more than one way, so what it leaves over is a list of endings of the path.

* `Part.after`: what a part can leave over of a text;
* `Glob.accepts`: all parts together can take a whole path.
-/

namespace Waymark.Glob

/-- A part of a glob. A single byte counts as one unit, also inside a character of several. -/
inductive Part where
  | literal (c : Char)
  | anyByte
  /-- Any bytes, separators included. -/
  | anything
  /-- Whole directories in front of a path, or none. -/
  | directoriesFirst
  /-- A separator and all that follows it. -/
  | allBelow
  /-- Whole directories between two separators, which may be the same. -/
  | directoriesBetween
  /-- One byte from some ranges, or one from none of them. -/
  | oneOf (negated : Bool) (ranges : List (UInt8 × UInt8))
  /-- One of several globs. -/
  | choice (branches : List (List Part))

/-- The byte between the names of a path. -/
def slash : UInt8 := 0x2F

/-- All endings of a text, itself and the empty one included. -/
def endings : List UInt8 → List (List UInt8)
  | [] => [[]]
  | b :: rest => (b :: rest) :: endings rest

/-- The endings of a text that stand behind a separator. -/
def endingsBelow : List UInt8 → List (List UInt8)
  | [] => []
  | b :: rest => if b = slash then rest :: endingsBelow rest else endingsBelow rest

/-- The byte lies in one of some ranges, both ends included. -/
def isIn (ranges : List (UInt8 × UInt8)) (b : UInt8) : Bool :=
  ranges.any fun r => r.1 ≤ b && b ≤ r.2

mutual

/-- The part stands for nothing at all: a choice without a branch that says something. -/
def Part.isVoid : Part → Bool
  | .choice branches => areAllVoid branches
  | _ => false

/-- Every part stands for nothing. -/
def isVoid : List Part → Bool
  | [] => true
  | p :: rest => p.isVoid && isVoid rest

/-- Every branch stands for nothing. -/
def areAllVoid : List (List Part) → Bool
  | [] => true
  | b :: rest => isVoid b && areAllVoid rest

end

mutual

/-- What a part can leave over of a text. A branch that says nothing is no branch, unless all are
so. -/
def Part.after : Part → List UInt8 → List (List UInt8)
  | .literal c, text => (Text.withoutPrefix (String.singleton c).toUTF8.toList text).toList
  | .anyByte, text => text.tail?.toList
  | .anything, text => endings text
  | .directoriesFirst, text => text :: endingsBelow text
  | .allBelow, text =>
    match text with
    | [] => []
    | b :: rest => if b = slash then endings rest else []
  | .directoriesBetween, text =>
    match text with
    | [] => []
    | b :: rest => if b = slash then rest :: endingsBelow rest else []
  | .oneOf negated ranges, text =>
    match text with
    | [] => []
    | b :: rest => if isIn ranges b = negated then [] else [rest]
  | .choice branches, text => if areAllVoid branches then [text] else afterOne branches text

/-- What parts in order can leave over of some texts. -/
def afterAll : List Part → List (List UInt8) → List (List UInt8)
  | [], texts => texts
  | p :: rest, texts => afterAll rest (texts.flatMap fun text => p.after text).eraseDups

/-- What one of some branches can leave over of a text. -/
def afterOne : List (List Part) → List UInt8 → List (List UInt8)
  | [], _ => []
  | b :: rest, text => (if isVoid b then [] else afterAll b [text]) ++ afterOne rest text

end

end Waymark.Glob

namespace Waymark

/-- A pattern of paths. -/
structure Glob where
  parts : List Glob.Part

/-- The glob takes all of a path. Directories in front, alone, stand for every path. -/
def Glob.accepts (g : Glob) (path : List UInt8) : Bool :=
  match g.parts with
  | [.directoriesFirst] => true
  | parts => (afterAll parts [path]).contains []

end Waymark
