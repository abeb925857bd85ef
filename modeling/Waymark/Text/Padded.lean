/-!
# Texts in columns

A text is filled with blanks to a least width, counted in characters, and never cut by that.
-/

namespace Waymark.Text

/-- Where a text stands inside its column. -/
inductive Side where
  | left
  | right
  | centre

/-- That many blanks. -/
def blanks (n : Nat) : String := String.ofList (List.replicate n ' ')

/-- The text filled with blanks to `width`; of an odd fill around a centred text, the larger half
goes to the right. -/
def padded (side : Side) (width : Nat) (text : String) : String :=
  let fill := width - text.length
  match side with
  | .left => text ++ blanks fill
  | .right => blanks fill ++ text
  | .centre => blanks (fill / 2) ++ text ++ blanks (fill - fill / 2)

/-- The first characters of a text, at most `limit`. -/
def cut (limit : Nat) (text : String) : String := String.ofList (text.toList.take limit)

end Waymark.Text
