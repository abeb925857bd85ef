/-!
# Sets of characters as ranges

A property of characters beyond ASCII is a list of ranges of code points.
-/

namespace Waymark.Text

/-- The character lies in one of the ranges, ends included. -/
def inRanges (ranges : List (Nat × Nat)) (c : Char) : Bool :=
  ranges.any (fun r => r.1 ≤ c.toNat && c.toNat ≤ r.2)

end Waymark.Text
