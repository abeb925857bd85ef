import Waymark.Http.Method

/-!
# Mount order

Routes are mounted by descending precedence, then longer patterns first, then by pattern and by
method. Lengths count bytes, and patterns compare by their bytes, which is the order of their
characters.
-/

namespace Waymark.Routing

open Waymark.Http (Method)

/-- What the place of a route in mount order depends on. -/
structure MountKey where
  priority : UInt8
  pattern : String
  method : Method
deriving DecidableEq

namespace MountKey

/-- Compares two texts by their characters. -/
def compareText (a b : String) : Ordering :=
  if a < b then .lt else if a = b then .eq else .gt

/-- Which of two routes is mounted first. -/
def compare (a b : MountKey) : Ordering :=
  (Ord.compare b.priority.toNat a.priority.toNat).then <|
  (Ord.compare b.pattern.utf8ByteSize a.pattern.utf8ByteSize).then <|
  (compareText a.pattern b.pattern).then <|
  Ord.compare a.method.rank b.method.rank

/-- The first route is not mounted after the second. -/
def le (a b : MountKey) : Bool := (compare a b).isLE

end MountKey

/-- Items in mount order; items with one key keep their order. -/
def inMountOrder {α : Type} (key : α → MountKey) (items : List α) : List α :=
  items.mergeSort fun a b => (key a).le (key b)

end Waymark.Routing
