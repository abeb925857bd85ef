import Waymark.Disk.Lookup
import Waymark.Routing.Segment
import Waymark.Scan.Marker

/-!
# Walking through an application directory

The entries of a directory are visited in the order of their names, a directory before what lies in
it. Private directories are left out with all below them, and so are directories whose name could
only be matched as a wildcard, each of which is reported, as is a directory that cannot be read.
Links are not followed.

* `visits`: what a walk meets, in order.
-/

namespace Waymark.Scan

open Waymark.Disk (Name Node)
open Waymark.Routing

/-- Something met on a walk, with the directories that lead to it. -/
inductive Visit where
  /-- A marker file or a link with such a name. -/
  | marker (kind : Marker) (directories : List Name) (fileName : Name) (node : Node)
  /-- A directory whose name cannot be matched. -/
  | unroutable (directories : List Name)
  /-- A directory that cannot be read. -/
  | unreadable (directories : List Name)

/-- Both names in the order of their bytes. -/
def nameLe (a b : Name) : Bool := (compare a b).isLE

/-- What the entries of a directory contribute, put in the order of their names. -/
def inNameOrder (found : List (Name × List Visit)) : List Visit :=
  (found.mergeSort fun a b => nameLe a.1 b.1).flatMap Prod.snd

mutual

/-- What is met in a directory, in order. -/
def visitsOf (directories : List Name) : Node → List Visit
  | .directory entries => inNameOrder (entryVisits directories entries)
  | .file _ | .link _ | .lockedFile | .lockedDirectory => []

/-- What each entry of a directory contributes. -/
def entryVisits (directories : List Name) : List (Name × Node) → List (Name × List Visit)
  | [] => []
  | (n, node) :: rest =>
    let found : List Visit :=
      if node.isDirectory then
        if Segment.isPrivate n.display then []
        else if (Segment.classify n.display).isUnroutable then [.unroutable (directories ++ [n])]
        else if node.isLockedDirectory then [.unreadable (directories ++ [n])]
        else visitsOf (directories ++ [n]) node
      else match Marker.ofFileName? n.display with
        | some kind => [.marker kind directories n node]
        | none => []
    (n, found) :: entryVisits directories rest

end

/-- What is met in an application directory, in order. -/
def visits (app : Node) : List Visit := visitsOf [] app

end Waymark.Scan
