import Waymark.Disk.Lookup

/-!
# What a change left behind

Two disks are compared by what stands in the second one and not in the first. Nothing that went away
counts, and neither do links and what is locked.

* `Volume.additions`: the directories and files of a disk that another one lacks.
-/

namespace Waymark.Disk

/-- A directory or a file, with the chain of names from the top that leads to it. -/
structure Addition where
  names : List Name
  /-- The content of a file; a directory has none. -/
  content : Option ByteArray

mutual

/-- All directories and files at a place, a directory before what lies in it. -/
def additionsAt (here : List Name) : Node → List Addition
  | .file content => [⟨here, some content⟩]
  | .directory entries => ⟨here, none⟩ :: additionsIn here entries
  | .link _ | .lockedFile | .lockedDirectory => []

/-- All directories and files among some entries. -/
def additionsIn (here : List Name) : List (Name × Node) → List Addition
  | [] => []
  | (n, node) :: rest => additionsAt (here ++ [n]) node ++ additionsIn here rest

end

/-- The directory or file stands on the disk as it is. -/
def Addition.isOn (a : Addition) (d : Volume) : Bool :=
  match d.top.at? a.names, a.content with
  | some (.file found), some content => found.data = content.data
  | some (.directory _), none => true
  | _, _ => false

/-- The directories and files of a disk that another one lacks or holds with another content. -/
def Volume.additions (old new : Volume) : List Addition :=
  (additionsAt [] new.top).filter fun a => !a.isOn old

end Waymark.Disk
