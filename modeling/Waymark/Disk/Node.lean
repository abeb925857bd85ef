import Waymark.Disk.Path

/-!
# Files and directories

A directory holds entries by name, in no order that matters; a link holds the path it stands for.
Files and directories that the program has no right to open are locked.

* `Node.child?`: the entry with a name;
* `Node.at?`: the node that a chain of names leads to, links not followed;
* `Node.put`, `Node.erase`: an entry set or taken away at the end of a chain.
-/

namespace Waymark.Disk

/-- What a name stands for. -/
inductive Node where
  | file (content : ByteArray)
  | directory (entries : List (Name × Node))
  | link (target : List UInt8)
  /-- A file that may neither be read nor written. -/
  | lockedFile
  /-- A directory that may neither be listed nor entered. What it holds is out of reach. -/
  | lockedDirectory

namespace Node

/-- A directory without entries. -/
def emptyDirectory : Node := directory []

/-- The node is a directory, open or locked. -/
def isDirectory : Node → Bool
  | directory _ | lockedDirectory => true
  | file _ | link _ | lockedFile => false

/-- The node is a directory that may not be listed. -/
def isLockedDirectory : Node → Bool
  | lockedDirectory => true
  | file _ | directory _ | link _ | lockedFile => false

/-- The node that some entries hold under a name. -/
def find (n : Name) : List (Name × Node) → Option Node
  | [] => none
  | (m, node) :: rest => if m = n then some node else find n rest

/-- The node that a directory holds under a name. -/
def child? (n : Name) : Node → Option Node
  | directory entries => find n entries
  | file _ | link _ | lockedFile | lockedDirectory => none

/-- The node at the end of a chain of names. -/
def at? : List Name → Node → Option Node
  | [], node => some node
  | n :: rest, node => (node.child? n).bind (at? rest)

/-- Entries with a name set. -/
def setEntry (n : Name) (value : Node) : List (Name × Node) → List (Name × Node)
  | [] => [(n, value)]
  | (m, node) :: rest =>
    if m = n then (m, value) :: rest else (m, node) :: setEntry n value rest

/-- The node with what stands at the end of a chain set; the directories on the way have to be
there. -/
def put (value : Node) : List Name → Node → Node
  | [], _ => value
  | n :: rest, directory entries =>
    match find n entries, rest with
    | some node, _ => directory (setEntry n (put value rest node) entries)
    | none, [] => directory (setEntry n value entries)
    | none, _ :: _ => directory entries
  | _ :: _, node => node

/-- The node without what stands at the end of a chain. -/
def erase : List Name → Node → Node
  | [], node => node
  | [n], directory entries => directory (entries.filter fun e => e.1 ≠ n)
  | n :: rest, directory entries =>
    match find n entries with
    | some node => directory (setEntry n (erase rest node) entries)
    | none => directory entries
  | _ :: _, node => node

end Node

end Waymark.Disk
