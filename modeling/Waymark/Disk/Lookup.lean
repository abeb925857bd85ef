import Waymark.Disk.Node

/-!
# Finding what a path names

A disk is a tree of nodes and a current directory. A path is followed name by name; a link on the
way is replaced by the path it stands for, at most forty times.

* `Volume.resolve`: the chain of names that a path leads to, and what stands there;
* `Volume.read`, `Volume.readText`: the content of a file;
* `Volume.isDirectory`, `Volume.doesExist`: questions whose failures count as no.
-/

namespace Waymark.Disk

/-- Why something on a disk cannot be found, read or written. -/
inductive DiskFault where
  | notFound
  | alreadyExists
  | notDirectory
  | isDirectory
  | tooManyLinks
  | nameTooLong
  | permissionDenied
  /-- The content of a file is no text. -/
  | notText
  /-- No directory above the path could be made. -/
  | noWholeTree
deriving DecidableEq

/-- The wording of a fault. -/
def DiskFault.message : DiskFault → String
  | notFound => "No such file or directory (os error 2)"
  | alreadyExists => "File exists (os error 17)"
  | notDirectory => "Not a directory (os error 20)"
  | isDirectory => "Is a directory (os error 21)"
  | tooManyLinks => "Too many levels of symbolic links (os error 40)"
  | nameTooLong => "File name too long (os error 36)"
  | permissionDenied => "Permission denied (os error 13)"
  | notText => "stream did not contain valid UTF-8"
  | noWholeTree => "failed to create whole tree"

/-- A file system with a current directory, given as the chain of names from the top. -/
structure Volume where
  top : Node
  current : List Name

/-- The names that a path goes through. A separator at the end asks for a directory and counts as an
empty name. -/
def steps (bytes : List UInt8) : List Name :=
  let found := (Path.pieces bytes).filter (· ≠ [])
  if bytes.getLast? = some separator then found ++ [[]] else found

/-- The longest name that a directory can hold. -/
def longestName : Nat := 255

/-- How many links are followed on the way to one file. -/
def mostLinks : Nat := 40

/-- What a path leads to: a chain of names from the top, the last name first, and the node there if
there is one. -/
structure Place where
  reversed : List Name
  node : Option Node

namespace Volume

/-- Follows names from a directory. A missing last name is no failure. A link at the end is followed
only on demand. -/
def follow (d : Volume) (followLast : Bool) : Nat → List Name → List Name → Except DiskFault Place
  | _, here, [] => .ok ⟨here, d.top.at? here.reverse⟩
  | links, here, n :: rest =>
    if n = [] || n = selfName then follow d followLast links here rest
    else if n = upName then follow d followLast links here.tail rest
    else if longestName < n.length then .error .nameTooLong
    else
      let there := n :: here
      match d.top.at? there.reverse with
      | none => if rest.all (· = []) then .ok ⟨there, none⟩ else .error .notFound
      | some (.directory _) => follow d followLast links there rest
      | some (.file content) =>
        if rest.isEmpty then .ok ⟨there, some (.file content)⟩ else .error .notDirectory
      | some .lockedFile =>
        if rest.isEmpty then .ok ⟨there, some .lockedFile⟩ else .error .notDirectory
      | some .lockedDirectory =>
        if rest.all (· = []) then .ok ⟨there, some .lockedDirectory⟩
        else .error .permissionDenied
      | some (.link target) =>
        if rest.isEmpty && !followLast then .ok ⟨there, some (.link target)⟩
        else if target = [] then .error .notFound
        else match links with
          | 0 => .error .tooManyLinks
          | links + 1 =>
            let start := if target.head? = some separator then [] else here
            follow d followLast links start (steps target ++ rest)
termination_by links _ names => (links, names.length)

/-- The place that a path leads to, where a missing last name is no failure. -/
def place (d : Volume) (followLast : Bool) (p : Path) : Except DiskFault Place :=
  if p.bytes = [] then .error .notFound
  else d.follow followLast mostLinks (if p.isAbsolute then [] else d.current.reverse)
    (steps p.bytes)

/-- What a path leads to, links followed. -/
def resolve (d : Volume) (p : Path) : Except DiskFault Node :=
  match d.place true p with
  | .error e => .error e
  | .ok ⟨_, some node⟩ => .ok node
  | .ok ⟨_, none⟩ => .error .notFound

/-- The path leads to a directory. -/
def isDirectory (d : Volume) (p : Path) : Bool :=
  match d.resolve p with
  | .ok node => node.isDirectory
  | .error _ => false

/-- The path leads somewhere. -/
def doesExist (d : Volume) (p : Path) : Bool :=
  match d.resolve p with
  | .ok _ => true
  | .error _ => false

/-- The content of the file that a path leads to. -/
def read (d : Volume) (p : Path) : Except DiskFault ByteArray :=
  match d.resolve p with
  | .ok (.file content) => .ok content
  | .ok (.directory _) => .error .isDirectory
  | .ok (.link _) => .error .tooManyLinks
  | .ok .lockedFile | .ok .lockedDirectory => .error .permissionDenied
  | .error e => .error e

/-- The content of a file as text. -/
def textOf (content : ByteArray) : Except DiskFault String :=
  match Text.Utf8.decode? content with
  | some text => .ok text
  | none => .error .notText

/-- The text of the file that a path leads to. -/
def readText (d : Volume) (p : Path) : Except DiskFault String :=
  (d.read p).bind textOf

end Volume

end Waymark.Disk
