import Waymark.Disk.Lookup

/-!
# Changing a disk

Every change gives a new disk or a fault, and a fault leaves the disk as it was.

* `Volume.write`: a file's content replaced, or the file made in a directory that is there;
* `Volume.makeDirectory`, `Volume.makeDirectories`: a directory made, with those above it;
* `Volume.remove`, `Volume.rename`: an entry taken away or moved.
-/

namespace Waymark.Disk.Volume

/-- The disk with a node at the end of a chain, which is given with the last name first. -/
def putAt (d : Volume) (reversed : List Name) (node : Node) : Volume :=
  { d with top := Node.put node reversed.reverse d.top }

/-- Replaces the content of a file, or makes the file. -/
def write (d : Volume) (p : Path) (content : ByteArray) : Except DiskFault Volume :=
  match d.place true p with
  | .error e => .error e
  | .ok ⟨_, some (.directory _)⟩ | .ok ⟨_, some .lockedDirectory⟩ => .error .isDirectory
  | .ok ⟨_, some .lockedFile⟩ => .error .permissionDenied
  | .ok ⟨reversed, some _⟩ => .ok (d.putAt reversed (.file content))
  | .ok ⟨reversed, none⟩ =>
    if p.bytes.getLast? = some separator then .error .isDirectory
    else .ok (d.putAt reversed (.file content))

/-- The path without separators at its end, unless it consists of them. -/
def withoutTrailing (p : Path) : Path :=
  match p.bytes.reverse.dropWhile (· = separator) with
  | [] => p
  | reversed => ⟨reversed.reverse⟩

/-- Makes a directory in one that is there. -/
def makeDirectory (d : Volume) (p : Path) : Except DiskFault Volume :=
  match d.place false (withoutTrailing p) with
  | .error e => .error e
  | .ok ⟨_, some _⟩ => .error .alreadyExists
  | .ok ⟨reversed, none⟩ => .ok (d.putAt reversed .emptyDirectory)

/-- Makes a directory with those above it, with a bound on how many are missing. A directory that is
there already is no failure. -/
def makeDirectoriesWithin : Nat → Volume → Path → Except DiskFault Volume
  | 0, _, _ => .error .noWholeTree
  | fuel + 1, d, p =>
    if p.bytes = [] then .ok d
    else match d.makeDirectory p with
      | .ok changed => .ok changed
      | .error .notFound =>
        match p.parent? with
        | none => .error .noWholeTree
        | some above =>
          match makeDirectoriesWithin fuel d above with
          | .error e => .error e
          | .ok d =>
            match d.makeDirectory p with
            | .ok changed => .ok changed
            | .error e => if d.isDirectory p then .ok d else .error e
      | .error e => if d.isDirectory p then .ok d else .error e

/-- Makes a directory with those above it. A path has no more directories above it than bytes. -/
def makeDirectories (d : Volume) (p : Path) : Except DiskFault Volume :=
  makeDirectoriesWithin (p.bytes.length + 1) d p

/-- Makes a link. -/
def makeLink (d : Volume) (p : Path) (target : List UInt8) : Except DiskFault Volume :=
  match d.place false p with
  | .error e => .error e
  | .ok ⟨_, some _⟩ => .error .alreadyExists
  | .ok ⟨reversed, none⟩ => .ok (d.putAt reversed (.link target))

/-- Takes an entry away, with all below it; a link itself goes and not what it stands for. -/
def remove (d : Volume) (p : Path) : Except DiskFault Volume :=
  match d.place false p with
  | .error e => .error e
  | .ok ⟨_, none⟩ => .error .notFound
  | .ok ⟨reversed, some _⟩ => .ok { d with top := Node.erase reversed.reverse d.top }

/-- Moves an entry, replacing what stands at the other path. -/
def rename (d : Volume) (p target : Path) : Except DiskFault Volume :=
  match d.place false p with
  | .error e => .error e
  | .ok ⟨_, none⟩ => .error .notFound
  | .ok ⟨reversed, some node⟩ =>
    match d.place false target with
    | .error e => .error e
    | .ok ⟨reversedTarget, _⟩ =>
      let without : Volume := { d with top := Node.erase reversed.reverse d.top }
      .ok (without.putAt reversedTarget node)

end Waymark.Disk.Volume
