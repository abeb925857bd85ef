import Waymark.CommandLine.Run
import Waymark.Disk.Difference

/-!
# The program

Reads the project in the current directory, runs a command line on it, writes what was added and
prints what the command gives. This program starts no other program, so a build ends as it does
where the build tool cannot be found.
-/

namespace Waymark.CommandLine

open Waymark.Disk (Volume Name Node Path Addition)

/-- How many directories inside each other are read. -/
def deepest : Nat := 256

/-- Directories of a project that no command looks into. -/
def leftOut : List String := ["target", ".git"]

/-- The content of the file matters to a command. -/
def isRead (fileName : String) : Bool := fileName.endsWith ".rs" || fileName.endsWith ".toml"

/-- Reads what stands at an entry of a directory. A link is kept as the path that it leads to. -/
def readNode : Nat → IO.FS.DirEntry → IO Node
  | 0, _ => return .emptyDirectory
  | depth + 1, entry => do
    match (← entry.path.symlinkMetadata).type with
    | .dir =>
      try
        let entries ← entry.path.readDir
        let nodes ← entries.toList.mapM fun e =>
            return (Name.ofString e.fileName, ← readNode depth e)
        return .directory nodes
      catch _ => return .lockedDirectory
    | .symlink =>
      try return .link (← IO.FS.realPath entry.path).toString.toUTF8.toList
      catch _ => return .link []
    | _ =>
      if isRead entry.fileName then
        try return .file (← IO.FS.readBinFile entry.path)
        catch _ => return .lockedFile
      else return .file ByteArray.empty

/-- Reads the project in the current directory. -/
def readProject : IO (Volume × Path) := do
  let here ← IO.currentDir
  let entries := (← here.readDir).toList.filter fun e => !leftOut.contains e.fileName
  let nodes ← entries.mapM fun e => return (Name.ofString e.fileName, ← readNode deepest e)
  let names := (Path.pieces here.toString.toUTF8.toList).filter (· ≠ [])
  let top := names.foldr (fun n node => .directory [(n, node)]) (Node.directory nodes)
  return (⟨top, names⟩, Path.ofString here.toString)

/-- Makes a directory or writes a file. -/
def writeAddition (a : Addition) : IO Unit := do
  let path := "/" ++ Text.joinStrings '/' (a.names.map Name.display)
  match a.content with
  | none => IO.FS.createDirAll path
  | some content => IO.FS.writeBinFile path content

/-- Runs a command line in the current directory. -/
def runHere (arguments : List String) : IO UInt32 := do
  let start ← IO.monoMsNow
  let (disk, project) ← readProject
  let elapsed := (← IO.monoMsNow) - start
  let (outcome, after) := run ⟨disk, project, fun _ => .notStarted .notFound, elapsed⟩ arguments
  (disk.additions after).forM writeAddition
  IO.print outcome.stdout
  IO.eprint outcome.stderr
  return outcome.code.toUInt32

end Waymark.CommandLine

/-- Runs the command line that the program was started with. -/
def main (arguments : List String) : IO UInt32 := Waymark.CommandLine.runHere arguments
