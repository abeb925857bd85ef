import Waymark.Disk.Change
import Waymark.Generate.ModulePath
import Waymark.Generate.Render

/-!
# Writing the generated files

Both files of a scan are rendered before anything is written, and a file whose content stays the
same is not touched.

* `render`: the text of both files;
* `generate`: the files written into the output directory.
-/

namespace Waymark.Generate

open Waymark.Disk (Volume Path DiskFault)
open Waymark.Scan (AppScan)

/-- The text of both files. -/
structure Rendered where
  functions : String
  registration : String
  /-- How many routes and pages are registered. -/
  routeCount : Nat

/-- Why nothing was generated. -/
inductive GenerateFault where
  | module (fault : ModuleFault)
  /-- A directory or file could not be made. -/
  | disk (path : Path) (fault : DiskFault)

/-- The wording of a fault. -/
def GenerateFault.message : GenerateFault → String
  | module fault => fault.message
  | disk path fault => "I/O error on " ++ path.display ++ ": " ++ fault.message

/-- The text of both files of a scan. -/
def render (scan : AppScan) (modulePath : String) : Except ModuleFault Rendered := do
  validate modulePath
  let plan := Plan.ofScan scan
  let app := scan.root.fileName?.map Disk.Name.display
  return ⟨functionsText app plan, registrationText app modulePath plan, plan.routes.length⟩

/-- What was generated. -/
structure Generated where
  functionsPath : Path
  registrationPath : Path
  /-- The files that were written because their content changed. -/
  written : List Path
  routeCount : Nat

/-- Writes a file unless it holds the text already: whether it was written, and the disk. -/
def writeIfChanged (disk : Volume) (path : Path) (text : String) :
    Except GenerateFault (Bool × Volume) :=
  let same : Bool := match disk.readText path with
    | .ok found => found = text
    | .error _ => false
  if same then .ok (false, disk)
  else match disk.write path text.toUTF8 with
    | .ok disk => .ok (true, disk)
    | .error fault => .error (.disk path fault)

/-- Writes files that changed, in order. What was written before a failure stays, so the disk is
given in either case. -/
def writeAll : Volume → List (Path × String) → Except GenerateFault (List Path) × Volume
  | disk, [] => (.ok [], disk)
  | disk, (path, text) :: rest =>
    match writeIfChanged disk path text with
    | .error fault => (.error fault, disk)
    | .ok (changed, disk) =>
      let (more, disk) := writeAll disk rest
      (more.map fun written => if changed then path :: written else written, disk)

/-- Renders a scan and writes both files into a directory, which is made if it is missing. -/
def generate (disk : Volume) (scan : AppScan) (modulePath : String) (output : Path) :
    Except GenerateFault Generated × Volume :=
  match render scan modulePath with
  | .error fault => (.error (.module fault), disk)
  | .ok rendered =>
    match disk.makeDirectories output with
    | .error fault => (.error (.disk output fault), disk)
    | .ok disk =>
      let functionsPath := output.join (Path.ofString "handlers.rs")
      let registrationPath := output.join (Path.ofString "routes.rs")
      let (written, disk) := writeAll disk
        [(functionsPath, rendered.functions), (registrationPath, rendered.registration)]
      (written.map fun w => ⟨functionsPath, registrationPath, w, rendered.routeCount⟩, disk)

end Waymark.Generate
