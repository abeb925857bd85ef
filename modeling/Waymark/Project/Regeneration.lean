import Waymark.Generate.Output
import Waymark.Project.Config
import Waymark.Scan.Collect

/-!
# Regenerating a project

The application directory of a project is scanned, and the files of its output directory are written
anew. Nothing is written before the scan and the module path are known to be good.

* `scanApp`: the scan of a project;
* `regenerate`: the scan with what was generated from it.
-/

namespace Waymark.Project

open Waymark.Disk (Volume Path)
open Waymark.Generate (GenerateFault Generated)
open Waymark.Scan (AppScan ScanFault Scanned)

/-- Why a project is not regenerated. -/
inductive RegenerateFault where
  | scan (fault : ScanFault)
  | generate (fault : GenerateFault)

/-- The wording of a fault. -/
def RegenerateFault.message : RegenerateFault → String
  | scan fault => fault.message
  | generate fault => fault.message

/-- Scans the application directory of a project. -/
def scanApp (disk : Volume) (project : Path) (config : Config) : Scanned AppScan :=
  Scan.scan disk (config.appDirectory project)

/-- Scans a project and writes its generated files. -/
def regenerate (disk : Volume) (project : Path) (config : Config) :
    Except RegenerateFault (AppScan × Generated) × Volume :=
  match scanApp disk project config with
  | .error fault => (.error (.scan fault), disk)
  | .ok scan =>
    let output := config.outputDirectory project
    match Generate.resolve disk project output with
    | .error fault => (.error (.generate (.module fault)), disk)
    | .ok modulePath =>
      match Generate.generate disk scan modulePath output with
      | (.error fault, disk) => (.error (.generate fault), disk)
      | (.ok generated, disk) => (.ok (scan, generated), disk)

end Waymark.Project
