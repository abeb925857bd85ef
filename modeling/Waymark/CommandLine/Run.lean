import Waymark.CommandLine.Help
import Waymark.CommandLine.Report
import Waymark.Json.Printer
import Waymark.Project.Regeneration

/-!
# Running commands

A command is run on a disk. It gives two texts, an exit code and the disk as it is afterwards; what
it needs to know of the world besides the disk is part of its setting.

* `runRoutes`, `runValidate`, `runGenerate`, `runBuild`: the commands;
* `run`: a whole command line.
-/

namespace Waymark.CommandLine

open Waymark.Disk (Volume Path DiskFault)
open Waymark.Project
open Waymark.Scan (AppScan ScanFault)

/-- What running the build tool comes to. -/
inductive ToolRun where
  | exited (code : Nat) (stderr : String)
  | notStarted (fault : DiskFault)

/-- What a command needs to know besides its options. -/
structure Setting where
  disk : Volume
  /-- The current directory. -/
  project : Path
  /-- What running the build tool with some arguments comes to. -/
  tool : List String → ToolRun
  /-- How many milliseconds the work takes. -/
  elapsed : Nat

/-- Why a command fails. -/
inductive CommandFault where
  | config (fault : ConfigFault)
  | regenerate (fault : RegenerateFault)
  /-- A path cannot be written as JSON. -/
  | notRecordable
  | conflicts (count : Nat)
  | toolNotStarted (fault : DiskFault)
  | toolFailed (arguments : List String) (code : Nat)

namespace CommandFault

/-- The wording of a fault. -/
def message : CommandFault → String
  | config fault => fault.message
  | regenerate fault => fault.message
  | notRecordable => Scan.notRecordable
  | conflicts count => toString count ++ " route conflict(s) found"
  | toolNotStarted fault => fault.message
  | toolFailed arguments code =>
    "`cargo " ++ Text.joinStrings ' ' arguments ++ "` failed with exit status: " ++ toString code

/-- The faults that brought a fault about, each by the next one. -/
def causes : CommandFault → List String
  | regenerate (.generate (.disk _ fault)) => [fault.message]
  | regenerate (.scan (.walk root fault)) => [Scan.walkFault root fault, fault.message]
  | _ => []

/-- The exit code. A function whose text cannot be cut out ends the whole program. -/
def code : CommandFault → Nat
  | regenerate (.scan (.extract _)) => 101
  | _ => 1

/-- Causes as they are printed; they are numbered if there are several. -/
def causeLines : List String → String
  | [] => ""
  | [cause] => "\n\nCaused by:\n    " ++ cause
  | causes => "\n\nCaused by:" ++ String.join (causes.mapIdx fun i cause =>
      "\n    " ++ toString i ++ ": " ++ cause)

/-- A fault as it is printed. -/
def report (f : CommandFault) : String :=
  "Error: " ++ f.message ++ causeLines f.causes ++ "\n"

end CommandFault

/-- What a command gives. -/
structure Outcome where
  code : Nat
  stdout : String
  stderr : String
deriving DecidableEq

namespace Outcome

/-- A command that did its work. -/
def done (stdout stderr : String) : Outcome := ⟨0, stdout, stderr⟩

/-- A command that failed, with what it printed before. -/
def failed (fault : CommandFault) (stdout stderr : String) : Outcome :=
  ⟨fault.code, stdout, stderr ++ fault.report⟩

end Outcome

/-- Lists the routes. -/
def runRoutes (w : Setting) (config : Config) (asJson : Bool) : Outcome :=
  match scanApp w.disk w.project config with
  | .error fault => .failed (.regenerate (.scan fault)) "" ""
  | .ok scan =>
    if asJson then
      match listing? scan with
      | some listing => .done (listing.pretty ++ "\n") ""
      | none => .failed .notRecordable "" ""
    else .done (listingText scan) (diagnostics w.project scan)

/-- What is printed about an output directory that is no module. -/
def moduleWarning (w : Setting) (config : Config) : String :=
  match Generate.resolve w.disk w.project (config.outputDirectory w.project) with
  | .ok _ => ""
  | .error fault => "  warning " ++ fault.message ++ " (generation will fail)\n"

/-- Scans the project and reports its problems. Only conflicts can make it fail. -/
def runValidate (w : Setting) (config : Config) (isStrict : Bool) : Outcome :=
  match scanApp w.disk w.project config with
  | .error fault => .failed (.regenerate (.scan fault)) "" ""
  | .ok scan =>
    let problems := diagnostics w.project scan ++ moduleWarning w config
    if isStrict && !scan.conflicts.isEmpty then
      .failed (.conflicts scan.conflicts.length) "" problems
    else .done ("✓ " ++ scan.summary ++ "\n") problems

/-- The lines about what was generated. -/
def generatedLines (w : Setting) (scan : AppScan) (written : List Path) : String :=
  (if written.isEmpty then "  · generated files are up to date\n"
    else String.join (written.map fun p => "  ✓ " ++ (p.below w.project).display ++ "\n"))
    ++ scan.summary ++ " " ++ toString w.elapsed ++ "ms\n"

/-- Writes the generated files. -/
def runGenerate (w : Setting) (config : Config) (quiet : Bool) : Outcome × Volume :=
  match regenerate w.disk w.project config with
  | (.error fault, disk) => (.failed (.regenerate fault) "" "", disk)
  | (.ok (scan, generated), disk) =>
    let out := if quiet then "" else generatedLines w scan generated.written
    (.done out (diagnostics w.project scan), disk)

/-- The line about what was generated for a build. -/
def buildLine (config : Config) (routeCount written : Nat) : String :=
  "Generated: " ++ config.name ++ ": " ++ toString routeCount ++ " routes, " ++ toString written
    ++ " file(s) written\n"

/-- The line about a build. -/
def builtLine (arguments : List String) (elapsed : Nat) : String :=
  "  ✓ cargo " ++ Text.joinStrings ' ' arguments ++ " " ++ toString elapsed ++ "ms\n"

/-- Writes the generated files and runs the build tool. -/
def runBuild (w : Setting) (config : Config) (isDebug quiet : Bool) : Outcome × Volume :=
  match regenerate w.disk w.project config with
  | (.error fault, disk) => (.failed (.regenerate fault) "" "", disk)
  | (.ok (scan, generated), disk) =>
    let problems := diagnostics w.project scan
    let out := if quiet then "" else buildLine config generated.routeCount generated.written.length
    let arguments := if config.release && !isDebug then ["build", "--release"] else ["build"]
    match w.tool arguments with
    | .notStarted fault => (.failed (.toolNotStarted fault) out problems, disk)
    | .exited 0 _ =>
      (.done (if quiet then out else out ++ builtLine arguments w.elapsed) problems, disk)
    | .exited code text => (.failed (.toolFailed arguments code) out (problems ++ text), disk)

/-- Runs a command. -/
def runCommand (w : Setting) (config : Config) (i : Invocation) : Outcome × Volume :=
  match i.command with
  | .routes => (runRoutes w config i.flag, w.disk)
  | .validate => (runValidate w config i.flag, w.disk)
  | .generate => runGenerate w config i.quiet
  | .build => runBuild w config i.flag i.quiet

/-- The exit code of a command line that cannot be read. -/
def usageCode : Nat := 2

/-- Runs a command line. -/
def run (w : Setting) (arguments : List String) : Outcome × Volume :=
  match Request.read arguments with
  | .error fault => (⟨usageCode, "", "error: " ++ fault.message ++ "\n"⟩, w.disk)
  | .ok (.help command) => (.done (helpText command) "", w.disk)
  | .ok .version => (.done versionText "", w.disk)
  | .ok (.run invocation) =>
    match Config.load w.disk w.project with
    | .error fault => (.failed (.config fault) "" "", w.disk)
    | .ok config => runCommand w config invocation

end Waymark.CommandLine
