import Waymark.Project.Listing
import Waymark.Text.Padded

/-!
# Reports

What the commands print about a scan: its problems, each on a line, and its routes in columns. Paths
are shown below the project where they lie in it.

* `diagnostics`: the problems of a scan;
* `listingText`: its routes, middleware, layouts and loaders.
-/

namespace Waymark.CommandLine

open Waymark.Disk (Path)
open Waymark.Generate (byScope)
open Waymark.Project (Row rows)
open Waymark.Scan (AppScan Warning Conflict FunctionFile location)
open Waymark.Text (padded)

/-- The line of a warning. -/
def warningLine (project : Path) (w : Warning) : String :=
  "  warning " ++ location (w.path.below project) w.line ++ " " ++ w.problem.message ++ "\n"

/-- The line of a conflict. -/
def conflictLine (project : Path) (c : Conflict) : String :=
  "  conflict " ++ c.method.wireName ++ " " ++ c.pattern ++ " defined in both "
    ++ (c.first.below project).display ++ " and " ++ (c.second.below project).display
    ++ " (keeping the first)\n"

/-- The problems of a scan. -/
def diagnostics (project : Path) (s : AppScan) : String :=
  String.join (s.warnings.map (warningLine project) ++ s.conflicts.map (conflictLine project))

/-- The line of a row. -/
def rowLine (r : Row) : String :=
  "  " ++ padded .left 8 r.method.wireName ++ " " ++ padded .left 40 r.pattern ++ " "
    ++ padded .right 3 (toString r.priority.toNat) ++ "  " ++ padded .left 5 r.kind ++ " "
    ++ r.file ++ "\n"

/-- The line of a middleware. -/
def middlewareLine (m : FunctionFile) : String :=
  let scope := if m.file.scope = "" then "(root)" else m.file.scope
  "  " ++ padded .left 40 m.file.pattern ++ " " ++ padded .left 30 scope ++ " "
    ++ m.file.displayPath ++ "\n"

/-- The line of a layout or a loader. -/
def functionLine (f : FunctionFile) : String :=
  "  " ++ padded .left 40 f.function.name ++ " " ++ f.file.displayPath ++ "\n"

/-- Lines below a heading, behind an empty line; nothing at all when there are none. -/
def block (heading : String) (lines : List String) : String :=
  if lines.isEmpty then "" else "\n" ++ heading ++ "\n" ++ String.join lines

/-- The routes of a scan and what surrounds them. -/
def listingText (s : AppScan) : String :=
  "Routes\n" ++ String.join ((rows s).map rowLine)
    ++ block "Middleware" ((byScope s.middlewares).map middlewareLine)
    ++ block "Layouts & loaders" ((s.layouts ++ s.loaders).map functionLine)
    ++ s.proxy.elim "" (fun p => "\nProxy " ++ p.file.displayPath ++ "\n")
    ++ (if s.isClean then "" else "\n")
    ++ "\n" ++ s.summary ++ "\n"

end Waymark.CommandLine
