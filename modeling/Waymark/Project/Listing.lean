import Waymark.Generate.Plan
import Waymark.Scan.Record

/-!
# Listings of routes

The routes and pages of a scan, one row each, in mount order.

* `rows`: the rows of a scan;
* `listing?`: the rows with all problems, as JSON.
-/

namespace Waymark.Project

open Waymark.Http (Method)
open Waymark.Routing (MountKey inMountOrder)
open Waymark.Scan (AppScan Entry Warning Conflict arrayRecord?)

/-- A line of a listing. -/
structure Row where
  method : Method
  pattern : String
  priority : UInt8
  /-- The entry is a page. -/
  isPage : Bool
  /-- The file below the application directory. -/
  file : String
deriving DecidableEq

namespace Row

/-- The row of an entry. -/
def ofEntry (e : Entry) : Row where
  method := e.method
  pattern := e.file.pattern
  priority := Routing.priority e.file.pattern
  isPage := match e with
    | .page _ => true
    | .handler _ _ => false
  file := e.file.displayPath

/-- What the place of a row depends on. -/
def key (r : Row) : MountKey := ⟨r.priority, r.pattern, r.method⟩

/-- What the row lists. -/
def kind (r : Row) : String := if r.isPage then "page" else "route"

/-- The record of a row. -/
def record (r : Row) : Json :=
  .object [("method", .string r.method.wireName), ("pattern", .string r.pattern),
    ("priority", .ofNat r.priority.toNat), ("kind", .string r.kind), ("file", .string r.file)]

end Row

/-- The rows of a scan in mount order. -/
def rows (s : AppScan) : List Row := inMountOrder Row.key (s.found.map Row.ofEntry)

/-- The rows of a scan with its problems; there is no listing when a path in a problem is no
text. -/
def listing? (s : AppScan) : Option Json := do
  return .object [("routes", .array ((rows s).map Row.record)),
    ("warnings", ← arrayRecord? Warning.record? s.warnings),
    ("conflicts", ← arrayRecord? Conflict.record? s.conflicts)]

end Waymark.Project
