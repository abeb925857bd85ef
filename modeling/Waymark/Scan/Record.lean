import Waymark.Json.Value
import Waymark.Scan.Finding

/-!
# Scans as JSON

A scan is recorded with all that was found. A record exists when every path in it is a text.

* `Warning.record?`, `Conflict.record?`: the records of problems;
* `AppScan.record?`: the record of a whole scan.
-/

namespace Waymark.Scan

open Waymark.Disk (Path)
open Waymark.Routing (Segment)

/-- A path as a JSON string. -/
def pathRecord? (p : Path) : Option Json := p.text?.map Json.string

/-- Texts as a JSON array. -/
def textsRecord (texts : List String) : Json := .array (texts.map Json.string)

/-- The record of a directory name. -/
def segmentRecord (s : Segment) : Json :=
  .object [("raw", .string s.raw), ("name", .string s.name), ("kind", .string s.kind.name)]

/-- The members by which a file is recorded. -/
def MarkerFile.members? (f : MarkerFile) : Option (List (String × Json)) := do
  return [("path", ← pathRecord? f.path), ("relative_path", ← pathRecord? f.relativePath),
    ("segments", .array (f.segments.map segmentRecord)), ("pattern", .string f.pattern),
    ("scope", .string f.scope), ("imports", textsRecord f.imports)]

/-- The members by which a function is recorded. -/
def functionMembers (f : Source.Function) : List (String × Json) :=
  [("name", .string f.name), ("line", .ofNat f.line), ("source", .string f.source)]

/-- The record of a handler. -/
def RouteHandler.record (h : RouteHandler) : Json :=
  .object (("method", .string h.method.wireName) :: functionMembers h.function)

/-- The record of a file of handlers. -/
def RouteFile.record? (r : RouteFile) : Option Json :=
  r.file.members?.map fun members =>
    .object (members ++ [("handlers", .array (r.handlers.map RouteHandler.record))])

/-- The record of a file with one function. -/
def FunctionFile.record? (f : FunctionFile) : Option Json :=
  f.file.members?.map fun members =>
    .object (members ++ [("function", .object (functionMembers f.function))])

/-- The record of a warning. -/
def Warning.record? (w : Warning) : Option Json :=
  (pathRecord? w.path).map fun path =>
    .object [("path", path), ("line", w.line.elim .null Json.ofNat),
      ("message", .string w.problem.message)]

/-- The record of a conflict. -/
def Conflict.record? (c : Conflict) : Option Json := do
  return .object [("pattern", .string c.pattern), ("method", .string c.method.wireName),
    ("first", ← pathRecord? c.first), ("second", ← pathRecord? c.second)]

/-- The records of some items as an array. -/
def arrayRecord? {α : Type} (record? : α → Option Json) (items : List α) : Option Json :=
  (items.mapM record?).map Json.array

/-- The record of a scan. -/
def AppScan.record? (s : AppScan) : Option Json := do
  let proxy ← match s.proxy with
    | none => some Json.null
    | some p => p.record?
  return .object [("app_root", ← pathRecord? s.root),
    ("routes", ← arrayRecord? RouteFile.record? s.routes),
    ("middlewares", ← arrayRecord? FunctionFile.record? s.middlewares),
    ("pages", ← arrayRecord? FunctionFile.record? s.pages),
    ("layouts", ← arrayRecord? FunctionFile.record? s.layouts),
    ("loaders", ← arrayRecord? FunctionFile.record? s.loaders),
    ("proxy", proxy),
    ("warnings", ← arrayRecord? Warning.record? s.warnings),
    ("conflicts", ← arrayRecord? Conflict.record? s.conflicts)]

/-- What is said of a path that is no text. -/
def notRecordable : String := "path contains invalid UTF-8 characters"

end Waymark.Scan
