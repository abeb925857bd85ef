import Waymark.Disk.Lookup
import Waymark.Http.Method
import Waymark.Routing.Pattern
import Waymark.Scan.Contract

/-!
# What a scan finds

Marker files with the functions taken from them, and the problems met on the way. The first file
that claims a pattern and a method holds them.

* `AppScan.holder?`: the file that holds a pattern and a method;
* `AppScan.layoutsFor`, `AppScan.loaderFor?`: what belongs to a page;
* `Problem.message`: the wording of each problem.
-/

namespace Waymark.Scan

open Waymark.Disk (Path Name DiskFault)
open Waymark.Http (Method)
open Waymark.Routing

/-- A marker file: where it lies and what it is mapped to. -/
structure MarkerFile where
  path : Path
  /-- The names of the directories from the application directory down to the file. -/
  directories : List Name
  fileName : Name
  /-- The text of its imports, in order. -/
  imports : List String

namespace MarkerFile

/-- The classified directories down to the file. -/
def segments (f : MarkerFile) : List Segment :=
  f.directories.map fun n => Segment.classify n.display

/-- The address pattern of the file. -/
def pattern (f : MarkerFile) : String := urlPattern f.segments

/-- The scope of the file. -/
def scope (f : MarkerFile) : String := scopeOf f.segments

/-- The names from the application directory to the file, joined by slashes. -/
def displayPath (f : MarkerFile) : String :=
  Text.joinStrings '/' ((f.directories ++ [f.fileName]).map Name.display)

/-- The path of the file below the application directory. -/
def relativePath (f : MarkerFile) : Path :=
  f.directories.foldr (fun n below => Disk.Path.join ⟨n⟩ below) ⟨f.fileName⟩

/-- The name of the parameter that takes the rest of a path, and whether it may be empty. -/
def catchAllParam? (f : MarkerFile) : Option (String × Bool) := Routing.catchAllParam? f.segments

end MarkerFile

/-- A function that answers a method. -/
structure RouteHandler where
  method : Method
  function : Source.Function

/-- A file of handlers, and those of them that are accepted. -/
structure RouteFile where
  file : MarkerFile
  handlers : List RouteHandler

/-- A marker file that contributes one function. -/
structure FunctionFile where
  file : MarkerFile
  function : Source.Function

/-- What can be wrong with a file or directory. -/
inductive Problem where
  | unroutable
  /-- An entry of the walk at a path is not to be had. -/
  | cannotEnter (path : Path) (fault : DiskFault)
  | nestedProxy
  | cannotRead (fault : DiskFault)
  | cannotParse
  | noHandler
  | missing (name : String)
  | noneNamed (word : String)
  | notExported (name : String)
  | misshapen (name : String) (mismatch : Mismatch) (contract : Contract)
  | alreadyRendered (name first : String)
  | orphanLoader

/-- A problem with a file, and the line it is about. -/
structure Warning where
  path : Path
  line : Option Nat
  problem : Problem

/-- Two files that claim one pattern and method. -/
structure Conflict where
  pattern : String
  method : Method
  /-- The file that was found first and keeps them. -/
  first : Path
  second : Path

/-- All that a walk through an application directory found. -/
structure AppScan where
  root : Path
  routes : List RouteFile
  middlewares : List FunctionFile
  pages : List FunctionFile
  layouts : List FunctionFile
  loaders : List FunctionFile
  proxy : Option FunctionFile
  warnings : List Warning
  conflicts : List Conflict

/-- The naming rule of functions whose name ends in a word. -/
def namingRule (word : String) : String := "^(?:[a-z0-9_]+_)?" ++ word ++ "$"

/-- The wording of a walk that fails at a path. -/
def walkFault (path : Path) (fault : DiskFault) : String :=
  "IO error for operation on " ++ path.display ++ ": " ++ fault.message

/-- The wording of a problem. -/
def Problem.message : Problem → String
  | unroutable =>
    "a directory named `*` cannot be matched literally, use `[...name]` for a catch-all; skipping"
  | cannotEnter path fault => "cannot read entry: " ++ walkFault path fault
  | nestedProxy => "proxy.rs is only honoured at the app root, ignoring"
  | cannotRead fault => "cannot read file: " ++ fault.message
  | cannotParse => "parse error: unexpected text"
  | noHandler => "route.rs defines no handler (expected `pub fn get`, `pub fn post`, ...)"
  | missing name => "expected `pub fn " ++ name ++ "`"
  | noneNamed word => "no function matching `" ++ namingRule word ++ "`"
  | notExported name => "`" ++ name ++ "` is not exported (declare it `pub`), skipping"
  | misshapen name mismatch contract =>
    "`" ++ name ++ "` skipped: " ++ mismatch.message ++ "; expected `" ++ contract.expected ++ "`"
  | alreadyRendered name first =>
    "`" ++ name ++ "` ignored, `" ++ first ++ "` already renders this file"
  | orphanLoader => "loader.rs has no page.rs in the same directory"

/-- A place in a file as it is shown. -/
def location (path : Path) (line : Option Nat) : String :=
  match line with
  | some n => path.display ++ ":" ++ toString n
  | none => path.display

/-- A warning as it is shown. -/
def Warning.text (w : Warning) : String := location w.path w.line ++ ": " ++ w.problem.message

/-- A conflict as it is shown. -/
def Conflict.text (c : Conflict) : String :=
  c.method.wireName ++ " " ++ c.pattern ++ " is defined in both " ++ c.first.display ++ " and "
    ++ c.second.display ++ " (keeping the first)"

namespace AppScan

/-- A scan that has found nothing yet. -/
def empty (root : Path) : AppScan := ⟨root, [], [], [], [], [], none, [], []⟩

/-- The file of handlers that holds a pattern and a method. -/
def routeHolder? (s : AppScan) (pattern : String) (method : Method) : Option RouteFile :=
  s.routes.find? fun r => r.file.pattern = pattern && r.handlers.any fun h => h.method = method

/-- The page that holds a pattern, which it does for reading. -/
def pageHolder? (s : AppScan) (pattern : String) (method : Method) : Option FunctionFile :=
  s.pages.find? fun p => method = .get && p.file.pattern = pattern

/-- The file that holds a pattern and a method. -/
def holder? (s : AppScan) (pattern : String) (method : Method) : Option Path :=
  match s.routeHolder? pattern method with
  | some r => some r.file.path
  | none => (s.pageHolder? pattern method).map fun p => p.file.path

/-- How many handlers are accepted in all files. -/
def handlerCount (s : AppScan) : Nat :=
  s.routes.foldr (fun r n => r.handlers.length + n) 0

/-- Nothing is wrong and nothing is claimed twice. -/
def isClean (s : AppScan) : Bool := s.warnings.isEmpty && s.conflicts.isEmpty

/-- The layouts around a page, the outermost first: those whose scope covers the page's. -/
def layoutsFor (s : AppScan) (page : MarkerFile) : List FunctionFile :=
  (s.layouts.filter fun l => scopeContains l.file.scope page.scope).mergeSort fun a b =>
    a.file.directories.length ≤ b.file.directories.length

/-- The loader in the directory of a page. -/
def loaderFor? (s : AppScan) (page : MarkerFile) : Option FunctionFile :=
  s.loaders.find? fun l => l.file.scope = page.scope

/-- A scan in one line. -/
def summary (s : AppScan) : String :=
  toString s.handlerCount ++ " routes, " ++ toString s.pages.length ++ " pages, "
    ++ toString s.middlewares.length ++ " middleware, " ++ toString s.warnings.length
    ++ " warnings, " ++ toString s.conflicts.length ++ " conflicts"

end AppScan

end Waymark.Scan
