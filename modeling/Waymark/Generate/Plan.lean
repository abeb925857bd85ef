import Waymark.Generate.Names
import Waymark.Routing.Order
import Waymark.Scan.Finding

/-!
# What is generated

The functions of a scan with the names they get, in the order in which they are emitted: handlers
and pages in mount order, each page behind its loader, then middleware, layouts and the proxy.

* `AppScan.entries`: handlers and pages in mount order;
* `Plan.ofScan`: the plan of a scan;
* `Plan.layoutName?`: the name that a layout got.
-/

namespace Waymark.Scan

open Waymark.Http (Method)
open Waymark.Routing

/-- A handler or a page. -/
inductive Entry where
  | handler (file : MarkerFile) (handler : RouteHandler)
  | page (page : FunctionFile)

namespace Entry

/-- The file of an entry. -/
def file : Entry → MarkerFile
  | handler f _ => f
  | page p => p.file

/-- The method that an entry answers. -/
def method : Entry → Method
  | handler _ h => h.method
  | page _ => .get

/-- What the place of an entry in mount order depends on. -/
def key (e : Entry) : MountKey := ⟨priority e.file.pattern, e.file.pattern, e.method⟩

end Entry

/-- The handlers and pages of a scan in the order in which they were found. -/
def AppScan.found (s : AppScan) : List Entry :=
  s.routes.flatMap (fun r => r.handlers.map (Entry.handler r.file)) ++ s.pages.map Entry.page

/-- The handlers and pages of a scan in mount order. -/
def AppScan.entries (s : AppScan) : List Entry := inMountOrder Entry.key s.found

/-- The page that lies at a path, the last one if there are several. -/
def AppScan.pageAt? (s : AppScan) (path : Disk.Path) : Option FunctionFile :=
  s.pages.reverse.find? fun p => p.file.path = path

end Waymark.Scan

namespace Waymark.Generate

open Waymark.Scan
open Waymark.Routing (MountKey)

/-- A route that is registered, with the names of its functions. -/
inductive Registration where
  | handler (file : MarkerFile) (handler : RouteHandler) (name : String)
  /-- A page with its loader and the layouts around it, the outermost first. -/
  | page (page : FunctionFile) (name : String) (loader : Option (FunctionFile × String))
    (layouts : List FunctionFile)

/-- The file of a registration. -/
def Registration.file : Registration → MarkerFile
  | handler f _ _ => f
  | page p _ _ _ => p.file

/-- All that is emitted for a scan. -/
structure Plan where
  routes : List Registration
  middlewares : List (FunctionFile × String)
  layouts : List (FunctionFile × String)
  proxy : Option (FunctionFile × String)
  /-- The imports of all files that contribute, each once, in order. -/
  imports : List String

/-- The registration of an entry, and the names that are then given out. A page is found by its
path, and passed over when there is none. -/
def register (scan : AppScan) (names : Names) : Entry → Option Registration × Names
  | .handler file handler =>
    let (name, names) :=
      names.allocate (patternStem file.pattern ++ "_" ++ handler.method.handlerName)
    (some (.handler file handler name), names)
  | .page entry =>
    match scan.pageAt? entry.file.path with
    | none => (none, names)
    | some page =>
      let stem := patternStem entry.file.pattern
      let (name, names) := names.allocate (stem ++ "_page")
      match scan.loaderFor? page.file with
      | none => (some (.page page name none (scan.layoutsFor page.file)), names)
      | some loader =>
        let (loaderName, names) := names.allocate (stem ++ "_load")
        (some (.page page name (some (loader, loaderName)) (scan.layoutsFor page.file)), names)

/-- The registrations of some entries in order. -/
def registerAll (scan : AppScan) : Names → List Entry → List Registration × Names
  | names, [] => ([], names)
  | names, e :: rest =>
    let (registration, names) := register scan names e
    let (more, names) := registerAll scan names rest
    (registration.toList ++ more, names)

/-- Names for some files by their directories, with an ending. -/
def nameFiles (ending : String) : Names → List FunctionFile → List (FunctionFile × String) × Names
  | names, [] => ([], names)
  | names, f :: rest =>
    let (name, names) := names.allocate (scopeStem f.file.segments ++ ending)
    let (more, names) := nameFiles ending names rest
    ((f, name) :: more, names)

/-- One file does not come after another: by pattern, then by scope. -/
def fileLe (a b : FunctionFile) : Bool :=
  ((MountKey.compareText a.file.pattern b.file.pattern).then
    (MountKey.compareText a.file.scope b.file.scope)).isLE

/-- Files by pattern and scope. -/
def byScope (files : List FunctionFile) : List FunctionFile := files.mergeSort fileLe

/-- Texts in order, each once. -/
def sortedOnce (texts : List String) : List String :=
  (texts.mergeSort fun a b => (MountKey.compareText a b).isLE).eraseDups

/-- The loader that a registration runs before its page, with its name. -/
def Registration.loader? : Registration → Option (FunctionFile × String)
  | handler _ _ _ => none
  | page _ _ loader _ => loader

/-- The plan of a scan. -/
def Plan.ofScan (scan : AppScan) : Plan :=
  let (routes, names) := registerAll scan Names.empty scan.entries
  let (middlewares, names) := nameFiles "_middleware" names (byScope scan.middlewares)
  let (layouts, names) := nameFiles "_layout" names (byScope scan.layouts)
  let proxy := scan.proxy.map fun p => (p, (names.allocate "proxy").1)
  let others := routes.filterMap Registration.loader? ++ middlewares ++ layouts ++ proxy.toList
  let files := scan.entries.map Entry.file ++ others.map fun f => f.1.file
  { routes, middlewares, layouts, proxy, imports := sortedOnce (files.flatMap MarkerFile.imports) }

/-- The name that a layout got. -/
def Plan.layoutName? (plan : Plan) (layout : FunctionFile) : Option String :=
  (plan.layouts.find? fun l => l.1.file.path = layout.file.path).map Prod.snd

end Waymark.Generate
