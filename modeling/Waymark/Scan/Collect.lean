import Waymark.Scan.Finding
import Waymark.Scan.Walk

/-!
# From a directory to its routes

Every marker file met on a walk is read and judged, and what it contributes is added to what was
found before.

* `judge`: a function is accepted, or there is a warning about it;
* `AppScan.claim`: the first file to claim a pattern and a method keeps them;
* `scan`: the whole application directory of a disk.
-/

namespace Waymark.Scan

open Waymark.Disk (Volume Path Name Node DiskFault)
open Waymark.Http (Method)
open Waymark.Source (SourceFile FunctionItem ExtractFault)

/-- Why there is no scan at all. -/
inductive ScanFault where
  | notFound (root : Path)
  /-- The application directory itself cannot be read. -/
  | walk (root : Path) (fault : DiskFault)
  /-- The text of an accepted function cannot be cut out. -/
  | extract (fault : ExtractFault)

/-- The wording of a fault. -/
def ScanFault.message : ScanFault → String
  | notFound root => "App directory not found: " ++ root.display
  | walk root fault => "Failed to read " ++ root.display ++ ": " ++ walkFault root fault
  | extract fault => fault.message

/-- The result of a step of a scan. -/
abbrev Scanned := Except ScanFault

namespace AppScan

/-- Adds a warning. -/
def warn (s : AppScan) (path : Path) (line : Option Nat) (problem : Problem) : AppScan :=
  { s with warnings := s.warnings ++ [⟨path, line, problem⟩] }

/-- Adds a warning that was made elsewhere. -/
def addWarning (s : AppScan) (w : Warning) : AppScan :=
  { s with warnings := s.warnings ++ [w] }

/-- A claim of a file: whether it gets a pattern and a method, and the scan, in which a lost claim
is a conflict. -/
def claim (s : AppScan) (pattern : String) (method : Method) (path : Path) : Bool × AppScan :=
  match s.holder? pattern method with
  | none => (true, s)
  | some first =>
    (false, { s with conflicts := s.conflicts ++ [⟨pattern, method, first, path⟩] })

end AppScan

/-- Judges a function by its contract: its text, or a warning about it. -/
def judge (path : Path) (source : SourceFile) (contract : Contract) (f : FunctionItem) :
    Scanned (Except Warning Source.Function) :=
  let name := f.signature.name
  let line := some f.signature.nameSpan.start.line
  if !f.isExported then .ok (.error ⟨path, line, .notExported name⟩)
  else match contract.check f.signature with
    | .error mismatch => .ok (.error ⟨path, line, .misshapen name mismatch contract⟩)
    | .ok () =>
      match source.extract f with
      | .ok function => .ok (.ok function)
      | .error fault => .error (.extract fault)

/-- The verdicts on the functions that answer methods, in the order of the methods. -/
def candidates (path : Path) (source : SourceFile) :
    List Method → Scanned (List (Method × Except Warning Source.Function))
  | [] => .ok []
  | m :: rest =>
    match source.function? m.handlerName with
    | none => candidates path source rest
    | some f => do
      let verdict ← judge path source .handler f
      let more ← candidates path source rest
      return (m, verdict) :: more

/-- Adds verdicts to a scan: the handlers that get their claim, and the scan with warnings and
conflicts. -/
def settle (file : MarkerFile) :
    List (Method × Except Warning Source.Function) → AppScan → List RouteHandler × AppScan
  | [], s => ([], s)
  | (_, .error w) :: rest, s => settle file rest (s.addWarning w)
  | (m, .ok function) :: rest, s =>
    let (gets, s) := s.claim file.pattern m file.path
    let (handlers, s) := settle file rest s
    (if gets then ⟨m, function⟩ :: handlers else handlers, s)

/-- Adds a file of handlers. -/
def addRoute (file : MarkerFile) (source : SourceFile) (s : AppScan) : Scanned AppScan := do
  let found ← candidates file.path source Method.all
  let (handlers, s) := settle file found s
  let s := if found.isEmpty then s.warn file.path none .noHandler else s
  return if handlers.isEmpty then s else { s with routes := s.routes ++ [⟨file, handlers⟩] }

/-- The one function that a file has to give under a fixed name. -/
def single (file : MarkerFile) (source : SourceFile) (name : String) (contract : Contract)
    (s : AppScan) : Scanned (Option FunctionFile × AppScan) :=
  match source.function? name with
  | none => .ok (none, s.warn file.path none (.missing name))
  | some f => do
    match ← judge file.path source contract f with
    | .ok function => return (some ⟨file, function⟩, s)
    | .error w => return (none, s.addWarning w)

/-- A name follows the rule for a word: it is the word, or letters, digits and underscores before an
underscore and the word. -/
def isNamedFor (word name : String) : Bool :=
  match Text.withoutSuffix word.toList name.toList with
  | none => false
  | some [] => true
  | some front =>
    2 ≤ front.length && front.getLast? = some '_'
      && front.all fun c => ('a' ≤ c && c ≤ 'z') || ('0' ≤ c && c ≤ '9') || c = '_'

/-- The first of some functions that is accepted. About every other one there is a warning. -/
def firstAccepted (file : MarkerFile) (source : SourceFile) (contract : Contract) :
    List FunctionItem → Option Source.Function → AppScan →
      Scanned (Option Source.Function × AppScan)
  | [], found, s => .ok (found, s)
  | f :: rest, found, s => do
    match ← judge file.path source contract f with
    | .error w => firstAccepted file source contract rest found (s.addWarning w)
    | .ok function =>
      match found with
      | none => firstAccepted file source contract rest (some function) s
      | some first =>
        firstAccepted file source contract rest found
          (s.warn file.path (some function.line) (.alreadyRendered function.name first.name))

/-- The first accepted function of a file whose name follows the rule for a word. -/
def matching (file : MarkerFile) (source : SourceFile) (word : String) (contract : Contract)
    (s : AppScan) : Scanned (Option FunctionFile × AppScan) := do
  let named := source.functions.filter fun f => isNamedFor word f.signature.name
  let (found, s) ← firstAccepted file source contract named none s
  let s := if named.isEmpty then s.warn file.path none (.noneNamed word) else s
  return (found.map fun function => ⟨file, function⟩, s)

/-- Adds a page, which claims its pattern for reading. -/
def addPage (found : FunctionFile) (s : AppScan) : AppScan :=
  let (gets, s) := s.claim found.file.pattern .get found.file.path
  if gets then { s with pages := s.pages ++ [found] } else s

/-- Adds what a file of a kind contributes. -/
def addFile (kind : Marker) (file : MarkerFile) (source : SourceFile) (s : AppScan) :
    Scanned AppScan :=
  match kind with
  | .route => addRoute file source s
  | .middleware => do
    let (found, s) ← single file source "middleware" .middleware s
    return { s with middlewares := s.middlewares ++ found.toList }
  | .loader => do
    let (found, s) ← single file source "load" .loader s
    return { s with loaders := s.loaders ++ found.toList }
  | .proxy => do
    let (found, s) ← single file source "proxy" .proxy s
    return { s with proxy := found <|> s.proxy }
  | .page => do
    let (found, s) ← matching file source "page" .page s
    return match found with
      | some page => addPage page s
      | none => s
  | .layout => do
    let (found, s) ← matching file source "layout" .layout s
    return { s with layouts := s.layouts ++ found.toList }

/-- How the content of a marker file is come by: a file holds it, a link leads to it. -/
def contentOf (disk : Volume) (path : Path) : Node → Except DiskFault String
  | .file content => Volume.textOf content
  | .lockedFile => .error .permissionDenied
  | .directory _ | .link _ | .lockedDirectory => disk.readText path

/-- Adds what is met on a walk. -/
def addVisit (disk : Volume) (s : AppScan) : Visit → Scanned AppScan
  | .unroutable directories =>
    .ok (s.warn (directories.foldl Path.joinName s.root) none .unroutable)
  | .unreadable directories =>
    let path := directories.foldl Path.joinName s.root
    .ok (s.warn path none (.cannotEnter path .permissionDenied))
  | .marker kind directories fileName node =>
    let path := (directories ++ [fileName]).foldl Path.joinName s.root
    if kind = .proxy && !directories.isEmpty then .ok (s.warn path none .nestedProxy)
    else match contentOf disk path node with
      | .error fault => .ok (s.warn path none (.cannotRead fault))
      | .ok text =>
        match SourceFile.parse text with
        | .error failure => .ok (s.warn path (some failure.line) .cannotParse)
        | .ok source => addFile kind ⟨path, directories, fileName, source.imports⟩ source s

/-- Warns about the loaders that no page belongs to. -/
def warnOrphans (s : AppScan) : AppScan :=
  let orphans := s.loaders.filter fun l => !s.pages.any fun p => p.file.scope = l.file.scope
  { s with warnings := s.warnings ++ orphans.map fun l => ⟨l.file.path, none, .orphanLoader⟩ }

/-- Adds all that is met on a walk through an application directory. -/
def scanNode (disk : Volume) (root : Path) (app : Node) : Scanned AppScan := do
  let s ← (visits app).foldlM (addVisit disk) (AppScan.empty root)
  return warnOrphans s

/-- Scans the application directory of a disk. -/
def scan (disk : Volume) (root : Path) : Scanned AppScan :=
  match disk.resolve root with
  | .ok (.directory entries) => scanNode disk root (.directory entries)
  | .ok .lockedDirectory => .error (.walk root .permissionDenied)
  | _ => .error (.notFound root)

end Waymark.Scan
