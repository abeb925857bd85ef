import Waymark.Disk.Lookup
import Waymark.Toml.Document

/-!
# Project configuration

A project is configured by `trellis.toml`. Every section and key of it is optional, and unknown ones
are passed over. A section is a table; an array stands for the values of its keys in order.

* `Config.ofToml`: the configuration that a document gives;
* `Config.load`: the configuration of a project directory.
-/

namespace Waymark.Project

open Waymark.Disk (Volume Path DiskFault)

/-- The configuration of a project. -/
structure Config where
  name : String
  /-- The directory that is scanned. -/
  appDir : String
  /-- The directory that generated files are written to. -/
  outputDir : String
  staticDir : String
  host : String
  portNumber : Nat
  /-- Globs of paths whose changes do not matter. -/
  ignore : List String
  /-- Builds are made for release. -/
  release : Bool

/-- The configuration of a project that says nothing. -/
def Config.default : Config where
  name := "unnamed"
  appDir := "app"
  outputDir := "src/generated"
  staticDir := "static"
  host := "127.0.0.1"
  portNumber := 3000
  ignore := ["**/target/**", "**/.git/**"]
  release := true

/-- Why a configuration cannot be loaded. -/
inductive ConfigFault where
  | cannotRead (fault : DiskFault)
  | malformed (file : Path) (fault : Toml.Fault)
  /-- A key holds a value of another kind than it should. -/
  | wrongKind (file : Path) (key : String)

/-- The wording of a fault. -/
def ConfigFault.message : ConfigFault → String
  | cannotRead fault => fault.message
  | malformed file fault => "invalid " ++ file.display ++ ": " ++ fault.message
  | wrongKind file key => "invalid " ++ file.display ++ ": unexpected value for `" ++ key ++ "`"

/-- What a section gives for one of its keys, the one at an index among them; a failure when
the section cannot have keys. -/
def fieldOf (section_ : Option Toml) (index : Nat) (key : String) : Except String (Option Toml) :=
  match section_ with
  | none | some .moment => .ok none
  | some (.table entries) => .ok (Toml.find key entries)
  | some (.array elements) => .ok elements[index]?
  | some _ => .error key

/-- The value of a key, or a default where it is missing; a failure when it is of another kind. -/
def valueOf {α : Type} (kind : Toml → Option α) (default : α) (key : String)
    (found : Except String (Option Toml)) : Except String α :=
  match found with
  | .error e => .error e
  | .ok none => .ok default
  | .ok (some v) =>
    match kind v with
    | some a => .ok a
    | none => .error key

/-- A number of sixteen bits. -/
def wordOf : Toml → Option Nat
  | .whole n => if 0 ≤ n && n < 65536 then some n.toNat else none
  | _ => none

/-- Texts in an array. -/
def textsOf : Toml → Option (List String)
  | .array elements => elements.mapM Toml.string?
  | _ => none

/-- A truth value. -/
def flagOf : Toml → Option Bool
  | .boolean b => some b
  | _ => none

/-- The configuration that a document gives, or the key that holds a wrong value. -/
def Config.ofToml (document : Toml) : Except String Config := do
  let d := Config.default
  let project := document.get? "project"
  let routing := document.get? "routing"
  let dev := document.get? "dev"
  let build := document.get? "build"
  let text (default key : String) := valueOf Toml.string? default key
  return {
    name := ← text d.name "name" (fieldOf project 0 "name")
    appDir := ← text d.appDir "app_dir" (fieldOf routing 0 "app_dir")
    outputDir := ← text d.outputDir "output_dir" (fieldOf routing 1 "output_dir")
    staticDir := ← text d.staticDir "static_dir" (fieldOf routing 2 "static_dir")
    host := ← text d.host "host" (fieldOf dev 0 "host")
    portNumber := ← valueOf wordOf d.portNumber "port" (fieldOf dev 1 "port")
    ignore := ← valueOf textsOf d.ignore "ignore" (fieldOf dev 2 "ignore")
    release := ← valueOf flagOf d.release "release" (fieldOf build 0 "release") }

/-- The configuration file of a project. -/
def configFile (project : Path) : Path := project.join (Path.ofString "trellis.toml")

/-- The configuration of a project; the default where it has no file of its own. -/
def Config.load (disk : Volume) (project : Path) : Except ConfigFault Config :=
  let file := configFile project
  if !disk.doesExist file then .ok Config.default
  else match disk.readText file with
    | .error fault => .error (.cannotRead fault)
    | .ok text =>
      match Toml.read text with
      | .error fault => .error (.malformed file fault)
      | .ok document =>
        match Config.ofToml document with
        | .ok config => .ok config
        | .error key => .error (.wrongKind file key)

/-- The directory that is scanned, taken from the project. -/
def Config.appDirectory (c : Config) (project : Path) : Path :=
  project.join (Path.ofString c.appDir)

/-- The directory that generated files are written to, taken from the project. -/
def Config.outputDirectory (c : Config) (project : Path) : Path :=
  project.join (Path.ofString c.outputDir)

/-- The directory of static files, taken from the project. -/
def Config.staticDirectory (c : Config) (project : Path) : Path :=
  project.join (Path.ofString c.staticDir)

/-- The address of the development server. -/
def Config.address (c : Config) : String := c.host ++ ":" ++ toString c.portNumber

end Waymark.Project
