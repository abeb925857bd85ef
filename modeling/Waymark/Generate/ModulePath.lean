import Waymark.Disk.Lookup
import Waymark.Toml.Document

/-!
# Module paths

The output directory of a project has to be a module of it: the path of the module is `crate`
followed by the directories below `src`, each of which has to be an identifier.

* `validate`: a text is names joined by double colons;
* `resolve`: the module path of an output directory.
-/

namespace Waymark.Generate

open Waymark.Disk (Volume Path Component DiskFault)

/-- Why an output directory is no module. -/
inductive ModuleFault where
  | cannotRead (manifest : Path) (fault : DiskFault)
  | cannotParse (manifest : Path) (fault : Toml.Fault)
  | unnamed (manifest : Path)
  | outside (output source : Path)
  | invalid (modulePath : String)

/-- The wording of a fault. -/
def ModuleFault.message : ModuleFault → String
  | cannotRead manifest fault =>
    "cannot resolve module root: cannot read " ++ manifest.display ++ ": " ++ fault.message
  | cannotParse manifest fault =>
    "cannot resolve module root: cannot parse " ++ manifest.display ++ ": " ++ fault.message
  | unnamed manifest =>
    "cannot resolve module root: " ++ manifest.display ++ " has no [package] name"
  | outside output source =>
    "cannot resolve module root: " ++ output.display ++ " is not inside " ++ source.display
  | invalid modulePath => "invalid module path `" ++ modulePath ++ "`"

/-- The pieces between double colons, read from the left. -/
def modulePieces : List Char → List (List Char)
  | [] => [[]]
  | ':' :: ':' :: rest => [] :: modulePieces rest
  | c :: rest =>
    match modulePieces rest with
    | [] => [[c]]
    | piece :: pieces => (c :: piece) :: pieces

/-- A piece that can name a module: a letter or an underscore, then letters, digits and underscores,
but no underscore alone. -/
def isModuleName : List Char → Bool
  | [] => false
  | c :: rest =>
    (c.isAlpha || c = '_') && rest.all (fun d => d.isAlphanum || d = '_') && (c :: rest) ≠ ['_']

/-- The text is names joined by double colons. -/
def validate (modulePath : String) : Except ModuleFault Unit :=
  if (modulePieces modulePath.toList).all isModuleName then .ok () else .error (.invalid modulePath)

/-- The manifest names its package. -/
def namesPackage (manifest : Toml) : Bool :=
  (((manifest.get? "package").bind (Toml.get? "name")).bind Toml.string?).isSome

/-- The text of a component in a module path. -/
def componentText : Component → String
  | .root => "/"
  | .current => "."
  | .parent => ".."
  | .name n => n.display

/-- The module path of a directory that lies below `src`. -/
def modulePathOf (below : Path) : String :=
  "crate" ++ String.join (below.components.map fun c => "::" ++ componentText c)

/-- The module path of an output directory, which is taken from the project when it is relative. -/
def resolve (disk : Volume) (project output : Path) : Except ModuleFault String := do
  let manifestPath := project.join (Path.ofString "Cargo.toml")
  let text ← match disk.readText manifestPath with
    | .ok text => pure text
    | .error fault => throw (.cannotRead manifestPath fault)
  let manifest ← match Toml.read text with
    | .ok manifest => pure manifest
    | .error fault => throw (.cannotParse manifestPath fault)
  if !namesPackage manifest then throw (.unnamed manifestPath)
  let output := project.join output
  let source := project.join (Path.ofString "src")
  match output.withoutPrefix? source with
  | none => throw (.outside output source)
  | some below =>
    let modulePath := modulePathOf below
    validate modulePath
    return modulePath

end Waymark.Generate
