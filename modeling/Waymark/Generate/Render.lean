import Waymark.Generate.Plan
import Waymark.Text.Quoted

/-!
# The text of the generated files

One file holds the functions, copied with only their names replaced, the other registers them.

* `functionsText`: the imports and the functions of a plan;
* `registrationText`: the calls that register them.
-/

namespace Waymark.Generate

open Waymark.Scan
open Waymark.Text (quoted)

/-- The first line of every generated file. -/
def header : String := "// Code generated by trellis. DO NOT EDIT.\n"

/-- An opening brace, as a text. -/
def openBrace : String := String.singleton '\x7b'

/-- A closing brace, as a text. -/
def closeBrace : String := String.singleton '\x7d'

/-- How a file is shown: below the name of the application directory, if that has one. -/
def shownPath (app : Option String) (file : MarkerFile) : String :=
  match app with
  | some name => name ++ "/" ++ file.displayPath
  | none => file.displayPath

/-- A function under its new name, behind a comment that says where it comes from. -/
def functionBlock (app : Option String) (file : MarkerFile) (function : Source.Function)
    (name : String) : String :=
  "\n// " ++ shownPath app file ++ ":" ++ toString function.line ++ "\n"
    ++ function.renamed name ++ "\n"

/-- The functions of a registration, a loader before its page. -/
def registrationBlocks (app : Option String) : Registration → String
  | .handler file handler name => functionBlock app file handler.function name
  | .page page name none _ => functionBlock app page.file page.function name
  | .page page name (some (loader, loaderName)) _ =>
    functionBlock app loader.file loader.function loaderName
      ++ functionBlock app page.file page.function name

/-- The imports of a file, each on a line behind an empty one. -/
def importLines (imports : List String) : String :=
  if imports.isEmpty then "" else "\n" ++ String.join (imports.map (· ++ "\n"))

/-- The file that holds the functions. -/
def functionsText (app : Option String) (plan : Plan) : String :=
  let others := plan.middlewares ++ plan.layouts ++ plan.proxy.toList
  header ++ "#![allow(unused_imports, dead_code)]\n" ++ importLines plan.imports
    ++ String.join (plan.routes.map (registrationBlocks app))
    ++ String.join (others.map fun f => functionBlock app f.1.file f.1.function f.2)

/-- The blanks before a call on what is registered. -/
def callIndent : String := "            ."

/-- A call on what is registered. -/
def callLine (name argument : String) : String := callIndent ++ name ++ "(" ++ argument ++ ")"

/-- The calls that every registration makes: its file, its scope and its wildcard. -/
def commonCalls (app : Option String) (file : MarkerFile) : List String :=
  [callLine "file" (quoted (shownPath app file)), callLine "scope" (quoted file.scope)]
    ++ match file.catchAllParam? with
      | none => []
      | some (name, false) => [callLine "catch_all_param" (quoted name)]
      | some (name, true) =>
        [callLine "catch_all_param" (quoted name), callLine "optional_catch_all" "true"]

/-- The name of an emitted function, as the registering file refers to it. -/
def handlerRef (name : String) : String := "handlers::" ++ name

/-- The calls that a registration makes. -/
def callsOf (app : Option String) (plan : Plan) : Registration → List String
  | .handler file _ _ =>
    commonCalls app file ++ [callLine "priority" (toString (Routing.priority file.pattern).toNat)]
  | .page page _ loader layouts =>
    commonCalls app page.file
      ++ (loader.toList.map fun l => callLine "loader" (handlerRef l.2))
      ++ ((layouts.filterMap plan.layoutName?).map fun name => callLine "layout" (handlerRef name))

/-- A statement that registers something built by a constructor and calls on it. -/
def addStatement (function constructor : String) (calls : List String) : String :=
  "    tree." ++ function ++ "(\n        " ++ constructor ++ "\n"
    ++ Text.joinStrings '\n' calls ++ ",\n    );\n"

/-- The statement of a registration. -/
def registrationStatement (app : Option String) (plan : Plan) (r : Registration) : String :=
  let pattern := quoted r.file.pattern
  match r with
  | .handler _ handler name =>
    addStatement "add_route"
      ("Route::new(" ++ handler.method.variantPath ++ ", " ++ pattern ++ ", "
        ++ handlerRef name ++ ")")
      (callsOf app plan r)
  | .page _ name _ _ =>
    addStatement "add_page" ("Page::new(" ++ pattern ++ ", " ++ handlerRef name ++ ")")
      (callsOf app plan r)

/-- The statement that registers a middleware. -/
def middlewareStatement (m : FunctionFile × String) : String :=
  "    tree.add_middleware(" ++ quoted m.1.file.pattern ++ ", " ++ quoted m.1.file.scope ++ ", "
    ++ handlerRef m.2 ++ ");\n"

/-- The statement that sets the proxy. -/
def proxyStatement (p : FunctionFile × String) : String :=
  "    tree.set_proxy(" ++ handlerRef p.2 ++ ");\n"

/-- The statements that register a plan; one that does nothing when there is nothing to register. -/
def statementsText (app : Option String) (plan : Plan) : String :=
  let statements := plan.routes.map (registrationStatement app plan)
    ++ plan.middlewares.map middlewareStatement ++ plan.proxy.toList.map proxyStatement
  if statements.isEmpty then "    let _ = tree;\n" else String.join statements

/-- The file that registers the functions. -/
def registrationText (app : Option String) (modulePath : String) (plan : Plan) : String :=
  header ++ "#![allow(unused_imports)]\n\n"
    ++ "use trellis::" ++ openBrace ++ "Method, Page, Route, RouteTree" ++ closeBrace ++ ";\n\n"
    ++ "use " ++ modulePath ++ "::handlers;\n\n"
    ++ "/// Registers every discovered route, page, middleware and proxy.\n"
    ++ "pub fn register(tree: &mut RouteTree) " ++ openBrace ++ "\n"
    ++ statementsText app plan ++ closeBrace ++ "\n"

end Waymark.Generate
