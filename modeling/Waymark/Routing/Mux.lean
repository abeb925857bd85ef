import Waymark.Handling.Handler
import Waymark.Routing.PathIndex.Insert
import Waymark.Routing.PathIndex.Search
import Waymark.Text.Split

/-!
# Dispatch

A mux holds one path index for each method and possibly a proxy. `dispatch` runs the proxy first,
then the handler of the route that the path leads to with its trailing slashes ignored. A HEAD
request falls back to the GET route and is answered without a body. Without a route the answer is
405 when another method has one, else 404.

* `PathRouter`: what routes can be mounted onto;
* `Mux.handle`: one more route, or the reason why not;
* `Mux.dispatch`: the answer to a request, or the panic of a handler.
-/

namespace Waymark.Routing

open Waymark.Handling (Context Handler Proxy ProxyAction Stop Action)
open Waymark.Http (Fault Method Request Response)
open Waymark.Text (splitString joinStrings)

/-- A route the path router refused. -/
inductive MountError where
  /-- The pattern meets one that is mounted already. -/
  | conflict (method : Method) (pattern existing : String)
  /-- The pattern is none. -/
  | invalidPattern (method : Method) (pattern reason : String)
deriving DecidableEq

/-- The wording of a refusal. -/
def MountError.message : MountError → String
  | conflict method pattern existing =>
    method.wireName ++ " " ++ pattern ++ " conflicts with " ++ existing
  | invalidPattern method pattern reason =>
    method.wireName ++ " " ++ pattern ++ " is not a valid pattern: " ++ reason

/-- Something routes can be mounted onto. -/
class PathRouter (σ : Type) where
  /-- Registers a handler for a method and a pattern. -/
  handle : σ → Method → String → Handler → σ × Option MountError
  /-- Installs the proxy that runs before matching. -/
  setProxy : σ → Proxy → σ

/-- The built-in path router. -/
structure Mux where
  indexOf : Method → Node Handler
  proxy : Option Proxy

namespace Mux

/-- The name under which a wildcard is captured. -/
def wildcardName : String := "__wildcard"

/-- Without routes and proxy. -/
def empty : Mux := ⟨fun _ => Node.blank, none⟩

/-- A pattern in the form of the path index: a component `*` becomes a named wildcard. -/
def indexTemplate (pattern : String) : String :=
  joinStrings '/' ((splitString '/' pattern).map fun part =>
    if part = "*" then String.ofList ('{' :: '*' :: wildcardName.toList ++ ['}']) else part)

/-- A path without its trailing slashes; nothing left counts as the root. -/
def normalize (path : String) : String :=
  match (path.toList.reverse.dropWhile (· = '/')).reverse with
  | [] => "/"
  | cs => String.ofList cs

/-- Registers a handler for a method and a pattern. -/
def handle (m : Mux) (method : Method) (pattern : String) (handler : Handler) :
    Mux × Option MountError :=
  let (index, refused) := (m.indexOf method).insert (indexTemplate pattern) handler
  ({ m with indexOf := fun other => if other = method then index else m.indexOf other },
    refused.map fun
      | .conflict existing => .conflict method pattern existing
      | .template e => .invalidPattern method pattern e.message)

/-- Installs the proxy. -/
def setProxy (m : Mux) (proxy : Proxy) : Mux := { m with proxy := some proxy }

instance : PathRouter Mux := ⟨handle, setProxy⟩

/-- The handler for a method and a normalized path, with the parameters it is given. -/
def lookup (m : Mux) (method : Method) (path : String) :
    Option (Handler × Text.Bindings String) :=
  ((m.indexOf method).at? path).map fun found =>
    (found.value, Text.Bindings.ofList (found.params.map fun (name, value) =>
      (if name = wildcardName then Context.wildcardParam else name, value)))

/-- The methods that have a route for a path. -/
def allowed (m : Mux) (path : String) : List Method :=
  Method.all.filter fun method => ((m.indexOf method).at? (normalize path)).isSome

/-- What the proxy makes of a fresh context; a panic is passed on. -/
def afterProxy (proxy : Proxy) (c : Context) : Except String Context :=
  match proxy.on c with
  | (.ok .proceed, c) => .ok c
  | (.ok (.reroute path), c) => .ok (c.reroute path)
  | (.ok (.redirect location status), c) => .ok (c.redirect status location)
  | (.error (.fault f), c) => .ok (c.fail f)
  | (.error (.panic message), _) => .error message

/-- The route for a request: its own, or for HEAD that of GET. A context has the method of its
request for good, so that it tells a HEAD request behind the proxy as well as the request itself
does. -/
def route? (m : Mux) (method : Method) (path : String) : Option (Handler × Text.Bindings String) :=
  match m.lookup method path with
  | some found => some found
  | none => if method = .head then m.lookup .get path else none

/-- Runs the route of a request that no proxy has answered. -/
def run (m : Mux) (c : Context) : Except String Context :=
  let path := normalize c.path
  match m.route? c.method path with
  | some (handler, params) =>
    match handler.on (c.setParams params) with
    | (.ok _, c) => .ok c
    | (.error (.fault f), c) => .ok (c.fail f)
    | (.error (.panic message), _) => .error message
  | none =>
    match m.allowed path with
    | [] => .ok (c.fail (.notFound ("no route for " ++ path)))
    | methods =>
      .ok ((c.setHeader "allow" (", ".intercalate (methods.map Method.wireName))).fail
        ⟨405, c.method.wireName ++ " is not allowed for " ++ path⟩)

/-- The answer to a request, or the message of a panic. -/
def dispatch (m : Mux) (request : Request) : Except String Response := do
  let start := Context.new request
  let c ← match m.proxy with
    | none => .ok start
    | some proxy => afterProxy proxy start
  if m.proxy.isSome && c.isWritten then
    .ok c.intoResponse
  else
    let c ← m.run c
    let response := c.intoResponse
    .ok (if request.method = .head then response.withBody ByteArray.empty else response)

end Mux

end Waymark.Routing
