import Std.Data.HashMap
import Waymark.Routing.Mux
import Waymark.Routing.Order
import Waymark.Routing.Page

/-!
# The route table

The table keeps the first registration of each pattern and method and records every later one as a
conflict. Middleware is registered for a pattern prefix and a scope; it applies to the routes whose
pattern has the prefix and whose scope lies inside.

* `Table.addRoute`, `addPage`, `addMiddleware`: registrations;
* `Table.routesInOrder`: the routes in mount order;
* `Table.middlewareChain`: what wraps a route, the outermost first;
* `Table.census`: how much middleware there is for each prefix and scope;
* `Table.mount`: every route handed to a path router.
-/

namespace Waymark.Routing

open Waymark.Handling
open Waymark.Http (Method)

instance : Hashable Method := ⟨fun m => hash m.rank⟩

/-- Middleware with the scope of the file that declares it. -/
structure ScopedMiddleware where
  scope : String
  middleware : Middleware

/-- A pattern and method registered twice; the first registration is kept. -/
structure RouteConflict where
  pattern : String
  method : Method
  /-- The file of the kept route. -/
  first : Option String
  /-- The file of the dropped route. -/
  second : Option String
deriving DecidableEq

/-- The wording of a conflict. -/
def RouteConflict.message (c : RouteConflict) : String :=
  c.method.wireName ++ " " ++ c.pattern ++ " registered by " ++ c.first.getD "<unknown>" ++ " and "
    ++ c.second.getD "<unknown>"

/-- Routes, scoped middleware and the proxy of an application. -/
structure Table where
  /-- The kept routes in the order of their registration. -/
  routes : List Route
  /-- The place of each pattern and method among the routes. -/
  positions : Std.HashMap (String × Method) Nat
  /-- Middleware by prefix, the prefixes ascending. -/
  middleware : List (String × List ScopedMiddleware)
  proxy : Option Proxy
  conflicts : List RouteConflict

namespace Table

/-- Nothing registered. -/
def empty : Table := ⟨[], ∅, [], none, []⟩

/-- Registers a route, or records a conflict. -/
def addRoute (t : Table) (route : Route) : Table :=
  match t.positions[(route.pattern, route.method)]? with
  | some position =>
    let kept := t.routes[position]?.bind Route.file
    { t with conflicts := t.conflicts ++ [⟨route.pattern, route.method, kept, route.file⟩] }
  | none =>
    { t with
      routes := t.routes ++ [route]
      positions := t.positions.insert (route.pattern, route.method) t.routes.length }

/-- Registers a page as a GET route. -/
def addPage (t : Table) (page : Page) : Table := t.addRoute page.toRoute

/-- Adds an entry behind those of its prefix, keeping prefixes in ascending order. -/
def insertMiddleware (pfx : String) (entry : ScopedMiddleware) :
    List (String × List ScopedMiddleware) → List (String × List ScopedMiddleware)
  | [] => [(pfx, [entry])]
  | (p, entries) :: rest =>
    if pfx = p then (p, entries ++ [entry]) :: rest
    else if pfx < p then (pfx, [entry]) :: (p, entries) :: rest
    else (p, entries) :: insertMiddleware pfx entry rest

/-- Registers middleware for a prefix and a scope. -/
def addMiddleware (t : Table) (pfx scope : String) (middleware : Middleware) : Table :=
  { t with middleware := insertMiddleware pfx ⟨scope, middleware⟩ t.middleware }

/-- Sets the proxy. -/
def setProxy (t : Table) (proxy : Proxy) : Table := { t with proxy := some proxy }

/-- What the place of a route in mount order depends on. -/
def keyOf (r : Route) : MountKey := ⟨r.priority, r.pattern, r.method⟩

/-- The routes in mount order. -/
def routesInOrder (t : Table) : List Route := inMountOrder keyOf t.routes

/-- The prefixes behind `start` that the components of a pattern lead to. -/
def prefixesFrom (start : String) : List String → List String
  | [] => []
  | part :: parts => (start ++ "/" ++ part) :: prefixesFrom (start ++ "/" ++ part) parts

/-- The prefixes of a pattern from the root to the full pattern. -/
def prefixes (pattern : String) : List String :=
  "/" :: prefixesFrom "" (Text.splitNonEmpty '/' pattern)

/-- The entries of a prefix. -/
def entriesAt (t : Table) (pfx : String) : List ScopedMiddleware :=
  (t.middleware.lookup pfx).getD []

/-- The middleware of a route, the outermost first. -/
def middlewareChain (t : Table) (pattern routeScope : String) : List Middleware :=
  (((prefixes pattern).flatMap t.entriesAt).filter fun entry =>
    scopeContains entry.scope routeScope).map ScopedMiddleware.middleware

/-- Counts one more entry of a scope. -/
def count (pfx scope : String) : List (String × String × Nat) → List (String × String × Nat)
  | [] => [(pfx, scope, 1)]
  | (p, s, n) :: rest =>
    if p = pfx ∧ s = scope then (p, s, n + 1) :: rest else (p, s, n) :: count pfx scope rest

/-- How much middleware is registered for each prefix and scope. -/
def census (t : Table) : List (String × String × Nat) :=
  t.middleware.foldl (fun listing group =>
    group.2.foldl (fun listing entry => count group.1 entry.scope listing) listing) []

/-- What a mount came to. -/
structure MountReport where
  mounted : Nat
  rejected : List MountError
deriving DecidableEq

/-- Nothing was rejected. -/
def MountReport.isComplete (r : MountReport) : Bool := r.rejected.isEmpty

/-- One registration with a path router. -/
structure Registration where
  method : Method
  pattern : String
  handler : Handler

/-- The registrations of a route: its pattern, then the base pattern of an optional catch-all. -/
def registrations (t : Table) (global : List Middleware) (route : Route) : List Registration :=
  let chain := global ++ t.middlewareChain route.pattern route.scope ++ route.middleware
  let composed := compose chain route.endpoint
  (route.pattern :: route.basePattern?.toList).map fun pattern => ⟨route.method, pattern, composed⟩

/-- Makes one registration and notes what became of it. -/
def register {σ : Type} [PathRouter σ] (state : σ × MountReport) (r : Registration) :
    σ × MountReport :=
  match PathRouter.handle state.1 r.method r.pattern r.handler with
  | (router, none) => (router, { state.2 with mounted := state.2.mounted + 1 })
  | (router, some e) => (router, { state.2 with rejected := state.2.rejected ++ [e] })

/-- Hands every route to a path router in mount order, wrapped in the global middleware, that of its
scope and its own. A rejection does not stop the mount. -/
def mount {σ : Type} [PathRouter σ] (t : Table) (router : σ) (global : List Middleware) :
    σ × MountReport :=
  let router := match t.proxy with
    | none => router
    | some proxy => PathRouter.setProxy router proxy
  (t.routesInOrder.flatMap (t.registrations global)).foldl register (router, ⟨0, []⟩)

end Table

end Waymark.Routing
