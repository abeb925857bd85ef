import Waymark.Generate.Render
import Waymark.Proofs.Routing.Calls

/-!
# Statements of the registering file

The file that registers the functions of a plan is a list of statements. Each calls the table once,
and a route or a page is built by a chain of calls before it is handed over:

* `Statement`: what a statement registers;
* `Statement.run`: what it does to a table, when names mean functions;
* `Plan.statements`: the statements that a plan asks for;
* `run_spec`: statements whose routes claim different things register all of them.
-/

namespace Waymark.Generate

open Waymark.Handling (Handler Middleware Renderer Layout Proxy)
open Waymark.Http (Method)
open Waymark.Routing
open Waymark.Scan

/-- A route as a statement builds it, its function by name. -/
structure RouteCall where
  method : Method
  pattern : String
  function : String
  file : Option String
  scope : String
  catchAll : Option String
  optional : Bool
  priority : UInt8
deriving DecidableEq

/-- A page as a statement builds it, its functions by name. -/
structure PageCall where
  pattern : String
  function : String
  file : Option String
  scope : String
  catchAll : Option String
  optional : Bool
  loader : Option String
  /-- The outermost layout comes first. -/
  layouts : List String
deriving DecidableEq

/-- A statement of the registering file. -/
inductive Statement where
  | route (call : RouteCall)
  | page (call : PageCall)
  | middleware (pattern scope function : String)
  | proxy (function : String)
  /-- Nothing is registered. -/
  | idle
deriving DecidableEq

/-- What names mean: the functions that are emitted. -/
structure Linked where
  handler : String → Handler
  renderer : String → Renderer
  layout : String → Layout
  middleware : String → Middleware
  proxy : String → Proxy

/-- The route that is handed over. -/
def RouteCall.toRoute (linked : Linked) (c : RouteCall) : Route :=
  { Route.new c.method c.pattern (linked.handler c.function) with
    file := c.file, scope := c.scope, priority := c.priority, catchAllParam := c.catchAll,
    optionalCatchAll := c.optional }

/-- The page that is handed over. -/
def PageCall.toPage (linked : Linked) (c : PageCall) : Page where
  pattern := c.pattern
  render := linked.renderer c.function
  loader := c.loader.map linked.handler
  layouts := c.layouts.map linked.layout
  file := c.file
  scope := c.scope
  catchAllParam := c.catchAll
  optionalCatchAll := c.optional

namespace Statement

/-- The statement registers a route or a page. -/
def isRoute : Statement → Bool
  | route _ | page _ => true
  | middleware _ _ _ | proxy _ | idle => false

/-- The route that a statement registers. -/
def route? (linked : Linked) : Statement → Option Route
  | route c => some (c.toRoute linked)
  | page c => some (c.toPage linked).toRoute
  | middleware _ _ _ | proxy _ | idle => none

/-- What a statement does to a table. -/
def run (linked : Linked) (t : Table) : Statement → Table
  | route c => t.addRoute (c.toRoute linked)
  | page c => t.addPage (c.toPage linked)
  | middleware pattern scope function => t.addMiddleware pattern scope (linked.middleware function)
  | proxy function => t.setProxy (linked.proxy function)
  | idle => t

/-- The call that a statement makes. -/
def call? (linked : Linked) : Statement → Option Table.Call
  | route c => some (.route (c.toRoute linked))
  | page c => some (.page (c.toPage linked))
  | middleware pattern scope function =>
    some (.middleware pattern scope (linked.middleware function))
  | proxy function => some (.proxy (linked.proxy function))
  | idle => none

theorem route?_eq (linked : Linked) (st : Statement) :
    st.route? linked = (st.call? linked).bind Table.Call.route? := by
  cases st <;> rfl

/-- Statements do to a table what the calls do that they make. -/
theorem foldl_run (linked : Linked) (sts : List Statement) (t : Table) :
    sts.foldl (run linked) t = (sts.filterMap (call? linked)).foldl Table.Call.run t := by
  induction sts generalizing t with
  | nil => rfl
  | cons st rest ih =>
    rw [List.foldl_cons, ih]
    cases st <;> rfl

theorem registered_eq (linked : Linked) (sts : List Statement) :
    Table.registered (sts.filterMap (call? linked)) = sts.filterMap (route? linked) := by
  rw [Table.registered, List.filterMap_filterMap]
  congr 1
  funext st
  exact (route?_eq linked st).symm

/-- Statements whose routes claim different things register all of them, without a conflict. -/
theorem run_spec {linked : Linked} {sts : List Statement}
    (apart : ((sts.filterMap (route? linked)).map Table.claimOf).Nodup) :
    (sts.foldl (run linked) .empty).routes = sts.filterMap (route? linked) ∧
      (sts.foldl (run linked) .empty).conflicts = [] := by
  rw [foldl_run, ← registered_eq linked sts]
  apply Table.routes_ofCalls_of_nodup
  rwa [registered_eq linked sts]

end Statement

/-- The wildcard of a file, as calls name it. -/
def catchAllOf (file : MarkerFile) : Option String := file.catchAllParam?.map Prod.fst

/-- The wildcard of a file also takes the empty rest. -/
def isOptional (file : MarkerFile) : Bool := file.catchAllParam?.any Prod.snd

/-- The statement that a registration asks for. -/
def Registration.statement (app : Option String) (plan : Plan) : Registration → Statement
  | .handler file h name => .route {
      method := h.method, pattern := file.pattern, function := name
      file := some (shownPath app file), scope := file.scope, catchAll := catchAllOf file
      optional := isOptional file, priority := priority file.pattern }
  | .page p name loader layouts => .page {
      pattern := p.file.pattern, function := name, file := some (shownPath app p.file)
      scope := p.file.scope, catchAll := catchAllOf p.file, optional := isOptional p.file
      loader := loader.map Prod.snd, layouts := layouts.filterMap plan.layoutName? }

/-- The statements that a plan asks for: routes and pages, then middleware, then the proxy. -/
def Plan.statements (app : Option String) (plan : Plan) : List Statement :=
  plan.routes.map (Registration.statement app plan)
    ++ (plan.middlewares.map fun m => .middleware m.1.file.pattern m.1.file.scope m.2)
    ++ plan.proxy.toList.map fun p => .proxy p.2

end Waymark.Generate
