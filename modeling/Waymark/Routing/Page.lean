import Waymark.Handling.Handler
import Waymark.Routing.Pattern

/-!
# Pages and routes

A route binds an endpoint to a method and a pattern. A page becomes a GET route whose endpoint runs
the loader, renders the markup and wraps it in layouts, the innermost first.

* `Route.basePattern?`: the pattern of an optional catch-all for the empty rest;
* `Page.endpoint`: what a page does with a request;
* `Page.toRoute`: the route of a page.
-/

namespace Waymark.Routing

open Waymark.Handling
open Waymark.Http (Method)

/-- A registered endpoint. -/
structure Route where
  pattern : String
  method : Method
  handler : Handler
  /-- The file the handler comes from. -/
  file : Option String
  /-- The raw segment chain, groups included. -/
  scope : String
  priority : UInt8
  /-- The name under which the wildcard capture is exposed. -/
  catchAllParam : Option String
  /-- The wildcard also matches the empty rest. -/
  optionalCatchAll : Bool
  /-- Middleware of this route alone, run after that of its scope. -/
  middleware : List Middleware

namespace Route

/-- A route with the precedence of its pattern. -/
def new (method : Method) (pattern : String) (handler : Handler) : Route :=
  { pattern := pattern, method := method, handler := handler, file := none, scope := "",
    priority := Routing.priority pattern, catchAllParam := none, optionalCatchAll := false,
    middleware := [] }

/-- The pattern an optional catch-all needs for the empty rest. -/
def basePattern? (r : Route) : Option String :=
  if r.optionalCatchAll then
    (Text.withoutSuffix ['/', '*'] r.pattern.toList).map fun base =>
      if base.isEmpty then "/" else String.ofList base
  else none

/-- The endpoint, seeing its wildcard capture under its own name. -/
def endpoint (r : Route) : Handler :=
  match r.catchAllParam with
  | none => r.handler
  | some name => do
    modify (·.exposeWildcard name)
    r.handler

end Route

/-- A page with its loader and the layouts around it. -/
structure Page where
  pattern : String
  render : Renderer
  loader : Option Handler
  /-- The outermost layout comes first. -/
  layouts : List Layout
  file : Option String
  scope : String
  catchAllParam : Option String
  optionalCatchAll : Bool

namespace Page

/-- Renders the page, wraps it from the innermost layout outwards, and sends the markup unless
something has been written. -/
def rendered (p : Page) : Handler := do
  let markup ← p.render
  let markup ← p.layouts.reverse.foldlM (fun markup layout => layout markup) markup
  modify fun c => if c.isWritten then c else c.html 200 markup

/-- Runs the loader and, unless that wrote a response, renders the page. -/
def endpoint (p : Page) : Handler :=
  match p.loader with
  | none => p.rendered
  | some load => do
    load
    let c ← get
    if c.isWritten then pure () else p.rendered

/-- The GET route of the page. -/
def toRoute (p : Page) : Route :=
  { Route.new .get p.pattern p.endpoint with
    scope := p.scope, file := p.file, catchAllParam := p.catchAllParam,
    optionalCatchAll := p.optionalCatchAll }

end Page

end Waymark.Routing
