import Waymark.Handling.Context

/-!
# Handlers and what wraps them

A handler changes the context of a request and succeeds, fails or panics; the context it leaves
behind counts in all three cases.

* `Handler`, `Middleware`, `Renderer`, `Layout`, `Proxy`: the kinds of functions of an application;
* `compose`: middleware around an endpoint, the first one outermost.
-/

namespace Waymark.Handling

open Waymark.Http (Fault)

/-- Why a handler stopped early. -/
inductive Stop where
  | fault (f : Fault)
  /-- A panic is not answered by the router but passed on. -/
  | panic (message : String)

/-- A computation on the context of a request. -/
abbrev Action (α : Type) := ExceptT Stop (StateM Context) α

/-- An endpoint or a loader. -/
abbrev Handler := Action Unit

/-- A handler around the rest of the chain. -/
abbrev Middleware := Handler → Handler

/-- Renders the markup of a page. -/
abbrev Renderer := Action String

/-- Wraps markup into more markup. -/
abbrev Layout := String → Action String

/-- What is done with a request before it is routed. -/
inductive ProxyAction where
  | proceed
  /-- Route as if the request had been made to another path. -/
  | reroute (path : String)
  /-- Answer with a redirect without routing. -/
  | redirect (location : String) (status : UInt16)

/-- Runs before a request is routed. -/
abbrev Proxy := Action ProxyAction

/-- Runs a handler on a context. -/
def Action.on {α : Type} (h : Action α) (c : Context) : Except Stop α × Context :=
  (ExceptT.run h).run c

/-- A computation from what it makes of each context. -/
def Action.of {α : Type} (f : Context → Except Stop α × Context) : Action α :=
  ExceptT.mk (fun c => f c)

/-- Middleware around an endpoint; the first one is outermost. -/
def compose (chain : List Middleware) (endpoint : Handler) : Handler :=
  chain.foldr (fun middleware inner => middleware inner) endpoint

end Waymark.Handling
