import Waymark.Proofs.Handling.Operations
import Waymark.Proofs.Routing.Exits
import Waymark.Routing.Page

/-!
# One response for each request

Handlers, chains and pages that are made of operations are answered by the first operation that
writes, whoever did it, and a failure after that changes nothing:

* `Code.page`, `Code.unlessWritten`: what a page does, as code;
* `Built`: the endpoints that are made of operations, with `Built.exists_code`;
* `one_response`: a fresh context is answered by its operations, and so is a request.
-/

namespace Waymark.Handling.Code

open Operation

/-- Goes on only while nothing has been written. -/
def unlessWritten (code : Code Unit) : Code Unit :=
  next (operation (.read fun c => .ok (.bool c.isWritten))) fun
    | .bool false => code
    | _ => done ()

/-- Markup in all layouts, the first of them innermost. -/
def wrapped : List (String → Code String) → String → Code String
  | [], markup => done markup
  | layout :: rest, markup => next (layout markup) (wrapped rest)

/-- Renders a page and sends its markup unless something has been written. -/
def rendered (render : Code String) (layouts : List (String → Code String)) : Code Unit :=
  next render fun markup => next (wrapped layouts.reverse markup) fun markup =>
    unlessWritten (next (operation (.html 200 markup)) fun _ => done ())

/-- Loads a page and, unless that wrote a response, renders it. -/
def page (loader : Option (Code Unit)) (render : Code String)
    (layouts : List (String → Code String)) :
    Code Unit :=
  match loader with
  | none => rendered render layouts
  | some load => next load fun _ => unlessWritten (rendered render layouts)

/-- The router sees to a capture before the code runs. -/
def exposing (name : Option String) (code : Code Unit) : Code Unit :=
  match name with
  | none => code
  | some name => next (operation (.expose name)) fun _ => code

theorem action_unlessWritten (code : Code Unit) :
    (unlessWritten code).action = (do
      let c ← get
      if c.isWritten then pure () else code.action) := by
  funext c
  show ((run (unlessWritten code) c).result, (run (unlessWritten code) c).context) =
    (if c.isWritten then pure () else code.action : Handler) c
  cases written : c.isWritten <;> simp [unlessWritten, run, result, perform, written] <;> rfl

theorem action_wrapped (layouts : List (String → Code String)) (markup : String) :
    (wrapped layouts markup).action =
      (layouts.map fun layout markup => (layout markup).action).foldlM
        (fun markup layout => layout markup) markup := by
  induction layouts generalizing markup with
  | nil => rfl
  | cons layout rest ih =>
    rw [wrapped, action_next, List.map_cons, List.foldlM_cons]
    exact congrArg _ (funext ih)

theorem action_html (markup : String) :
    (unlessWritten (next (operation (.html 200 markup)) fun _ => done ())).action =
      modify fun c => if c.isWritten then c else c.html 200 markup := by
  rw [action_unlessWritten]
  funext c
  show (if c.isWritten then pure ()
      else (next (operation (.html 200 markup)) fun _ => done ()).action :
    Handler) c = (.ok (), if c.isWritten then c else c.html 200 markup)
  cases c.isWritten <;> rfl

end Waymark.Handling.Code

namespace Waymark.Routing

open Waymark.Handling Waymark.Handling.Operation
open Waymark.Http (Fault Method Request Response)

/-- Middleware that does operations of its own around whatever code it is given. -/
def IsAround (middleware : Middleware) (around : Code Unit → Code Unit) : Prop :=
  ∀ inner : Code Unit, middleware inner.action = (around inner).action

/-- The endpoints that are made of operations: code, pages, and chains around them. -/
inductive Built : Handler → Prop
  | code (code : Code Unit) : Built code.action
  | page {p : Page} {render : Code String} {layouts : List (String → Code String)}
      (renders : p.render = render.action)
      (wraps : p.layouts = layouts.map fun layout markup => (layout markup).action)
      (loads : ∀ load ∈ p.loader, Built load) : Built p.endpoint
  | endpoint {r : Route} (handles : Built r.handler) : Built r.endpoint
  | chain {chain : List Middleware} {endpoint : Handler}
      (wraps : ∀ middleware ∈ chain, ∃ around, IsAround middleware around)
      (inner : Built endpoint) :
      Built (compose chain endpoint)

theorem rendered_eq_action {p : Page} {render : Code String} {layouts : List (String → Code String)}
    (renders : p.render = render.action)
    (wraps : p.layouts = layouts.map fun layout markup => (layout markup).action) :
    p.rendered = (Code.rendered render layouts).action := by
  simp only [Page.rendered, Code.rendered, Code.action_next, renders, wraps, Code.action_wrapped,
    Code.action_html, List.map_reverse]

theorem endpoint_eq_action (loader : Option (Code Unit)) {p : Page} {render : Code String}
    {layouts : List (String → Code String)} (renders : p.render = render.action)
    (wraps : p.layouts = layouts.map fun layout markup => (layout markup).action)
    (loads : p.loader = loader.map Code.action) :
    p.endpoint = (Code.page loader render layouts).action := by
  cases loader with
  | none => rw [Page.endpoint, loads, Option.map_none, rendered_eq_action renders wraps, Code.page]
  | some load =>
    rw [Page.endpoint, loads, Option.map_some, rendered_eq_action renders wraps, Code.page,
      Code.action_next, Code.action_unlessWritten]

theorem exposing_eq_action {r : Route} {code : Code Unit} (handles : r.handler = code.action) :
    r.endpoint = (Code.exposing r.catchAllParam code).action := by
  unfold Route.endpoint Code.exposing
  cases r.catchAllParam with
  | none => exact handles
  | some name =>
    rw [handles, Code.action_next]
    rfl

theorem compose_eq_action {chain : List Middleware} {code : Code Unit}
    (wraps : ∀ middleware ∈ chain, ∃ around, IsAround middleware around) :
    ∃ whole : Code Unit, compose chain code.action = whole.action := by
  induction chain with
  | nil => exact ⟨code, rfl⟩
  | cons middleware rest ih =>
    obtain ⟨around, isAround⟩ := wraps middleware (by simp)
    obtain ⟨inner, same⟩ := ih fun m mem => wraps m (List.mem_cons_of_mem middleware mem)
    refine ⟨around inner, ?_⟩
    rw [compose, List.foldr_cons, ← compose, same, isAround]

/-- What is made of operations is code. -/
theorem Built.exists_code {handler : Handler} (built : Built handler) :
    ∃ code : Code Unit, handler = code.action := by
  induction built with
  | code code => exact ⟨code, rfl⟩
  | @page p render layouts renders wraps _ ih =>
    cases loads : p.loader with
    | none => exact ⟨_, endpoint_eq_action none renders wraps loads⟩
    | some load =>
      obtain ⟨code, rfl⟩ := ih load loads
      exact ⟨_, endpoint_eq_action (some code) renders wraps loads⟩
  | endpoint _ ih =>
    obtain ⟨code, handles⟩ := ih
    exact ⟨_, exposing_eq_action handles⟩
  | chain wraps _ ih =>
    obtain ⟨code, rfl⟩ := ih
    exact compose_eq_action wraps

/-- The headers that were set before, as operations. -/
def headersSet (c : Context) : List Operation := c.extraHeaders.map fun h => .setHeader h.1 h.2

theorem Mux.Enters.silent {m : Mux} {request : Request} {c : Context}
    (enters : m.Enters request c) :
    c.response = none := by
  cases enters with
  | directly bare => rfl
  | passed guarded ran silent => simpa [Context.isWritten] using silent
  | @rerouted proxy d path guarded ran silent =>
    have there : d.response = none := by simpa [Context.isWritten] using silent
    exact there

/-- Routes have no part in what comes to be routed. -/
theorem Mux.Enters.of_proxy_eq {m m' : Mux} (same : m'.proxy = m.proxy) {request : Request}
    {c : Context} (enters : m.Enters request c) : m'.Enters request c := by
  cases enters with
  | directly bare => exact .directly (same.trans bare)
  | passed guarded ran silent => exact .passed (same.trans guarded) ran silent
  | rerouted guarded ran silent => exact .rerouted (same.trans guarded) ran silent

/-- What a request is answered that comes to be routed, once operations have been done for it. -/
theorem intoResponse_of_entered {m : Mux} {request : Request} {c : Context}
    (enters : m.Enters request c) (params : Text.Bindings String) (ops : List Operation) :
    (performAll ops (c.setParams params)).intoResponse = answer (headersSet c ++ ops) := by
  have writes := writes_performAll ops (c.setParams params)
  have response : (performAll ops (c.setParams params)).response = ops.findSome? written? := by
    rw [writes.response, Context.setParams, enters.silent, Option.none_or]
  have headers : (performAll ops (c.setParams params)).extraHeaders =
    c.extraHeaders ++ ops.filterMap header? := writes.headers
  have silent : (headersSet c).findSome? written? = none := by
    simp only [headersSet, List.findSome?_map, List.findSome?_eq_none_iff]
    exact fun _ _ => rfl
  have kept : (headersSet c).filterMap header? = c.extraHeaders := by
    simp [headersSet, List.filterMap_map, Function.comp_def, header?]
  rw [Context.intoResponse, response, headers, answer, List.findSome?_append, silent,
    Option.none_or, List.filterMap_append, kept, ← List.append_assoc]

/-- What a handler that succeeds or fails leaves behind a response is the answer. -/
theorem dispatch_of_left {m : Mux} {request : Request} {c left : Context} {handler : Handler}
    {params : Text.Bindings String} (enters : m.Enters request c)
    (found : m.route? c.method (Mux.normalize c.path) = some (handler, params))
    (written : left.isWritten = true)
    (ran : handler.on (c.setParams params) = (.ok (), left) ∨
      ∃ f, handler.on (c.setParams params) = (.error (.fault f), left)) :
    m.dispatch request = .ok (Mux.Exit.route.answer request left) := by
  have kept (f : Fault) : left.fail f = left := if_pos written
  have through : m.run c = .ok left := by
    obtain ran | ⟨f, ran⟩ := ran
    · simp only [Mux.run, found, ran]
    · simp only [Mux.run, found, ran, kept]
  rw [Mux.dispatch_of_enters enters, through]
  simp [Mux.Exit.answer, Mux.Exit.isProxy, Except.map]

/-- A fresh context is answered by the first operation that writes, with the headers of all. So is a
request whose handler is made of operations and fails behind a response: it gets the answer that it
gets from any handler that leaves the same and succeeds. -/
theorem one_response :
    (∀ (request : Request) (ops : List Operation),
      (performAll ops (.new request)).intoResponse = answer ops) ∧
    ∀ {m : Mux} {request : Request} {c left : Context} {handler : Handler}
      {params : Text.Bindings String} {f : Fault}, m.Enters request c →
      m.route? c.method (Mux.normalize c.path) = some (handler, params) → Built handler →
      handler.on (c.setParams params) = (.error (.fault f), left) → left.isWritten = true →
      (∃ code : Code Unit, handler = code.action ∧
        m.dispatch request = .ok (
          let given := answer (headersSet c ++ (code.run (c.setParams params)).done)
          if request.method = .head then given.withBody ByteArray.empty else given)) ∧
      ∀ {m' : Mux} {handler' : Handler}, m'.proxy = m.proxy →
        m'.route? c.method (Mux.normalize c.path) = some (handler', params) →
        handler'.on (c.setParams params) = (.ok (), left) →
          m'.dispatch request = m.dispatch request := by
  refine ⟨fun request ops => intoResponse_performAll ops request, ?_⟩
  intro m request c left handler params f enters found built ran written
  have answered := dispatch_of_left enters found written (.inr ⟨f, ran⟩)
  constructor
  · obtain ⟨code, rfl⟩ := built.exists_code
    refine ⟨code, rfl, ?_⟩
    have leaves : left = performAll (code.run (c.setParams params)).done (c.setParams params) := by
      rw [← code.context_run]
      exact (congrArg Prod.snd ran).symm
    have given := intoResponse_of_entered enters params (code.run (c.setParams params)).done
    rw [← leaves] at given
    rw [answered, Mux.Exit.answer, given]
    simp [Mux.Exit.isProxy]
  · intro m' handler' same found' ran'
    rw [answered, dispatch_of_left (enters.of_proxy_eq same) found' written (.inl ran')]

/-- Middleware that sets a header before it goes on. -/
def tagging : Middleware := fun inner => do
  modify (·.setHeader "x-tag" "yes")
  inner

/-- A page whose renderer writes a response of its own and fails then. -/
def hasty : Page where
  pattern := "/"
  render := (Code.next (.operation (.text 418 "early")) fun _ =>
    .stop (.fault (.internal "late"))).action
  loader := none
  layouts := []
  file := none
  scope := ""
  catchAllParam := none
  optionalCatchAll := false

/-- That page behind the middleware. -/
def hastyHandler : Handler := compose [tagging] hasty.toRoute.endpoint

/-- A handler for the root alone. -/
def aloneAtRoot (handler : Handler) : Mux := (Mux.empty.handle .get "/" handler).1

theorem route?_aloneAtRoot (handler : Handler) :
    (aloneAtRoot handler).route? .get (Mux.normalize "/") = some (handler, .ofList []) := by
  with_unfolding_all rfl

theorem built_hastyHandler : Built hastyHandler := by
  have page : Built hasty.endpoint := by
    refine @Built.page hasty _ [] rfl rfl fun load loads => ?_
    cases loads
  refine .chain ?_ (@Built.endpoint hasty.toRoute page)
  intro middleware mem
  obtain rfl := List.mem_singleton.1 mem
  refine ⟨fun inner => .next (.operation (.setHeader "x-tag" "yes")) fun _ =>
    inner, fun inner => ?_⟩
  rw [Code.action_next]
  rfl

/-- What it leaves behind. -/
def hastyLeft : Context where
  request := .new .get "/"
  params := .ofList []
  locals := .empty
  extraHeaders := [("x-tag", "yes")]
  response := some (.text 418 "early")

/-- The early response is the answer, with the header, and as if nothing had failed. -/
theorem one_response_hasty :
    hastyHandler.on ((Context.new (.new .get "/")).setParams (.ofList [])) =
      (.error (.fault (.internal "late")), hastyLeft) ∧
    (aloneAtRoot hastyHandler).dispatch (.new .get "/") = .ok
      ⟨418, [("content-type", "text/plain; charset=utf-8"), ("x-tag", "yes")], "early".toUTF8⟩ ∧
    (∃ code : Code Unit, hastyHandler = code.action ∧
      (aloneAtRoot hastyHandler).dispatch (.new .get "/") =
        .ok (answer (code.run ((Context.new (.new .get "/")).setParams (.ofList []))).done)) ∧
    (aloneAtRoot (.of fun _ => (.ok (), hastyLeft))).dispatch (.new .get "/") =
      (aloneAtRoot hastyHandler).dispatch (.new .get "/") := by
  have ran : hastyHandler.on ((Context.new (.new .get "/")).setParams (.ofList [])) =
    (.error (.fault (.internal "late")), hastyLeft) := rfl
  have enters : (aloneAtRoot hastyHandler).Enters (.new .get "/") (.new (.new .get "/")) :=
    .directly rfl
  have found := route?_aloneAtRoot hastyHandler
  obtain ⟨byCode, others⟩ := one_response.2 enters found built_hastyHandler ran rfl
  exact ⟨ran, dispatch_of_left enters found rfl (.inr ⟨_, ran⟩), byCode,
    others rfl (route?_aloneAtRoot _) rfl⟩

end Waymark.Routing
