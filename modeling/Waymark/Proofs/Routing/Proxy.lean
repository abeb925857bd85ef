import Waymark.Proofs.Handling.Operations
import Waymark.Proofs.Routing.Exits

/-!
# The proxy in front of the routes

A proxy runs once, on the fresh context of the request, and everything that follows depends on what
that run has come to. Either there is a response then, which is the answer whatever the routes are,
or the routes answer as they would answer without a proxy:

* `unguarded`: a mux without its proxy;
* `closing`, `settle`: what a run of a proxy comes to, and the answer of the routes to it;
* `dispatch_eq_settle`: the answer to a request, by the one run of its proxy;
* `settle_of_written`, `settle_of_untouched`: the run decides, or leaves no trace;
* `proxy_final_or_transparent`: both, for every proxy.
-/

namespace Waymark.Routing.Mux

open Waymark.Handling Waymark.Handling.Operation
open Waymark.Http (Method Request Response)

/-- The mux without its proxy. -/
def unguarded (m : Mux) : Mux := { m with proxy := none }

/-- What the result of a proxy writes, behind everything the proxy has done. -/
def closing : Except Stop ProxyAction → List Operation
  | .ok (.redirect location code) => [.redirect code location]
  | .error (.fault f) => [.fail f]
  | .ok .proceed | .ok (.reroute _) | .error (.panic _) => []

/-- The context that is routed when nothing is written. -/
def passed : Except Stop ProxyAction → Context → Context
  | .ok (.reroute path), c => c.reroute path
  | _, c => c

/-- The answer of some routes to what the one run of a proxy has come to. -/
def settle (m : Mux) (request : Request) :
    Except Stop ProxyAction × Context → Except String Response
  | (.error (.panic message), _) => .error message
  | (result, c) =>
    let left := performAll (closing result) c
    if left.isWritten then .ok left.intoResponse
    else (m.run (passed result left)).map fun c =>
      if request.method = .head then c.intoResponse.withBody ByteArray.empty else c.intoResponse

variable {m : Mux} {proxy : Proxy}

/-- The answer to a request depends on its proxy through one run, on a fresh context. -/
theorem dispatch_eq_settle (guarded : m.proxy = some proxy) (request : Request) :
    m.dispatch request = m.unguarded.settle request (proxy.on (.new request)) := by
  cases ran : proxy.on (.new request) with
  | mk result c =>
    -- The routes are reached with whatever the proxy lets pass, or the response is there already.
    have through {c' : Context} (after : afterProxy proxy (.new request) = .ok c')
        (enters : c'.isWritten = false → m.Enters request c') :
        m.dispatch request = if c'.isWritten then .ok c'.intoResponse
          else (m.run c').map fun left =>
            if request.method = .head then left.intoResponse.withBody ByteArray.empty
            else left.intoResponse := by
      cases written : c'.isWritten with
      | true => exact dispatch_of_written guarded after written
      | false => exact dispatch_of_enters (enters written)
    cases result with
    | ok action =>
      cases action with
      | proceed =>
        have after : afterProxy proxy (.new request) = .ok c := by simp [afterProxy, ran]
        exact through after (.passed guarded ran)
      | reroute path =>
        have after : afterProxy proxy (.new request) =
            .ok (c.reroute path) := by simp [afterProxy, ran]
        exact through after fun unwritten => .rerouted guarded ran unwritten
      | redirect location status =>
        have written := isWritten_write c (.redirect status location)
        have after : afterProxy proxy (.new request) = .ok (c.redirect status location) := by
          simp [afterProxy, ran]
        exact through after fun unwritten => absurd (written.symm.trans unwritten) (by decide)
    | error stop =>
      cases stop with
      | fault f =>
        have after : afterProxy proxy (.new request) = .ok (c.fail f) := by simp [afterProxy, ran]
        exact through after fun unwritten =>
          absurd ((isWritten_fail c f).symm.trans unwritten) (by decide)
      | panic message => simp [dispatch, guarded, afterProxy, ran, settle, bind, Except.bind]

section
variable {request : Request} {result : Except Stop ProxyAction} {c : Context}
  (survives : ∀ message, result ≠ .error (.panic message))
include survives

/-- A response that is there once the proxy has run is the answer of all routes. -/
theorem settle_of_isWritten (written : (performAll (closing result) c).isWritten = true) (m : Mux) :
    m.settle request (result, c) = .ok (performAll (closing result) c).intoResponse := by
  unfold settle
  split
  · next message _ same => exact absurd (Prod.mk.inj same).1 (survives message)
  · next same =>
    obtain ⟨rfl, rfl⟩ := Prod.mk.inj same
    exact if_pos written

/-- It is the response that the proxy has written, or else what its result writes. -/
theorem settle_of_written {first : Response}
    (written : c.response.or ((closing result).findSome? written?) = some first) (m : Mux) :
    m.settle request (result, c) =
      .ok ⟨first.status, first.headers ++ c.extraHeaders, first.body⟩ := by
  have writes := writes_performAll (closing result) c
  have response : (performAll (closing result) c).response = some first :=
    writes.response.trans written
  have headers : (performAll (closing result) c).extraHeaders = c.extraHeaders := by
    have silent : (closing result).filterMap header? = [] := by
      unfold closing
      split <;> rfl
    rw [writes.headers, silent, List.append_nil]
  have there : (performAll (closing result) c).isWritten = true := by
    rw [Context.isWritten, response, Option.isSome_some]
  rw [settle_of_isWritten survives there, Context.intoResponse, response, headers]
  rfl

end

/-- A proxy that lets a fresh context pass as it is leaves the routes their answer. -/
theorem settle_of_untouched (m : Mux) (request : Request) :
    m.settle request (.ok .proceed, .new request) = m.unguarded.dispatch request := by
  have fresh : m.unguarded.Enters request (.new request) := .directly rfl
  rw [dispatch_of_enters fresh]
  rfl

/-- A proxy that only sends a fresh context to another path leaves the routes their answer there. -/
theorem settle_of_rerouted (m : Mux) (request : Request) (path : String) :
    m.settle request (.ok (.reroute path), .new request) =
      m.unguarded.dispatch { request with path := path } := by
  have fresh : m.unguarded.Enters { request with path := path }
    (.new { request with path := path }) :=
    .directly rfl
  rw [dispatch_of_enters fresh]
  rfl

/-- **The proxy is final or transparent.** It runs once. A response that is there then is the
answer, for any routes behind the proxy; of a proxy made of operations, the first of its operations
and of its result that writes. A proxy that has touched nothing and reroutes or lets pass leaves the
request to the routes as they would answer it without a proxy. -/
theorem proxy_final_or_transparent (guarded : m.proxy = some proxy) (request : Request) :
    m.dispatch request = m.unguarded.settle request (proxy.on (.new request)) ∧
    (∀ result c first, proxy.on (.new request) = (result, c) →
      (∀ message, result ≠ .error (.panic message)) →
      c.response.or ((closing result).findSome? written?) = some first →
      ∀ m' : Mux, m'.proxy = some proxy →
        m'.dispatch request = .ok ⟨first.status, first.headers ++ c.extraHeaders, first.body⟩) ∧
    (∀ code : Code ProxyAction, proxy = code.action →
      (∀ message, (code.run (.new request)).result ≠ .error (.panic message)) →
      let ops := (code.run (.new request)).done ++ closing (code.run (.new request)).result
      (∃ op ∈ ops, op.written?.isSome) →
      ∀ m' : Mux, m'.proxy = some proxy → m'.dispatch request = .ok (answer ops)) ∧
    (∀ path, proxy.on (.new request) = (.ok (.reroute path), .new request) →
      m.dispatch request = m.unguarded.dispatch { request with path := path }) ∧
    (proxy.on (.new request) = (.ok .proceed, .new request) →
      m.dispatch request = m.unguarded.dispatch request) := by
  refine ⟨dispatch_eq_settle guarded request, ?_, ?_, ?_, ?_⟩
  · intro result c first ran survives written m' guarded'
    rw [dispatch_eq_settle guarded' request, ran]
    exact settle_of_written survives written m'.unguarded
  · intro code same survives ops writing m' guarded'
    subst same
    have writes := (code.writes_run (.new request)).trans
      (writes_performAll (closing (code.run (.new request)).result) _)
    rw [dispatch_eq_settle guarded' request, code.on_action,
      settle_of_isWritten survives (writes.isWritten_iff.2 writing), writes.intoResponse]
  · intro path ran
    rw [dispatch_eq_settle guarded request, ran]
    exact settle_of_rerouted m.unguarded request path
  · intro ran
    rw [dispatch_eq_settle guarded request, ran]
    exact settle_of_untouched m.unguarded request

/-- A proxy that knows where some paths have gone, and keeps others closed. -/
def doorman : Code ProxyAction :=
  .next (.operation (.read fun c => .ok (.string c.path))) fun
    | .string "/old" => .done (.reroute "/new/")
    | .string "/private" => .stop (.fault (.forbidden "no"))
    | _ => .done .proceed

/-- One route behind that proxy. -/
def behindDoorman : Mux :=
  ((empty.handle .get "/new" (modify (·.text 200 "new"))).1).setProxy doorman.action

/-- An old path is answered as the new one, with a method that is not allowed there too. A closed
path is answered by the refusal of the proxy, even without any routes. -/
theorem proxy_final_or_transparent_doorman :
    behindDoorman.proxy = some doorman.action ∧
    behindDoorman.dispatch (.new .post "/old") =
      (empty.handle .get "/new" (modify (·.text 200 "new"))).1.dispatch (.new .post "/new/") ∧
    behindDoorman.dispatch (.new .get "/new") =
      (empty.handle .get "/new" (modify (·.text 200 "new"))).1.dispatch (.new .get "/new") ∧
    (empty.setProxy doorman.action).dispatch (.new .get "/private") = .ok (.text 403 "no") := by
  have guarded : behindDoorman.proxy = some doorman.action := rfl
  obtain ⟨-, -, -, rerouted, -⟩ := proxy_final_or_transparent guarded (.new .post "/old")
  obtain ⟨-, -, -, -, passes⟩ := proxy_final_or_transparent guarded (.new .get "/new")
  obtain ⟨-, -, final, -⟩ := proxy_final_or_transparent guarded (.new .get "/private")
  refine ⟨guarded, rerouted "/new/" rfl, passes rfl, ?_⟩
  have closed : ∃ op ∈ [Operation.read fun c => .ok (.string c.path), .fail (.forbidden "no")],
      op.written?.isSome := ⟨_, List.mem_cons_of_mem _ (List.mem_singleton_self _), rfl⟩
  exact final doorman rfl (by rintro message ⟨⟩) closed (empty.setProxy doorman.action) rfl

end Waymark.Routing.Mux
