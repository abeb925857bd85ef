import Waymark.Routing.Mux

/-!
# How a request is answered

A dispatch has several exits: three by the proxy before anything is routed, and those behind the
route, the fallback of HEAD, or no route at all. Each leaves a context, whose response is the
answer:

* `Enters`: the contexts with which a request comes to be routed;
* `Ends`: the exits, with the contexts they leave;
* `dispatch_eq_ok_iff`: a request is answered through an exit, and the body is taken off at some of
  them;
* `dispatch_head_iff`: the answer to HEAD has no body, unless the proxy gave it.
-/

namespace Waymark.Routing.Mux

open Waymark.Handling
open Waymark.Http (Fault Method Request Response)

/-- An exit of a dispatch. -/
inductive Exit where
  /-- The proxy has written a response itself. -/
  | proxyWrote
  | proxyRedirect
  | proxyFault
  | route
  | routeFault
  /-- The route for GET answers HEAD. -/
  | fallback
  | fallbackFault
  | notFound
  | notAllowed
deriving DecidableEq

/-- The proxy has answered, and nothing was routed. -/
def Exit.isProxy : Exit → Bool
  | proxyWrote | proxyRedirect | proxyFault => true
  | route | routeFault | fallback | fallbackFault | notFound | notAllowed => false

/-- The contexts with which a request comes to be routed: a fresh one, or what a proxy lets pass. -/
inductive Enters (m : Mux) (request : Request) : Context → Prop
  | directly (bare : m.proxy = none) : Enters m request (.new request)
  | passed {proxy : Proxy} {c : Context} (guarded : m.proxy = some proxy)
      (ran : proxy.on (.new request) = (.ok .proceed, c)) (silent : c.isWritten = false) :
      Enters m request c
  | rerouted {proxy : Proxy} {c : Context} {path : String} (guarded : m.proxy = some proxy)
      (ran : proxy.on (.new request) = (.ok (.reroute path), c)) (silent : c.isWritten = false) :
      Enters m request (c.reroute path)

/-- The exits of a context that is routed, each with the context that it leaves. -/
inductive Routed (m : Mux) (c : Context) : Exit → Context → Prop
  | route {left : Context} {handler : Handler} {params : Text.Bindings String}
      (found : m.lookup c.method (normalize c.path) = some (handler, params))
      (ran : handler.on (c.setParams params) = (.ok (), left)) : Routed m c .route left
  | routeFault {left : Context} {handler : Handler} {params : Text.Bindings String} {f : Fault}
      (found : m.lookup c.method (normalize c.path) = some (handler, params))
      (ran : handler.on (c.setParams params) = (.error (.fault f), left)) :
      Routed m c .routeFault (left.fail f)
  | fallback {left : Context} {handler : Handler} {params : Text.Bindings String}
      (head : c.method = .head) (none : m.lookup c.method (normalize c.path) = none)
      (found : m.lookup .get (normalize c.path) = some (handler, params))
      (ran : handler.on (c.setParams params) = (.ok (), left)) : Routed m c .fallback left
  | fallbackFault {left : Context} {handler : Handler} {params : Text.Bindings String} {f : Fault}
      (head : c.method = .head) (none : m.lookup c.method (normalize c.path) = none)
      (found : m.lookup .get (normalize c.path) = some (handler, params))
      (ran : handler.on (c.setParams params) = (.error (.fault f), left)) :
      Routed m c .fallbackFault (left.fail f)
  | notFound (nothing : m.route? c.method (normalize c.path) = none)
      (alone : m.allowed (normalize c.path) = []) :
      Routed m c .notFound (c.fail (.notFound ("no route for " ++ normalize c.path)))
  | notAllowed (nothing : m.route? c.method (normalize c.path) = none)
      (others : m.allowed (normalize c.path) ≠ []) :
      Routed m c .notAllowed
        ((c.setHeader "allow"
          (", ".intercalate ((m.allowed (normalize c.path)).map Method.wireName))).fail
          ⟨405, c.method.wireName ++ " is not allowed for " ++ normalize c.path⟩)

/-- The exits of a request, each with the context that it leaves. -/
inductive Ends (m : Mux) (request : Request) : Exit → Context → Prop
  | proxyWrote {proxy : Proxy} {c : Context} (guarded : m.proxy = some proxy)
      (ran : proxy.on (.new request) = (.ok .proceed, c)) (written : c.isWritten = true) :
      Ends m request .proxyWrote c
  | proxyWroteRerouted {proxy : Proxy} {c : Context} {path : String}
      (guarded : m.proxy = some proxy)
      (ran : proxy.on (.new request) = (.ok (.reroute path), c)) (written : c.isWritten = true) :
      Ends m request .proxyWrote (c.reroute path)
  | proxyRedirect {proxy : Proxy} {c : Context} {location : String} {status : UInt16}
      (guarded : m.proxy = some proxy)
      (ran : proxy.on (.new request) = (.ok (.redirect location status), c)) :
      Ends m request .proxyRedirect (c.redirect status location)
  | proxyFault {proxy : Proxy} {c : Context} {f : Fault} (guarded : m.proxy = some proxy)
      (ran : proxy.on (.new request) = (.error (.fault f), c)) :
      Ends m request .proxyFault (c.fail f)
  | routed {exit : Exit} {c left : Context} (enters : m.Enters request c)
      (routed : m.Routed c exit left) : Ends m request exit left

/-- The answer that a context gives at an exit: HEAD gets no body, unless the proxy has answered. -/
def Exit.answer (exit : Exit) (request : Request) (c : Context) : Response :=
  if request.method = .head ∧ exit.isProxy = false then c.intoResponse.withBody ByteArray.empty
  else c.intoResponse

variable {m : Mux} {request : Request}

theorem isWritten_write (c : Context) (response : Response) :
    (c.write response).isWritten = true := by
  unfold Context.write
  split
  · next there => simp [Context.isWritten, there]
  · rfl

/-- A failure leaves a response. -/
theorem isWritten_fail (c : Context) (f : Fault) : (c.fail f).isWritten = true := by
  unfold Context.fail
  split
  · next written => exact written
  · exact isWritten_write c _

theorem Routed.isProxy {c left : Context} {exit : Exit} (routed : m.Routed c exit left) :
    exit.isProxy = false := by
  cases routed <;> rfl

/-- A context that is routed leaves through an exit, unless its handler panics. -/
theorem run_eq_ok_iff (c left : Context) : m.run c = .ok left ↔ ∃ exit, m.Routed c exit left := by
  constructor
  · intro ran
    unfold run at ran
    dsimp only at ran
    split at ran
    · next handler params found =>
      have through (exit : Exit) (exitFault : Exit)
          (ends : ∀ left, handler.on (c.setParams params) = (.ok (), left) → m.Routed c exit left)
          (fails : ∀ left f, handler.on (c.setParams params) = (.error (.fault f), left) →
            m.Routed c exitFault (left.fail f)) : ∃ exit, m.Routed c exit left := by
        split at ran
        · next on =>
          cases ran
          exact ⟨exit, ends _ on⟩
        · next on =>
          cases ran
          exact ⟨exitFault, fails _ _ on⟩
        · cases ran
      unfold route? at found
      split at found
      · next own =>
        cases found
        refine through .route .routeFault (fun _ on => .route own on) fun _ _ on => ?_
        exact .routeFault own on
      · next none =>
        split at found
        · next head =>
          exact through .fallback .fallbackFault (fun _ on => .fallback head none found on)
            fun _ _ on => .fallbackFault head none found on
        · cases found
    · next nothing =>
      split at ran
      · next alone =>
        cases ran
        exact ⟨_, .notFound nothing alone⟩
      · next others =>
        cases ran
        exact ⟨_, .notAllowed nothing others⟩
  · rintro ⟨exit, routed⟩
    unfold run
    cases routed with
    | route found ran => simp only [route?, found, ran]
    | routeFault found ran => simp only [route?, found, ran]
    | fallback head none found ran => simp only [route?, none, if_pos head, found, ran]
    | fallbackFault head none found ran => simp only [route?, none, if_pos head, found, ran]
    | notFound nothing alone => simp only [nothing, alone]
    | notAllowed nothing others =>
      simp only [nothing]

/-- A request that comes to be routed is answered by what becomes of its context. -/
theorem dispatch_of_enters {c : Context} (enters : m.Enters request c) :
    m.dispatch request = (m.run c).map fun left =>
      if request.method = .head then left.intoResponse.withBody ByteArray.empty
      else left.intoResponse := by
  unfold dispatch
  cases enters with
  | directly bare =>
    simp only [bare, Option.isSome_none, Bool.false_and, Bool.false_eq_true, ↓reduceIte, bind,
      Except.bind]
    cases m.run (.new request) <;> rfl
  | passed guarded ran silent =>
    simp only [guarded, afterProxy, ran, silent, Bool.and_false, Bool.false_eq_true,
      ↓reduceIte, bind, Except.bind]
    cases m.run c <;> rfl
  | @rerouted _ d path guarded ran silent =>
    have silent' : (d.reroute path).isWritten = false := silent
    simp only [guarded, afterProxy, ran, silent', Bool.and_false, Bool.false_eq_true,
      ↓reduceIte, bind, Except.bind]
    cases m.run (d.reroute path) <;> rfl

/-- What a proxy leaves with a response in it is the answer. -/
theorem dispatch_of_written {proxy : Proxy} {c : Context} (guarded : m.proxy = some proxy)
    (left : afterProxy proxy (.new request) = .ok c) (written : c.isWritten = true) :
    m.dispatch request = .ok c.intoResponse := by
  simp [dispatch, guarded, left, written, bind, Except.bind]

/-- A request either comes to be routed, or the proxy answers it, or the proxy panics. -/
theorem enters_or_ends (m : Mux) (request : Request) :
    (∃ c, m.Enters request c) ∨
      (∃ exit c, exit.isProxy = true ∧ m.Ends request exit c) ∨
      ∃ message, m.dispatch request = .error message := by
  cases guarded : m.proxy with
  | none => exact .inl ⟨_, .directly guarded⟩
  | some proxy =>
    cases ran : proxy.on (.new request) with
    | mk result c =>
      cases result with
      | ok action =>
        cases written : c.isWritten with
        | false =>
          cases action with
          | proceed => exact .inl ⟨_, .passed guarded ran written⟩
          | reroute path => exact .inl ⟨_, .rerouted guarded ran written⟩
          | redirect location status => exact .inr (.inl ⟨_, _, rfl, .proxyRedirect guarded ran⟩)
        | true =>
          cases action with
          | proceed => exact .inr (.inl ⟨_, _, rfl, .proxyWrote guarded ran written⟩)
          | reroute path => exact .inr (.inl ⟨_, _, rfl, .proxyWroteRerouted guarded ran written⟩)
          | redirect location status => exact .inr (.inl ⟨_, _, rfl, .proxyRedirect guarded ran⟩)
      | error stop =>
        cases stop with
        | fault f => exact .inr (.inl ⟨_, _, rfl, .proxyFault guarded ran⟩)
        | panic message =>
          refine .inr (.inr ⟨message, ?_⟩)
          simp [dispatch, guarded, afterProxy, ran, bind, Except.bind]

/-- What is left at an exit is the answer. -/
theorem Ends.dispatch {exit : Exit} {left : Context} (ends : m.Ends request exit left) :
    m.dispatch request = .ok (exit.answer request left) := by
  cases ends with
  | @proxyWrote proxy _ guarded ran written =>
    have passed : afterProxy proxy (.new request) = .ok left := by simp [afterProxy, ran]
    simp [dispatch_of_written guarded passed written, Exit.answer, Exit.isProxy]
  | @proxyWroteRerouted proxy c path guarded ran written =>
    have passed : afterProxy proxy (.new request) =
        .ok (c.reroute path) := by simp [afterProxy, ran]
    simp [dispatch_of_written guarded passed written, Exit.answer, Exit.isProxy]
  | @proxyRedirect proxy c location status guarded ran =>
    have redirected : afterProxy proxy (.new request) = .ok (c.redirect status location) := by
      simp [afterProxy, ran]
    simp [dispatch_of_written guarded redirected (isWritten_write _ _), Exit.answer, Exit.isProxy]
  | @proxyFault proxy c f guarded ran =>
    have failed : afterProxy proxy (.new request) = .ok (c.fail f) := by simp [afterProxy, ran]
    simp [dispatch_of_written guarded failed (isWritten_fail _ _), Exit.answer, Exit.isProxy]
  | routed enters routed =>
    rw [dispatch_of_enters enters, (run_eq_ok_iff _ left).2 ⟨exit, routed⟩]
    simp [Exit.answer, routed.isProxy, Except.map]

/-- A request is answered through one of the exits, by what is left there. -/
theorem dispatch_eq_ok_iff (response : Response) : m.dispatch request = .ok response ↔
    ∃ exit left, m.Ends request exit left ∧ response = exit.answer request left := by
  constructor
  · intro answered
    have through {exit : Exit} {left : Context} (ends : m.Ends request exit left) :
        response = exit.answer request left := Except.ok.inj (answered.symm.trans ends.dispatch)
    obtain ⟨c, enters⟩ | ⟨exit, c, -, ends⟩ | ⟨message, panicked⟩ := enters_or_ends m request
    · cases ran : m.run c with
      | error message =>
        rw [dispatch_of_enters enters, ran] at answered
        cases answered
      | ok left =>
        obtain ⟨exit, routed⟩ := (run_eq_ok_iff c left).1 ran
        exact ⟨exit, left, .routed enters routed, through (.routed enters routed)⟩
    · exact ⟨exit, c, ends, through ends⟩
    · rw [panicked] at answered
      cases answered
  · rintro ⟨exit, left, ends, rfl⟩
    exact ends.dispatch

/-- HEAD is answered with the status and the headers that an exit has left. The answer has no body,
except where the proxy has given it: then its body is sent too. -/
theorem dispatch_head_iff (head : request.method = .head) (response : Response) :
    m.dispatch request = .ok response ↔ ∃ exit left, m.Ends request exit left ∧
      response.status = left.intoResponse.status ∧ response.headers = left.intoResponse.headers ∧
      response.body = if exit.isProxy then left.intoResponse.body else ByteArray.empty := by
  have parts (exit : Exit) (left : Context) : response = exit.answer request left ↔
      response.status = left.intoResponse.status ∧ response.headers = left.intoResponse.headers ∧
        response.body = if exit.isProxy then left.intoResponse.body else ByteArray.empty := by
    obtain ⟨status, headers, body⟩ := response
    rcases given : left.intoResponse with ⟨status', headers', body'⟩
    cases proxy : exit.isProxy <;> simp [Exit.answer, head, proxy, given, Response.withBody]
  simp only [dispatch_eq_ok_iff, parts]

/-- Without routes, behind a proxy that turns every request away. -/
def closed : Mux := empty.setProxy (throw (.fault (.forbidden "no")))

/-- The proxy's refusal of a HEAD request is sent with its body. -/
theorem dispatch_head_iff_closed :
    (Request.new .head "/").method = .head ∧
      closed.dispatch (.new .head "/") = .ok (.text 403 "no") ∧
      (∃ exit left, closed.Ends (.new .head "/") exit left ∧ exit.isProxy = true ∧
        (Response.text 403 "no").body = left.intoResponse.body) ∧
      (Response.text 403 "no").body ≠ ByteArray.empty := by
  have answered : closed.dispatch (.new .head "/") = .ok (.text 403 "no") := rfl
  have sent : (Response.text 403 "no").body ≠ ByteArray.empty := by
    intro empty
    have sizes : (Response.text 403 "no").body.size = 0 := congrArg ByteArray.size empty
    exact absurd sizes (by decide)
  obtain ⟨exit, left, ends, -, -, body⟩ :=
    (dispatch_head_iff rfl (Response.text 403 "no")).1 answered
  cases proxy : exit.isProxy with
  | true => exact ⟨rfl, answered, ⟨exit, left, ends, proxy, by simpa [proxy] using body⟩, sent⟩
  | false => exact absurd (by simpa [proxy] using body) sent

end Waymark.Routing.Mux
