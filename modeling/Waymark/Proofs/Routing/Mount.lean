import Mathlib.Data.List.DropRight
import Waymark.Proofs.Routing.Component
import Waymark.Proofs.Routing.PathIndex.Insert
import Waymark.Proofs.Routing.PathIndex.Search
import Waymark.Routing.Table

/-!
# Mounting patterns of whole components

A mux that took its registrations in holds each of them under its method, and nothing else. A
registration is refused exactly when its pattern has too many parameters, or clashes with one that
is held:

* `Mux.Rooted`, `Mux.Holds`: what the indexes of a mux look like, and what they hold;
* `handle_spec`: what one registration comes to;
* `register_eq`: what it adds to the report of a mount;
* `registered_spec`: what a complete run of registrations leaves behind;
* `registered_complete`: registrations that do not clash are all taken in;
* `lookup_answer`: what a look-up finds;
* `dispatch_of_route`: a request is answered by the handler that its path leads to;
* `dispatch_of_nothing`: a path that leads nowhere is answered as if nothing was registered.
-/

namespace Waymark.Routing

open Template Waymark.Handling
open Waymark.Http (Method Request Response)
open Waymark.Text.Utf8 (encode)

namespace Mux

/-- The indexes of all methods are trees of patterns. -/
def Rooted (m : Mux) : Prop := ∀ method, (m.indexOf method).Rooted

/-- A handler is held for a method and the tokens of a pattern. -/
def Holds (m : Mux) (method : Method) (ts : List Token) (handler : Handler)
    (names : List (List UInt8)) : Prop :=
  (m.indexOf method).Stores ts handler names

theorem rooted_empty : empty.Rooted := fun _ => Node.rooted_blank

theorem not_holds_empty (method : Method) (ts : List Token) (handler : Handler)
    (names : List (List UInt8)) : ¬ empty.Holds method ts handler names :=
  Node.not_stores_blank ts handler names

/-- One more registration is held. -/
def Gains (m m' : Mux) (method : Method) (cs : List Component) (handler : Handler) : Prop :=
  ∀ other ts w ms, m'.Holds other ts w ms ↔ m.Holds other ts w ms ∨
    (other = method ∧ ts = tokensOf cs ∧ w = handler ∧ ms = namesOf cs)

/-- What a registration may come to. -/
def HandleOutcome (m : Mux) (method : Method) (cs : List Component) (handler : Handler) :
    Mux × Option MountError → Prop
  | (m', none) => (namesOf cs).length ≤ 25 ∧ ¬ (m.indexOf method).Meets (tokensOf cs) ∧ m'.Rooted ∧
      m.Gains m' method cs handler
  | (_, some _) => 25 < (namesOf cs).length ∨ (m.indexOf method).Meets (tokensOf cs)

theorem starts_tokensOf (cs : List Component) : (tokensOf cs).head? = some (.literal slash) := by
  cases cs with
  | nil => rfl
  | cons c cs => simp [tokensOf, tokensEach]

/-- The index of one method after an insertion into it. -/
theorem indexOf_handle (m : Mux) (method : Method) (pattern : String) (handler : Handler)
    (other : Method) :
    (m.handle method pattern handler).1.indexOf other =
      if other = method then
        ((m.indexOf method).insert (indexTemplate pattern) handler).1
      else m.indexOf other := rfl

/-- What one registration comes to. -/
theorem handle_spec {m : Mux} (rooted : m.Rooted) {cs : List Component}
    (documented : IsDocumented cs) (method : Method) (handler : Handler) :
    m.HandleOutcome method cs handler (m.handle method (patternOf cs) handler) := by
  have spells := spells_template documented
  by_cases few : (namesOf cs).length ≤ 25
  · have outcome := Node.insert_outcome (rooted method) (normalize_spells spells few)
      (spells.regular (by omega)) (starts_tokensOf cs) handler
    have indexes := indexOf_handle m method (patternOf cs) handler
    have refusal : (m.handle method (patternOf cs) handler).2.isSome =
        ((m.indexOf method).insert (indexTemplate (patternOf cs)) handler).2.isSome := by
      simp [handle]
    generalize (m.indexOf method).insert (indexTemplate (patternOf cs)) handler = inserted
      at outcome indexes refusal
    generalize m.handle method (patternOf cs) handler = result at indexes refusal ⊢
    obtain ⟨index, _ | e⟩ := inserted
    · obtain ⟨m', _ | e⟩ := result
      · obtain ⟨alone, rooted', gains⟩ := outcome
        refine ⟨few, alone, ?_, ?_⟩
        · intro other
          rw [indexes other]
          split
          · exact rooted'
          · exact rooted other
        · intro other ts w ms
          rw [Holds, Holds, indexes other]
          by_cases same : other = method
          · subst same
            simp only [↓reduceIte, true_and]
            exact gains ts w ms
          · simp [same]
      · simp at refusal
    · obtain ⟨m', _ | e⟩ := result
      · simp at refusal
      · exact .inr outcome
  · obtain ⟨e, crowded⟩ := normalize_crowded spells (by omega)
    have refused : (m.handle method (patternOf cs) handler).2.isSome = true := by
      simp [handle, Node.insert, crowded]
    generalize m.handle method (patternOf cs) handler = result at refused ⊢
    obtain ⟨m', _ | e⟩ := result
    · simp at refused
    · exact .inl (by omega)

end Mux

namespace Table

/-- The patterns of some registrations, by their components. -/
def Written (parts : Registration → List Component) (rs : List Registration) : Prop :=
  ∀ r ∈ rs, IsDocumented (parts r) ∧ r.pattern = patternOf (parts r)

/-- Two registrations that cannot stand in one mux. -/
def Collide (parts : Registration → List Component) (r s : Registration) : Prop :=
  r.method = s.method ∧ Clash (tokensOf (parts r)) (tokensOf (parts s))

/-- A registration is held. -/
def Held (parts : Registration → List Component) (r : Registration) (method : Method)
    (ts : List Token) (handler : Handler) (names : List (List UInt8)) : Prop :=
  method = r.method ∧ ts = tokensOf (parts r) ∧ handler = r.handler ∧ names = namesOf (parts r)

/-- What a report has come to by one more answer. -/
def MountReport.answered (report : MountReport) : Option MountError → MountReport
  | none => { report with mounted := report.mounted + 1 }
  | some e => { report with rejected := report.rejected ++ [e] }

/-- A registration changes the report by its answer alone. -/
theorem register_eq {σ : Type} [PathRouter σ] (state : σ × MountReport) (r : Registration) :
    register state r = ((PathRouter.handle state.1 r.method r.pattern r.handler).1,
      state.2.answered (PathRouter.handle state.1 r.method r.pattern r.handler).2) := by
  rw [register]
  split
  · next handled => rw [handled]; rfl
  · next handled => rw [handled]; rfl

/-- A mount only adds to the rejections. -/
theorem rejected_initial {σ : Type} [PathRouter σ] (rs : List Registration)
    (state : σ × MountReport) :
    state.2.rejected <+: (rs.foldl register state).2.rejected := by
  induction rs generalizing state with
  | nil => exact List.prefix_rfl
  | cons r rs ih =>
    refine List.IsPrefix.trans ?_ (ih (register state r))
    rw [register_eq]
    cases (PathRouter.handle state.1 r.method r.pattern r.handler).2 with
    | none => exact List.prefix_rfl
    | some e => exact List.prefix_append _ _

/-- A registration that is not refused. -/
theorem register_accepted {state : Mux × MountReport} {r : Registration}
    (accepted : (register state r).2.rejected = []) :
    state.2.rejected = [] ∧
      state.1.handle r.method r.pattern r.handler = ((register state r).1, none) := by
  rw [register_eq] at accepted ⊢
  cases answer : (PathRouter.handle state.1 r.method r.pattern r.handler).2 with
  | none =>
    rw [answer] at accepted
    exact ⟨accepted, Prod.ext rfl answer⟩
  | some e => simp [answer, MountReport.answered] at accepted

variable {parts : Registration → List Component}

/-- What a complete run of registrations leaves behind. -/
theorem registered_spec {rs : List Registration} (written : Written parts rs)
    {state : Mux × MountReport} (rooted : state.1.Rooted)
    (complete : (rs.foldl register state).2.rejected = []) :
    (rs.foldl register state).1.Rooted ∧
      (∀ method ts w ms, (rs.foldl register state).1.Holds method ts w ms ↔
        state.1.Holds method ts w ms ∨ ∃ r ∈ rs, Held parts r method ts w ms) ∧
      (∀ r ∈ rs, (namesOf (parts r)).length ≤ 25 ∧
        ¬ (state.1.indexOf r.method).Meets (tokensOf (parts r))) ∧
      rs.Pairwise (fun r s => ¬ Collide parts r s) := by
  induction rs generalizing state with
  | nil => exact ⟨rooted, by simp, by simp, .nil⟩
  | cons r rs ih =>
    obtain ⟨documented, pattern⟩ := written r (by simp)
    have first : (register state r).2.rejected = [] :=
      List.prefix_nil.1 (complete ▸ rejected_initial rs (register state r))
    obtain ⟨-, handled⟩ := register_accepted first
    have outcome := Mux.handle_spec rooted documented r.method r.handler
    rw [← pattern, handled] at outcome
    obtain ⟨few, alone, rooted', gains⟩ := outcome
    obtain ⟨rootedAll, holds, fewAll, apart⟩ :=
      ih (fun s hs => written s (List.mem_cons_of_mem r hs)) rooted' complete
    refine ⟨rootedAll, ?_, ?_, ?_⟩
    · intro method ts w ms
      rw [List.foldl_cons, holds, gains, List.exists_mem_cons_iff, or_assoc]
      rfl
    · intro s hs
      obtain rfl | hs := List.mem_cons.1 hs
      · exact ⟨few, alone⟩
      · obtain ⟨fewS, aloneS⟩ := fewAll s hs
        refine ⟨fewS, fun meets => aloneS ?_⟩
        obtain ⟨us, w, ms, stored, clash⟩ := meets
        exact ⟨us, w, ms, (gains s.method us w ms).2 (.inl stored), clash⟩
    · refine List.pairwise_cons.2 ⟨?_, apart⟩
      rintro s hs ⟨same, clash⟩
      have stored := (gains s.method (tokensOf (parts r)) r.handler (namesOf (parts r))).2
        (.inr ⟨same.symm, rfl, rfl, rfl⟩)
      exact (fewAll s hs).2 ⟨_, _, _, stored, clash⟩

/-- Registrations that do not clash are all taken in. -/
theorem registered_complete {rs : List Registration} (written : Written parts rs)
    {state : Mux × MountReport} (rooted : state.1.Rooted) (clean : state.2.rejected = [])
    (few : ∀ r ∈ rs, (namesOf (parts r)).length ≤ 25)
    (alone : ∀ r ∈ rs, ¬ (state.1.indexOf r.method).Meets (tokensOf (parts r)))
    (apart : rs.Pairwise (fun r s => ¬ Collide parts r s)) :
    (rs.foldl register state).2.rejected = [] := by
  induction rs generalizing state with
  | nil => exact clean
  | cons r rs ih =>
    obtain ⟨documented, pattern⟩ := written r (by simp)
    obtain ⟨apartR, apart⟩ := List.pairwise_cons.1 apart
    have handled : PathRouter.handle state.1 r.method r.pattern r.handler =
      state.1.handle r.method r.pattern r.handler := rfl
    have outcome := Mux.handle_spec rooted documented r.method r.handler
    rw [← pattern] at outcome
    rw [List.foldl_cons, register, handled]
    generalize state.1.handle r.method r.pattern r.handler = result at outcome ⊢
    obtain ⟨m', _ | e⟩ := result
    · obtain ⟨-, -, rooted', gains⟩ := outcome
      refine ih (fun s hs => written s (List.mem_cons_of_mem r hs)) rooted' clean
        (fun s hs => few s (List.mem_cons_of_mem r hs)) ?_ apart
      rintro s hs ⟨us, w, ms, stored, clash⟩
      obtain stored | ⟨same, rfl, -⟩ := (gains s.method us w ms).1 stored
      · exact alone s (List.mem_cons_of_mem r hs) ⟨us, w, ms, stored, clash⟩
      · exact apartR s hs ⟨same.symm, clash⟩
    · obtain many | meets := outcome
      · have := few r (by simp)
        omega
      · exact absurd meets (alone r (by simp))

@[simp] theorem middleware_addRoute (t : Table) (r : Route) :
    (t.addRoute r).middleware = t.middleware := by
  unfold addRoute
  split <;> rfl

@[simp] theorem proxy_addRoute (t : Table) (r : Route) : (t.addRoute r).proxy = t.proxy := by
  unfold addRoute
  split <;> rfl

/-- The registrations of a route that nothing is wrapped around. -/
theorem registrations_bare {t : Table} (none : t.middleware = []) {r : Route}
    (alone : r.middleware = []) :
    t.registrations [] r =
      (r.pattern :: r.basePattern?.toList).map fun pattern => ⟨r.method, pattern, r.endpoint⟩ := by
  have chain : t.middlewareChain r.pattern r.scope = [] := by
    simp [middlewareChain, entriesAt, none]
  simp [registrations, chain, alone, compose]

theorem mount_eq {t : Table} (noProxy : t.proxy = none) (global : List Middleware) :
    t.mount Mux.empty global =
      (t.routesInOrder.flatMap (t.registrations global)).foldl register (Mux.empty, ⟨0, []⟩) := by
  rw [mount, noProxy]

/-- A mount begins with no routes, whether or not there is a proxy. -/
theorem mount_begins (t : Table) (global : List Middleware) :
    ∃ start : Mux, start.indexOf = Mux.empty.indexOf ∧ t.mount Mux.empty global =
      (t.routesInOrder.flatMap (t.registrations global)).foldl register (start, ⟨0, []⟩) := by
  rw [mount]
  cases t.proxy with
  | none => exact ⟨Mux.empty, rfl, rfl⟩
  | some proxy => exact ⟨Mux.empty.setProxy proxy, rfl, rfl⟩

/-- What is mounted onto an empty mux: the registrations, unless two of them clash. -/
theorem mount_complete_iff {t : Table} {global : List Middleware}
    (written : Written parts (t.routesInOrder.flatMap (t.registrations global))) :
    (t.mount Mux.empty global).2.isComplete = true ↔
      (∀ r ∈ t.routesInOrder.flatMap (t.registrations global), (namesOf (parts r)).length ≤ 25) ∧
      (t.routesInOrder.flatMap (t.registrations global)).Pairwise
      (fun r s => ¬ Collide parts r s) := by
  obtain ⟨start, bare, mounted⟩ := mount_begins t global
  have rooted : start.Rooted := by
    intro method
    rw [bare]
    exact Mux.rooted_empty method
  rw [mounted, MountReport.isComplete, List.isEmpty_iff]
  constructor
  · intro complete
    obtain ⟨-, -, few, apart⟩ := registered_spec written rooted complete
    exact ⟨fun r hr => (few r hr).1, apart⟩
  · rintro ⟨few, apart⟩
    refine registered_complete written rooted rfl few ?_ apart
    rintro r hr ⟨us, w, ms, stored, -⟩
    rw [bare] at stored
    exact Mux.not_holds_empty r.method us w ms stored

/-- A complete mount holds the registrations and nothing else. -/
theorem mount_holds_iff {t : Table} {global : List Middleware}
    (written : Written parts (t.routesInOrder.flatMap (t.registrations global)))
    (noProxy : t.proxy = none) (complete : (t.mount Mux.empty global).2.isComplete = true) :
    (t.mount Mux.empty global).1.Rooted ∧
    ∀ method ts w ms, (t.mount Mux.empty global).1.Holds method ts w ms ↔
      ∃ r ∈ t.routesInOrder.flatMap (t.registrations global), Held parts r method ts w ms := by
  rw [mount_eq noProxy, MountReport.isComplete, List.isEmpty_iff] at complete
  obtain ⟨rooted, holds, -, -⟩ := registered_spec written Mux.rooted_empty complete
  rw [mount_eq noProxy]
  refine ⟨rooted, fun method ts w ms => ?_⟩
  rw [holds, or_iff_right (Mux.not_holds_empty method ts w ms)]

end Table

namespace Mux

/-- What a look-up finds: a held handler whose pattern no other one that matches comes before, or
nothing because nothing that is held matches. -/
theorem lookup_answer {m : Mux} (rooted : m.Rooted) (method : Method) (path : String) :
    (m.lookup method path = none ∧ ∀ ts w ms, m.Holds method ts w ms →
      ¬ Reaches ts (encode path.toList)) ∨
    ∃ ts w ms taken rest, m.Holds method ts w ms ∧ Fits ts (encode path.toList) taken rest ∧
      (∀ us v ns, m.Holds method us v ns → Reaches us (encode path.toList) → us = ts ∨
        Before ts us) ∧
      m.lookup method path = some (w, Text.Bindings.ofList
        ((Found.params ⟨w, ms.zip taken ++ rest⟩).map fun (name, value) =>
          (if name = wildcardName then Context.wildcardParam else name, value))) := by
  have answer := Node.answer_search (rooted method).1 (encode path.toList)
  have followed : (m.indexOf method).at? path =
      (m.indexOf method).search [] (encode path.toList) := by
    rw [Node.at?, Text.Utf8.toList_toUTF8]
  rw [lookup, followed]
  generalize (m.indexOf method).search [] (encode path.toList) = result at answer ⊢
  cases result with
  | none => exact .inl ⟨rfl, answer⟩
  | some found =>
    obtain ⟨ts, w, ms, taken, rest, stored, fits, rfl, least⟩ := answer
    exact .inr ⟨ts, w, ms, taken, rest, stored, fits, least, rfl⟩

/-- The answer to a request once its handler has run. -/
def answered (request : Request) : Except Stop Unit × Context → Except String Response
  | (.ok _, c) => .ok (finished c)
  | (.error (.fault f), c) => .ok (finished (c.fail f))
  | (.error (.panic message), _) => .error message
where
  finished (c : Context) : Response :=
    if request.method = .head then c.intoResponse.withBody ByteArray.empty else c.intoResponse

theorem dispatch_eq {m : Mux} (noProxy : m.proxy = none) (request : Request) :
    m.dispatch request = (m.run (Context.new request)).map (answered.finished request) := by
  simp only [dispatch, noProxy, Option.isSome_none, Bool.false_and, Bool.false_eq_true, ↓reduceIte]
  change (m.run (Context.new request) >>= fun c => Except.ok (answered.finished request c)) = _
  cases m.run (Context.new request) <;> rfl

theorem route?_of_lookup {m : Mux} {method : Method} {path : String}
    {found : Handler × Text.Bindings String} (own : m.lookup method path = some found) :
    m.route? method path = some found := by
  rw [route?, own]

/-- A request is answered by the handler that its path leads to. -/
theorem dispatch_of_route {m : Mux} (noProxy : m.proxy = none) {request : Request}
    {handler : Handler} {params : Text.Bindings String}
    (found : m.route? request.method (normalize request.path) = some (handler, params)) :
    m.dispatch request =
      answered request (handler.on ((Context.new request).setParams params)) := by
  have method : (Context.new request).method = request.method := rfl
  have path : (Context.new request).path = request.path := rfl
  rw [dispatch_eq noProxy, run]
  simp only [method, path, found]
  obtain ⟨result, c⟩ := handler.on ((Context.new request).setParams params)
  cases result with
  | ok _ => rfl
  | error stop => cases stop <;> rfl

theorem normalize_normalize (path : String) : normalize (normalize path) = normalize path := by
  have once (cs : List Char) : (cs.reverse.dropWhile (· = '/')).reverse = cs.rdropWhile (· = '/') :=
    rfl
  rw [normalize, once, normalize, once]
  cases spelled : path.toList.rdropWhile (· = '/') with
  | nil => rfl
  | cons c cs =>
    have again := List.rdropWhile_idempotent (· = '/') path.toList
    rw [spelled] at again
    rw [String.toList_ofList, again]

theorem lookup_empty (method : Method) (path : String) : empty.lookup method path = none := by
  obtain ⟨nothing, -⟩ | ⟨ts, w, ms, taken, rest, held, -⟩ := lookup_answer rooted_empty method path
  · exact nothing
  · exact absurd held (not_holds_empty method ts w ms)

theorem allowed_eq_nil {m : Mux} {path : String}
    (nothing : ∀ method, m.lookup method (normalize path) = none) : m.allowed path = [] := by
  rw [allowed, List.filter_eq_nil_iff]
  intro method _ found
  have absent := nothing method
  rw [lookup, Option.map_eq_none_iff] at absent
  simp [absent] at found

/-- A path that leads nowhere is answered as if nothing was registered. -/
theorem dispatch_of_nothing {m : Mux} (noProxy : m.proxy = none) {request : Request}
    (nothing : ∀ method, m.lookup method (normalize request.path) = none) :
    m.dispatch request = empty.dispatch request := by
  have path : (Context.new request).path = request.path := rfl
  have unanswered {m : Mux} (nothing : ∀ method, m.lookup method (normalize request.path) = none) :
      m.run (Context.new request) = .ok ((Context.new request).fail
        (.notFound ("no route for " ++ normalize request.path))) := by
    have again : ∀ method, m.lookup method (normalize (normalize request.path)) = none := by
      rw [normalize_normalize]
      exact nothing
    rw [run, path, route?, nothing, nothing, ite_self]
    simp only [allowed_eq_nil again]
  rw [dispatch_eq noProxy, dispatch_eq rfl, unanswered nothing,
    unanswered fun method => lookup_empty method _]

end Mux

namespace Table

theorem proxy_register (state : Mux × MountReport) (r : Registration) :
    (register state r).1.proxy = state.1.proxy := by
  rw [register_eq]
  rfl

/-- A mount without a proxy sets none. -/
theorem proxy_mount {t : Table} (noProxy : t.proxy = none) (global : List Middleware) :
    (t.mount Mux.empty global).1.proxy = none := by
  have kept (rs : List Registration) (state : Mux × MountReport) :
      (rs.foldl register state).1.proxy = state.1.proxy := by
    induction rs generalizing state with
    | nil => rfl
    | cons r rs ih => rw [List.foldl_cons, ih, proxy_register]
  rw [mount_eq noProxy, kept]
  rfl

end Table

end Waymark.Routing
