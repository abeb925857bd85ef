import Waymark.Proofs.Routing.AnyOrder
import Waymark.Proofs.Routing.BasePattern
import Waymark.Proofs.Routing.Rejection

/-!
# What a mount asks for, and what it reports

A mount asks a router to install the proxy, if there is one, and then for one registration after the
other, whatever the router answers. The report accounts for all the answers:

* `Watched`: a router that notes what it is asked for, and what it answers;
* `registered_watched`: what a run of registrations asks for, and what it adds to a report;
* `NamesRefusals`: a refusal names the method and the pattern that were asked for;
* `AccountsFor`: what the answers of a mount come to;
* `mount_accounts`: every mount accounts for its registrations, and the mux forgets the rejected
  ones.
-/

namespace Waymark.Routing

open Waymark.Handling
open Waymark.Http (Method)

/-- The method of the registration that was refused. -/
def MountError.method : MountError → Method
  | conflict method _ _ => method
  | invalidPattern method _ _ => method

/-- The pattern of the registration that was refused. -/
def MountError.pattern : MountError → String
  | conflict _ pattern _ => pattern
  | invalidPattern _ pattern _ => pattern

/-- The refusals of a router name the method and the pattern that were asked for, as they are meant
to. -/
def NamesRefusals (σ : Type) [PathRouter σ] : Prop :=
  ∀ (router : σ) (method : Method) (pattern : String) (handler : Handler) (e : MountError),
    (PathRouter.handle router method pattern handler).2 = some e → e.method = method ∧
      e.pattern = pattern

/-- A mux names the pattern as it was asked for, and not in the form of its index. -/
theorem Mux.namesRefusals : NamesRefusals Mux := by
  intro m method pattern handler e refused
  obtain ⟨cause, -, rfl⟩ := Option.map_eq_some_iff.1 refused
  cases cause with
  | conflict existing => exact ⟨rfl, rfl⟩
  | template reason => exact ⟨rfl, rfl⟩

namespace Table

/-- Something that a router is asked for, a registration with the answer to it. -/
inductive Asked where
  | proxy (proxy : Proxy)
  | registration (r : Registration) (answer : Option MountError)

/-- A router that notes what it is asked for. -/
structure Watched (σ : Type) where
  router : σ
  notes : List Asked

variable {σ : Type} [PathRouter σ]

instance : PathRouter (Watched σ) where
  handle w method pattern handler :=
    let (router, answer) := PathRouter.handle w.router method pattern handler
    (⟨router, w.notes ++ [.registration ⟨method, pattern, handler⟩ answer]⟩, answer)
  setProxy w proxy := ⟨PathRouter.setProxy w.router proxy, w.notes ++ [.proxy proxy]⟩

/-- A registration with a watched router is noted with its answer, and comes to what it comes to
unwatched. -/
theorem register_watched (w : Watched σ) (report : MountReport) (r : Registration) :
    register (w, report) r =
      (⟨(register (w.router, report) r).1,
        w.notes ++ [.registration r (PathRouter.handle w.router r.method r.pattern r.handler).2]⟩,
        (register (w.router, report) r).2) := by
  rw [register_eq, register_eq]
  rfl

/-- The answers of a router to some registrations, in order. -/
abbrev Answers := List (Registration × Option MountError)

/-- The notes of answered registrations. -/
def Answers.notes (answers : Answers) : List Asked := answers.map fun a => .registration a.1 a.2

/-- A run asks for one registration after the other, whatever the answers are, and adds them to the
report. -/
theorem registered_watched (rs : List Registration) (w : Watched σ) (report : MountReport) :
    ∃ answers : Answers, answers.map Prod.fst = rs ∧
      (∀ a ∈ answers, ∃ router :
        σ, (PathRouter.handle router a.1.method a.1.pattern a.1.handler).2 = a.2) ∧
      rs.foldl register (w, report) =
        (⟨(rs.foldl register (w.router, report)).1, w.notes ++ answers.notes⟩,
          (rs.foldl register (w.router, report)).2) ∧
      (rs.foldl register (w.router, report)).2 =
        (answers.map Prod.snd).foldl MountReport.answered report := by
  induction rs generalizing w report with
  | nil => exact ⟨[], rfl, by simp, by simp [Answers.notes], rfl⟩
  | cons r rs ih =>
    have step := register_watched w report r
    have first := register_eq (w.router, report) r
    obtain ⟨answers, asked, given, watched, reported⟩ :=
      ih (register (w, report) r).1 (register (w, report) r).2
    rw [step] at watched reported
    refine ⟨(r, (PathRouter.handle w.router r.method r.pattern r.handler).2) :: answers,
      ?_, ?_, ?_, ?_⟩
    · rw [List.map_cons, asked]
    · exact List.forall_mem_cons.2 ⟨⟨w.router, rfl⟩, given⟩
    · rw [List.foldl_cons, List.foldl_cons, step, watched]
      simp [Answers.notes]
    · rw [List.foldl_cons, reported, List.map_cons, List.foldl_cons, first]

/-- The answers are counted or kept, each in its turn. -/
theorem foldl_answered (answers : List (Option MountError)) (report : MountReport) :
    answers.foldl MountReport.answered report =
      ⟨report.mounted + answers.countP Option.isNone, report.rejected ++ answers.filterMap id⟩ := by
  induction answers generalizing report with
  | nil => simp
  | cons answer answers ih =>
    rw [List.foldl_cons, ih]
    cases answer with
    | none => simp [MountReport.answered]; omega
    | some e => simp [MountReport.answered]

/-! ## What the answers come to -/

/-- A refusal that names what was asked for leads from the report back to the registration. -/
theorem map_refusals (names : NamesRefusals σ) {answers : Answers}
    (given : ∀ a ∈ answers,
      ∃ router : σ, (PathRouter.handle router a.1.method a.1.pattern a.1.handler).2 = a.2) :
    (answers.filterMap Prod.snd).map (fun e => (e.method, e.pattern)) =
      (answers.filter fun a => a.2.isSome).map fun a => (a.1.method, a.1.pattern) := by
  induction answers with
  | nil => rfl
  | cons a answers ih =>
    obtain ⟨⟨router, answer⟩, others⟩ := List.forall_mem_cons.1 given
    obtain ⟨r, _ | e⟩ := a
    · simpa using ih others
    · obtain ⟨method, pattern⟩ := names router r.method r.pattern r.handler e answer
      simpa [method, pattern] using ih others

/-- What the answers to a mount come to. -/
structure AccountsFor (t : Table) (router : σ) (global : List Middleware) (answers : Answers) :
    Prop where
  /-- The router is asked to install the proxy, and then for the registrations, one after the other;
  the mount goes on as if nobody watched. -/
  asked : t.mount (⟨router, []⟩ : Watched σ) global =
    (⟨(t.mount router global).1, t.proxy.toList.map .proxy ++ answers.notes⟩,
      (t.mount router global).2)
  /-- There is one for each route in mount order, and right behind it one for its base. -/
  attempts : answers.map Prod.fst = t.routesInOrder.flatMap fun r =>
    t.entry global r r.pattern :: r.basePattern?.toList.map (t.entry global r)
  total : (t.mount router global).2.mounted + (t.mount router global).2.rejected.length =
      answers.length
  rejected : (t.mount router global).2.rejected = answers.filterMap Prod.snd
  named : NamesRefusals σ →
      (t.mount router global).2.rejected.map (fun e => (e.method, e.pattern)) =
    (answers.filter fun a => a.2.isSome).map fun a => (a.1.method, a.1.pattern)

/-- Whatever is registered, a watched router has been asked for the proxy first. -/
theorem attempted_watched (t : Table) (router : σ) (rs : List Registration) :
    t.attempted (⟨router, []⟩ : Watched σ) rs =
      rs.foldl register (⟨(t.attempted router []).1, t.proxy.toList.map .proxy⟩, ⟨0, []⟩) := by
  rw [attempted, attempted]
  cases t.proxy with
  | none => rfl
  | some proxy => rfl

theorem attempted_eq_foldl (t : Table) (router : σ) (rs : List Registration) :
    t.attempted router rs = rs.foldl register ((t.attempted router []).1, ⟨0, []⟩) := rfl

/-- The answers that are counted and those that are kept are all answers. -/
theorem countP_add_length_filterMap (answers : Answers) :
    (answers.map Prod.snd).countP Option.isNone + (answers.filterMap Prod.snd).length =
      answers.length := by
  have counted : answers.countP (fun a => decide ¬ a.2.isSome = true) =
      (answers.map Prod.snd).countP Option.isNone := by
    rw [List.countP_map]
    congr 1
    funext a
    cases ha : a.2 <;> simp [ha]
  rw [List.length_filterMap_eq_countP, Nat.add_comm, ← counted, ← List.length_eq_countP_add_countP]

/-- Every mount accounts for its registrations. -/
theorem exists_accountsFor (t : Table) (router : σ) (global : List Middleware) :
    ∃ answers, t.AccountsFor router global answers := by
  obtain ⟨answers, asked, given, watched, reported⟩ := registered_watched (t.attempts global)
    ⟨(t.attempted router []).1, t.proxy.toList.map Asked.proxy⟩ ⟨0, []⟩
  rw [← attempted_watched, ← mount_eq_attempted, ← attempted_eq_foldl,
    ← mount_eq_attempted] at watched
  rw [← attempted_eq_foldl, ← mount_eq_attempted, foldl_answered, List.nil_append, Nat.zero_add,
    List.filterMap_map, Function.id_comp] at reported
  refine ⟨answers, watched, asked, ?_, ?_, ?_⟩
  · rw [reported]
    exact countP_add_length_filterMap answers
  · rw [reported]
  · intro names
    rw [reported]
    exact map_refusals names given

end Table

/-! ## Mounts and muxes -/

/-- A refused registration of a documented pattern cannot be seen in a mux that such registrations
have filled. -/
theorem Mux.insertsQuietly_attemptAll {calls : List Table.Registration}
    (isPattern : ∀ r ∈ calls, IsPattern r.pattern) (method : Method) {pattern : String}
    (documented : IsPattern pattern) (handler : Handler) :
    ((Mux.attemptAll calls).1.indexOf method).InsertsQuietly
    (Mux.indexTemplate pattern) handler := by
  obtain ⟨parts, written⟩ := Table.exists_parts isPattern
  obtain ⟨cs, proper, rfl⟩ := documented
  exact Node.insertsQuietly_documented ((Mux.faithful_attemptAll written).rooted method)
    proper handler

/-- **A mount accounts for every registration, and a rejected one does no harm.** Whatever the
router, it is asked for the proxy, if there is one, and then once for each route in mount order and
right behind it once for its base, if it has one, rejections or not. What was mounted and what was
rejected add up, and the rejections are reported in order, with the method and the pattern that were
asked for. A mux answers after a rejected registration as it did before, if the index of the method
refuses without a trace, as it does for documented patterns; and it looks up the other methods as
before after any registration. -/
theorem Table.mount_accounts (t : Table) (global : List Middleware) :
    (∀ (σ : Type) [PathRouter σ] (router : σ), ∃ answers, t.AccountsFor router global answers) ∧
    NamesRefusals Mux ∧
    (∀ (m : Mux) (method : Method) (pattern : String) (handler : Handler),
      ((m.handle method pattern handler).2 ≠ none →
        (m.indexOf method).InsertsQuietly (Mux.indexTemplate pattern) handler →
        (∀ request, (m.handle method pattern handler).1.dispatch request = m.dispatch request) ∧
          ∀ path, (m.handle method pattern handler).1.allowed path = m.allowed path) ∧
      ∀ other ≠ method, ∀ path, (m.handle method pattern handler).1.lookup other path =
        m.lookup other path) ∧
    ∀ (calls : List Table.Registration) (method : Method) (pattern : String) (handler : Handler),
      (∀ r ∈ calls, IsPattern r.pattern) → IsPattern pattern →
      ((Mux.attemptAll calls).1.indexOf method).InsertsQuietly
      (Mux.indexTemplate pattern) handler := by
  refine ⟨fun σ _ router => t.exists_accountsFor router global, Mux.namesRefusals, ?_, ?_⟩
  · intro m method pattern handler
    refine ⟨fun rejected quiet => Mux.rejected_unseen quiet rejected, ?_⟩
    intro other apart path
    exact Mux.lookup_handle_of_ne apart path
  · intro calls method pattern handler isPattern documented
    exact Mux.insertsQuietly_attemptAll isPattern method documented handler

/-- A user is read under two names, and files are served with and without a path, behind a proxy. -/
def twoReaders : List Table.Call :=
  [.proxy (pure .proceed),
    .route (Route.new .get "/users/{name}" (pure ())),
    .route (Route.new .get "/users/{id}" (pure ())),
    .route { Route.new .get "/files/*" (pure ()) with optionalCatchAll := true }]

theorem Table.routesInOrder_twoReaders :
    (ofCalls twoReaders).routesInOrder = registered twoReaders := by
  have kept : (ofCalls twoReaders).routes = registered twoReaders :=
    (routes_ofCalls_of_nodup (by decide)).1
  rw [routesInOrder, kept]
  apply List.mergeSort_of_pairwise
  decide +kernel

theorem Table.report_twoReaders :
    ((ofCalls twoReaders).mount Mux.empty []).2 =
      ⟨3, [.conflict .get "/users/{id}" "/users/{name}"]⟩ := by
  obtain ⟨middleware, proxy⟩ : (ofCalls twoReaders).middleware = empty.middleware ∧
      (ofCalls twoReaders).proxy = some (pure .proceed) :=
    Prod.mk.inj (around_ofCalls twoReaders)
  rw [mount, routesInOrder_twoReaders, registrations_eq middleware, proxy]
  decide +kernel

/-- Between the other registrations, the second reader is refused. A mux that has refused it once,
refuses it again, and answers every request as if nobody had asked. -/
theorem Table.mount_accounts_twoReaders :
    (∃ answers, (ofCalls twoReaders).AccountsFor Mux.empty [] answers ∧
      answers.map (fun a => a.1.pattern) = ["/users/{name}", "/users/{id}", "/files/*", "/files"] ∧
      (answers.filter fun a => a.2.isSome).map (fun a => (a.1.method, a.1.pattern)) =
        [(.get, "/users/{id}")]) ∧
    ∀ m other, m = (Mux.attemptAll Mux.userCalls).1 →
    other = (modify (·.text 200 "other") : Handler) →
      (m.handle .get "/users/{name}" other).2 =
        some (.conflict .get "/users/{name}" "/users/{id}") ∧
      ∀ request, (m.handle .get "/users/{name}" other).1.dispatch request = m.dispatch request := by
  obtain ⟨accounted, names, harmless, quiet⟩ := mount_accounts (ofCalls twoReaders) []
  constructor
  · obtain ⟨answers, accounts⟩ := accounted Mux Mux.empty
    refine ⟨answers, accounts, ?_, ?_⟩
    · have asked := congrArg (List.map Registration.pattern) accounts.attempts
      rw [List.map_map, routesInOrder_twoReaders] at asked
      have patterns : ["/users/{name}", "/users/{id}", "/files/*", "/files"] =
          ((registered twoReaders).flatMap fun r => r.pattern :: r.basePattern?.toList) := by
        decide +kernel
      rw [patterns]
      exact asked
    · rw [← accounts.named names, report_twoReaders]
      rfl
  · rintro m other rfl rfl
    have refused : ((Mux.attemptAll Mux.userCalls).1.handle .get "/users/{name}"
        (modify (·.text 200 "other"))).2 =
        some (.conflict .get "/users/{name}" "/users/{id}") := by
      decide +kernel
    have documented : IsPattern "/users/{name}" :=
      Mux.isPattern_userCalls ⟨.get, "/users/{name}", modify (·.text 200 "other")⟩
        (by simp [Mux.userCalls])
    have unseen := quiet Mux.userCalls .get "/users/{name}" (modify (·.text 200 "other"))
      Mux.isPattern_userCalls documented
    exact ⟨refused, ((harmless _ _ _ _).1 (Option.ne_none_iff_exists'.2 ⟨_, refused⟩) unseen).1⟩

end Waymark.Routing
