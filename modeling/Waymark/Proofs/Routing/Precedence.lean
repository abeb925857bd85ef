import Mathlib.Data.List.Pairwise
import Waymark.Proofs.Routing.Mount
import Waymark.Proofs.Routing.PatternOrder

/-!
# Precedence in dispatch

Of the routes that match a request, a mux runs the one whose pattern has a literal where the others
have none, one component after another. Mount order is another order:

* `Registration.answersAlone`: a registration would answer a request if it was the only one;
* `candidates`, `Leads`: all such registrations, and a route none of them comes before;
* `answersAlone_iff`: what that says about the tokens of its pattern;
* `dispatch_first_iff`: the route that is run, and when that is the first one in mount order.
-/

namespace Waymark.Routing.Table

open Waymark.Handling
open Waymark.Http (Method Request)
open Waymark.Text.Utf8 (encode)

/-- The registration would answer a request if it was the only one. -/
def Registration.answersAlone (reg : Registration) (request : Request) : Bool :=
  reg.method = request.method &&
    ((Mux.empty.handle reg.method reg.pattern reg.handler).1.lookup reg.method
      (Mux.normalize request.path)).isSome

variable (t : Table) (global : List Middleware)

/-- The registrations that would each answer a request. -/
def candidates (request : Request) : List Registration :=
  (t.routesInOrder.flatMap (t.registrations global)).filter fun reg => reg.answersAlone request

/-- A route of the table matches a request. -/
def answers (request : Request) (r : Route) : Bool :=
  (t.registrations global r).any fun reg => reg.answersAlone request

/-- A route matches a request by a pattern that no other candidate comes before. -/
def Leads (request : Request) (r : Route) : Prop :=
  ∃ reg ∈ t.registrations global r, reg.answersAlone request = true ∧
    ∀ other ∈ t.candidates global request, precedes other.pattern reg.pattern = false

section
variable {t global}

theorem mem_routesInOrder {r : Route} : r ∈ t.routesInOrder ↔ r ∈ t.routes := by
  rw [routesInOrder, inMountOrder]
  exact List.mem_mergeSort

/-- Documented patterns have components. -/
theorem exists_parts {rs : List Registration} (isPattern : ∀ r ∈ rs, IsPattern r.pattern) :
    ∃ parts, Written parts rs := by
  have each (r : Registration) : ∃ cs, r ∈ rs → IsDocumented cs ∧ r.pattern = patternOf cs := by
    by_cases mem : r ∈ rs
    · obtain ⟨cs, documented, pattern⟩ := isPattern r mem
      exact ⟨cs, fun _ => ⟨documented, pattern⟩⟩
    · exact ⟨[], fun mem' => absurd mem' mem⟩
  choose parts written using each
  exact ⟨parts, written⟩

/-- What a table registers has documented patterns when its routes do. -/
theorem isPattern_registrations (isPattern : ∀ r ∈ t.routes, IsPattern r.pattern) :
    ∀ reg ∈ t.routesInOrder.flatMap (t.registrations global), IsPattern reg.pattern := by
  intro reg mem
  obtain ⟨r, hr, made⟩ := List.mem_flatMap.1 mem
  have own : IsPattern r.pattern := isPattern r (mem_routesInOrder.1 hr)
  rw [registrations] at made
  obtain ⟨pattern, given, rfl⟩ := List.mem_map.1 made
  obtain rfl | base := List.mem_cons.1 given
  · exact own
  · exact isPattern_basePattern? own (Option.mem_toList.1 base)

theorem exists_written (isPattern : ∀ r ∈ t.routes, IsPattern r.pattern) :
    ∃ parts, Written parts (t.routesInOrder.flatMap (t.registrations global)) :=
  exists_parts (isPattern_registrations isPattern)

/-- A registration alone answers the requests whose path its tokens match. -/
theorem answersAlone_iff {reg : Registration} {cs : List Component} (documented : IsDocumented cs)
    (pattern : reg.pattern = patternOf cs) (few : (namesOf cs).length ≤ 25) (request : Request) :
    reg.answersAlone request = true ↔ reg.method = request.method ∧
      Reaches (tokensOf cs) (encode (Mux.normalize request.path).toList) := by
  have outcome := Mux.handle_spec Mux.rooted_empty documented reg.method reg.handler
  rw [Registration.answersAlone, Bool.and_eq_true, decide_eq_true_eq, and_congr_right_iff, pattern]
  rintro -
  generalize Mux.empty.handle reg.method (patternOf cs) reg.handler = result at outcome ⊢
  obtain ⟨m, _ | e⟩ := result
  · obtain ⟨-, -, rooted, gains⟩ := outcome
    have alone {ts : List Token} {w : Handler} {ms : List (List UInt8)} :
        m.Holds reg.method ts w ms ↔ ts = tokensOf cs ∧ w = reg.handler ∧ ms = namesOf cs := by
      rw [gains, or_iff_right (Mux.not_holds_empty _ _ _ _)]
      simp
    obtain ⟨nothing, unmatched⟩ | ⟨ts, w, ms, taken, rest, held, fits, -, found⟩ :=
      Mux.lookup_answer rooted reg.method (Mux.normalize request.path)
    · rw [nothing]
      simpa using unmatched _ _ _ (alone.2 ⟨rfl, rfl, rfl⟩)
    · obtain ⟨rfl, -, -⟩ := alone.1 held
      rw [found]
      simpa using ⟨taken, rest, fits⟩
  · obtain many | ⟨us, w, ms, stored, -⟩ := outcome
    · omega
    · exact absurd stored (Mux.not_holds_empty _ us w ms)

theorem mem_candidates {request : Request} {reg : Registration} :
    reg ∈ t.candidates global request ↔
      (∃ r ∈ t.routesInOrder, reg ∈ t.registrations global r) ∧
      reg.answersAlone request = true := by
  rw [candidates, List.mem_filter, List.mem_flatMap]

/-- Registrations of one key are one registration of one route. -/
theorem eq_of_key {κ : Type} {key : Registration → κ}
    (apart : (t.routesInOrder.flatMap (t.registrations global)).Pairwise fun a b => key a ≠ key b)
    {r s : Route} (hr : r ∈ t.routesInOrder) (hs : s ∈ t.routesInOrder) {a b : Registration}
    (ha : a ∈ t.registrations global r) (hb : b ∈ t.registrations global s) (same : key a = key b) :
    r = s ∧ a = b := by
  have symm : Std.Symm fun a b : Registration => key a ≠ key b := ⟨fun _ _ other => other.symm⟩
  have symmEach : Std.Symm fun r s : Route => ∀ a ∈ t.registrations global r,
      ∀ b ∈ t.registrations global s, key a ≠ key b :=
    ⟨fun _ _ other a ha b hb => (other b hb a ha).symm⟩
  constructor
  · by_contra other
    exact (List.pairwise_flatMap.1 apart).2.forall hr hs other a ha b hb same
  · by_contra other
    exact apart.forall (List.mem_flatMap.2 ⟨r, hr, ha⟩) (List.mem_flatMap.2 ⟨s, hs, hb⟩) other same

/-- The registration that a request is answered by: no other candidate comes before it. -/
theorem dispatch_least (isPattern : ∀ r ∈ t.routes, IsPattern r.pattern) (noProxy : t.proxy = none)
    (complete : (t.mount Mux.empty global).2.isComplete = true) {request : Request}
    (matched : ∃ r ∈ t.routesInOrder, t.answers global request r = true) :
    ∃ owner ∈ t.routesInOrder, ∃ reg ∈ t.registrations global owner,
      reg.answersAlone request = true ∧
      (∀ r ∈ t.routesInOrder, ∀ other ∈ t.registrations global r,
        other.answersAlone request = true →
        (r = owner ∧ other = reg) ∨ precedes reg.pattern other.pattern = true) ∧
      ∃ params, (t.mount Mux.empty global).1.dispatch request =
        Mux.answered request (reg.handler.on ((Context.new request).setParams params)) := by
  obtain ⟨parts, written⟩ : ∃ parts,
    Written parts (t.routesInOrder.flatMap (t.registrations global)) :=
    exists_written isPattern
  obtain ⟨few, apart⟩ := (mount_complete_iff written).1 complete
  obtain ⟨rooted, holds⟩ := mount_holds_iff written noProxy complete
  have apart : (t.routesInOrder.flatMap (t.registrations global)).Pairwise fun a b =>
      (a.method, tokensOf (parts a)) ≠ (b.method, tokensOf (parts b)) := by
    refine apart.imp fun {a b} apart same => apart ?_
    rw [Prod.mk.injEq] at same
    rw [Collide, same.1, same.2]
    exact ⟨rfl, clash_self _⟩
  have alone {reg : Registration} (mem : reg ∈ t.routesInOrder.flatMap (t.registrations global)) :=
    answersAlone_iff (written reg mem).1 (written reg mem).2 (few reg mem) request
  have held {reg : Registration} (mem : reg ∈ t.routesInOrder.flatMap (t.registrations global))
      (method : reg.method = request.method) : (t.mount Mux.empty global).1.Holds request.method
        (tokensOf (parts reg)) reg.handler (namesOf (parts reg)) :=
    (holds _ _ _ _).2 ⟨reg, mem, method.symm, rfl, rfl, rfl⟩
  obtain ⟨-, nothing⟩ | ⟨ts, w, ms, taken, rest, stored, fits, least, found⟩ :=
    Mux.lookup_answer rooted request.method (Mux.normalize request.path)
  · obtain ⟨r, hr, any⟩ := matched
    obtain ⟨reg, made, answer⟩ := List.any_eq_true.1 any
    have mem := List.mem_flatMap.2 ⟨r, hr, made⟩
    obtain ⟨method, reaches⟩ := (alone mem).1 answer
    exact absurd reaches (nothing _ _ _ (held mem method))
  · obtain ⟨reg, mem, method, rfl, rfl, rfl⟩ := (holds _ _ _ _).1 stored
    obtain ⟨owner, hOwner, made⟩ := List.mem_flatMap.1 mem
    refine ⟨owner, hOwner, reg, made, (alone mem).2 ⟨method.symm, taken, rest, fits⟩, ?_, ?_⟩
    · intro r hr other madeOther answer
      have memOther := List.mem_flatMap.2 ⟨r, hr, madeOther⟩
      obtain ⟨methodOther, reaches⟩ := (alone memOther).1 answer
      obtain same | before := least _ _ _ (held memOther methodOther) reaches
      · exact .inl (eq_of_key apart hr hOwner madeOther made
          (Prod.mk.injEq _ _ _ _ ▸ ⟨methodOther.trans method, same⟩))
      · right
        rw [(written reg mem).2, (written other memOther).2]
        exact precedes_of_before (written reg mem).1 (written other memOther).1 before
    · exact ⟨_, Mux.dispatch_of_route (proxy_mount noProxy global) (Mux.route?_of_lookup found)⟩

end

/-- **Precedence.** A request that routes of a table match is answered by the candidate whose
pattern comes before those of all others, component by component. The first matching route in mount
order is the one that is run exactly when no candidate comes before it. -/
theorem dispatch_first_iff {t : Table} {global : List Middleware}
    (isPattern : ∀ r ∈ t.routes, IsPattern r.pattern) (noProxy : t.proxy = none)
    (complete : (t.mount Mux.empty global).2.isComplete = true) {request : Request} {first : Route}
    (found : t.routesInOrder.find? (t.answers global request) = some first) :
    ∃ owner ∈ t.routesInOrder, ∃ reg ∈ t.registrations global owner,
      reg.answersAlone request = true ∧
      (∀ other ∈ t.candidates global request,
        other = reg ∨ precedes reg.pattern other.pattern = true) ∧
      (∃ params, (t.mount Mux.empty global).1.dispatch request =
        Mux.answered request (reg.handler.on ((Context.new request).setParams params))) ∧
      (owner = first ↔ t.Leads global request first) := by
  obtain ⟨owner, hOwner, reg, made, answer, least, dispatched⟩ :=
    dispatch_least isPattern noProxy complete
      ⟨first, List.mem_of_find?_eq_some found, List.find?_some found⟩
  have behind : ∀ other ∈ t.candidates global request,
      other = reg ∨ precedes reg.pattern other.pattern = true := by
    intro other mem
    obtain ⟨⟨r, hr, madeOther⟩, answerOther⟩ := mem_candidates.1 mem
    obtain ⟨-, same⟩ | before := least r hr other madeOther answerOther
    · exact .inl same
    · exact .inr before
  refine ⟨owner, hOwner, reg, made, answer, behind, dispatched, ?_, ?_⟩
  · rintro rfl
    refine ⟨reg, made, answer, fun other mem => ?_⟩
    obtain rfl | before := behind other mem
    · exact precedes_irrefl _
    · exact precedes_asymm before
  · rintro ⟨own, madeOwn, answerOwn, leads⟩
    obtain ⟨same, -⟩ | before :=
      least first (List.mem_of_find?_eq_some found) own madeOwn answerOwn
    · exact same.symm
    · have last := leads reg (mem_candidates.2 ⟨⟨owner, hOwner, made⟩, answer⟩)
      exact absurd (before.symm.trans last) (by decide)

/-- A parameter in front of a literal: precedence 50. -/
def parameterRoute : Route := Route.new .get "/{x}/b" (modify (·.text 200 "parameter"))

/-- A wildcard behind a literal: precedence 5. -/
def wildcardRoute : Route := Route.new .get "/a/*" (modify (·.text 200 "wildcard"))

/-- Two routes that both match `/a/b`. -/
def crossing : Table := (empty.addRoute parameterRoute).addRoute wildcardRoute

theorem routes_crossing : crossing.routes = [parameterRoute, wildcardRoute] := by
  simp [crossing, addRoute, empty, parameterRoute, wildcardRoute, Route.new]

theorem routesInOrder_crossing : crossing.routesInOrder = [parameterRoute, wildcardRoute] := by
  rw [routesInOrder, routes_crossing, inMountOrder, List.mergeSort_of_pairwise]
  simp only [List.pairwise_cons, List.mem_singleton, forall_eq, List.not_mem_nil, false_imp_iff,
    implies_true, List.Pairwise.nil, and_true]
  decide +kernel

theorem proxy_crossing : crossing.proxy = none := by
  simp [crossing, empty]

/-- The registration of a route of that table. -/
def plainRegistration (r : Route) : Registration := ⟨r.method, r.pattern, r.endpoint⟩

theorem registrations_crossing {r : Route} (mem : r ∈ crossing.routesInOrder) :
    crossing.registrations [] r = [plainRegistration r] := by
  rw [routesInOrder_crossing, List.mem_cons, List.mem_singleton] at mem
  have none : crossing.middleware = [] := by simp [crossing, empty]
  obtain rfl | rfl := mem
  · exact registrations_bare none rfl
  · exact registrations_bare none rfl

/-- A wildcard is run before the parameter that comes first in mount order. -/
theorem dispatch_first_iff_crossing :
    crossing.routesInOrder.find? (crossing.answers [] (Request.new .get "/a/b")) =
      some parameterRoute ∧
      ∃ params, (crossing.mount Mux.empty []).1.dispatch (Request.new .get "/a/b") =
        Mux.answered (Request.new .get "/a/b")
          (wildcardRoute.endpoint.on
            ((Context.new (Request.new .get "/a/b")).setParams params)) := by
  have parameter : parameterRoute ∈ crossing.routesInOrder := by simp [routesInOrder_crossing]
  have wildcard : wildcardRoute ∈ crossing.routesInOrder := by simp [routesInOrder_crossing]
  have isPattern : ∀ r ∈ crossing.routes, IsPattern r.pattern := by
    have front : IsPattern "/{x}/b" :=
      ⟨[.parameter "x", .literal "b"], .cons (by decide) rfl (.cons (by decide) rfl .nil),
        by decide +kernel⟩
    have behind : IsPattern "/a/*" :=
      ⟨[.literal "a", .wildcard none], .cons (by decide) rfl (.wildcard (by decide)),
        by decide +kernel⟩
    simp only [routes_crossing, List.mem_cons, List.not_mem_nil, or_false,
      forall_eq_or_imp, forall_eq]
    exact ⟨front, behind⟩
  have complete : (crossing.mount Mux.empty []).2.isComplete = true := by
    rw [mount_eq proxy_crossing, routesInOrder_crossing, List.flatMap_cons, List.flatMap_singleton,
      registrations_crossing parameter, registrations_crossing wildcard]
    decide +kernel
  have both : (plainRegistration parameterRoute).answersAlone (Request.new .get "/a/b") = true ∧
      (plainRegistration wildcardRoute).answersAlone (Request.new .get "/a/b") = true := by
    decide +kernel
  have first : crossing.routesInOrder.find? (crossing.answers [] (Request.new .get "/a/b")) =
      some parameterRoute := by
    have matched : crossing.answers [] (Request.new .get "/a/b") parameterRoute = true := by
      rw [answers, registrations_crossing parameter]
      simpa using both.1
    rw [routesInOrder_crossing, List.find?_cons, matched]
  obtain ⟨owner, hOwner, reg, made, -, -, dispatched, iff⟩ :=
    dispatch_first_iff isPattern proxy_crossing complete first
  have other : owner ≠ parameterRoute := by
    intro same
    obtain ⟨own, madeOwn, -, leads⟩ := iff.1 same
    rw [registrations_crossing parameter, List.mem_singleton] at madeOwn
    subst madeOwn
    have candidate : plainRegistration wildcardRoute ∈
        crossing.candidates [] (Request.new .get "/a/b") :=
      mem_candidates.2 ⟨⟨_, wildcard, by simp [registrations_crossing wildcard]⟩, both.2⟩
    have before : precedes "/a/*" "/{x}/b" = true := by decide +kernel
    exact absurd (before.symm.trans (leads _ candidate)) (by decide)
  rw [registrations_crossing hOwner, List.mem_singleton] at made
  rw [routesInOrder_crossing, List.mem_cons, List.mem_singleton] at hOwner
  obtain rfl := hOwner.resolve_left other
  obtain rfl := made
  exact ⟨first, dispatched⟩

end Waymark.Routing.Table
