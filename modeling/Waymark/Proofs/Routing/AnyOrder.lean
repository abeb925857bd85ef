import Waymark.Proofs.Routing.Calls
import Waymark.Proofs.Routing.Mount

/-!
# A mount does not hang on the order of registration

A table sorts its routes before it mounts them, and nothing else in a mount looks at the order in
which they were registered:

* `around_ofCalls`: registrations do not change what is put around routes;
* `registrations_eq`: what a route is mounted as hangs on the middleware alone;
* `pairwise_routesInOrder`: routes of different claims are in strict mount order;
* `mount_eq_of_perm`: the same routes registered in another order are mounted as before.
-/

namespace Waymark.Routing.Table

open Waymark.Handling
open Waymark.Http (Method)

/-- What a table puts around its routes. -/
def around (t : Table) : List (String × List ScopedMiddleware) × Option Proxy :=
  (t.middleware, t.proxy)

section
variable {t u : Table}

theorem around_addRoute (t : Table) (r : Route) : (t.addRoute r).around = t.around := by
  rw [around, around, middleware_addRoute, proxy_addRoute]

theorem around_run_of_registers {call : Call} (registers : call.registers = true) (t : Table) :
    (call.run t).around = t.around := by
  cases call with
  | route r => exact around_addRoute t r
  | page p => exact around_addRoute t p.toRoute
  | middleware pfx scope m => cases registers
  | proxy p => cases registers

/-- What a call makes of the surroundings hangs on nothing else. -/
theorem around_run (same : t.around = u.around) (call : Call) :
    (call.run t).around = (call.run u).around := by
  obtain ⟨middleware, proxy⟩ := Prod.mk.inj same
  cases call with
  | route r => rw [Call.run, Call.run, around_addRoute, around_addRoute, same]
  | page p => rw [Call.run, Call.run, addPage, addPage, around_addRoute, around_addRoute, same]
  | middleware pfx scope m =>
    rw [Call.run, Call.run, around, around, addMiddleware, addMiddleware, middleware, proxy]
  | proxy p => rw [Call.run, Call.run, around, around, setProxy, setProxy, middleware]

/-- Registrations do not change what is put around routes. -/
theorem around_ofCalls (calls : List Call) :
    (ofCalls calls).around = (ofCalls (calls.filter fun call => !call.registers)).around := by
  induction calls using List.reverseRecOn with
  | nil => rfl
  | append_singleton calls call ih =>
    rw [ofCalls_concat, List.filter_append]
    by_cases registers : call.registers = true
    · rw [around_run_of_registers registers, ih]
      simp [registers]
    · have kept : [call].filter (fun call => !call.registers) = [call] := by simp [registers]
      rw [kept, ofCalls_concat]
      exact around_run ih call

/-- What a route is mounted as hangs on the middleware alone. -/
theorem registrations_eq (same : t.middleware = u.middleware) (global : List Middleware) :
    t.registrations global = u.registrations global := by
  have entries : t.entriesAt = u.entriesAt := by
    funext pfx
    rw [entriesAt, entriesAt, same]
  funext route
  rw [registrations, registrations, middlewareChain, middlewareChain, entries]

theorem mount_congr {σ : Type} [PathRouter σ] (routes : t.routesInOrder = u.routesInOrder)
    (same : t.around = u.around) (router : σ) (global : List Middleware) :
    t.mount router global = u.mount router global := by
  obtain ⟨middleware, proxy⟩ := Prod.mk.inj same
  rw [mount, mount, routes, registrations_eq middleware, proxy]

end

section
variable {calls others : List Call}

theorem routesInOrder_perm (apart : ((registered calls).map claimOf).Nodup) :
    (ofCalls calls).routesInOrder.Perm (registered calls) := by
  have kept := (routes_ofCalls_of_nodup apart).1
  rw [routesInOrder, kept]
  exact perm_inMountOrder keyOf (registered calls)

theorem claimOf_eq_of_keyOf {a b : Route} (h : keyOf a = keyOf b) : claimOf a = claimOf b := by
  obtain ⟨-, pattern, method⟩ := MountKey.mk.inj h
  rw [claimOf, claimOf, pattern, method]

/-- Routes of different claims have different places in mount order. -/
theorem toldApart_keyOf {rs : List Route} (apart : (rs.map claimOf).Nodup) :
    ToldApart keyOf rs := by
  intro a ha b hb same
  exact toldApart_of_nodup apart a ha b hb (claimOf_eq_of_keyOf same)

theorem routesInOrder_eq_of_perm (apart : ((registered calls).map claimOf).Nodup)
    (perm : (registered others).Perm (registered calls)) :
    (ofCalls others).routesInOrder = (ofCalls calls).routesInOrder := by
  have apart' : ((registered others).map claimOf).Nodup := (perm.map claimOf).nodup_iff.2 apart
  have kept := (routes_ofCalls_of_nodup apart).1
  have kept' := (routes_ofCalls_of_nodup apart').1
  rw [routesInOrder, routesInOrder, kept, kept']
  exact inMountOrder_eq_of_perm (toldApart_keyOf apart) perm

/-- Routes of different claims are in strict mount order. -/
theorem pairwise_routesInOrder (apart : ((registered calls).map claimOf).Nodup) :
    (ofCalls calls).routesInOrder.Pairwise fun a b => (keyOf b).compare (keyOf a) = .gt := by
  have claims : (ofCalls calls).routesInOrder.Pairwise fun a b => claimOf a ≠ claimOf b := by
    have once := ((routesInOrder_perm apart).map claimOf).nodup_iff.2 apart
    exact List.pairwise_map.1 once
  refine (claims.and (pairwise_inMountOrder keyOf _)).imp ?_
  rintro a b ⟨different, before⟩
  cases after : (keyOf b).compare (keyOf a) with
  | gt => rfl
  | eq => exact absurd (claimOf_eq_of_keyOf (MountKey.eq_of_compare after)).symm different
  | lt =>
    have back : (keyOf b).le (keyOf a) = true := by rw [MountKey.le, after]; rfl
    exact absurd (claimOf_eq_of_keyOf (MountKey.le_antisymm before back)) different

/-- The same routes, no two for one pattern and method, registered in any order and in any way
between the same other calls, are in one mount order, and any router gets the same registrations and
reports the same. -/
theorem mount_eq_of_perm (apart : ((registered calls).map claimOf).Nodup)
    (perm : (registered others).Perm (registered calls))
    (rest : (others.filter fun call => !call.registers) = calls.filter fun call =>
      !call.registers) :
    (ofCalls others).routesInOrder = (ofCalls calls).routesInOrder ∧
      (ofCalls calls).routesInOrder.Perm (registered calls) ∧
      ((ofCalls calls).routesInOrder.Pairwise fun a b => (keyOf b).compare (keyOf a) = .gt) ∧
      (∀ global, (ofCalls others).routesInOrder.flatMap ((ofCalls others).registrations global) =
        (ofCalls calls).routesInOrder.flatMap ((ofCalls calls).registrations global)) ∧
      ∀ (σ : Type) [PathRouter σ] (router : σ) (global : List Middleware),
        (ofCalls others).mount router global = (ofCalls calls).mount router global := by
  have routes := routesInOrder_eq_of_perm apart perm
  have same : (ofCalls others).around = (ofCalls calls).around := by
    rw [around_ofCalls others, around_ofCalls calls, rest]
  refine ⟨routes, routesInOrder_perm apart, pairwise_routesInOrder apart, ?_, ?_⟩
  · intro global
    rw [routes, registrations_eq (Prod.mk.inj same).1]
  · intro σ _ router global
    exact mount_congr routes same router global

/-- Three routes, one with a precedence of its own, between middleware and a proxy. -/
def forwards : List Call :=
  [.route { Route.new .get "/users/me" (pure ()) with priority := 7 },
    .middleware "/" "" (fun next => next),
    .page ⟨"/users/{id}", pure "", none, [], none, "users/[id]", none, false⟩,
    .proxy (pure .proceed),
    .route (Route.new .post "/users" (pure ()))]

/-- The same routes the other way round. -/
def backwards : List Call :=
  [.route (Route.new .post "/users" (pure ())),
    .page ⟨"/users/{id}", pure "", none, [], none, "users/[id]", none, false⟩,
    .middleware "/" "" (fun next => next),
    .route { Route.new .get "/users/me" (pure ()) with priority := 7 },
    .proxy (pure .proceed)]

/-- The literal comes last in both, since its own precedence says so. -/
theorem mount_eq_of_perm_backwards :
    (ofCalls backwards).routesInOrder.map keyOf =
        [⟨100, "/users", .post⟩, ⟨50, "/users/{id}", .get⟩, ⟨7, "/users/me", .get⟩] ∧
      (ofCalls backwards).mount Mux.empty [] = (ofCalls forwards).mount Mux.empty [] := by
  have perm : (registered backwards).Perm (registered forwards) :=
    List.reverse_perm (registered forwards)
  obtain ⟨-, -, -, -, mounted⟩ := mount_eq_of_perm (by decide) perm rfl
  refine ⟨?_, mounted Mux Mux.empty []⟩
  have kept : (ofCalls backwards).routes = registered backwards :=
    (routes_ofCalls_of_nodup (by decide)).1
  have sorted : inMountOrder keyOf (registered backwards) = registered backwards := by
    apply List.mergeSort_of_pairwise
    decide +kernel
  rw [routesInOrder, kept, sorted]
  decide +kernel

end

end Waymark.Routing.Table
