import Waymark.Proofs.Routing.FirstClaims
import Waymark.Proofs.Routing.MountOrder

/-!
# Filling a table

A table is filled by calls that register routes and pages, add middleware and set the proxy, in any
mix. However they come, the table keeps the first registration of each pattern and method:

* `Call`, `ofCalls`: calls, and the table that a run of them fills;
* `KeepsFirst`: what a table owes to the routes that were registered with it;
* `KeepsFirst.run`: every call keeps it up;
* `first_registrations_kept`: so does every run, and nothing that was registered is lost.
-/

namespace Waymark.Routing

open Waymark.Handling
open Waymark.Http (Method)

/-- The conflict of a route with the one that is kept. -/
def Route.conflict (kept late : Route) : RouteConflict :=
  ⟨late.pattern, late.method, kept.file, late.file⟩

namespace Table

/-- A call that fills a table. -/
inductive Call
  | route (route : Route)
  | page (page : Page)
  | middleware (pfx scope : String) (middleware : Middleware)
  | proxy (proxy : Proxy)

namespace Call

/-- The route that a call registers. -/
def route? : Call → Option Route
  | route r => some r
  | page p => some p.toRoute
  | middleware _ _ _ | proxy _ => none

/-- The call registers a route or a page. -/
def registers : Call → Bool
  | route _ | page _ => true
  | middleware _ _ _ | proxy _ => false

/-- What a call does to a table. -/
def run (t : Table) : Call → Table
  | route r => t.addRoute r
  | page p => t.addPage p
  | middleware pfx scope m => t.addMiddleware pfx scope m
  | proxy p => t.setProxy p

theorem isSome_route? (call : Call) : call.route?.isSome = call.registers := by
  cases call <;> rfl

theorem run_route {call : Call} {r : Route} (h : call.route? = some r) (t : Table) :
    call.run t = t.addRoute r := by
  cases call with
  | route own => cases h; rfl
  | page own => cases h; rfl
  | middleware pfx scope m => cases h
  | proxy p => cases h

end Call

/-- The table that a run of calls fills. -/
def ofCalls (calls : List Call) : Table := calls.foldl Call.run empty

/-- The routes that calls register, in order. -/
def registered (calls : List Call) : List Route := calls.filterMap Call.route?

theorem ofCalls_concat (calls : List Call) (call : Call) :
    ofCalls (calls ++ [call]) = call.run (ofCalls calls) := by
  rw [ofCalls, List.foldl_append]
  rfl

theorem registered_concat (calls : List Call) (call : Call) :
    registered (calls ++ [call]) = registered calls ++ call.route?.toList := by
  rw [registered, List.filterMap_append, registered]
  cases h : call.route? <;> simp [h]

theorem length_registered (calls : List Call) :
    (registered calls).length = calls.countP Call.registers := by
  rw [registered, List.length_filterMap_eq_countP]
  simp only [Call.isSome_route?]

/-- What a table owes to the routes that were registered with it. -/
structure KeepsFirst (t : Table) (rs : List Route) : Prop where
  /-- The first route of each claim is kept, in the order of their registration. -/
  routes : t.routes = firstsBy claimOf rs
  /-- A claim has the place of the kept route that makes it. -/
  positions : ∀ claim n, t.positions[claim]? = some n ↔ ∃ r, t.routes[n]? = some r ∧
      claimOf r = claim
  /-- Every later route is a conflict with the first, in the order of their registration. -/
  conflicts : t.conflicts = (latersBy claimOf rs).map fun p => p.1.conflict p.2

theorem keepsFirst_empty : empty.KeepsFirst [] := by
  refine ⟨rfl, ?_, rfl⟩
  intro claim n
  simp [empty]

section
variable {t : Table} {rs : List Route} {r : Route}

theorem KeepsFirst.nodup (keeps : t.KeepsFirst rs) : (t.routes.map claimOf).Nodup := by
  rw [keeps.routes]
  exact firstsBy_nodup rs

theorem KeepsFirst.lt_of_position (keeps : t.KeepsFirst rs) {claim : String × Method} {n : Nat}
    (placed : t.positions[claim]? = some n) : n < t.routes.length := by
  obtain ⟨r, there, -⟩ := (keeps.positions claim n).1 placed
  exact (List.getElem?_eq_some_iff.1 there).1

/-- A claim has no place exactly when nothing that was registered makes it. -/
theorem KeepsFirst.position_eq_none_iff (keeps : t.KeepsFirst rs) (claim : String × Method) :
    t.positions[claim]? = none ↔ holder? claimOf rs claim = none := by
  rw [← holder?_firstsBy, ← keeps.routes, holder?_eq_none_iff, List.mem_map]
  constructor
  · rintro unplaced ⟨r, kept, same⟩
    obtain ⟨n, there⟩ := List.mem_iff_getElem?.1 kept
    have placed := (keeps.positions claim n).2 ⟨r, there, same⟩
    rw [unplaced] at placed
    cases placed
  · intro none
    apply Option.eq_none_iff_forall_ne_some.2
    intro n placed
    obtain ⟨r, there, same⟩ := (keeps.positions claim n).1 placed
    exact none ⟨r, List.mem_of_getElem? there, same⟩

/-- A route whose claim is free is kept behind the others. -/
theorem KeepsFirst.addRoute_of_free (keeps : t.KeepsFirst rs)
    (free : holder? claimOf rs (claimOf r) = none) :
    t.addRoute r = { t with
      routes := t.routes ++ [r]
      positions := t.positions.insert (claimOf r) t.routes.length } := by
  have unplaced : t.positions[(r.pattern, r.method)]? = none :=
    (keeps.position_eq_none_iff (claimOf r)).2 free
  rw [addRoute, unplaced]
  rfl

/-- A route whose claim is held is a conflict, and nothing else changes. -/
theorem KeepsFirst.addRoute_of_held (keeps : t.KeepsFirst rs) {kept : Route}
    (held : holder? claimOf rs (claimOf r) = some kept) :
    t.addRoute r = { t with conflicts := t.conflicts ++ [kept.conflict r] } := by
  have holds : holder? claimOf t.routes (claimOf r) = some kept := by
    rw [keeps.routes, holder?_firstsBy, held]
  obtain ⟨n, there⟩ := List.mem_iff_getElem?.1 (mem_of_holder? holds).1
  have placed : t.positions[(r.pattern, r.method)]? = some n :=
    (keeps.positions (claimOf r) n).2 ⟨kept, there, (mem_of_holder? holds).2⟩
  rw [addRoute, placed]
  simp only [there, Option.bind_some]
  rfl

/-- The places stay right when one more route is kept. -/
theorem positions_concat (keeps : t.KeepsFirst rs) (free : holder? claimOf rs (claimOf r) = none)
    (claim : String × Method) (n : Nat) :
    (t.positions.insert (claimOf r) t.routes.length)[claim]? = some n ↔
      ∃ x, (t.routes ++ [r])[n]? = some x ∧ claimOf x = claim := by
  rw [Std.HashMap.getElem?_insert]
  by_cases own : claimOf r = claim
  · -- the new place; no kept route makes the same claim
    subst own
    have unplaced := (keeps.position_eq_none_iff (claimOf r)).2 free
    simp only [beq_self_eq_true, ↓reduceIte, Option.some.injEq]
    constructor
    · rintro rfl
      exact ⟨r, by simp, rfl⟩
    · rintro ⟨x, there, same⟩
      by_cases before : n < t.routes.length
      · rw [List.getElem?_append_left before] at there
        have placed := (keeps.positions (claimOf r) n).2 ⟨x, there, same⟩
        rw [unplaced] at placed
        cases placed
      · have bound := (List.getElem?_eq_some_iff.1 there).1
        rw [List.length_append, List.length_singleton] at bound
        omega
  · rw [if_neg (by simpa using own), keeps.positions]
    constructor
    · rintro ⟨x, there, same⟩
      have before := (List.getElem?_eq_some_iff.1 there).1
      exact ⟨x, by rw [List.getElem?_append_left before, there], same⟩
    · rintro ⟨x, there, same⟩
      by_cases before : n < t.routes.length
      · rw [List.getElem?_append_left before] at there
        exact ⟨x, there, same⟩
      · rw [List.getElem?_append_right (by omega)] at there
        obtain rfl : x = r := by
          have among := List.mem_of_getElem? there
          rwa [List.mem_singleton] at among
        exact absurd same own

theorem KeepsFirst.addRoute (keeps : t.KeepsFirst rs) (r : Route) :
    (t.addRoute r).KeepsFirst (rs ++ [r]) := by
  cases held : holder? claimOf rs (claimOf r) with
  | none =>
    rw [keeps.addRoute_of_free held]
    refine ⟨?_, positions_concat keeps held, ?_⟩
    · rw [firstsBy_concat, held, keeps.routes]
      rfl
    · rw [latersBy_concat, held, keeps.conflicts]
      simp
  | some kept =>
    rw [keeps.addRoute_of_held held]
    refine ⟨?_, keeps.positions, ?_⟩
    · rw [firstsBy_concat, held, keeps.routes]
      simp
    · rw [latersBy_concat, held, keeps.conflicts]
      simp

/-- Every call keeps up what a table owes. -/
theorem KeepsFirst.run (keeps : t.KeepsFirst rs) (call : Call) :
    (call.run t).KeepsFirst (rs ++ call.route?.toList) := by
  cases call with
  | route r => exact keeps.addRoute r
  | page p => exact keeps.addRoute p.toRoute
  | middleware pfx scope m =>
    rw [Call.route?, Option.toList_none, List.append_nil]
    exact ⟨keeps.routes, keeps.positions, keeps.conflicts⟩
  | proxy p =>
    rw [Call.route?, Option.toList_none, List.append_nil]
    exact ⟨keeps.routes, keeps.positions, keeps.conflicts⟩

end

theorem keepsFirst_ofCalls (calls : List Call) : (ofCalls calls).KeepsFirst (registered calls) := by
  induction calls using List.reverseRecOn with
  | nil => exact keepsFirst_empty
  | append_singleton calls call ih =>
    rw [ofCalls_concat, registered_concat]
    exact ih.run call

/-- Routes of different claims are all kept, in the order of their registration. -/
theorem routes_ofCalls_of_nodup {calls : List Call}
    (apart : ((registered calls).map claimOf).Nodup) :
    (ofCalls calls).routes = registered calls ∧ (ofCalls calls).conflicts = [] := by
  have keeps := keepsFirst_ofCalls calls
  obtain ⟨all, none⟩ := firstsBy_of_nodup apart
  refine ⟨?_, ?_⟩
  · rw [keeps.routes, all]
  · rw [keeps.conflicts, none]
    rfl

/-- However calls come, a table keeps the first registration of each pattern and method, at the
place that its index gives, and records every later one with the files of both. Nothing registered
is lost, and a late registration adds its conflict and changes nothing else. -/
theorem first_registrations_kept (calls : List Call) :
    ((ofCalls calls).routes.map claimOf).Nodup ∧
      (ofCalls calls).routes = firstsBy claimOf (registered calls) ∧
      (∀ (claim : String × Method) (n : Nat), (ofCalls calls).positions[claim]? = some n ↔
        ∃ r, (ofCalls calls).routes[n]? = some r ∧ claimOf r = claim) ∧
      (∀ (claim : String × Method) (n : Nat),
        (ofCalls calls).positions[claim]? = some n → n < (ofCalls calls).routes.length) ∧
      (ofCalls calls).conflicts =
        ((latersBy claimOf (registered calls)).map fun p => p.1.conflict p.2) ∧
      (∀ p ∈ latersBy claimOf (registered calls),
        p.1 ∈ (ofCalls calls).routes ∧ claimOf p.1 = claimOf p.2) ∧
      (ofCalls calls).routes.length + (ofCalls calls).conflicts.length =
        calls.countP Call.registers ∧
      ∀ call r, call.route? = some r → claimOf r ∈ (registered calls).map claimOf →
        ∃ kept ∈ (ofCalls calls).routes, claimOf kept = claimOf r ∧
          ofCalls (calls ++ [call]) = { ofCalls calls with
            conflicts := (ofCalls calls).conflicts ++ [kept.conflict r] } := by
  have keeps := keepsFirst_ofCalls calls
  have kept_of_holder {c : String × Method} {kept : Route}
      (held : holder? claimOf (registered calls) c = some kept) :
      kept ∈ (ofCalls calls).routes ∧ claimOf kept = c := by
    rw [← holder?_firstsBy, ← keeps.routes] at held
    exact mem_of_holder? held
  refine ⟨keeps.nodup, keeps.routes, keeps.positions, ?_, keeps.conflicts, ?_, ?_, ?_⟩
  · intro claim n placed
    exact keeps.lt_of_position placed
  · intro p later
    exact kept_of_holder (holder?_of_mem_latersBy later)
  · rw [keeps.routes, keeps.conflicts, List.length_map, length_firstsBy_add_length_latersBy,
      length_registered]
  · intro call r registers made
    obtain ⟨kept, held⟩ := Option.isSome_iff_exists.1 ((holder?_isSome_iff _ _).2 made)
    obtain ⟨among, same⟩ := kept_of_holder held
    refine ⟨kept, among, same, ?_⟩
    rw [ofCalls_concat, Call.run_route registers, keeps.addRoute_of_held held]

/-- A handler and a page for one pattern, and a handler for another method of it. -/
def sharedPattern : List Call :=
  [.middleware "/" "" (fun next => next),
    .route { Route.new .get "/a" (pure ()) with file := some "a/route.rs" },
    .page ⟨"/a", pure "", none, [], some "a/page.rs", "a", none, false⟩,
    .route { Route.new .post "/a" (pure ()) with file := some "a/route.rs" }]

/-- The page loses to the handler, and so does one more handler. -/
theorem first_registrations_kept_sharedPattern :
    (ofCalls sharedPattern).routes.map claimOf = [("/a", .get), ("/a", .post)] ∧
      (ofCalls sharedPattern).conflicts = [⟨"/a", .get, some "a/route.rs", some "a/page.rs"⟩] ∧
      ∃ kept ∈ (ofCalls sharedPattern).routes, claimOf kept = ("/a", .post) ∧
        (ofCalls (sharedPattern ++ [.route (Route.new .post "/a" (pure ()))])).conflicts =
          [⟨"/a", .get, some "a/route.rs", some "a/page.rs"⟩, ⟨"/a", .post, kept.file, none⟩] := by
  obtain ⟨-, routes, -, -, conflicts, -, -, late⟩ := first_registrations_kept sharedPattern
  have clash : (ofCalls sharedPattern).conflicts =
      [⟨"/a", .get, some "a/route.rs", some "a/page.rs"⟩] := conflicts
  refine ⟨by rw [routes]; rfl, clash, ?_⟩
  obtain ⟨kept, among, same, run⟩ :=
    late (.route (Route.new .post "/a" (pure ()))) _ rfl (by decide)
  refine ⟨kept, among, same, ?_⟩
  rw [run, clash]
  rfl

end Table

end Waymark.Routing
