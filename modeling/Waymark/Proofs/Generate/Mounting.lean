import Waymark.Proofs.Generate.Registrations
import Waymark.Proofs.Routing.ChainPattern
import Waymark.Proofs.Routing.Meeting

/-!
# Mounting what a scan has emitted

A scan tells claims apart by the text of their patterns, a mux by their shape. The registrations of
a scan are all mounted if their shapes are apart, too:

* `Entry.patterns`, `AppScan.emitted`: the patterns under which a scan's handlers and pages are
  registered;
* `patterns_of_body`: the table that the registering file fills has these and no others;
* `scan_mounts_iff`: the scans that are mounted without a rejection.
-/

namespace Waymark.Scan

open Waymark.Disk (Volume Path Name Node)
open Waymark.Http (Method)
open Waymark.Routing
open Waymark.Generate (isOptional)

/-- The patterns under which an entry is registered: its own, and without an optional wildcard. -/
def Entry.patterns (e : Entry) : List String :=
  e.file.pattern :: if isOptional e.file then [patternOf (frontOf e.file.segments)] else []

/-- Every method and pattern that is registered for a scan. -/
def AppScan.emitted (s : AppScan) : List (Method × String) :=
  s.found.flatMap fun e => e.patterns.map fun pattern => (e.method, pattern)

variable {disk : Volume} {root : Path} {app : Node} {s : AppScan}

/-- The directories of an accepted file have been entered. -/
theorem admitted_of_mem_found (there : disk.resolve root = .ok app) (tree : app.Named IsTextName)
    (scanned : scan disk root = .ok s) {e : Entry} (h : e ∈ s.found) :
    ∀ n ∈ e.file.directories, Admitted n := by
  obtain ⟨o, ho, offers⟩ :=
    List.mem_flatMap.1 (firsts_subset _ ((mem_found_iff there scanned e).1 h))
  obtain ⟨v, hv, read⟩ := List.mem_filterMap.1 ho
  obtain ⟨node, rfl⟩ := opened?_eq_some read
  rw [file_of_mem_offers offers]
  exact ((mem_visits_iff tree _ _ _ _).1 hv).1

/-- The directories of an accepted file can be written in a pattern. -/
theorem routable_of_mem_found (there : disk.resolve root = .ok app) (tree : app.Named IsTextName)
    (scanned : scan disk root = .ok s) {e : Entry} (h : e ∈ s.found) :
    ∀ segment ∈ e.file.segments, segment.IsRoutable := by
  intro segment hs
  obtain ⟨n, hn, rfl⟩ := List.mem_map.1 hs
  refine isRoutable_classify (isText_of_mem_found tree there scanned h n hn).isComponent ?_
  intro star
  have entered := (admitted_of_mem_found there tree scanned h n hn).2
  rw [star] at entered
  exact absurd entered (by decide +kernel)

end Waymark.Scan

namespace Waymark.Generate

open Waymark.Disk (Volume Path Name Node)
open Waymark.Handling (Middleware)
open Waymark.Http (Method)
open Waymark.Routing
open Waymark.Scan

section
variable (linked : Linked) (app : Option String) (plan : Plan)

/-- The route of a planned statement is registered for the directories of its file. -/
theorem exists_route_statement (r : Registration) : ∃ route,
    (r.statement app plan).route? linked = some route ∧ route.method = r.entry.method ∧
      route.IsOf r.entry.file.segments := by
  cases r with
  | handler file h name => exact ⟨_, rfl, rfl, rfl, rfl, rfl, rfl⟩
  | page p name loader layouts => exact ⟨_, rfl, rfl, rfl, rfl, rfl, rfl⟩

/-- The patterns of a route that is registered for a file. -/
theorem patterns_of_isOf {route : Route} {e : Entry} (method : route.method = e.method)
    (isOf : route.IsOf e.file.segments) :
    (route.pattern :: route.basePattern?.toList).map (fun pattern => (route.method, pattern)) =
      e.patterns.map fun pattern => (e.method, pattern) := by
  have base : route.basePattern?.toList =
      if isOptional e.file then [patternOf (frontOf e.file.segments)] else [] := by
    rw [basePattern?_eq isOf, isOptional, MarkerFile.catchAllParam?]
    split <;> rfl
  rw [Entry.patterns, base, method, isOf.pattern]
  rfl

/-- The patterns that the body of a plan registers, entry by entry. -/
theorem patterns_of_body : ((plan.body app).filterMap (Statement.route? linked)).flatMap
      (fun r => (r.pattern :: r.basePattern?.toList).map fun pattern => (r.method, pattern)) =
    (plan.routes.map Registration.entry).flatMap
      fun e => e.patterns.map fun pattern => (e.method, pattern) := by
  rw [filterMap_route?_body]
  induction plan.routes with
  | nil => rfl
  | cons r rest ih =>
    obtain ⟨route, made, method, isOf⟩ := exists_route_statement linked app plan r
    rw [List.map_cons, List.filterMap_cons_some made, List.flatMap_cons,
      patterns_of_isOf method isOf, ih]
    rfl

end

section
variable {disk : Volume} {root : Path} {app : Node} {s : AppScan}

/-- A table that registers the routes of the body, in any order, registers what the scan has
emitted. -/
theorem patterns_foldl (there : disk.resolve root = .ok app) (tree : app.Named IsTextName)
    (scanned : scan disk root = .ok s) (linked : Linked) (shown : Option String)
    {order : List Statement}
    (same : (order.filter Statement.isRoute).Perm
      (((Plan.ofScan s).body shown).filter Statement.isRoute)) :
    (order.foldl (Statement.run linked) .empty).patterns.Perm s.emitted := by
  have files : app.Named IsFileName := tree.imp fun _ => IsTextName.isFileName
  obtain ⟨routes, -⟩ := routes_foldl linked (keys_of_order there files scanned linked shown same)
    (claims_nodup there scanned)
  have sorted : s.entries.Perm s.found := perm_inMountOrder _ _
  rw [Table.patterns, routes]
  refine ((filterMap_route?_perm linked same).flatMap_right _).trans ?_
  rw [patterns_of_body, entries_ofScan there files scanned]
  exact sorted.flatMap_right _

/-- The routes of the body have patterns in the documented form. -/
theorem isPattern_of_order (there : disk.resolve root = .ok app) (tree : app.Named IsTextName)
    (scanned : scan disk root = .ok s) (linked : Linked) (shown : Option String)
    {order : List Statement}
    (same : (order.filter Statement.isRoute).Perm
      (((Plan.ofScan s).body shown).filter Statement.isRoute)) :
    ∀ r ∈ (order.foldl (Statement.run linked) .empty).routes, IsPattern r.pattern := by
  have files : app.Named IsFileName := tree.imp fun _ => IsTextName.isFileName
  obtain ⟨routes, -⟩ := routes_foldl linked (keys_of_order there files scanned linked shown same)
    (claims_nodup there scanned)
  intro route hr
  rw [routes, (filterMap_route?_perm linked same).mem_iff, filterMap_route?_body,
    List.mem_filterMap] at hr
  obtain ⟨st, hst, made⟩ := hr
  obtain ⟨r, planned, rfl⟩ := List.mem_map.1 hst
  obtain ⟨route', made', -, isOf⟩ := exists_route_statement linked shown (Plan.ofScan s) r
  obtain rfl : route = route' := Option.some.inj (made.symm.trans made')
  have accepted : r.entry ∈ s.found := by
    rw [← (perm_inMountOrder Entry.key s.found).mem_iff]
    have all := entries_ofScan there files scanned
    rw [AppScan.entries] at all
    rw [← all]
    exact List.mem_map_of_mem planned
  exact ⟨_, documented_componentsOf (routable_of_mem_found there tree scanned accepted),
    isOf.pattern.trans (urlPattern_eq_patternOf _)⟩

/-- What a scan has emitted is mounted without a rejection, in whatever order it is registered, if
and only if no pattern has more than 25 parameters and no two patterns of one method meet. That no
claim is made twice is not enough for that. -/
theorem scan_mounts_iff (there : disk.resolve root = .ok app) (tree : app.Named IsTextName)
    (scanned : scan disk root = .ok s) {modulePath : String}
    (valid : validate modulePath = .ok ()) :
    ∃ rendered path body, render s modulePath = .ok rendered ∧
      readRegistration? rendered.registration = some (path, body) ∧
      ∀ linked global, ∀ order : List Statement,
        (order.filter Statement.isRoute).Perm (body.filter Statement.isRoute) →
          (((order.foldl (Statement.run linked) .empty).mount Mux.empty global).2.isComplete =
            true ↔
            (∀ p ∈ s.emitted, parameterCount p.2 ≤ 25) ∧
            s.emitted.Pairwise fun p q => p.1 = q.1 → meets p.2 q.2 = false) := by
  refine ⟨_, _, _, render_eq_ok s valid, readRegistration?_registrationText s _ valid, ?_⟩
  intro linked global order same
  have emitted := patterns_foldl there tree scanned linked _ same
  rw [Table.mount_complete_iff_apart (isPattern_of_order there tree scanned linked _ same),
    emitted.pairwise_iff fun {p q} apart other => (meets_comm q.2 p.2).trans (apart other.symm)]
  simp only [emitted.mem_iff]

end

/-- Two directories that stand for a parameter of different names, each with a handler. -/
def twoParameters : Node :=
  .directory [
    (Name.ofString "[a]", .directory [(Name.ofString "route.rs", handlerFile)]),
    (Name.ofString "[b]", .directory [(Name.ofString "route.rs", handlerFile)])]

theorem named_twoParameters : twoParameters.Named IsTextName := by
  have text : ∀ s ∈ ["[a]", "[b]", "route.rs"], IsTextName (Name.ofString s) := by
    intro s hs
    refine isTextName_ofString ?_ ?_
    all_goals
      revert s
      decide
  have parameter : (Node.directory [(Name.ofString "route.rs", handlerFile)]).Named IsTextName := by
    refine .directory _ (by simp) ?_ ?_
    · simpa using text "route.rs" (by simp)
    · simpa using show handlerFile.Named IsTextName from Node.Named.file _
  refine .directory _ (by simp [Name.ofString_inj]) ?_ ?_
  · simpa using ⟨text "[a]" (by simp), text "[b]" (by simp)⟩
  · simpa using parameter

theorem visits_twoParameters : visits twoParameters =
    [.marker .route [Name.ofString "[a]"] (Name.ofString "route.rs") handlerFile,
      .marker .route [Name.ofString "[b]"] (Name.ofString "route.rs") handlerFile] := by
  have marks : Marker.ofFileName? (Name.ofString "route.rs").display = some .route := by
    simp only [Name.display_ofString]
    decide
  have entered : ∀ s ∈ ["[a]", "[b]"], Segment.isPrivate (Name.ofString s).display = false ∧
      (Segment.classify (Name.ofString s).display).isUnroutable = false := by
    simp only [Name.display_ofString]
    decide
  have order : nameLe (Name.ofString "[a]") (Name.ofString "[b]") = true := by
    simp only [Name.ofString_eq_encode]
    decide
  have inner (here : List Name) :
      visitsOf here (.directory [(Name.ofString "route.rs", handlerFile)]) =
      [.marker .route here (Name.ofString "route.rs") handlerFile] := by
    rw [visitsOf, inNameOrder_of_sorted (by simp [entryVisits])]
    simp [entryVisits, handlerFile, Node.isDirectory, marks]
  rw [visits, twoParameters, visitsOf, inNameOrder_of_sorted (by simpa [entryVisits] using order)]
  simp only [entryVisits, Node.isDirectory, Node.isLockedDirectory, entered "[a]" (by simp),
    entered "[b]" (by simp), inner]
  simp

/-- Nothing is wrong with the two directories as far as the scan goes. -/
theorem scan_twoParameters : ∃ s, scan ⟨twoParameters, []⟩ (.ofString ".") = .ok s ∧
    s.isClean = true ∧
    s.emitted = [(.get, "/{a}"), (.get, "/{b}")] := by
  have found : ((scan ⟨twoParameters, []⟩ (.ofString ".")).toOption.map fun s =>
      (s.isClean, s.emitted)) =
      some (true, [(.get, "/{a}"), (.get, "/{b}")]) := by
    rw [scan_current twoParameters rfl, scanNode, visits_twoParameters]
    decide +kernel
  obtain ⟨s, scanned, seen⟩ := exists_of_seen found
  exact ⟨s, scanned, Prod.mk.inj seen⟩

/-- A scan without a warning or a conflict, of whose two handlers only one is mounted. -/
theorem scan_mounts_iff_twoParameters : ∃ s rendered path body,
    scan ⟨twoParameters, []⟩ (.ofString ".") = .ok s ∧ s.isClean = true ∧
      render s "crate::generated" = .ok rendered ∧
      readRegistration? rendered.registration = some (path, body) ∧
      ∀ linked, ((body.foldl (Statement.run linked) .empty).mount Mux.empty []).2.isComplete =
        false := by
  obtain ⟨s, scanned, clean, emitted⟩ := scan_twoParameters
  obtain ⟨rendered, path, body, written, reads, mounts⟩ :=
    scan_mounts_iff (resolve_current _) named_twoParameters scanned validate_generated
  refine ⟨s, rendered, path, body, scanned, clean, written, reads, fun linked => ?_⟩
  have meet : meets "/{a}" "/{b}" = true := by decide +kernel
  cases complete : ((body.foldl (Statement.run linked) .empty).mount Mux.empty []).2.isComplete with
  | false => rfl
  | true =>
    have apart := ((mounts linked [] body (.refl _)).1 complete).2
    simp [emitted, meet] at apart

end Waymark.Generate
