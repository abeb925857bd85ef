import Waymark.Proofs.Generate.MiddlewareChain
import Waymark.Proofs.Generate.Registering
import Waymark.Proofs.Routing.MountOrder
import Waymark.Proofs.Scan.Address
import Waymark.Project.Listing

/-!
# The registrations of a scan

A plan registers every handler and page that a scan has accepted, and its file says so: read back,
it is the statements of the plan, whatever directories are called.

* `entries_ofScan`: nothing accepted is passed over;
* `layoutName?_of_mem`: every layout around a page is named by its own function;
* `readRegistration?_render`: the file reads as the planned statements;
* `routeOrders_agree`: the listing, the file and a table that was filled in any order have one
  order.
-/

namespace Waymark.Generate

open Waymark.Disk (Volume Path Name Node)
open Waymark.Project (Row rows)
open Waymark.Routing
open Waymark.Scan

/-- The handler or page that a registration registers. -/
def Registration.entry : Registration → Entry
  | handler file h _ => .handler file h
  | page p _ _ _ => .page p

/-- A page is registered with the loader and the layouts that belong to it. -/
def Registration.Complete (s : AppScan) : Registration → Prop
  | handler _ _ _ => True
  | page p _ loader layouts =>
    loader.map Prod.fst = s.loaderFor? p.file ∧ layouts = s.layoutsFor p.file

theorem register_complete (s : AppScan) (names : Names) (e : Entry) :
    ∀ r ∈ (register s names e).1, r.Complete s := by
  cases e with
  | handler file h =>
    intro r hr
    rw [← Option.some_inj.1 hr]
    trivial
  | page p =>
    cases there : s.pageAt? p.file.path with
    | none => simp [register, there]
    | some found =>
      cases load : s.loaderFor? found.file with
      | none => simp [register, there, load, Registration.Complete]
      | some l => simp [register, there, load, Registration.Complete]

theorem registerAll_complete (s : AppScan) (names : Names) (es : List Entry) :
    ∀ r ∈ (registerAll s names es).1, r.Complete s := by
  induction es generalizing names with
  | nil => simp [registerAll]
  | cons e rest ih =>
    intro r hr
    rw [registerAll, List.mem_append, Option.mem_toList] at hr
    exact hr.elim (register_complete s names e r) (ih _ r)

/-- Nothing is passed over among entries whose pages are found by their paths. -/
theorem entries_registerAll {s : AppScan} (names : Names) {es : List Entry}
    (found : ∀ p, Entry.page p ∈ es → s.pageAt? p.file.path = some p) :
    (registerAll s names es).1.map Registration.entry = es := by
  induction es generalizing names with
  | nil => rfl
  | cons e rest ih =>
    have behind := ih (register s names e).2 fun p hp => found p (List.mem_cons_of_mem _ hp)
    have first : (register s names e).1.toList.map Registration.entry = [e] := by
      cases e with
      | handler file h => rfl
      | page p =>
        have there := found p (by simp)
        cases load : s.loaderFor? p.file with
        | none => simp [register, there, load, Registration.entry]
        | some l => simp [register, there, load, Registration.entry]
    rw [registerAll, List.map_append, first, behind]
    rfl

section
variable {disk : Volume} {root : Path} {app : Node} {s : AppScan}

/-- Every handler and page of a scan is registered, in mount order. -/
theorem entries_ofScan (there : disk.resolve root = .ok app) (tree : app.Named IsFileName)
    (scanned : scan disk root = .ok s) :
    (Plan.ofScan s).routes.map Registration.entry = s.entries := by
  apply entries_registerAll
  intro p hp
  apply pageAt?_of_mem there tree scanned
  have accepted : Entry.page p ∈ s.found := (Routing.perm_inMountOrder _ _).mem_iff.1 hp
  simpa [AppScan.found] using accepted

theorem map_fst_proxy (s : AppScan) : (Plan.ofScan s).proxy.map Prod.fst = s.proxy := by
  show (s.proxy.map _).map Prod.fst = s.proxy
  rw [Option.map_map]
  exact Option.map_id_apply

theorem map_fst_layouts (s : AppScan) : (Plan.ofScan s).layouts.map Prod.fst = byScope s.layouts :=
  map_fst_nameFiles _ _ _

/-- A layout is named by the name that its own function got. -/
theorem layoutName?_of_mem (there : disk.resolve root = .ok app) (tree : app.Named IsFileName)
    (scanned : scan disk root = .ok s) {layout : FunctionFile} (h : layout ∈ s.layouts) :
    ∃ name, (Plan.ofScan s).layoutName? layout = some name ∧
    (layout, name) ∈ (Plan.ofScan s).layouts := by
  have files : ∀ l ∈ (Plan.ofScan s).layouts, l.1 ∈ s.layouts := by
    intro l hl
    rw [← (byScope_perm s.layouts).mem_iff, ← map_fst_layouts]
    exact List.mem_map_of_mem hl
  have given : layout ∈ (Plan.ofScan s).layouts.map Prod.fst := by
    rw [map_fst_layouts]
    exact (byScope_perm s.layouts).mem_iff.2 h
  unfold Plan.layoutName?
  cases found : (Plan.ofScan s).layouts.find? fun l => l.1.file.path = layout.file.path with
  | none =>
    obtain ⟨l, hl, rfl⟩ := List.mem_map.1 given
    have missing := List.find?_eq_none.1 found l hl
    simp at missing
  | some l =>
    have among := List.mem_of_find?_eq_some found
    have same : l.1.file.path = layout.file.path := by simpa using List.find?_some found
    have own : l.1 = layout := eq_of_given_path tree (layouts_subset there scanned (files l among))
      (layouts_subset there scanned h) same
    refine ⟨l.2, rfl, ?_⟩
    rw [← own]
    exact among

/-- The layouts around a page come from the outermost one inwards. -/
theorem layoutsFor_outermostFirst (s : AppScan) (page : MarkerFile) :
    (s.layoutsFor page).Pairwise fun a b =>
    a.file.directories.length ≤ b.file.directories.length := by
  have trans (a b c : FunctionFile) :
      decide (a.file.directories.length ≤ b.file.directories.length) = true →
        decide (b.file.directories.length ≤ c.file.directories.length) = true →
          decide (a.file.directories.length ≤ c.file.directories.length) = true := by
    intro ab bc
    rw [decide_eq_true_eq] at *
    exact Nat.le_trans ab bc
  have total (a b : FunctionFile) :
      (decide (a.file.directories.length ≤ b.file.directories.length) ||
        decide (b.file.directories.length ≤ a.file.directories.length)) = true := by
    rw [Bool.or_eq_true, decide_eq_true_eq, decide_eq_true_eq]
    exact Nat.le_total _ _
  have sorted := List.pairwise_mergeSort trans total
    (s.layouts.filter fun l => scopeContains l.file.scope page.scope)
  exact sorted.imp of_decide_eq_true

theorem render_eq_ok (s : AppScan) {modulePath : String} (valid : validate modulePath = .ok ()) :
    render s modulePath = .ok ⟨functionsText (s.root.fileName?.map Name.display) (Plan.ofScan s),
      registrationText (s.root.fileName?.map Name.display) modulePath (Plan.ofScan s),
      (Plan.ofScan s).routes.length⟩ := by
  simp [render, valid, bind, Except.bind, pure, Except.pure]

/-- The registering file of a scan reads as the planned statements, or as one that does nothing
where none is planned. All that is accepted is planned: the handlers and pages in their order, each
page with its loader and its layouts, the middleware by its scopes, and the proxy. -/
theorem readRegistration?_render (there : disk.resolve root = .ok app) (tree : app.Named IsFileName)
    (scanned : scan disk root = .ok s) {modulePath : String}
    (valid : validate modulePath = .ok ()) :
    (∃ rendered, render s modulePath = .ok rendered ∧
      readRegistration? rendered.registration =
        some ((modulePieces modulePath.toList).map String.ofList ++ ["handlers"],
          match (Plan.ofScan s).statements (s.root.fileName?.map Name.display) with
          | [] => [.idle]
          | planned => planned)) ∧
    (Plan.ofScan s).routes.map Registration.entry = s.entries ∧
    (Plan.ofScan s).middlewares.map Prod.fst = byScope s.middlewares ∧
    (Plan.ofScan s).proxy.map Prod.fst = s.proxy ∧
    ∀ p name loader layouts, Registration.page p name loader layouts ∈ (Plan.ofScan s).routes →
      loader.map Prod.fst = s.loaderFor? p.file ∧ layouts = s.layoutsFor p.file ∧
      (layouts.Pairwise fun a b => a.file.directories.length ≤ b.file.directories.length) ∧
      ∀ l ∈ layouts, ∃ own, (Plan.ofScan s).layoutName? l = some own ∧
        (l, own) ∈ (Plan.ofScan s).layouts := by
  refine ⟨⟨_, render_eq_ok s valid, ?_⟩, entries_ofScan there tree scanned, map_fst_middlewares s,
    map_fst_proxy s, ?_⟩
  · rw [readRegistration?_registrationText s _ valid, Plan.body, handlersPath]
    split
    · next none' => rw [none']
    · next some' =>
      split
      · next none' => exact absurd none' some'
      · rfl
  · intro p name loader layouts planned
    obtain ⟨loads, rfl⟩ := registerAll_complete s .empty s.entries _ planned
    refine ⟨loads, rfl, layoutsFor_outermostFirst s p.file, ?_⟩
    intro l hl
    apply layoutName?_of_mem there tree scanned
    exact (List.mem_filter.1 (List.mem_mergeSort.1 hl)).1

end

/-- A layout of one file. -/
def layoutFile : Node :=
  .file "pub fn layout(ctx: &mut Context, children: Html) -> Result<Html> { Ok(children) }\n".toUTF8

/-- A directory with a quote in its name, which holds a page in a layout, beside a parameter that
holds a handler. -/
def quotedBesideParameter : Node :=
  .directory [
    (Name.ofString "[id]", .directory [(Name.ofString "route.rs", handlerFile)]),
    (Name.ofString "a\"b", .directory [
      (Name.ofString "layout.rs", layoutFile), (Name.ofString "page.rs", pageFile)])]

theorem named_quotedBesideParameter : quotedBesideParameter.Named IsFileName := by
  have text : ∀ s ∈ ["[id]", "a\"b", "layout.rs", "page.rs", "route.rs"],
      IsFileName (Name.ofString s) := by
    intro s hs
    refine isFileName_ofString ?_ ?_
    all_goals
      revert s
      decide
  have parameter : (Node.directory [(Name.ofString "route.rs", handlerFile)]).Named IsFileName := by
    refine .directory _ (by simp) ?_ ?_
    · simpa using text "route.rs" (by simp)
    · simpa using show handlerFile.Named IsFileName from Node.Named.file _
  have quoted : (Node.directory [(Name.ofString "layout.rs", layoutFile),
      (Name.ofString "page.rs", pageFile)]).Named IsFileName := by
    refine .directory _ (by simp [Name.ofString_inj]) ?_ ?_
    · simpa using ⟨text "layout.rs" (by simp), text "page.rs" (by simp)⟩
    · simpa using ⟨Node.Named.file _, Node.Named.file _⟩
  refine .directory _ (by simp [Name.ofString_inj]) ?_ ?_
  · simpa using ⟨text "[id]" (by simp), text "a\"b" (by simp)⟩
  · simpa using ⟨parameter, quoted⟩

theorem visits_quotedBesideParameter : visits quotedBesideParameter =
    [.marker .route [Name.ofString "[id]"] (Name.ofString "route.rs") handlerFile,
      .marker .layout [Name.ofString "a\"b"] (Name.ofString "layout.rs") layoutFile,
      .marker .page [Name.ofString "a\"b"] (Name.ofString "page.rs") pageFile] := by
  have kinds : Marker.ofFileName? (Name.ofString "layout.rs").display = some .layout ∧
      Marker.ofFileName? (Name.ofString "page.rs").display = some .page ∧
      Marker.ofFileName? (Name.ofString "route.rs").display = some .route := by
    simp only [Name.display_ofString]
    decide
  have parameter : Segment.isPrivate (Name.ofString "[id]").display = false ∧
      (Segment.classify (Name.ofString "[id]").display).isUnroutable = false := by
    simp only [Name.display_ofString]
    decide
  have quoted : Segment.isPrivate (Name.ofString "a\"b").display = false ∧
      (Segment.classify (Name.ofString "a\"b").display).isUnroutable = false := by
    simp only [Name.display_ofString]
    decide
  have inner : nameLe (Name.ofString "layout.rs") (Name.ofString "page.rs") = true := by
    simp only [Name.ofString_eq_encode]
    decide
  have outer : nameLe (Name.ofString "[id]") (Name.ofString "a\"b") = true := by
    simp only [Name.ofString_eq_encode]
    decide
  have first (here : List Name) :
      visitsOf here (.directory [(Name.ofString "route.rs", handlerFile)]) =
      [.marker .route here (Name.ofString "route.rs") handlerFile] := by
    rw [visitsOf, inNameOrder_of_sorted (by simp [entryVisits])]
    simp [entryVisits, handlerFile, Node.isDirectory, kinds]
  have second (here : List Name) : visitsOf here (.directory [
      (Name.ofString "layout.rs", layoutFile), (Name.ofString "page.rs", pageFile)]) =
      [.marker .layout here (Name.ofString "layout.rs") layoutFile,
        .marker .page here (Name.ofString "page.rs") pageFile] := by
    rw [visitsOf, inNameOrder_of_sorted (by simpa [entryVisits] using inner)]
    simp [entryVisits, layoutFile, pageFile, Node.isDirectory, kinds]
  rw [visits, quotedBesideParameter, visitsOf,
    inNameOrder_of_sorted (by simpa [entryVisits] using outer)]
  simp only [entryVisits, Node.isDirectory, Node.isLockedDirectory, parameter, quoted,
    first, second]
  simp

theorem counts_quotedBesideParameter :
    ((scan ⟨quotedBesideParameter, []⟩ (.ofString ".")).toOption.map fun s =>
      (s.handlerCount, s.pages.length, s.layouts.length)) = some (1, 1, 1) := by
  rw [scan_current quotedBesideParameter rfl, scanNode, visits_quotedBesideParameter]
  decide +kernel

/-- The scan of the two directories accepts the handler and the page. -/
theorem scan_quotedBesideParameter : ∃ s,
    scan ⟨quotedBesideParameter, []⟩ (.ofString ".") = .ok s ∧ s.found.length = 2 := by
  obtain ⟨s, scanned, counts⟩ := exists_of_seen counts_quotedBesideParameter
  simp only [Prod.mk.injEq] at counts
  refine ⟨s, scanned, ?_⟩
  rw [found_eq, List.length_append, ← handlerCount_eq, AppScan.pageEntries, List.length_map]
  omega

theorem validate_generated : validate "crate::generated" = .ok () := by
  have named : (modulePieces "crate::generated".toList).all isModuleName = true := by decide +kernel
  rw [validate, if_pos named]

theorem readRegistration?_render_quoted : ∃ s rendered planned,
    scan ⟨quotedBesideParameter, []⟩ (.ofString ".") = .ok s ∧
      render s "crate::generated" = .ok rendered ∧
      readRegistration? rendered.registration = some (["crate", "generated", "handlers"], planned) ∧
      planned = (Plan.ofScan s).statements (s.root.fileName?.map Name.display) ∧
      2 ≤ planned.length := by
  obtain ⟨s, scanned, two⟩ := scan_quotedBesideParameter
  obtain ⟨⟨rendered, written, reads⟩, entries, -⟩ := readRegistration?_render (resolve_current _)
    named_quotedBesideParameter scanned validate_generated
  have path : (modulePieces "crate::generated".toList).map String.ofList =
      ["crate", "generated"] := by
    decide +kernel
  have many : 2 ≤ ((Plan.ofScan s).statements (s.root.fileName?.map Name.display)).length := by
    have all := congrArg List.length entries
    rw [List.length_map, AppScan.entries, (perm_inMountOrder _ _).length_eq, two] at all
    simp only [Plan.statements, List.length_append, List.length_map]
    omega
  refine ⟨s, rendered, _, scanned, written, ?_, rfl, many⟩
  rw [reads, path]
  split
  · next none' => simp [none'] at many
  · rfl

theorem RouteCall.keyOf_toRoute (linked : Linked) (c : RouteCall) :
    Table.keyOf (c.toRoute linked) = ⟨c.priority, c.pattern, c.method⟩ := rfl

theorem PageCall.keyOf_toRoute (linked : Linked) (c : PageCall) :
    Table.keyOf (c.toPage linked).toRoute = ⟨priority c.pattern, c.pattern, .get⟩ := rfl

/-- The route of a planned statement has the key of its entry. -/
theorem keyOf_statement (linked : Linked) (app : Option String) (plan : Plan) (r : Registration) :
    ((r.statement app plan).route? linked).map Table.keyOf = some r.entry.key := by
  cases r with
  | handler file h name =>
    simp only [Registration.statement, Statement.route?, Option.map_some, RouteCall.keyOf_toRoute,
      Registration.entry, Entry.key, Entry.file, Entry.method]
  | page p name loader layouts =>
    simp only [Registration.statement, Statement.route?, Option.map_some, PageCall.keyOf_toRoute,
      Registration.entry, Entry.key, Entry.file, Entry.method]

section
variable (linked : Linked) (app : Option String) (plan : Plan)

/-- What is read off routes and pages only, the body gives as the registrations do. -/
theorem filterMap_body {β : Type} {f : Statement → Option β}
    (others : ∀ st : Statement, st.isRoute = false → f st = none) :
    (plan.body app).filterMap f =
      (plan.routes.map (Registration.statement app plan)).filterMap f := by
  have middlewares : (plan.middlewares.map fun m =>
        Statement.middleware m.1.file.pattern m.1.file.scope m.2).filterMap f = [] := by
    rw [List.filterMap_eq_nil_iff, List.forall_mem_map]
    exact fun m _ => others _ rfl
  have last : (plan.proxy.toList.map fun p => Statement.proxy p.2).filterMap f = [] := by
    rw [List.filterMap_eq_nil_iff, List.forall_mem_map]
    exact fun p _ => others _ rfl
  have planned : (plan.statements app).filterMap f =
      (plan.routes.map (Registration.statement app plan)).filterMap f := by
    rw [Plan.statements, List.filterMap_append, List.filterMap_append, middlewares, last,
      List.append_nil, List.append_nil]
  unfold Plan.body
  split
  · next none' =>
    rw [← planned, none', List.filterMap_cons_none (others .idle rfl)]
  · exact planned

/-- The routes of the body are those of the registrations. -/
theorem filterMap_route?_body : (plan.body app).filterMap (Statement.route? linked) =
    (plan.routes.map (Registration.statement app plan)).filterMap (Statement.route? linked) := by
  apply filterMap_body
  intro st other
  cases st with
  | route c => cases other
  | page c => cases other
  | middleware pattern scope function => rfl
  | proxy function => rfl
  | idle => rfl

/-- The routes of the body have the keys of the registered entries, in their order. -/
theorem map_keyOf_body : ((plan.body app).filterMap (Statement.route? linked)).map Table.keyOf =
    (plan.routes.map Registration.entry).map Entry.key := by
  rw [filterMap_route?_body, List.map_filterMap, List.filterMap_map, List.map_map,
    ← List.filterMap_eq_map]
  congr 1
  funext r
  exact keyOf_statement linked app plan r

theorem isRoute_eq (st : Statement) : st.isRoute = (st.route? linked).isSome := by
  cases st <;> rfl

theorem filterMap_isRoute (sts : List Statement) :
    (sts.filter Statement.isRoute).filterMap (Statement.route? linked) =
      sts.filterMap (Statement.route? linked) := by
  rw [List.filterMap_filter]
  congr 1
  funext st
  rw [isRoute_eq linked]
  cases st.route? linked <;> rfl

end

section
variable {disk : Volume} {root : Path} {app : Node} {s : AppScan}

theorem key_ofEntry (e : Entry) : (Row.ofEntry e).key = e.key := by
  simp only [Row.key, Row.ofEntry, Entry.key]

theorem rows_eq (s : AppScan) : rows s = s.entries.map Row.ofEntry :=
  (map_inMountOrder key_ofEntry s.found).symm

theorem map_key_rows (s : AppScan) :
    (rows s).map Row.key = inMountOrder id (s.found.map Entry.key) := by
  have keys : Row.key ∘ Row.ofEntry = Entry.key := funext key_ofEntry
  rw [rows_eq, List.map_map, keys, ← map_key_inMountOrder]
  rfl

/-- No two accepted entries have one key, since they claim different things. -/
theorem keys_nodup (there : disk.resolve root = .ok app) (scanned : scan disk root = .ok s) :
    (s.found.map Entry.key).Nodup := by
  have claims := (scan_holds there scanned).nodup
  have known : s.found.map Entry.claim = (s.found.map Entry.key).map fun k =>
      (k.pattern, k.method) := by
    rw [List.map_map]
    rfl
  rw [known] at claims
  exact claims.of_map _

/-- Statements whose routes have different keys register all of them, whatever their order. -/
theorem routes_foldl (linked : Linked) {order : List Statement} {keys : List MountKey}
    (all : ((order.filterMap (Statement.route? linked)).map Table.keyOf).Perm keys)
    (apart : (keys.map fun k => (k.pattern, k.method)).Nodup) :
    (order.foldl (Statement.run linked) .empty).routes = order.filterMap (Statement.route? linked) ∧
      (order.foldl (Statement.run linked) .empty).conflicts = [] := by
  have claims : ((order.filterMap (Statement.route? linked)).map Table.claimOf).Nodup := by
    have known : (order.filterMap (Statement.route? linked)).map Table.claimOf =
        ((order.filterMap (Statement.route? linked)).map Table.keyOf).map
          fun k => (k.pattern, k.method) := by
      rw [List.map_map]
      rfl
    rw [known]
    exact (all.map _).nodup_iff.2 apart
  exact Statement.run_spec claims

/-- A table that registers routes of different keys has them in the order of their keys. -/
theorem routesInOrder_foldl (linked : Linked) {order : List Statement} {keys : List MountKey}
    (all : ((order.filterMap (Statement.route? linked)).map Table.keyOf).Perm keys)
    (apart : (keys.map fun k => (k.pattern, k.method)).Nodup) :
    (order.foldl (Statement.run linked) .empty).routesInOrder.map Table.keyOf =
      inMountOrder id keys ∧
      (order.foldl (Statement.run linked) .empty).conflicts = [] := by
  obtain ⟨kept, calm⟩ := routes_foldl linked all apart
  refine ⟨?_, calm⟩
  rw [Table.routesInOrder, map_key_inMountOrder, kept]
  exact inMountOrder_perm all

/-- The routes of the statements of a body, in any order, are those of its body. -/
theorem filterMap_route?_perm (linked : Linked) {order body : List Statement}
    (same : (order.filter Statement.isRoute).Perm (body.filter Statement.isRoute)) :
    (order.filterMap (Statement.route? linked)).Perm
    (body.filterMap (Statement.route? linked)) := by
  rw [← filterMap_isRoute linked order, ← filterMap_isRoute linked body]
  exact same.filterMap _

/-- They have the keys of what the scan has accepted. -/
theorem keys_of_order (there : disk.resolve root = .ok app) (tree : app.Named IsFileName)
    (scanned : scan disk root = .ok s) (linked : Linked) (shown : Option String)
    {order : List Statement}
    (same : (order.filter Statement.isRoute).Perm
      (((Plan.ofScan s).body shown).filter Statement.isRoute)) :
    ((order.filterMap (Statement.route? linked)).map Table.keyOf).Perm (s.found.map Entry.key) := by
  refine ((filterMap_route?_perm linked same).map _).trans ?_
  rw [map_keyOf_body, entries_ofScan there tree scanned]
  exact (perm_inMountOrder _ _).map _

/-- The accepted entries claim different things. -/
theorem claims_nodup (there : disk.resolve root = .ok app) (scanned : scan disk root = .ok s) :
    ((s.found.map Entry.key).map fun k => (k.pattern, k.method)).Nodup := by
  rw [List.map_map]
  exact (scan_holds there scanned).nodup

/-- Rows, statements of the registering file, and routes of a table on which these statements were
run in any order are one sequence of method, pattern and precedence. It has every accepted entry
once. -/
theorem routeOrders_agree (there : disk.resolve root = .ok app) (tree : app.Named IsFileName)
    (scanned : scan disk root = .ok s) {modulePath : String}
    (valid : validate modulePath = .ok ()) :
    ∃ rendered path body, render s modulePath = .ok rendered ∧
      readRegistration? rendered.registration = some (path, body) ∧
      rendered.routeCount = (rows s).length ∧
      rows s = ((Plan.ofScan s).routes.map Registration.entry).map Row.ofEntry ∧
      ((Plan.ofScan s).routes.map Registration.entry).Perm s.found ∧
      ((rows s).map Row.key).Nodup ∧
      ∀ linked, (body.filterMap (Statement.route? linked)).map Table.keyOf = (rows s).map Row.key ∧
        ∀ order : List Statement,
          (order.filter Statement.isRoute).Perm (body.filter Statement.isRoute) →
          (order.foldl (Statement.run linked) .empty).routesInOrder.map Table.keyOf =
              (rows s).map Row.key ∧
            (order.foldl (Statement.run linked) .empty).conflicts = [] := by
  have planned := entries_ofScan there tree scanned
  have sorted : s.entries.Perm s.found := perm_inMountOrder _ _
  have keys : (rows s).map Row.key = s.entries.map Entry.key := by
    rw [rows_eq, List.map_map]
    rfl
  refine ⟨_, _, _, render_eq_ok s valid, readRegistration?_registrationText s _ valid, ?_,
    ?_, ?_, ?_, ?_⟩
  · rw [rows_eq, ← planned, List.length_map, List.length_map]
  · rw [planned, rows_eq]
  · rw [planned]
    exact sorted
  · rw [keys]
    exact (sorted.map _).nodup_iff.2 (keys_nodup there scanned)
  intro linked
  have emitted := map_keyOf_body linked (s.root.fileName?.map Name.display) (Plan.ofScan s)
  rw [planned] at emitted
  refine ⟨emitted.trans keys.symm, ?_⟩
  intro order same
  rw [map_key_rows]
  exact routesInOrder_foldl linked (keys_of_order there tree scanned linked _ same)
    (claims_nodup there scanned)

theorem routeOrders_agree_quoted : ∃ s, ∃ body :
    List Statement, scan ⟨quotedBesideParameter, []⟩ (.ofString ".") = .ok s ∧
    (rows s).length = 2 ∧ ∀ linked,
      (body.filterMap (Statement.route? linked)).map Table.keyOf = (rows s).map Row.key ∧
      (body.reverse.foldl (Statement.run linked) .empty).routesInOrder.map Table.keyOf =
        (rows s).map Row.key := by
  obtain ⟨s, scanned, two⟩ := scan_quotedBesideParameter
  obtain ⟨_, _, body, -, -, -, listed, all, -, agree⟩ := routeOrders_agree (resolve_current _)
    named_quotedBesideParameter scanned validate_generated
  refine ⟨s, body, scanned, ?_, ?_⟩
  · rw [listed, List.length_map, all.length_eq, two]
  · intro linked
    obtain ⟨emitted, mounted⟩ := agree linked
    exact ⟨emitted, (mounted body.reverse (body.reverse_perm.filter _)).1⟩

end

end Waymark.Generate
