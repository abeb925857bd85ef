import Waymark.Proofs.Routing.FirstClaims
import Waymark.Proofs.Scan.Contribution
import Waymark.Proofs.Scan.Walk
import Waymark.Proofs.Text.Encoding

/-!
# The first file to claim a pattern and method

A scan is the files that its walk reads, added one after the other. What it accepts can be said
without that run:

* `scan_adds`: a scan that completes has added the files of its walk in order;
* `Adds.middlewares`, `Adds.layouts`, `Adds.loaders`: the files of one function are all kept, in
  order;
* `Adds.holds`: the first of all candidates with a claim is accepted, every later one is a conflict;
* `scan_first_discovered`: the same of the whole application directory, nothing lost.
-/

namespace Waymark.Scan

open Waymark.Disk (Volume Path Name Node)
open Waymark.Http (Method)
open Waymark.Routing (firstsBy_append firstsBy_concat firstsBy_nodup firstsBy_subset holder?_append
  holder?_eq_none_iff holder?_eq_some_iff holder?_firstsBy holder?_of_mem_latersBy latersBy
  latersBy_append latersBy_concat length_firstsBy_add_length_latersBy)

/-- Files were added one after the other, with nothing but warnings in between. -/
inductive Adds : List Opened → AppScan → AppScan → Prop
  | done {s t : AppScan} (warned : OnlyWarned s t) : Adds [] s t
  | file {o : Opened} {rest : List Opened} {s u t : AppScan} (first : o.Added s u)
      (more : Adds rest u t) : Adds (o :: rest) s t

theorem Adds.after_warnings {files : List Opened} {s u t : AppScan} (warned : OnlyWarned s u)
    (adds : Adds files u t) : Adds files s t := by
  cases adds with
  | done more => exact .done (warned.trans more)
  | file first more => exact .file (.of_onlyWarned warned first) more

theorem Adds.before_warnings {files : List Opened} {s t u : AppScan} (adds : Adds files s t)
    (warned : OnlyWarned t u) : Adds files s u := by
  induction adds with
  | done before => exact .done (before.trans warned)
  | file first more ih => exact .file first (ih warned)

theorem OnlyWarned.root {s t : AppScan} (warned : OnlyWarned s t) : t.root = s.root := by
  obtain ⟨_, rfl⟩ := warned
  rfl

theorem Adds.root {files : List Opened} {s t : AppScan} (adds : Adds files s t) :
    t.root = s.root := by
  induction adds with
  | done warned => exact warned.root
  | file first _ ih => exact ih.trans first.root

/-- The directory that is scanned stays the same. -/
theorem root_of_addVisit {disk : Volume} {s t : AppScan} {v : Visit}
    (h : addVisit disk s v = .ok t) :
    t.root = s.root := by
  have spec := addVisit_spec h
  split at spec
  · exact spec.root
  · exact spec.root

theorem adds_of_foldlM {disk : Volume} {vs : List Visit} {s t : AppScan}
    (h : vs.foldlM (addVisit disk) s = .ok t) : Adds (vs.filterMap (opened? disk s.root)) s t := by
  induction vs generalizing s with
  | nil =>
    simp only [List.foldlM_nil, pure, Except.pure, Except.ok.injEq] at h
    subst h
    exact .done (.refl s)
  | cons v rest ih =>
    rw [List.foldlM_cons] at h
    cases step : addVisit disk s v with
    | error fault => simp [step, bind, Except.bind] at h
    | ok u =>
      have more : rest.foldlM (addVisit disk) u = .ok t := by
        simpa [step, bind, Except.bind] using h
      have spec := addVisit_spec step
      cases read : opened? disk s.root v with
      | none =>
        simp only [read] at spec
        rw [List.filterMap_cons_none read, ← spec.root]
        exact (ih more).after_warnings spec
      | some o =>
        simp only [read] at spec
        rw [List.filterMap_cons_some read, ← spec.root]
        exact .file spec (ih more)

/-- The marker files that a walk through an application directory reads, in order. -/
def openedIn (disk : Volume) (root : Path) (app : Node) : List Opened :=
  (visits app).filterMap (opened? disk root)

/-- A scan that completes is a walk that did, with a warning for each loader that belongs to no
page. -/
theorem exists_walk_of_scan {disk : Volume} {root : Path} {app : Node} {s : AppScan}
    (there : disk.resolve root = .ok app) (scanned : scan disk root = .ok s) :
    ∃ t, (visits app).foldlM (addVisit disk) (AppScan.empty root) = .ok t ∧ s = warnOrphans t := by
  unfold scan at scanned
  split at scanned
  · next entries resolved =>
    obtain rfl : .directory entries = app := by simpa [resolved] using there
    unfold scanNode at scanned
    cases ran : (visits (.directory entries)).foldlM (addVisit disk) (AppScan.empty root) with
    | error fault => simp [ran, bind, Except.bind] at scanned
    | ok t =>
      simp only [ran, bind, Except.bind, pure, Except.pure, Except.ok.injEq] at scanned
      exact ⟨t, rfl, scanned.symm⟩
  · cases scanned
  · cases scanned

/-- A scan that completes has added the files of its walk, in order. -/
theorem scan_adds {disk : Volume} {root : Path} {app : Node} {s : AppScan}
    (there : disk.resolve root = .ok app) (scanned : scan disk root = .ok s) :
    Adds (openedIn disk root app) (AppScan.empty root) s := by
  obtain ⟨t, ran, rfl⟩ := exists_walk_of_scan there scanned
  exact (adds_of_foldlM ran).before_warnings ⟨_, rfl⟩

/-- The functions that all files of a kind give, in order. -/
def givenBy (asked : Marker) (files : List Opened) : List FunctionFile :=
  files.flatMap fun o => o.gives asked

section
variable {files : List Opened} {s t : AppScan}

theorem Adds.middlewares (adds : Adds files s t) :
    t.middlewares = s.middlewares ++ givenBy .middleware files := by
  induction adds with
  | done warned => obtain ⟨_, rfl⟩ := warned; simp [givenBy]
  | file first more ih => simp [ih, first.middlewares, givenBy]

theorem Adds.layouts (adds : Adds files s t) : t.layouts = s.layouts ++ givenBy .layout files := by
  induction adds with
  | done warned => obtain ⟨_, rfl⟩ := warned; simp [givenBy]
  | file first more ih => simp [ih, first.layouts, givenBy]

theorem Adds.loaders (adds : Adds files s t) : t.loaders = s.loaders ++ givenBy .loader files := by
  induction adds with
  | done warned => obtain ⟨_, rfl⟩ := warned; simp [givenBy]
  | file first more ih => simp [ih, first.loaders, givenBy]

theorem Adds.cuts (adds : Adds files s t) :
    ∀ o ∈ files, ∀ q ∈ o.judged, IsCut o.source q.1 q.2 := by
  induction adds with
  | done warned => simp
  | file first more ih => exact List.forall_mem_cons.2 ⟨first.cuts, ih⟩

end

/-- What an entry claims: its pattern and its method. -/
def Entry.claim (e : Entry) : String × Method := (e.file.pattern, e.method)

/-- The first of some candidates that makes a claim. -/
def claimant? (es : List Entry) (claim : String × Method) : Option Entry :=
  es.find? fun e => e.claim = claim

/-- Each candidate together with all candidates before it. -/
def withEarlier (es : List Entry) : List (List Entry × Entry) := es.inits.zip es

/-- The candidates whose claim nothing before them has made. -/
def firsts (es : List Entry) : List Entry :=
  ((withEarlier es).filter fun p => (claimant? p.1 p.2.claim).isNone).map Prod.snd

/-- The conflict of an entry with the holder of its claim. -/
def Entry.conflict (holder e : Entry) : Conflict :=
  ⟨e.file.pattern, e.method, holder.file.path, e.file.path⟩

/-- The candidates whose claim was made before them, each with the first that made it. -/
def clashes (es : List Entry) : List Conflict :=
  (withEarlier es).filterMap fun p => (claimant? p.1 p.2.claim).map (·.conflict p.2)

theorem clashes_eq (es : List Entry) :
    clashes es = (latersBy Entry.claim es).map fun p => p.1.conflict p.2 := by
  rw [latersBy, List.map_filterMap]
  simp only [Option.map_map]
  rfl

theorem claimant?_append (es more : List Entry) (claim : String × Method) :
    claimant? (es ++ more) claim = (claimant? es claim).or (claimant? more claim) :=
  holder?_append es more claim

theorem claimant?_eq_some_iff {es : List Entry} (once : (es.map Entry.claim).Nodup) (e : Entry)
    (claim : String × Method) : claimant? es claim = some e ↔ e ∈ es ∧ e.claim = claim :=
  holder?_eq_some_iff once e claim

theorem firsts_concat (es : List Entry) (e : Entry) :
    firsts (es ++ [e]) = firsts es ++ if (claimant? es e.claim).isNone then [e] else [] :=
  firstsBy_concat es e

theorem clashes_concat (es : List Entry) (e : Entry) :
    clashes (es ++ [e]) = clashes es ++ ((claimant? es e.claim).map (·.conflict e)).toList := by
  rw [clashes_eq, latersBy_concat, List.map_append, clashes_eq]
  change _ ++ ((claimant? es e.claim).map _).toList.map _ = _
  cases claimant? es e.claim <;> rfl

theorem claimant?_firsts (es : List Entry) (claim : String × Method) :
    claimant? (firsts es) claim = claimant? es claim :=
  holder?_firstsBy es claim

theorem firsts_nodup (es : List Entry) : ((firsts es).map Entry.claim).Nodup :=
  firstsBy_nodup es

theorem length_firsts_add_length_clashes (es : List Entry) :
    (firsts es).length + (clashes es).length = es.length := by
  rw [clashes_eq, List.length_map]
  exact length_firstsBy_add_length_latersBy es

theorem firsts_subset (es : List Entry) : firsts es ⊆ es := firstsBy_subset es

/-- A conflict names the first candidate of all that makes the claim. -/
theorem exists_of_mem_clashes {es : List Entry} {c : Conflict} (h : c ∈ clashes es) :
    ∃ holder e, claimant? es e.claim = some holder ∧ c = holder.conflict e := by
  rw [clashes_eq, List.mem_map] at h
  obtain ⟨p, later, rfl⟩ := h
  exact ⟨p.1, p.2, holder?_of_mem_latersBy later, rfl⟩

/-- Both sides of a conflict are candidates. -/
theorem mem_of_mem_clashes {es : List Entry} {c : Conflict} (h : c ∈ clashes es) :
    ∃ holder ∈ es, ∃ e ∈ es, c = holder.conflict e := by
  obtain ⟨⟨earlier, e⟩, among, lost⟩ := List.mem_filterMap.1 h
  obtain ⟨holder, first, rfl⟩ := Option.map_eq_some_iff.1 lost
  obtain ⟨front, here⟩ := List.of_mem_zip among
  have before : holder ∈ earlier := List.mem_of_find?_eq_some first
  exact ⟨holder, ((List.mem_inits _ _).1 front).subset before, e, here, rfl⟩

theorem firsts_append {es more : List Entry} (apart : (more.map Entry.claim).Nodup) :
    firsts (es ++ more) = firsts es ++ more.filter fun e => (claimant? es e.claim).isNone :=
  firstsBy_append apart

theorem clashes_append {es more : List Entry} (apart : (more.map Entry.claim).Nodup) :
    clashes (es ++ more) = clashes es ++
      more.filterMap fun e => (claimant? es e.claim).map (·.conflict e) := by
  rw [clashes_eq, latersBy_append apart, List.map_append, List.map_filterMap, clashes_eq]
  simp only [Option.map_map]
  rfl

/-- All that a scan has accepted, handlers before pages. -/
theorem found_eq (s : AppScan) : s.found = s.handlerEntries ++ s.pageEntries := rfl

theorem claimant?_handlers (file : MarkerFile) (hs : List RouteHandler) (pattern : String)
    (m : Method) : ((claimant? (hs.map (Entry.handler file)) (pattern, m)).map fun e =>
      e.file.path) =
      if file.pattern = pattern ∧ hs.any (fun h => h.method = m) then some file.path else none := by
  induction hs with
  | nil => simp [claimant?]
  | cons h rest ih =>
    rw [claimant?] at ih ⊢
    rw [List.map_cons, List.find?_cons]
    by_cases pat : file.pattern = pattern
    · by_cases same : h.method = m
      · simp [Entry.claim, Entry.file, Entry.method, pat, same]
      · simpa [Entry.claim, Entry.file, Entry.method, pat, same] using ih
    · simp [Entry.claim, Entry.file, Entry.method, pat]

theorem routeHolder?_eq (s : AppScan) (pattern : String) (m : Method) :
    ((s.routeHolder? pattern m).map fun r => r.file.path) =
      (claimant? s.handlerEntries (pattern, m)).map fun e => e.file.path := by
  rw [AppScan.routeHolder?, AppScan.handlerEntries]
  induction s.routes with
  | nil => rfl
  | cons r rest ih =>
    rw [List.flatMap_cons, claimant?_append, List.find?_cons]
    have here := claimant?_handlers r.file r.handlers pattern m
    by_cases holds : r.file.pattern = pattern ∧ r.handlers.any (fun h => h.method = m)
    · rw [if_pos holds] at here
      obtain ⟨e, first, path⟩ := Option.map_eq_some_iff.1 here
      have test : (r.file.pattern = pattern && r.handlers.any fun h => h.method = m) = true := by
        simpa using holds
      simp only [test, first, Option.some_or, Option.map_some, path]
    · rw [if_neg holds, Option.map_eq_none_iff] at here
      have test : (r.file.pattern = pattern && r.handlers.any fun h => h.method = m) = false := by
        simpa using holds
      simp only [test, here, Option.none_or, ih]

theorem pageHolder?_eq (s : AppScan) (pattern : String) (m : Method) :
    ((s.pageHolder? pattern m).map fun p => p.file.path) =
      (claimant? s.pageEntries (pattern, m)).map fun e => e.file.path := by
  rw [AppScan.pageHolder?, AppScan.pageEntries, claimant?, List.find?_map, Option.map_map]
  congr 2
  funext p
  have same : (Entry.page p).claim = (pattern, m) ↔ m = .get ∧ p.file.pattern = pattern := by
    simp [Entry.claim, Entry.file, Entry.method, and_comm, @eq_comm _ m]
  simp [same]

theorem holder?_eq (s : AppScan) (pattern : String) (m : Method) :
    s.holder? pattern m = (claimant? s.found (pattern, m)).map fun e => e.file.path := by
  have route := routeHolder?_eq s pattern m
  have page := pageHolder?_eq s pattern m
  rw [found_eq, claimant?_append, AppScan.holder?]
  cases held : s.routeHolder? pattern m with
  | some r =>
    rw [held, Option.map_some] at route
    obtain ⟨e, first, path⟩ := Option.map_eq_some_iff.1 route.symm
    simp [first, path]
  | none =>
    rw [held, Option.map_none] at route
    rw [Option.map_eq_none_iff.1 route.symm, Option.none_or, ← page]

theorem handlerCount_eq (s : AppScan) : s.handlerCount = s.handlerEntries.length := by
  rw [AppScan.handlerCount, AppScan.handlerEntries]
  induction s.routes with
  | nil => rfl
  | cons r rest ih => simp [ih]

/-- A scan that has met some candidates: the first of each claim is accepted, and every other one is
recorded with the holder of its claim. -/
structure Holds (es : List Entry) (s : AppScan) : Prop where
  handlers : s.handlerEntries = (firsts es).filter Entry.isHandler
  pages : s.pageEntries = (firsts es).filter (!·.isHandler)
  conflicts : s.conflicts = clashes es

theorem holds_empty (root : Path) : Holds [] (AppScan.empty root) := ⟨rfl, rfl, rfl⟩

theorem Holds.perm {es : List Entry} {s : AppScan} (holds : Holds es s) :
    s.found.Perm (firsts es) := by
  rw [found_eq, holds.handlers, holds.pages]
  exact List.filter_append_perm _ _

theorem Holds.nodup {es : List Entry} {s : AppScan} (holds : Holds es s) :
    (s.found.map Entry.claim).Nodup :=
  (holds.perm.map _).nodup_iff.2 (firsts_nodup es)

theorem Holds.claimant? {es : List Entry} {s : AppScan} (holds : Holds es s)
    (claim : String × Method) : claimant? s.found claim = claimant? es claim := by
  rw [← claimant?_firsts es]
  ext e
  rw [claimant?_eq_some_iff holds.nodup, claimant?_eq_some_iff (firsts_nodup es),
    holds.perm.mem_iff]

theorem Holds.isFree {es : List Entry} {s : AppScan} (holds : Holds es s) :
    s.isFree = fun e => (Scan.claimant? es e.claim).isNone := by
  funext e
  rw [AppScan.isFree, holder?_eq, ← holds.claimant? e.claim, Option.isNone_map]
  rfl

theorem Holds.clash? {es : List Entry} {s : AppScan} (holds : Holds es s) :
    s.clash? = fun e => (Scan.claimant? es e.claim).map (·.conflict e) := by
  funext e
  rw [AppScan.clash?, holder?_eq, ← holds.claimant? e.claim, Option.map_map]
  rfl

theorem handlers_methods_nodup (o : Opened) : (o.handlers.map RouteHandler.method).Nodup := by
  have kept : (o.handlers.map RouteHandler.method).Sublist Method.all := by
    rw [Opened.handlers]
    induction Method.all with
    | nil => exact List.nil_sublist _
    | cons m rest ih =>
      cases h : handlerOf? o.source m with
      | none => simpa [List.filterMap_cons, h] using ih.cons m
      | some f => simpa [List.filterMap_cons, h] using ih
  exact kept.nodup (by decide)

/-- The candidates of one file make claims of their own. -/
theorem offers_nodup (o : Opened) : (o.offers.map Entry.claim).Nodup := by
  cases kind : o.kind with
  | route =>
    have apart := (handlers_methods_nodup o).map (f := fun m => (o.file.pattern, m))
      fun _ _ h => (Prod.mk.inj h).2
    simpa [Opened.offers, kind, Entry.claim, Entry.file, Entry.method,
      Function.comp_def] using apart
  | page => cases found : o.function? <;> simp [Opened.offers, kind, found]
  | middleware | layout | loader | proxy => simp [Opened.offers, kind]

/-- One more file keeps the invariant. -/
theorem Holds.file {es : List Entry} {s t : AppScan} (holds : Holds es s) {o : Opened}
    (added : o.Added s t) : Holds (es ++ o.offers) t where
  handlers := by
    rw [added.handlers, holds.handlers, firsts_append (offers_nodup o), List.filter_append,
      holds.isFree]
  pages := by
    rw [added.pages, holds.pages, firsts_append (offers_nodup o), List.filter_append, holds.isFree]
  conflicts := by
    rw [added.conflicts, holds.conflicts, clashes_append (offers_nodup o), holds.clash?]

/-- A whole run keeps it. -/
theorem Adds.holds {files : List Opened} {s t : AppScan} (adds : Adds files s t) {es : List Entry}
    (holds : Holds es s) : Holds (es ++ files.flatMap Opened.offers) t := by
  induction adds generalizing es with
  | done warned =>
    obtain ⟨_, rfl⟩ := warned
    rw [List.flatMap_nil, List.append_nil]
    exact ⟨holds.handlers, holds.pages, holds.conflicts⟩
  | file first more ih => simpa using ih (holds.file first)

/-- The candidates of an application directory, in the order in which they are discovered. -/
def offeredIn (disk : Volume) (root : Path) (app : Node) : List Entry :=
  (openedIn disk root app).flatMap Opened.offers

theorem scan_holds {disk : Volume} {root : Path} {app : Node} {s : AppScan}
    (there : disk.resolve root = .ok app) (scanned : scan disk root = .ok s) :
    Holds (offeredIn disk root app) s :=
  (scan_adds there scanned).holds (holds_empty root)

/-- What is met on a walk in the order of the names that lead to it, a directory's content where the
directory stands: all marker files that every directory above them admits. -/
structure InDiscoveryOrder (app : Node) (met : List Visit) : Prop where
  sorted : met.Pairwise fun v w => compare v.address w.address = .lt
  files : ∀ kind directories fileName node,
    .marker kind directories fileName node ∈ met ↔
      (∀ n ∈ directories, Admitted n) ∧ app.at? (directories ++ [fileName]) = some node ∧
        node.isDirectory = false ∧ Marker.ofFileName? fileName.display = some kind

/-- A scan that completes accepts the first candidate of each pattern and method and records every
other one with the accepted holder, so that none is lost. -/
theorem scan_first_discovered {disk : Volume} {root : Path} {app : Node} {P : Name → Prop}
    {s : AppScan} (there : disk.resolve root = .ok app) (tree : app.Named P)
    (scanned : scan disk root = .ok s) :
    InDiscoveryOrder app (visits app) ∧
      s.found = (firsts (offeredIn disk root app)).filter Entry.isHandler
        ++ (firsts (offeredIn disk root app)).filter (!·.isHandler) ∧
      (s.found.map Entry.claim).Nodup ∧
      s.conflicts = clashes (offeredIn disk root app) ∧
      (∀ c ∈ s.conflicts, ∃ holder ∈ s.found,
        holder.claim = (c.pattern, c.method) ∧ holder.file.path = c.first) ∧
      s.handlerCount + s.pages.length + s.conflicts.length = (offeredIn disk root app).length ∧
      ∀ o ∈ openedIn disk root app, ∀ q ∈ o.judged, IsCut o.source q.1 q.2 := by
  have adds := scan_adds there scanned
  have holds := scan_holds there scanned
  have order : InDiscoveryOrder app (visits app) :=
    ⟨visits_sorted tree, mem_visits_iff tree⟩
  have counted : s.handlerCount + s.pages.length = s.found.length := by
    simp [handlerCount_eq, found_eq, AppScan.pageEntries]
  refine ⟨order, ?_, holds.nodup, holds.conflicts, ?_, ?_, adds.cuts⟩
  · rw [found_eq, holds.handlers, holds.pages]
  · intro c hc
    rw [holds.conflicts] at hc
    obtain ⟨holder, e, first, rfl⟩ := exists_of_mem_clashes hc
    rw [← holds.claimant?, claimant?_eq_some_iff holds.nodup] at first
    exact ⟨holder, first.1, first.2, rfl⟩
  · rw [counted, holds.conflicts, holds.perm.length_eq, length_firsts_add_length_clashes]

def pageFile : Node :=
  .file "pub fn page(ctx: &mut Context) -> Result<Html> { Ok(Html::new()) }\n".toUTF8

def handlerFile : Node :=
  .file "pub fn get(ctx: &mut Context) -> Result<()> { Ok(()) }\n".toUTF8

/-- A directory with a page and a handler for reading, which claim the same. -/
def pageBesideHandler : Node :=
  .directory [(Name.ofString "page.rs", pageFile), (Name.ofString "route.rs", handlerFile)]

theorem resolve_current (top : Node) : (Volume.mk top []).resolve (.ofString ".") = .ok top := by
  have bytes : Disk.steps (Path.ofString ".").bytes = [Disk.selfName] := by
    simp only [Path.ofString_eq_encode]
    decide
  have written : (Path.ofString ".").bytes ≠ [] := by
    simp only [Path.ofString_eq_encode]
    decide
  simp [Volume.resolve, Volume.place, bytes, written, Volume.follow, Node.at?]

/-- Where nothing is linked, the current directory is the whole tree. -/
theorem scan_current (top : Node) {entries : List (Name × Node)}
    (listed : top = .directory entries) :
    scan ⟨top, []⟩ (.ofString ".") = scanNode ⟨top, []⟩ (.ofString ".") top := by
  rw [scan, resolve_current, listed]

/-- A scan in which something is seen has gone through. -/
theorem exists_of_seen {ε α : Type} {result : Except ε AppScan} {look : AppScan → α} {seen : α}
    (found : result.toOption.map look = some seen) : ∃ s, result = .ok s ∧ look s = seen := by
  cases result with
  | error fault => cases found
  | ok s => exact ⟨s, rfl, Option.some.inj found⟩

theorem counts_pageBesideHandler :
    ((scan ⟨pageBesideHandler, []⟩ (.ofString ".")).toOption.map fun s =>
      (s.handlerCount, s.pages.length, s.conflicts.length)) = some (0, 1, 1) := by
  have page : Marker.ofFileName? (Name.ofString "page.rs").display = some .page := by
    simp only [Name.display_ofString]
    decide
  have route : Marker.ofFileName? (Name.ofString "route.rs").display = some .route := by
    simp only [Name.display_ofString]
    decide
  have order : nameLe (Name.ofString "page.rs") (Name.ofString "route.rs") = true := by
    simp only [Name.ofString_eq_encode]
    decide
  have met : visits pageBesideHandler =
      [.marker .page [] (Name.ofString "page.rs") pageFile,
        .marker .route [] (Name.ofString "route.rs") handlerFile] := by
    rw [visits, pageBesideHandler, visitsOf,
      inNameOrder_of_sorted (by simpa [entryVisits] using order)]
    simp [entryVisits, pageFile, handlerFile, Node.isDirectory, page, route]
  rw [scan_current pageBesideHandler rfl, scanNode, met]
  decide +kernel

theorem scan_first_discovered_pageBesideHandler :
    ∃ s, scan ⟨pageBesideHandler, []⟩ (.ofString ".") = .ok s ∧ s.conflicts.length = 1 ∧
      s.handlerCount + s.pages.length + s.conflicts.length =
        (offeredIn ⟨pageBesideHandler, []⟩ (.ofString ".") pageBesideHandler).length := by
  have tree : pageBesideHandler.Named fun _ => True := by
    refine .directory _ (by decide +kernel) (by simp) ?_
    simpa [pageBesideHandler] using ⟨Node.Named.file _, Node.Named.file _⟩
  have counts := counts_pageBesideHandler
  cases scanned : scan ⟨pageBesideHandler, []⟩ (.ofString ".") with
  | error fault => simp [scanned, Except.toOption] at counts
  | ok s =>
    obtain ⟨_, _, _, _, _, total, _⟩ :=
      scan_first_discovered (resolve_current _) tree scanned
    have clashed : s.conflicts.length = 1 := by
      simp [scanned, Except.toOption] at counts
      exact counts.2.2
    exact ⟨s, rfl, clashed, total⟩

end Waymark.Scan
