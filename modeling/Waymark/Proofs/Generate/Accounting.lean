import Waymark.Proofs.Generate.Registrations
import Waymark.Proofs.Scan.Accounting

/-!
# Nothing is dropped without a word

All that an application directory offers is emitted, or the scan says why it is not:

* `scope_eq_iff`: files have one scope if and only if they lie in one directory;
* `loaderFor?_eq`, `exists_registration`: a loader is registered with the page in its directory;
* `loader_settled`: a loader has one page, or the scan says that it has none;
* `nothing_dropped`: every marker file and every function that is asked for is accounted for.
-/

namespace Waymark.Generate

open Waymark.Disk (Volume Path Name Node)
open Waymark.Http (Method)
open Waymark.Routing
open Waymark.Scan

/-- Files have one scope if and only if they lie in one directory. -/
theorem scope_eq_iff {f g : MarkerFile} (hf : f.IsText) (hg : g.IsText) :
    f.scope = g.scope ↔ f.directories = g.directories := by
  constructor
  · intro same
    have covers (a b : MarkerFile) (same : a.scope = b.scope) :
        scopeContains a.scope b.scope = true := by
      simp [scopeContains, same]
    have below := (covers_iff hf hg).1 (covers f g same)
    have above := (covers_iff hg hf).1 (covers g f same.symm)
    exact below.eq_of_length (Nat.le_antisymm below.length_le above.length_le)
  · intro same
    rw [f.scope_eq, g.scope_eq, MarkerFile.raws, MarkerFile.raws, same]

/-- The warning about a loader without a page. -/
def orphanWarning (l : FunctionFile) : Warning := ⟨l.file.path, none, .orphanLoader⟩

/-- A loader belongs to a page: no other page lies in its directory, and it is registered with that
one. -/
def BelongsTo (s : AppScan) (l p : FunctionFile) : Prop :=
  (∀ q ∈ s.pages, q.file.directories = l.file.directories ↔ q = p) ∧
    ∃ name own layouts, Registration.page p name (some (l, own)) layouts ∈ (Plan.ofScan s).routes

section
variable {disk : Volume} {root : Path} {app : Node} {s : AppScan}

theorem isText_of_mem_givenBy (tree : app.Named IsTextName) {asked : Marker} {f : FunctionFile}
    (given : f ∈ givenBy asked (openedIn disk root app)) : f.file.IsText := fun n hn =>
  (names_of_mem_givenBy tree given).1 n (List.mem_append_left _ hn)

theorem loaders_eq (there : disk.resolve root = .ok app) (scanned : scan disk root = .ok s) :
    s.loaders = givenBy .loader (openedIn disk root app) :=
  (scan_adds there scanned).loaders

/-- The loader of a page is the one in its directory. -/
theorem loaderFor?_eq (there : disk.resolve root = .ok app) (tree : app.Named IsTextName)
    (scanned : scan disk root = .ok s) {p l : FunctionFile} (page : p ∈ s.pages)
    (loader : l ∈ s.loaders)
    (same : p.file.directories = l.file.directories) : s.loaderFor? p.file = some l := by
  have textOf {f : FunctionFile} (mem : f ∈ s.loaders) : f.file.IsText := by
    rw [loaders_eq there scanned] at mem
    exact isText_of_mem_givenBy tree mem
  have text : p.file.IsText := isText_of_mem_givenBy tree (pages_subset there scanned page)
  unfold AppScan.loaderFor?
  cases found : s.loaders.find? fun l => l.file.scope = p.file.scope with
  | none =>
    have missing := List.find?_eq_none.1 found l loader
    rw [decide_eq_true_eq, scope_eq_iff (textOf loader) text] at missing
    exact absurd same.symm missing
  | some other =>
    have among := List.mem_of_find?_eq_some found
    have scope : other.file.scope = p.file.scope := by simpa using List.find?_some found
    have directories := (scope_eq_iff (textOf among) text).1 scope
    have apart : (s.loaders.map fun l => l.file.directories).Nodup := by
      rw [loaders_eq there scanned]
      exact givenBy_directories_nodup tree .loader
    rw [List.inj_on_of_nodup_map apart among loader (directories.trans same)]

/-- An accepted page is registered with the loader that it has. -/
theorem exists_registration (there : disk.resolve root = .ok app) (tree : app.Named IsTextName)
    (scanned : scan disk root = .ok s) {p : FunctionFile} (page : p ∈ s.pages) :
    ∃ name loader layouts, Registration.page p name loader layouts ∈ (Plan.ofScan s).routes ∧
      loader.map Prod.fst = s.loaderFor? p.file := by
  have accepted : Entry.page p ∈ s.entries := by
    rw [AppScan.entries, (perm_inMountOrder Entry.key s.found).mem_iff, AppScan.found]
    exact List.mem_append_right _ (List.mem_map_of_mem page)
  rw [← entries_ofScan there (tree.imp fun _ => IsTextName.isFileName) scanned] at accepted
  obtain ⟨r, planned, entry⟩ := List.mem_map.1 accepted
  cases r with
  | handler file h name => cases entry
  | page q name loader layouts =>
    cases entry
    exact ⟨name, loader, layouts, planned, (registerAll_complete s .empty s.entries _ planned).1⟩

/-- The scan says of a loader that it has no page if and only if none lies in its directory. -/
theorem orphan_mem_iff (there : disk.resolve root = .ok app) (tree : app.Named IsTextName)
    (scanned : scan disk root = .ok s) {l : FunctionFile} (loader : l ∈ s.loaders) :
    orphanWarning l ∈ s.warnings ↔ ∀ p ∈ s.pages, p.file.directories ≠ l.file.directories := by
  have text {f : FunctionFile} (mem : f ∈ s.loaders) : f.file.IsText := by
    rw [loaders_eq there scanned] at mem
    exact isText_of_mem_givenBy tree mem
  have orphan : l ∈ s.orphans ↔ ∀ p ∈ s.pages, p.file.directories ≠ l.file.directories := by
    rw [AppScan.orphans, List.mem_filter, and_iff_right loader, Bool.not_eq_true',
      List.any_eq_false]
    refine forall₂_congr fun p page => ?_
    have textP : p.file.IsText := isText_of_mem_givenBy tree (pages_subset there scanned page)
    rw [decide_eq_true_eq, scope_eq_iff textP (text loader)]
  rw [← orphan, scan_warnings there scanned, List.mem_append]
  constructor
  · rintro (told | told)
    · obtain ⟨v, -, complaint⟩ := List.mem_flatMap.1 told
      exact absurd rfl (problem_ne_of_mem_complaintsOf complaint)
    · obtain ⟨other, mem, same⟩ := List.mem_map.1 told
      have path : other.file.path = l.file.path := congrArg Warning.path same
      have among : other ∈ s.loaders := (List.mem_filter.1 mem).1
      rw [loaders_eq there scanned] at among loader
      rw [← eq_of_given_path (tree.imp fun _ => IsTextName.isFileName) among loader path]
      exact mem
  · exact fun mem => .inr (List.mem_map_of_mem mem)

/-- A loader belongs to one page, or the scan says that it has none, and never both. -/
theorem loader_settled (there : disk.resolve root = .ok app) (tree : app.Named IsTextName)
    (scanned : scan disk root = .ok s) {l : FunctionFile} (loader : l ∈ s.loaders) :
    ((∃ p ∈ s.pages, BelongsTo s l p) ∧ orphanWarning l ∉ s.warnings) ∨
      ((∀ p ∈ s.pages, ¬ BelongsTo s l p) ∧ orphanWarning l ∈ s.warnings) := by
  by_cases alone : ∀ p ∈ s.pages, p.file.directories ≠ l.file.directories
  · refine .inr ⟨fun p page belongs => ?_, (orphan_mem_iff there tree scanned loader).2 alone⟩
    exact alone p page ((belongs.1 p page).2 rfl)
  · refine .inl ⟨?_, mt (orphan_mem_iff there tree scanned loader).1 alone⟩
    push Not at alone
    obtain ⟨p, page, same⟩ := alone
    have apart : ((givenBy .page (openedIn disk root app)).map fun p => p.file.directories).Nodup :=
      givenBy_directories_nodup tree .page
    have own := loaderFor?_eq there tree scanned page loader same
    obtain ⟨name, given, layouts, planned, loads⟩ := exists_registration there tree scanned page
    obtain ⟨⟨l', own'⟩, rfl, rfl⟩ := Option.map_eq_some_iff.1 (loads.trans own)
    refine ⟨p, page, fun q other => ⟨fun sameQ => ?_, ?_⟩, name, own', layouts, planned⟩
    · exact List.inj_on_of_nodup_map apart (pages_subset there scanned other)
        (pages_subset there scanned page) (sameQ.trans same.symm)
    · rintro rfl
      exact same

/-- What a scan makes of all that an application directory offers. -/
structure NothingDropped (disk : Volume) (root : Path) (app : Node) (s : AppScan) : Prop where
  /-- Something of every marker file is accepted, or the file is warned about or loses a
  conflict. -/
  markers : ∀ kind directories fileName node, .marker kind directories fileName node ∈ visits app →
    s.Accounts (pathOf root directories fileName)
  /-- The first function with the name of a method is accepted, warned about at its line, or
  loses. -/
  handlers : ∀ o ∈ openedIn disk root app, o.kind = .route → ∀ m f,
    o.source.function? m.handlerName = some f →
      (∃ function, accepted? o.source .handler f = some function ∧
        (.handler o.file ⟨m, function⟩ ∈ s.found ∨ s.Loses (.handler o.file ⟨m, function⟩))) ∨
      s.WarnsAt o.file.path (lineOf f)
  /-- A function that is named as a page is the chosen one, which is the page or loses as such, or
  it is warned about at its line. -/
  pages : ∀ o ∈ openedIn disk root app, o.kind = .page → ∀ f ∈ namedFor o.source "page",
    (chosen? o.source "page" .page = some f ∧
      ∃ function, accepted? o.source .page f = some function ∧
      (⟨o.file, function⟩ ∈ s.pages ∨ s.Loses (.page ⟨o.file, function⟩))) ∨
    s.WarnsAt o.file.path (lineOf f)
  /-- A function that is named as a layout is the chosen one, which is the layout, or it is warned
  about at its line. -/
  layouts : ∀ o ∈ openedIn disk root app, o.kind = .layout → ∀ f ∈ namedFor o.source "layout",
    (chosen? o.source "layout" .layout = some f ∧
      ∃ function, accepted? o.source .layout f = some function ∧
      ⟨o.file, function⟩ ∈ s.layouts) ∨
    s.WarnsAt o.file.path (lineOf f)
  /-- A loader belongs to one page, or the scan says that it has none, and never both. -/
  loaders : ∀ l ∈ s.loaders,
    ((∃ p ∈ s.pages, BelongsTo s l p) ∧ orphanWarning l ∉ s.warnings) ∨
      ((∀ p ∈ s.pages, ¬ BelongsTo s l p) ∧ orphanWarning l ∈ s.warnings)
  /-- A proxy below the top is warned about, and no proxy. -/
  proxies : ∀ directories fileName node, .marker .proxy directories fileName node ∈ visits app →
    directories ≠ [] → ⟨pathOf root directories fileName, none, .nestedProxy⟩ ∈ s.warnings ∧
      ∀ p, s.proxy = some p → p.file.directories = []

/-- Nothing that an application directory offers is dropped without a word. -/
theorem nothing_dropped (there : disk.resolve root = .ok app) (tree : app.Named IsTextName)
    (scanned : scan disk root = .ok s) : NothingDropped disk root app s where
  markers _ _ _ _ met := marker_accounted there tree scanned met
  handlers _ read kind _ _ found := handler_accounted there scanned read kind found
  pages _ read kind _ named := page_accounted there scanned read kind named
  layouts _ read kind _ named := layout_accounted there scanned read kind named
  loaders _ loader := loader_settled there tree scanned loader
  proxies _ _ _ met below := proxy_below_root there scanned met below

end

/-- A loader in a file. -/
def loaderFile : Node := .file "pub fn load(ctx: &mut Context) -> Result<()> { Ok(()) }\n".toUTF8

/-- A function that is not shown to other files. -/
def hiddenFile : Node := .file "fn page() {}\n".toUTF8

/-- A loader, a page whose function is hidden, and a proxy, all below the top. -/
def hiddenPage : Node :=
  .directory [(Name.ofString "a", .directory [
    (Name.ofString "loader.rs", loaderFile), (Name.ofString "page.rs", hiddenFile),
    (Name.ofString "proxy.rs", hiddenFile)])]

theorem named_hiddenPage : hiddenPage.Named IsTextName := by
  have text : ∀ s ∈ ["a", "loader.rs", "page.rs", "proxy.rs"], IsTextName (Name.ofString s) := by
    intro s hs
    refine isTextName_ofString ?_ ?_
    all_goals
      revert s
      decide
  refine .directory _ (by simp) (by simpa using text "a" (by simp)) ?_
  rw [List.forall_mem_singleton]
  refine .directory _ (by simp [Name.ofString_inj]) ?_ ?_
  · simpa using ⟨text "loader.rs" (by simp), text "page.rs" (by simp), text "proxy.rs" (by simp)⟩
  · have leaves : loaderFile.Named IsTextName ∧ hiddenFile.Named IsTextName := ⟨.file _, .file _⟩
    simpa using leaves

theorem visits_hiddenPage : visits hiddenPage =
    [.marker .loader [Name.ofString "a"] (Name.ofString "loader.rs") loaderFile,
      .marker .page [Name.ofString "a"] (Name.ofString "page.rs") hiddenFile,
      .marker .proxy [Name.ofString "a"] (Name.ofString "proxy.rs") hiddenFile] := by
  have kinds : Marker.ofFileName? (Name.ofString "loader.rs").display = some .loader ∧
      Marker.ofFileName? (Name.ofString "page.rs").display = some .page ∧
      Marker.ofFileName? (Name.ofString "proxy.rs").display = some .proxy := by
    simp only [Name.display_ofString]
    decide
  have entered : Segment.isPrivate (Name.ofString "a").display = false ∧
      (Segment.classify (Name.ofString "a").display).isUnroutable = false := by
    simp only [Name.display_ofString]
    decide
  have order : nameLe (Name.ofString "loader.rs") (Name.ofString "page.rs") = true ∧
      nameLe (Name.ofString "loader.rs") (Name.ofString "proxy.rs") = true ∧
      nameLe (Name.ofString "page.rs") (Name.ofString "proxy.rs") = true := by
    simp only [Name.ofString_eq_encode]
    decide
  rw [visits, hiddenPage, visitsOf, inNameOrder_of_sorted (by simp [entryVisits])]
  simp only [entryVisits, Node.isDirectory, Node.isLockedDirectory, entered]
  rw [visitsOf, inNameOrder_of_sorted (by simpa [entryVisits, and_assoc] using order)]
  simp [entryVisits, loaderFile, hiddenFile, Node.isDirectory, kinds]

/-- The scan accepts the loader, and no page. -/
theorem scan_hiddenPage : ∃ s l, scan ⟨hiddenPage, []⟩ (.ofString ".") = .ok s ∧
    s.loaders = [l] ∧ s.pages = [] := by
  have found : ((scan ⟨hiddenPage, []⟩ (.ofString ".")).toOption.map fun s =>
      (s.loaders.length, s.pages.length)) = some (1, 0) := by
    rw [scan_current hiddenPage rfl, scanNode, visits_hiddenPage]
    decide +kernel
  obtain ⟨s, scanned, seen⟩ := exists_of_seen found
  obtain ⟨loaders, pages⟩ := Prod.mk.inj seen
  obtain ⟨l, one⟩ := List.length_eq_one_iff.1 loaders
  exact ⟨s, l, scanned, one, List.length_eq_zero_iff.1 pages⟩

/-- The loader beside the hidden page has no page, and the proxy is none. -/
theorem nothing_dropped_hiddenPage : ∃ s l, scan ⟨hiddenPage, []⟩ (.ofString ".") = .ok s ∧
    NothingDropped ⟨hiddenPage, []⟩ (.ofString ".") hiddenPage s ∧
    s.loaders = [l] ∧ orphanWarning l ∈ s.warnings ∧
    ⟨pathOf (.ofString ".") [Name.ofString "a"] (Name.ofString "proxy.rs"), none, .nestedProxy⟩ ∈
      s.warnings := by
  obtain ⟨s, l, scanned, one, none'⟩ := scan_hiddenPage
  have accounted := nothing_dropped (resolve_current _) named_hiddenPage scanned
  refine ⟨s, l, scanned, accounted, one, ?_, ?_⟩
  · obtain ⟨⟨p, page, -⟩, -⟩ | ⟨-, warned⟩ := accounted.loaders l (by simp [one])
    · simp [none'] at page
    · exact warned
  · exact (accounted.proxies _ _ hiddenFile (by simp [visits_hiddenPage]) (by simp)).1

end Waymark.Generate
