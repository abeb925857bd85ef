import Mathlib.Data.List.Find
import Waymark.Proofs.Generate.Accounting

/-!
# Generation does not hang on the order of discovery

Names are handed out in the order of emission, so a file that is found earlier or later could change
the name of another. It does not: whatever generation sorts by or looks up tells all that a scan
found apart.

* `AppScan.Rearranged`: scans that found the same, in any order;
* `Apart`, `apart_of_scan`: nothing that a scan found stands level with another;
* `ofScan_eq`: a plan is what was found, in no order;
* `render_eq_of_rearranged`: and so are both texts.
-/

namespace Waymark.Scan

/-- Files of handlers hold the same handlers, in any order. -/
structure RouteFile.Rearranged (r r' : RouteFile) : Prop where
  file : r'.file = r.file
  handlers : r'.handlers.Perm r.handlers

/-- Scans that found the same, in any order. What they warn about is left open. -/
structure AppScan.Rearranged (s t : AppScan) : Prop where
  root : t.root = s.root
  routes : ∃ files, files.Perm s.routes ∧ List.Forall₂ RouteFile.Rearranged files t.routes
  pages : t.pages.Perm s.pages
  middlewares : t.middlewares.Perm s.middlewares
  layouts : t.layouts.Perm s.layouts
  loaders : t.loaders.Perm s.loaders
  proxy : t.proxy = s.proxy

theorem flatMap_perm_of_forall₂ {files others : List RouteFile}
    (same : List.Forall₂ RouteFile.Rearranged files others) :
    (others.flatMap fun r => r.handlers.map (Entry.handler r.file)).Perm
      (files.flatMap fun r => r.handlers.map (Entry.handler r.file)) := by
  induction same with
  | nil => exact .nil
  | cons first _ ih =>
    rw [List.flatMap_cons, List.flatMap_cons, first.file]
    exact (first.handlers.map _).append ih

theorem AppScan.Rearranged.found {s t : AppScan} (h : s.Rearranged t) : t.found.Perm s.found := by
  obtain ⟨files, perm, same⟩ := h.routes
  exact ((flatMap_perm_of_forall₂ same).trans (perm.flatMap_right _)).append (h.pages.map _)

end Waymark.Scan

namespace Waymark.Generate

open Waymark.Disk (Volume Path Name Node)
open Waymark.Routing
open Waymark.Scan

/-! ## Sorting and looking up -/

section
variable {α β : Type}

/-- What is looked up by a measure that tells items apart is found in any order. -/
theorem find?_eq_of_perm [DecidableEq β] {measure : α → β} {items others : List α}
    (apart : ToldApart measure items) (perm : others.Perm items) (value : β) :
    (others.find? fun a => measure a = value) = items.find? fun a => measure a = value := by
  refine List.find?_eq_find?_of_perm perm ?_
  rintro a ⟨ha, sameA⟩ b ⟨hb, sameB⟩
  rw [decide_eq_true_eq] at sameA sameB
  exact apart a (perm.mem_iff.1 ha) b (perm.mem_iff.1 hb) (sameA.trans sameB.symm)

end

/-- The order of files knows their scopes. -/
theorem scope_eq_of_fileLe {f g : FunctionFile} (fg : fileLe f g = true) (gf : fileLe g f = true) :
    f.file.scope = g.file.scope := by
  rw [fileLe_eq] at fg gf
  have level : placeOrder f g = .eq := Std.OrientedCmp.isLE_antisymm fg gf
  exact compare_eq_iff_eq.1 (Ordering.then_eq_eq.1 level).2

theorem byScope_eq_of_perm {files others : List FunctionFile}
    (apart : ToldApart (fun f => f.file.scope) files) (perm : others.Perm files) :
    byScope others = byScope files := by
  refine mergeSort_eq_of_perm fileLe_trans fileLe_total perm ?_
  intro f hf g hg fg gf
  exact apart f hf g hg (scope_eq_of_fileLe fg gf)

/-! ## Plans -/

/-- Nothing that was found stands level with another in an order that generation uses, nor is found
in another's place. -/
structure Apart (s : AppScan) : Prop where
  entries : ToldApart Entry.key s.found
  pages : ToldApart (fun p => p.file.path) s.pages
  loaders : ToldApart (fun l => l.file.scope) s.loaders
  middlewares : ToldApart (fun m => m.file.scope) s.middlewares
  layouts : ToldApart (fun l => l.file.scope) s.layouts
  /-- Layouts around one page lie at different depths. -/
  around : ∀ p ∈ s.pages, ToldApart (fun l => l.file.directories.length)
    (s.layouts.filter fun l => scopeContains l.file.scope p.file.scope)

section
variable {s t : AppScan}

theorem entries_eq (apart : Apart s) (h : s.Rearranged t) : t.entries = s.entries :=
  inMountOrder_eq_of_perm apart.entries h.found

theorem pageAt?_eq (apart : Apart s) (h : s.Rearranged t) (path : Path) :
    t.pageAt? path = s.pageAt? path := by
  have perm : t.pages.reverse.Perm s.pages.reverse :=
    t.pages.reverse_perm.trans (h.pages.trans s.pages.reverse_perm.symm)
  have backwards : ToldApart (fun p => p.file.path) s.pages.reverse := fun a ha b hb =>
    apart.pages a (List.mem_reverse.1 ha) b (List.mem_reverse.1 hb)
  exact find?_eq_of_perm backwards perm path

theorem loaderFor?_eq_of_rearranged (apart : Apart s) (h : s.Rearranged t) (page : MarkerFile) :
    t.loaderFor? page = s.loaderFor? page :=
  find?_eq_of_perm apart.loaders h.loaders page.scope

theorem layoutsFor_eq (apart : Apart s) (h : s.Rearranged t) {p : FunctionFile}
    (page : p ∈ s.pages) :
    t.layoutsFor p.file = s.layoutsFor p.file := by
  refine mergeSort_eq_of_perm ?_ ?_ (h.layouts.filter _) ?_
  · intro a b c
    simpa using fun ab bc => ab.trans bc
  · intro a b
    simpa using Nat.le_total _ _
  · intro a ha b hb ab ba
    rw [decide_eq_true_eq] at ab ba
    exact apart.around p page a ha b hb (Nat.le_antisymm ab ba)

/-- An entry gets the registration that it gets in any other order. -/
theorem register_eq (apart : Apart s) (h : s.Rearranged t) : register t = register s := by
  funext names e
  cases e with
  | handler file handler => rfl
  | page entry =>
    simp only [register, pageAt?_eq apart h, loaderFor?_eq_of_rearranged apart h]
    cases found : s.pageAt? entry.file.path with
    | none => rfl
    | some page =>
      have among : page ∈ s.pages := List.mem_reverse.1 (List.mem_of_find?_eq_some found)
      simp only [layoutsFor_eq apart h among]

theorem registerAll_eq (same : register t = register s) (names : Names) (es : List Entry) :
    registerAll t names es = registerAll s names es := by
  induction es generalizing names with
  | nil => rfl
  | cons e rest ih => simp only [registerAll, same, ih]

/-- A plan does not hang on the order in which its scan found what it found. -/
theorem ofScan_eq (apart : Apart s) (h : s.Rearranged t) : Plan.ofScan t = Plan.ofScan s := by
  unfold Plan.ofScan
  rw [entries_eq apart h, registerAll_eq (register_eq apart h),
    byScope_eq_of_perm apart.middlewares h.middlewares, byScope_eq_of_perm apart.layouts h.layouts,
    h.proxy]

end

/-! ## Scans -/

section
variable {disk : Volume} {root : Path} {app : Node} {s t : AppScan}

/-- Files that lie in different directories have different scopes. -/
theorem toldApart_scope {files : List FunctionFile} (text : ∀ f ∈ files, f.file.IsText)
    (once : (files.map fun f => f.file.directories).Nodup) :
    ToldApart (fun f => f.file.scope) files := by
  intro f hf g hg same
  exact toldApart_of_nodup once f hf g hg ((scope_eq_iff (text f hf) (text g hg)).1 same)

/-- What files of one kind give is told apart by scope. -/
theorem toldApart_givenBy (tree : app.Named IsTextName) (asked : Marker) :
    ToldApart (fun f => f.file.scope) (givenBy asked (openedIn disk root app)) :=
  toldApart_scope (fun _ => isText_of_mem_givenBy tree) (givenBy_directories_nodup tree asked)

theorem apart_of_scan (there : disk.resolve root = .ok app) (tree : app.Named IsTextName)
    (scanned : scan disk root = .ok s) : Apart s := by
  have adds := scan_adds there scanned
  have layouts : s.layouts = givenBy .layout (openedIn disk root app) := adds.layouts
  refine ⟨toldApart_of_nodup (keys_nodup there scanned), ?_, ?_, ?_, ?_, ?_⟩
  · intro p hp q hq same
    exact eq_of_given_path (tree.imp fun _ => IsTextName.isFileName) (pages_subset there scanned hp)
      (pages_subset there scanned hq) same
  · rw [loaders_eq there scanned]
    exact toldApart_givenBy tree .loader
  · rw [scan_middlewares there scanned]
    exact toldApart_givenBy tree .middleware
  · rw [layouts]
    exact toldApart_givenBy tree .layout
  · intro p page a ha b hb depth
    have text : p.file.IsText := isText_of_mem_givenBy tree (pages_subset there scanned page)
    have above {l : FunctionFile}
        (hl : l ∈ s.layouts.filter fun l => scopeContains l.file.scope p.file.scope) :
        l ∈ givenBy .layout (openedIn disk root app) ∧
          l.file.directories <+: p.file.directories := by
      rw [List.mem_filter, layouts] at hl
      exact ⟨hl.1, (covers_iff (isText_of_mem_givenBy tree hl.1) text).1 hl.2⟩
    -- both lie on the way to the page, where a depth is one directory
    have directories : a.file.directories = b.file.directories :=
      (List.prefix_of_prefix_length_le (above ha).2 (above hb).2 depth.le).eq_of_length depth
    exact toldApart_of_nodup (givenBy_directories_nodup tree .layout) a (above ha).1 b
      (above hb).1 directories

/-- However what a scan found is rearranged, the same functions get the same names in the same
order, and both texts stay as they are. -/
theorem render_eq_of_rearranged (there : disk.resolve root = .ok app) (tree : app.Named IsTextName)
    (scanned : scan disk root = .ok s) (h : s.Rearranged t) :
    Plan.ofScan t = Plan.ofScan s ∧ ∀ modulePath, render t modulePath = render s modulePath := by
  have plan := ofScan_eq (apart_of_scan there tree scanned) h
  refine ⟨plan, fun modulePath => ?_⟩
  unfold render
  rw [plan, h.root]

end

/-- A parameter and a literal whose handlers would have one name, so that the second gets a
number. -/
def oneStem : Node :=
  .directory [
    (Name.ofString "[a-b]", .directory [(Name.ofString "route.rs", handlerFile)]),
    (Name.ofString "a-b", .directory [(Name.ofString "route.rs", handlerFile)])]

theorem named_oneStem : oneStem.Named IsTextName := by
  have text : ∀ s ∈ ["[a-b]", "a-b", "route.rs"], IsTextName (Name.ofString s) := by
    intro s hs
    refine isTextName_ofString ?_ ?_
    all_goals
      revert s
      decide
  have handler : (Node.directory [(Name.ofString "route.rs", handlerFile)]).Named IsTextName := by
    refine .directory _ (by simp) ?_ ?_
    · simpa using text "route.rs" (by simp)
    · simpa using show handlerFile.Named IsTextName from Node.Named.file _
  refine .directory _ (by simp [Name.ofString_inj]) ?_ ?_
  · simpa using ⟨text "[a-b]" (by simp), text "a-b" (by simp)⟩
  · simpa using handler

theorem visits_oneStem : visits oneStem =
    [.marker .route [Name.ofString "[a-b]"] (Name.ofString "route.rs") handlerFile,
      .marker .route [Name.ofString "a-b"] (Name.ofString "route.rs") handlerFile] := by
  have marks : Marker.ofFileName? (Name.ofString "route.rs").display = some .route := by
    simp only [Name.display_ofString]
    decide
  have entered : ∀ s ∈ ["[a-b]", "a-b"], Segment.isPrivate (Name.ofString s).display = false ∧
      (Segment.classify (Name.ofString s).display).isUnroutable = false := by
    simp only [Name.display_ofString]
    decide
  have order : nameLe (Name.ofString "[a-b]") (Name.ofString "a-b") = true := by
    simp only [Name.ofString_eq_encode]
    decide
  have inner (here : List Name) :
      visitsOf here (.directory [(Name.ofString "route.rs", handlerFile)]) =
      [.marker .route here (Name.ofString "route.rs") handlerFile] := by
    rw [visitsOf, inNameOrder_of_sorted (by simp [entryVisits])]
    simp [entryVisits, handlerFile, Node.isDirectory, marks]
  rw [visits, oneStem, visitsOf, inNameOrder_of_sorted (by simpa [entryVisits] using order)]
  simp only [entryVisits, Node.isDirectory, Node.isLockedDirectory, entered "[a-b]" (by simp),
    entered "a-b" (by simp), inner]
  simp

theorem scan_oneStem : ∃ s, scan ⟨oneStem, []⟩ (.ofString ".") = .ok s ∧
    s.routes.map (fun r => patternStem r.file.pattern) = ["a_b", "a_b"] := by
  have found : ((scan ⟨oneStem, []⟩ (.ofString ".")).toOption.map fun s =>
      s.routes.map fun r => patternStem r.file.pattern) = some ["a_b", "a_b"] := by
    rw [scan_current oneStem rfl, scanNode, visits_oneStem]
    decide +kernel
  exact exists_of_seen found

/-- The handlers keep their names when their files are found the other way round. -/
theorem render_eq_of_rearranged_oneStem : ∃ s t :
    AppScan, scan ⟨oneStem, []⟩ (.ofString ".") = .ok s ∧
    s.routes.map (fun r => patternStem r.file.pattern) = ["a_b", "a_b"] ∧
    t.routes = s.routes.reverse ∧ s.Rearranged t ∧ Plan.ofScan t = Plan.ofScan s ∧
    render t "crate::generated" = render s "crate::generated" := by
  obtain ⟨s, scanned, stems⟩ := scan_oneStem
  have backwards : s.Rearranged { s with routes := s.routes.reverse } :=
    ⟨rfl, ⟨_, s.routes.reverse_perm, List.forall₂_same.2 fun _ _ => ⟨rfl, .refl _⟩⟩, .refl _,
      .refl _, .refl _, .refl _, rfl⟩
  obtain ⟨plan, texts⟩ :=
    render_eq_of_rearranged (resolve_current _) named_oneStem scanned backwards
  exact ⟨s, _, scanned, stems, rfl, backwards, plan, texts _⟩

end Waymark.Generate
