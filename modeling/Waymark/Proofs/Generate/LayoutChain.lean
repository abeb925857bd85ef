import Waymark.Proofs.Generate.Blocks
import Waymark.Proofs.Generate.Rearranging

/-!
# The layouts around a generated page

The layouts around a page are found by scope, sorted by depth, and called by names that are looked
up by path. Although many directories share one pattern, these are the layouts of the directories on
the way to the page:

* `layoutsFor_eq_declaredAbove`: each directory's layout once, the outermost first;
* `Statement.page?`, `filter_pageCalls`: the pages that a body adds, one for each accepted page;
* `Plan.Emits`: a name is that of one function;
* `forall₂_layoutNames`: each layout is called by the name that its own function got;
* `layouts_nest`: all of this of a scan and the file that registers it.
-/

namespace Waymark.Generate

open Waymark.Disk (Volume Path Name Node)
open Waymark.Http (Method)
open Waymark.Routing
open Waymark.Scan

/-! ## Finding layouts -/

section
variable {disk : Volume} {root : Path} {app : Node} {s : AppScan}
  (there : disk.resolve root = .ok app) (tree : app.Named IsTextName)
      (scanned : scan disk root = .ok s)
include there tree scanned

theorem isText_of_mem_layouts {l : FunctionFile} (layout : l ∈ s.layouts) : l.file.IsText :=
  isText_of_mem_givenBy tree (layouts_subset there scanned layout)

theorem isText_of_mem_pages {p : FunctionFile} (page : p ∈ s.pages) : p.file.IsText :=
  isText_of_mem_givenBy tree (pages_subset there scanned page)

/-- No directory has two layouts. -/
theorem layouts_directories_nodup : (s.layouts.map fun l => l.file.directories).Nodup := by
  have given : s.layouts = givenBy .layout (openedIn disk root app) :=
    (scan_adds there scanned).layouts
  rw [given]
  exact givenBy_directories_nodup tree .layout

variable {p : FunctionFile} (page : p ∈ s.pages)
include page

theorem mem_layoutsFor (l : FunctionFile) :
    l ∈ s.layoutsFor p.file ↔ l ∈ s.layouts ∧ l.file.directories <+: p.file.directories := by
  rw [AppScan.layoutsFor, List.mem_mergeSort, List.mem_filter]
  refine and_congr_right fun layout => ?_
  exact covers_iff (isText_of_mem_layouts there tree scanned layout)
    (isText_of_mem_pages there tree scanned page)

/-- The layouts around a page are those of the directories on the way to it, the outermost first. -/
theorem layoutsFor_eq_declaredAbove : s.layoutsFor p.file = declaredAbove s.layouts p.file := by
  have once := layouts_directories_nodup there tree scanned
  have member (l : FunctionFile) : l ∈ s.layoutsFor p.file ↔
      l ∈ declaredAbove s.layouts p.file := by
    rw [mem_layoutsFor there tree scanned page, mem_declaredAbove]
  have sorted : (declaredAbove s.layouts p.file).Pairwise Outer := declaredAbove_sorted once
  have nodup : (s.layoutsFor p.file).Nodup :=
    (List.mergeSort_perm _ _).nodup_iff.2 (once.of_map.filter _)
  have nodup' : (declaredAbove s.layouts p.file).Nodup := by
    refine List.nodup_iff_pairwise_ne.2 (sorted.imp ?_)
    rintro l _ outer rfl
    exact lt_irrefl _ outer
  have perm : (s.layoutsFor p.file).Perm (declaredAbove s.layouts p.file) :=
    (List.perm_ext_iff_of_nodup nodup nodup').2 member
  refine perm.eq_of_pairwise ?_ (layoutsFor_outermostFirst s p.file) (sorted.imp Nat.le_of_lt)
  -- Two layouts on one way lie at different depths.
  intro l m hl hm le ge
  have around {l : FunctionFile} (mem : l ∈ s.layoutsFor p.file) :
      l ∈ s.layouts.filter fun l => scopeContains l.file.scope p.file.scope :=
        List.mem_mergeSort.1 mem
  exact (apart_of_scan there tree scanned).around p page l (around hl) m (around ((member m).2 hm))
    (Nat.le_antisymm le ge)

end

/-! ## Pages of a body -/

/-- The page that a statement adds. -/
def Statement.page? : Statement → Option PageCall
  | page c => some c
  | route _ | middleware _ _ _ | proxy _ | idle => none

/-- The pattern of an entry that is a page. -/
def Entry.pagePattern? : Entry → Option String
  | .handler _ _ => none
  | .page p => some p.file.pattern

section
variable (app : Option String) (plan : Plan)

/-- The pages that a body adds. -/
def Plan.pageCalls : List PageCall := (plan.body app).filterMap Statement.page?

theorem pageCalls_eq : plan.pageCalls app =
    (plan.routes.map (Registration.statement app plan)).filterMap Statement.page? := by
  apply filterMap_body
  intro st other
  cases st with
  | route c => rfl
  | page c => cases other
  | middleware pattern scope function => rfl
  | proxy function => rfl
  | idle => rfl

/-- They have the patterns of the pages that are registered. -/
theorem map_pattern_pageCalls : (plan.pageCalls app).map PageCall.pattern =
    (plan.routes.map Registration.entry).filterMap Entry.pagePattern? := by
  rw [pageCalls_eq, List.map_filterMap, List.filterMap_map, List.filterMap_map]
  congr 1
  funext r
  cases r with
  | handler file h name => rfl
  | page p name loader layouts => rfl

end

/-- Among items that a measure tells apart, one is found alone by its own value. -/
theorem filter_eq_singleton {α β : Type} [DecidableEq β] {measure : α → β} {items : List α}
    (apart : (items.map measure).Nodup) {a : α} (mem : a ∈ items) :
    (items.filter fun b => measure b = measure a) = [a] := by
  rw [← List.perm_singleton,
    List.perm_ext_iff_of_nodup (apart.of_map.filter _) (List.nodup_singleton a)]
  intro b
  rw [List.mem_filter, decide_eq_true_eq, List.mem_singleton]
  constructor
  · rintro ⟨mem', same⟩
    exact List.inj_on_of_nodup_map apart mem' mem same
  · rintro rfl
    exact ⟨mem, rfl⟩

section
variable {disk : Volume} {root : Path} {app : Node} {s : AppScan}
  (there : disk.resolve root = .ok app) (tree : app.Named IsTextName)
      (scanned : scan disk root = .ok s)
include there tree scanned

/-- No two pages have one pattern. -/
theorem pageCalls_nodup (shown : Option String) :
    (((Plan.ofScan s).pageCalls shown).map PageCall.pattern).Nodup := by
  have pages : s.found.filterMap Entry.pagePattern? = s.pages.map fun p => p.file.pattern := by
    have handlers : s.handlerEntries.filterMap Entry.pagePattern? = [] := by
      rw [List.filterMap_eq_nil_iff]
      intro e mem
      obtain ⟨r, -, own⟩ := List.mem_flatMap.1 mem
      obtain ⟨h, -, rfl⟩ := List.mem_map.1 own
      rfl
    rw [found_eq, List.filterMap_append, handlers, AppScan.pageEntries, List.filterMap_map,
      List.nil_append, ← List.filterMap_eq_map]
    rfl
  have claims : (s.pageEntries.map Entry.claim).Nodup := by
    have all := (scan_holds there scanned).nodup
    rw [found_eq, List.map_append] at all
    exact (List.nodup_append.1 all).2.1
  have patterns : (s.pages.map fun p => p.file.pattern).Nodup := by
    have known : s.pageEntries.map Entry.claim =
        (s.pages.map fun p => p.file.pattern).map fun pattern => (pattern, .get) := by
      rw [AppScan.pageEntries, List.map_map, List.map_map]
      rfl
    rw [known] at claims
    exact claims.of_map
  rw [map_pattern_pageCalls, entries_ofScan there (tree.imp fun _ => IsTextName.isFileName) scanned,
    AppScan.entries, ((perm_inMountOrder Entry.key s.found).filterMap _).nodup_iff, pages]
  exact patterns

/-- An accepted page is added once, and stands in the layouts around it. -/
theorem filter_pageCalls (shown : Option String) {p : FunctionFile} (page : p ∈ s.pages) :
    ∃ name loader, Registration.page p name loader (s.layoutsFor p.file) ∈ (Plan.ofScan s).routes ∧
      ∃ call, (((Plan.ofScan s).pageCalls shown).filter fun c => c.pattern = p.file.pattern) =
        [call] ∧
        call.function = name ∧
        call.layouts = (s.layoutsFor p.file).filterMap (Plan.ofScan s).layoutName? := by
  obtain ⟨name, loader, layouts, planned, -⟩ := exists_registration there tree scanned page
  obtain ⟨-, rfl⟩ := registerAll_complete s .empty s.entries _ planned
  obtain ⟨call, stated, pattern, function, layouts⟩ : ∃ call,
      (Registration.page p name loader (s.layoutsFor p.file)).statement shown (Plan.ofScan s) =
        .page call ∧
        call.pattern = p.file.pattern ∧ call.function = name ∧
        call.layouts = (s.layoutsFor p.file).filterMap (Plan.ofScan s).layoutName? :=
          ⟨_, rfl, rfl, rfl, rfl⟩
  have added : call ∈ (Plan.ofScan s).pageCalls shown := by
    rw [pageCalls_eq, List.mem_filterMap]
    refine ⟨_, List.mem_map_of_mem planned, ?_⟩
    rw [stated]
    rfl
  refine ⟨name, loader, planned, call, ?_, function, layouts⟩
  rw [← pattern]
  exact filter_eq_singleton (pageCalls_nodup there tree scanned shown) added

end

/-! ## Names of layouts -/

/-- Of all functions that are emitted, the one of this name is the function of this file. -/
def Plan.Emits (plan : Plan) (name : String) (f : FunctionFile) : Prop :=
  ∀ b : Block, b ∈ plan.blocks ∧ b.name = name ↔ b = Block.ofNamed (f, name)

theorem emits_of_mem_blocks {s : AppScan} {f : FunctionFile} {name : String}
    (mem : Block.ofNamed (f, name) ∈ (Plan.ofScan s).blocks) : (Plan.ofScan s).Emits name f := by
  have distinct : ((Plan.ofScan s).blocks.map Block.name).Nodup :=
    (names_blocks (Plan.ofScan s)).nodup_iff.2 (names_ofScan s).1
  intro b
  constructor
  · rintro ⟨among, same⟩
    exact List.inj_on_of_nodup_map distinct among mem same
  · rintro rfl
    exact ⟨mem, rfl⟩

theorem mem_blocks_of_layout {plan : Plan} {l : FunctionFile × String} (layout : l ∈ plan.layouts) :
    Block.ofNamed l ∈ plan.blocks := by
  refine List.mem_append_right _ (List.mem_map_of_mem ?_)
  simp [Plan.others, layout]

theorem mem_blocks_of_page {plan : Plan} {p : FunctionFile} {name : String}
    {loader : Option (FunctionFile × String)} {layouts : List FunctionFile}
    (planned : .page p name loader layouts ∈ plan.routes) :
    Block.ofNamed (p, name) ∈ plan.blocks := by
  refine List.mem_append_left _ (List.mem_flatMap.2 ⟨_, planned, ?_⟩)
  exact List.mem_append_right _ (List.mem_singleton_self _)

theorem forall₂_filterMap {α β : Type} {R : α → β → Prop} {f : α → Option β} {items : List α}
    (each : ∀ a ∈ items, ∃ b, f a = some b ∧ R a b) : List.Forall₂ R items (items.filterMap f) := by
  induction items with
  | nil => exact .nil
  | cons a rest ih =>
    obtain ⟨b, found, related⟩ := each a (by simp)
    rw [List.filterMap_cons_some found]
    exact .cons related (ih fun c hc => each c (List.mem_cons_of_mem a hc))

section
variable {disk : Volume} {root : Path} {app : Node} {s : AppScan}
  (there : disk.resolve root = .ok app) (tree : app.Named IsTextName)
      (scanned : scan disk root = .ok s)
include there tree scanned

/-- A layout has one name. -/
theorem layout_name_unique {l : FunctionFile} {name other : String}
    (own : (l, name) ∈ (Plan.ofScan s).layouts)
    (own' : (l, other) ∈ (Plan.ofScan s).layouts) : name = other := by
  have once : ((Plan.ofScan s).layouts.map Prod.fst).Nodup := by
    rw [map_fst_layouts, (byScope_perm s.layouts).nodup_iff]
    exact (layouts_directories_nodup there tree scanned).of_map
  exact congrArg Prod.snd (List.inj_on_of_nodup_map once own own' rfl)

variable {p : FunctionFile} (page : p ∈ s.pages)
include page

/-- The layouts around a page are called by their own names, in order. -/
theorem forall₂_layoutNames : List.Forall₂ (fun l name => (l, name) ∈ (Plan.ofScan s).layouts)
    (s.layoutsFor p.file) ((s.layoutsFor p.file).filterMap (Plan.ofScan s).layoutName?) := by
  apply forall₂_filterMap
  intro l around
  have layout := ((mem_layoutsFor there tree scanned page l).1 around).1
  exact layoutName?_of_mem there (tree.imp fun _ => IsTextName.isFileName) scanned layout

theorem mem_layoutNames_iff {l : FunctionFile} {name : String}
    (own : (l, name) ∈ (Plan.ofScan s).layouts) :
    name ∈ (s.layoutsFor p.file).filterMap (Plan.ofScan s).layoutName? ↔
      l.file.directories <+: p.file.directories := by
  have layout : l ∈ s.layouts := by
    rw [← (byScope_perm s.layouts).mem_iff, ← map_fst_layouts]
    exact List.mem_map_of_mem own
  obtain ⟨known, found, own'⟩ :=
    layoutName?_of_mem there (tree.imp fun _ => IsTextName.isFileName) scanned layout
  obtain rfl := layout_name_unique there tree scanned own own'
  rw [List.mem_filterMap]
  constructor
  · rintro ⟨m, around, called⟩
    obtain ⟨layout', above⟩ := (mem_layoutsFor there tree scanned page m).1 around
    obtain ⟨other, found', own''⟩ :=
      layoutName?_of_mem there (tree.imp fun _ => IsTextName.isFileName) scanned layout'
    obtain rfl : name = other := Option.some_inj.1 (called.symm.trans found')
    have one := ((emits_of_mem_blocks (mem_blocks_of_layout own)) _).1
      ⟨mem_blocks_of_layout own'', rfl⟩
    obtain ⟨file, function⟩ := l
    cases one
    exact above
  · intro above
    exact ⟨l, (mem_layoutsFor there tree scanned page l).2 ⟨layout, above⟩, found⟩

/-- **Layouts wrap a page by nesting.** Around an accepted page stand the layouts of the directories
on the way to it, each directory's once and the outermost first, and no other. The registering file
adds the page once, under the name of its own function, in calls to these layouts in this order,
each by the name of its own function; no other layout is called, whatever pattern it has. -/
theorem layouts_nest :
    s.layoutsFor p.file = declaredAbove s.layouts p.file ∧
    (s.layoutsFor p.file).Pairwise Outer ∧
    (s.layouts.map fun l => l.file.directories).Nodup ∧
    ∀ modulePath, validate modulePath = .ok () →
      ∃ rendered path body call, render s modulePath = .ok rendered ∧
        readRegistration? rendered.registration = some (path, body) ∧
        ((body.filterMap Statement.page?).filter fun c => c.pattern = p.file.pattern) = [call] ∧
        (Plan.ofScan s).Emits call.function p ∧
        List.Forall₂ (fun l name => (l, name) ∈ (Plan.ofScan s).layouts) (s.layoutsFor p.file)
          call.layouts ∧
        ∀ l name, (l, name) ∈ (Plan.ofScan s).layouts →
          (Plan.ofScan s).Emits name l ∧
            (name ∈ call.layouts ↔ l.file.directories <+: p.file.directories) := by
  have once := layouts_directories_nodup there tree scanned
  have nested := layoutsFor_eq_declaredAbove there tree scanned page
  refine ⟨nested, ?_, once, ?_⟩
  · rw [nested]
    exact declaredAbove_sorted once
  intro modulePath valid
  obtain ⟨name, loader, planned, call, alone, rfl, layouts⟩ :=
    filter_pageCalls there tree scanned (s.root.fileName?.map Name.display) page
  refine ⟨_, _, _, call, render_eq_ok s valid, readRegistration?_registrationText s _ valid, alone,
    emits_of_mem_blocks (mem_blocks_of_page planned), ?_, ?_⟩
  · rw [layouts]
    exact forall₂_layoutNames there tree scanned page
  · intro l name own
    refine ⟨emits_of_mem_blocks (mem_blocks_of_layout own), ?_⟩
    rw [layouts]
    exact mem_layoutNames_iff there tree scanned page own

end

/-- The directories on the way to a file that hold one of some files. -/
theorem map_directories_declaredAbove (files : List FunctionFile) (route : MarkerFile) :
    (declaredAbove files route).map (fun f => f.file.directories) =
      route.directories.inits.flatMap fun d =>
        (files.map fun f => f.file.directories).filter fun e => e = d := by
  rw [declaredAbove, List.map_flatMap]
  congr 1
  funext d
  rw [List.filter_map]
  rfl

/-- Two groups with a layout each beside one for both, all with one pattern, and a page in one
group. -/
def siblingGroups : Node :=
  .directory [
    (Name.ofString "(blog)", .directory [(Name.ofString "layout.rs", layoutFile)]),
    (Name.ofString "(shop)", .directory [
      (Name.ofString "layout.rs", layoutFile), (Name.ofString "page.rs", pageFile)]),
    (Name.ofString "layout.rs", layoutFile)]

theorem named_siblingGroups : siblingGroups.Named IsTextName := by
  have text : ∀ s ∈ ["(blog)", "(shop)", "layout.rs", "page.rs"], IsTextName (Name.ofString s) := by
    intro s hs
    refine isTextName_ofString ?_ ?_
    all_goals
      revert s
      decide
  have leaves : layoutFile.Named IsTextName ∧ pageFile.Named IsTextName := ⟨.file _, .file _⟩
  have blog : (Node.directory [(Name.ofString "layout.rs", layoutFile)]).Named IsTextName := by
    refine .directory _ (by simp) ?_ ?_
    · simpa using text "layout.rs" (by simp)
    · simpa using leaves.1
  have shop : (Node.directory [(Name.ofString "layout.rs", layoutFile),
      (Name.ofString "page.rs", pageFile)]).Named IsTextName := by
    refine .directory _ (by simp [Name.ofString_inj]) ?_ ?_
    · simpa using ⟨text "layout.rs" (by simp), text "page.rs" (by simp)⟩
    · simpa using leaves
  refine .directory _ (by simp [Name.ofString_inj]) ?_ ?_
  · simpa using ⟨text "(blog)" (by simp), text "(shop)" (by simp), text "layout.rs" (by simp)⟩
  · simpa using ⟨blog, shop, leaves.1⟩

theorem visits_siblingGroups : visits siblingGroups =
    [.marker .layout [Name.ofString "(blog)"] (Name.ofString "layout.rs") layoutFile,
      .marker .layout [Name.ofString "(shop)"] (Name.ofString "layout.rs") layoutFile,
      .marker .page [Name.ofString "(shop)"] (Name.ofString "page.rs") pageFile,
      .marker .layout [] (Name.ofString "layout.rs") layoutFile] := by
  have kinds : Marker.ofFileName? (Name.ofString "layout.rs").display = some .layout ∧
      Marker.ofFileName? (Name.ofString "page.rs").display = some .page := by
    simp only [Name.display_ofString]
    decide
  have entered : ∀ s ∈ ["(blog)", "(shop)"], Segment.isPrivate (Name.ofString s).display = false ∧
      (Segment.classify (Name.ofString s).display).isUnroutable = false := by
    simp only [Name.display_ofString]
    decide
  have inner : nameLe (Name.ofString "layout.rs") (Name.ofString "page.rs") = true := by
    simp only [Name.ofString_eq_encode]
    decide
  have outer : nameLe (Name.ofString "(blog)") (Name.ofString "(shop)") = true ∧
      nameLe (Name.ofString "(blog)") (Name.ofString "layout.rs") = true ∧
      nameLe (Name.ofString "(shop)") (Name.ofString "layout.rs") = true := by
    simp only [Name.ofString_eq_encode]
    decide
  have blog (here : List Name) :
      visitsOf here (.directory [(Name.ofString "layout.rs", layoutFile)]) =
      [.marker .layout here (Name.ofString "layout.rs") layoutFile] := by
    rw [visitsOf, inNameOrder_of_sorted (by simp [entryVisits])]
    simp [entryVisits, layoutFile, Node.isDirectory, kinds]
  have shop (here : List Name) : visitsOf here (.directory [
      (Name.ofString "layout.rs", layoutFile), (Name.ofString "page.rs", pageFile)]) =
      [.marker .layout here (Name.ofString "layout.rs") layoutFile,
        .marker .page here (Name.ofString "page.rs") pageFile] := by
    rw [visitsOf, inNameOrder_of_sorted (by simpa [entryVisits] using inner)]
    simp [entryVisits, layoutFile, pageFile, Node.isDirectory, kinds]
  rw [visits, siblingGroups, visitsOf,
    inNameOrder_of_sorted (by simpa [entryVisits, and_assoc] using outer)]
  simp only [entryVisits, Node.isDirectory, Node.isLockedDirectory, entered "(blog)" (by simp),
    entered "(shop)" (by simp), blog, shop]
  simp [layoutFile, kinds]

/-- The scan accepts all three layouts, with one pattern, and the page. -/
theorem scan_siblingGroups : ∃ s p, scan ⟨siblingGroups, []⟩ (.ofString ".") = .ok s ∧
    s.pages = [p] ∧
    p.file.directories = [Name.ofString "(shop)"] ∧
    s.layouts.map (fun l => l.file.directories) =
      [[Name.ofString "(blog)"], [Name.ofString "(shop)"], []] ∧
    s.layouts.map (fun l => l.file.pattern) = ["/", "/", "/"] := by
  have found : ((scan ⟨siblingGroups, []⟩ (.ofString ".")).toOption.map fun s =>
      (s.pages.map fun p => p.file.directories, s.layouts.map fun l => l.file.directories,
        s.layouts.map fun l => l.file.pattern)) =
      some ([[Name.ofString "(shop)"]], [[Name.ofString "(blog)"], [Name.ofString "(shop)"], []],
        ["/", "/", "/"]) := by
    rw [scan_current siblingGroups rfl, scanNode, visits_siblingGroups]
    decide +kernel
  obtain ⟨s, scanned, seen⟩ := exists_of_seen found
  obtain ⟨page, layouts⟩ := Prod.mk.inj seen
  obtain ⟨p, one, directories⟩ := List.map_eq_singleton_iff.1 page
  exact ⟨s, p, scanned, one, directories, Prod.mk.inj layouts⟩

/-- The page stands in the layout of its group and in the one for both, and not in that of the other
group. -/
theorem layouts_nest_siblings : ∃ s p rendered path body call,
    scan ⟨siblingGroups, []⟩ (.ofString ".") = .ok s ∧ s.pages = [p] ∧
    s.layouts.map (fun l => l.file.pattern) = ["/", "/", "/"] ∧
    (s.layoutsFor p.file).map (fun l => l.file.directories) = [[], [Name.ofString "(shop)"]] ∧
    render s "crate::generated" = .ok rendered ∧
    readRegistration? rendered.registration = some (path, body) ∧
    call ∈ body.filterMap Statement.page? ∧ call.layouts.length = 2 ∧
    ∀ l name, (l, name) ∈ (Plan.ofScan s).layouts → l.file.directories = [Name.ofString "(blog)"] →
      name ∉ call.layouts := by
  obtain ⟨s, p, scanned, one, here, directories, patterns⟩ := scan_siblingGroups
  have page : p ∈ s.pages := by simp [one]
  obtain ⟨nested, -, -, registered⟩ :=
    layouts_nest (resolve_current _) named_siblingGroups scanned page
  obtain ⟨rendered, path, body, call, written, reads, alone, -, called, others⟩ :=
    registered "crate::generated" validate_generated
  have around : (s.layoutsFor p.file).map (fun l => l.file.directories) =
      [[], [Name.ofString "(shop)"]] := by
    rw [nested, map_directories_declaredAbove, directories, here]
    decide +kernel
  have added : call ∈ body.filterMap Statement.page? := by
    apply List.mem_of_mem_filter
    rw [alone]
    exact List.mem_singleton_self call
  refine ⟨s, p, rendered, path, body, call, scanned, one, patterns, around, written, reads,
    added, ?_, ?_⟩
  · rw [← called.length_eq]
    simpa using congrArg List.length around
  · intro l name own blog
    rw [(others l name own).2, blog, here]
    decide +kernel

end Waymark.Generate
