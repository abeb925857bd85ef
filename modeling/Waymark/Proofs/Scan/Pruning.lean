import Waymark.Proofs.Routing.Pattern
import Waymark.Proofs.Scan.Accounting
import Waymark.Proofs.Scan.Address
import Waymark.Proofs.Scan.Undisturbed

/-!
# Directories that are left out

Private directories and those that are named as a wildcard are left out of a walk with all below
them:

* `IsPruned`, `SameOutside`: such directories, and trees that differ only in what lies below them;
* `scan_eq_of_sameOutside`: these are scanned alike, unless a link leads into what differs;
* `Confined`: nothing that a scan tells lies in such a directory;
* `pruned_unseen`: both for every scan;
* `linked_into_private`: a link into a private directory is read through.
-/

namespace Waymark.Scan

open Waymark.Disk (Volume Path Name Node Standing)
open Waymark.Routing (Segment)

/-- A directory of this name is left out, with all below it. -/
def IsPruned (n : Name) : Prop := Segment.isPrivate n.display = true ∨ n.display = "*"

theorem isUnroutable_classify_iff (raw : String) :
    (Segment.classify raw).isUnroutable = true ↔ raw = "*" := by
  have star : (Segment.classify "*").kind = .static := by decide
  rw [Segment.isUnroutable, Segment.classify_raw, Bool.and_eq_true, decide_eq_true_eq,
    decide_eq_true_eq]
  refine ⟨And.right, ?_⟩
  rintro rfl
  exact ⟨star, rfl⟩

/-- A walk enters the directories that are not left out. -/
theorem admitted_iff {n : Name} : Admitted n ↔ ¬ IsPruned n := by
  rw [Admitted, IsPruned, not_or, Bool.not_eq_true, ← isUnroutable_classify_iff, Bool.not_eq_true]

/-! ## Trees that differ only in what is left out -/

/-- What stands somewhere stands in both trees, unless it lies below a directory that is left
out. -/
def SameOutside (app app' : Node) : Prop :=
  ∀ names, (∀ m ∈ names.dropLast, ¬ IsPruned m) → app'.standing? names = app.standing? names

/-- The links that are read in a tree lead to the same text on two disks. -/
def LinksAlike (disk disk' : Volume) (root : Path) (app : Node) : Prop :=
  ∀ kind directories fileName target, (∀ m ∈ directories, ¬ IsPruned m) →
    app.at? (directories ++ [fileName]) = some (.link target) →
    Marker.ofFileName? fileName.display = some kind → (kind = .proxy → directories = []) →
    disk'.readText (pathOf root directories fileName) =
      disk.readText (pathOf root directories fileName)

section
variable {disk disk' : Volume} {root : Path} {app app' : Node} {P : Name → Prop}

/-- A walk through both trees meets the same. -/
theorem visits_eq_of_sameOutside (tree : app.Named P) (tree' : app'.Named P)
    (same : SameOutside app app') :
    visits app' = visits app := by
  refine (visits_eq tree tree' fun names n s admitted _ => ?_).symm
  have outside : ∀ m ∈ (names ++ [n]).dropLast, ¬ IsPruned m := by
    rw [List.dropLast_concat]
    exact fun m hm => admitted_iff.1 (admitted m hm)
  rw [same _ outside]

/-- What a walk meets reads alike where its links do. -/
theorem readsAlike_of_linksAlike (tree : app.Named P) (links : LinksAlike disk disk' root app) :
    ∀ v ∈ visits app, v.ReadsAlike disk disk' root := by
  intro v met
  cases v with
  | unroutable | unreadable => trivial
  | marker kind directories fileName node =>
    intro asked
    obtain ⟨admitted, reached, leaf, marks⟩ :=
      (mem_visits_iff tree kind directories fileName node).1 met
    cases node with
    | file | lockedFile => rfl
    | directory | lockedDirectory => cases leaf
    | link target =>
      exact links kind directories fileName target (fun m hm =>
        admitted_iff.1 (admitted m hm)) reached marks asked

/-- Trees that differ only in what is left out are scanned alike. -/
theorem scan_eq_of_sameOutside (there : disk.resolve root = .ok app)
    (there' : disk'.resolve root = .ok app')
    (tree : app.Named P) (tree' : app'.Named P) (same : SameOutside app app')
    (links : LinksAlike disk disk' root app) : scan disk' root = scan disk root := by
  have top : app'.standing = app.standing := Option.some.inj (same [] (by simp))
  have met := visits_eq_of_sameOutside tree tree' same
  rw [scan, scan, there, there']
  cases app with
  | directory entries =>
    cases app' with
    | directory entries' =>
      show scanNode disk' root _ = scanNode disk root _
      rw [scanNode, scanNode, met, foldlM_of_readsAlike (readsAlike_of_linksAlike tree links)]
    | file | link | lockedFile | lockedDirectory => cases top
  | lockedDirectory =>
    cases app' with
    | lockedDirectory => rfl
    | file | directory | link | lockedFile => cases top
  | file | link | lockedFile => cases app' <;> first | rfl | cases top

end

/-! ## What a scan tells -/

/-- A path leads to a file or a link of the application directory, and through no directory that is
left out, by whatever names it is read. -/
structure Clear (root : Path) (app : Node) (path : Path) : Prop where
  stands : ∃ names node, app.at? names = some node ∧ node.isDirectory = false ∧
    names.foldl Path.joinName root = path
  through : ∀ names, names ≠ [] → (∀ n ∈ names, IsFileName n) →
      names.foldl Path.joinName root = path →
    ∀ m ∈ names.dropLast, ¬ IsPruned m

/-- A directory that is named as a wildcard is reached through directories that are not left out. -/
def ReachesStar (app : Node) (names : List Name) : Prop :=
  ∃ front n, names = front ++ [n] ∧ (∀ m ∈ front, ¬ IsPruned m) ∧ n.display = "*" ∧
    (app.standing? names = some .directory ∨ app.standing? names = some .lockedDirectory)

/-- A directory that cannot be read is reached through directories that are not left out, and is not
left out itself. -/
def ReachesLocked (app : Node) (names : List Name) : Prop :=
  names ≠ [] ∧ (∀ m ∈ names, ¬ IsPruned m) ∧ app.standing? names = some .lockedDirectory

/-- The problem is that a directory is named as a wildcard. -/
def Problem.isUnroutable : Problem → Bool
  | .unroutable => true
  | _ => false

/-- The problem is that a directory cannot be read. -/
def Problem.isUnreadable : Problem → Bool
  | .cannotEnter _ _ => true
  | _ => false

/-- The warning about a directory that cannot be read. -/
def lockedWarning (root : Path) (names : List Name) : Warning :=
  ⟨names.foldl Path.joinName root, none,
    .cannotEnter (names.foldl Path.joinName root) .permissionDenied⟩

/-- The files that a scan has taken something from. -/
def AppScan.files (s : AppScan) : List MarkerFile :=
  s.routes.map RouteFile.file ++
    (s.middlewares ++ s.pages ++ s.layouts ++ s.loaders ++ s.proxy.toList).map FunctionFile.file

/-- All that a scan tells is about files outside of directories that are left out, except for one
warning about each directory that is named as a wildcard and reached, and those about directories
outside that cannot be read. -/
structure Confined (root : Path) (app : Node) (s : AppScan) : Prop where
  files : ∀ f ∈ s.files, Clear root app f.path
  conflicts : ∀ c ∈ s.conflicts, Clear root app c.first ∧ Clear root app c.second
  warnings : ∀ w ∈ s.warnings, w.problem.isUnroutable = false → w.problem.isUnreadable = false →
    Clear root app w.path
  locked : ∀ w, (w ∈ s.warnings ∧ w.problem.isUnreadable = true) ↔
    ∃ names, ReachesLocked app names ∧ w = lockedWarning root names
  stars : ∃ stars : List (List Name), stars.Nodup ∧
      (∀ names, names ∈ stars ↔ ReachesStar app names) ∧
    s.warnings.filter (fun w => w.problem.isUnroutable) =
      stars.map fun names => ⟨names.foldl Path.joinName root, none, .unroutable⟩

section
variable {disk : Volume} {root : Path} {app : Node} {s : AppScan}

theorem clear_of_mem_visits (tree : app.Named IsFileName) {kind : Marker} {directories : List Name}
    {fileName : Name} {node : Node} (met : .marker kind directories fileName node ∈ visits app) :
    Clear root app (pathOf root directories fileName) := by
  obtain ⟨admitted, reached, leaf, -⟩ := (mem_visits_iff tree kind directories fileName node).1 met
  refine ⟨⟨_, node, reached, leaf, rfl⟩, fun names some' each same m hm => ?_⟩
  have unique : names = directories ++ [fileName] :=
    foldl_joinName_inj each (named_of_at? tree reached) some' (by simp) same
  rw [unique, List.dropLast_concat] at hm
  exact admitted_iff.1 (admitted m hm)

theorem clear_of_mem_openedIn (tree : app.Named IsFileName) {o : Opened}
    (read : o ∈ openedIn disk root app) :
    Clear root app o.file.path := by
  obtain ⟨v, met, opened⟩ := List.mem_filterMap.1 read
  obtain ⟨node, rfl⟩ := opened?_eq_some opened
  rw [path_of_mem_openedIn read]
  exact clear_of_mem_visits tree met

theorem clear_of_mem_givenBy (tree : app.Named IsFileName) {asked : Marker} {g : FunctionFile}
    (given : g ∈ givenBy asked (openedIn disk root app)) : Clear root app g.file.path := by
  obtain ⟨o, read, gives⟩ := List.mem_flatMap.1 given
  rw [(file_of_mem_gives gives).2]
  exact clear_of_mem_openedIn tree read

theorem clear_of_mem_offeredIn (tree : app.Named IsFileName) {e : Entry}
    (offered : e ∈ offeredIn disk root app) :
    Clear root app e.file.path := by
  obtain ⟨o, read, offers⟩ := List.mem_flatMap.1 offered
  rw [file_of_mem_offers offers]
  exact clear_of_mem_openedIn tree read

/-- The files of handlers of a scan are among those that it reads. -/
theorem exists_of_mem_routes (there : disk.resolve root = .ok app)
    (scanned : scan disk root = .ok s)
    {r : RouteFile} (mem : r ∈ s.routes) : ∃ o ∈ openedIn disk root app, r.file = o.file := by
  obtain ⟨t, ran, rfl⟩ := exists_walk_of_scan there scanned
  obtain before | found := routes_of_foldlM ran mem
  · cases before
  · exact found

theorem clear_of_mem_files (there : disk.resolve root = .ok app) (tree : app.Named IsFileName)
    (scanned : scan disk root = .ok s) {f : MarkerFile} (mem : f ∈ s.files) :
    Clear root app f.path := by
  have adds := scan_adds there scanned
  obtain route | function := List.mem_append.1 mem
  · obtain ⟨r, among, rfl⟩ := List.mem_map.1 route
    obtain ⟨o, read, same⟩ := exists_of_mem_routes there scanned among
    rw [same]
    exact clear_of_mem_openedIn tree read
  · obtain ⟨g, among, rfl⟩ := List.mem_map.1 function
    simp only [List.mem_append, or_assoc] at among
    obtain middleware | page | layout | loader | proxy := among
    · rw [adds.middlewares] at middleware
      exact clear_of_mem_givenBy tree middleware
    · have found : Entry.page g ∈ s.found := by
        rw [found_eq]
        exact List.mem_append_right _ (List.mem_map_of_mem page)
      exact clear_of_mem_offeredIn tree (firsts_subset _ ((mem_found_iff there scanned _).1 found))
    · rw [adds.layouts] at layout
      exact clear_of_mem_givenBy tree layout
    · rw [adds.loaders] at loader
      exact clear_of_mem_givenBy tree loader
    · exact clear_of_mem_givenBy tree (proxy_mem there scanned (Option.mem_toList.1 proxy))

theorem clear_of_mem_conflicts (there : disk.resolve root = .ok app) (tree : app.Named IsFileName)
    (scanned : scan disk root = .ok s) {c : Conflict} (mem : c ∈ s.conflicts) :
    Clear root app c.first ∧ Clear root app c.second := by
  rw [(scan_holds there scanned).conflicts] at mem
  obtain ⟨holder, first, e, later, rfl⟩ := mem_of_mem_clashes mem
  exact ⟨clear_of_mem_offeredIn tree first, clear_of_mem_offeredIn tree later⟩

/-- A warning about a marker file names the file, and is none about a directory. -/
theorem path_of_mem_complaintsOf {kind : Marker} {directories : List Name} {fileName : Name}
    {node : Node}
    {w : Warning} (h : w ∈ complaintsOf disk root (.marker kind directories fileName node)) :
    w.path = pathOf root directories fileName ∧ w.problem.isUnroutable = false ∧
      w.problem.isUnreadable = false := by
  unfold complaintsOf at h
  dsimp only at h
  rw [← pathOf] at h
  split at h
  · obtain rfl := List.mem_singleton.1 h
    exact ⟨rfl, rfl, rfl⟩
  · split at h
    · obtain rfl := List.mem_singleton.1 h
      exact ⟨rfl, rfl, rfl⟩
    · split at h
      · obtain rfl := List.mem_singleton.1 h
        exact ⟨rfl, rfl, rfl⟩
      · obtain ⟨path, problem⟩ := Opened.isOf_of_mem_complaints h
        refine ⟨path, ?_⟩
        cases kind : w.problem with
        | unroutable | cannotEnter =>
          rw [kind] at problem
          cases problem
        | _ => exact ⟨rfl, rfl⟩

theorem clear_of_mem_warnings (there : disk.resolve root = .ok app) (tree : app.Named IsFileName)
    (scanned : scan disk root = .ok s) {w : Warning} (mem : w ∈ s.warnings)
    (other : w.problem.isUnroutable = false) (readable : w.problem.isUnreadable = false) :
    Clear root app w.path := by
  rw [scan_warnings there scanned, List.mem_append] at mem
  obtain walked | orphan := mem
  · obtain ⟨v, met, told⟩ := List.mem_flatMap.1 walked
    cases v with
    | unroutable directories =>
      obtain rfl := List.mem_singleton.1 told
      cases other
    | unreadable directories =>
      obtain rfl := List.mem_singleton.1 told
      cases readable
    | marker kind directories fileName node =>
      rw [(path_of_mem_complaintsOf told).1]
      exact clear_of_mem_visits tree met
  · obtain ⟨l, among, rfl⟩ := List.mem_map.1 orphan
    have loader := (List.mem_filter.1 among).1
    rw [(scan_adds there scanned).loaders] at loader
    exact clear_of_mem_givenBy tree loader

/-! ## Directories that are named as a wildcard -/

/-- The names of a directory that is met because it is named as a wildcard. -/
def Visit.star? : Visit → Option (List Name)
  | .unroutable directories => some directories
  | .unreadable _ | .marker _ _ _ _ => none

/-- The warnings about directories are those about the ones that are met. -/
theorem filter_complaintsOf (vs : List Visit) :
    (vs.flatMap (complaintsOf disk root)).filter (fun w => w.problem.isUnroutable) =
      (vs.filterMap Visit.star?).map fun names =>
      ⟨names.foldl Path.joinName root, none, .unroutable⟩ := by
  induction vs with
  | nil => rfl
  | cons v rest ih =>
    rw [List.flatMap_cons, List.filter_append, ih]
    cases v with
    | unroutable | unreadable => rfl
    | marker kind directories fileName node =>
      have silent : (complaintsOf disk root (.marker kind directories fileName node)).filter
          (fun w => w.problem.isUnroutable) = [] := by
        rw [List.filter_eq_nil_iff]
        intro w told
        rw [(path_of_mem_complaintsOf told).2.1]
        exact Bool.false_ne_true
      rw [silent]
      rfl

/-- The directories that are met because of their names are those that are reached. -/
theorem mem_stars_iff {P : Name → Prop} (tree : app.Named P) {names : List Name} :
    names ∈ (visits app).filterMap Visit.star? ↔ ReachesStar app names := by
  have met : names ∈ (visits app).filterMap Visit.star? ↔ .unroutable names ∈ visits app := by
    rw [List.mem_filterMap]
    constructor
    · rintro ⟨v, among, star⟩
      cases v with
      | unroutable directories =>
        cases star
        exact among
      | unreadable | marker => cases star
    · exact fun among => ⟨_, among, rfl⟩
  rw [met, visits, mem_visitsOf_iff tree, ReachesStar]
  constructor
  · rintro ⟨front, n, found, admitted, reached, itself⟩
    obtain ⟨directory, -, unroutable, rfl⟩ := metAt_eq_unroutable_iff.1 itself
    have star := (isUnroutable_classify_iff _).1 unroutable
    refine ⟨front, n, rfl, fun m hm => admitted_iff.1 (admitted m hm), star, ?_⟩
    rw [List.nil_append, Node.standing?, reached, Option.map_some]
    cases found with
    | directory entries => exact .inl rfl
    | lockedDirectory => exact .inr rfl
    | file | link | lockedFile => cases directory
  · rintro ⟨front, n, rfl, outside, star, stands⟩
    obtain ⟨found, reached, directory⟩ : ∃ found, app.at? (front ++ [n]) = some found ∧
        found.isDirectory = true := by
      obtain listed | locked := stands
      · obtain ⟨entries, reached⟩ := Node.standing?_eq_directory_iff.1 listed
        exact ⟨_, reached, rfl⟩
      · exact ⟨_, Node.standing?_eq_lockedDirectory_iff.1 locked, rfl⟩
    have shown : Segment.isPrivate n.display = false := by
      rw [star]
      decide
    refine ⟨front, n, _, fun m hm => admitted_iff.2 (outside m hm), reached, ?_⟩
    exact metAt_eq_unroutable_iff.2 ⟨directory, shown, (isUnroutable_classify_iff _).2 star, rfl⟩

theorem stars_nodup {P : Name → Prop} (tree : app.Named P) :
    ((visits app).filterMap Visit.star?).Nodup := by
  rw [List.nodup_iff_pairwise_ne, List.pairwise_filterMap]
  refine (visits_sorted tree).imp ?_
  intro v w before names hv others hw same
  cases v with
  | unreadable | marker => cases hv
  | unroutable directories =>
    cases w with
    | unreadable | marker => cases hw
    | unroutable directories' =>
      cases hv
      cases hw
      rw [same] at before
      have self : compare others others = .eq := Std.ReflCmp.compare_self
      rw [Visit.address, self] at before
      cases before

theorem filter_warnings (there : disk.resolve root = .ok app) (scanned : scan disk root = .ok s) :
    s.warnings.filter (fun w => w.problem.isUnroutable) =
      ((visits app).filterMap Visit.star?).map fun names =>
      ⟨names.foldl Path.joinName root, none, .unroutable⟩ := by
  have orphans : (s.orphans.map fun l => Warning.mk l.file.path none .orphanLoader).filter
      (fun w => w.problem.isUnroutable) = [] := by
    rw [List.filter_eq_nil_iff]
    intro w told
    obtain ⟨l, -, rfl⟩ := List.mem_map.1 told
    exact Bool.false_ne_true
  rw [scan_warnings there scanned, List.filter_append, orphans, List.append_nil,
    filter_complaintsOf]

/-- The directories that are met because they cannot be read are those that are reached. -/
theorem unreadable_mem_visits_iff {P : Name → Prop} (tree : app.Named P) {names : List Name} :
    .unreadable names ∈ visits app ↔ ReachesLocked app names := by
  rw [visits, mem_visitsOf_iff tree, ReachesLocked]
  constructor
  · rintro ⟨front, n, found, admitted, reached, itself⟩
    obtain ⟨rfl, entered, rfl⟩ := metAt_eq_unreadable_iff.1 itself
    refine ⟨by simp, ?_, ?_⟩
    · intro m hm
      obtain before | last := List.mem_append.1 hm
      · exact admitted_iff.1 (admitted m before)
      · exact List.mem_singleton.1 last ▸ admitted_iff.1 entered
    · rw [List.nil_append, Node.standing?, reached]
      rfl
  · rintro ⟨nonempty, outside, stands⟩
    obtain ⟨front, n, rfl⟩ : ∃ front n, names = front ++ [n] :=
      ⟨_, _, (List.dropLast_append_getLast nonempty).symm⟩
    have reached := Node.standing?_eq_lockedDirectory_iff.1 stands
    refine ⟨front, n, _, fun m hm => admitted_iff.2 (outside m (List.mem_append_left _ hm)),
      reached, ?_⟩
    exact metAt_eq_unreadable_iff.2 ⟨rfl, admitted_iff.2 (outside n (by simp)), rfl⟩

/-- A scan warns of the directories that it reaches and cannot read. -/
theorem locked_warned_iff (there : disk.resolve root = .ok app) (tree : app.Named IsFileName)
    (scanned : scan disk root = .ok s) (w : Warning) :
    (w ∈ s.warnings ∧ w.problem.isUnreadable = true) ↔
      ∃ names, ReachesLocked app names ∧ w = lockedWarning root names := by
  rw [scan_warnings there scanned, List.mem_append]
  constructor
  · rintro ⟨walked | orphan, unreadable⟩
    · obtain ⟨v, met, told⟩ := List.mem_flatMap.1 walked
      cases v with
      | unroutable directories =>
        obtain rfl := List.mem_singleton.1 told
        cases unreadable
      | unreadable directories =>
        exact ⟨directories, (unreadable_mem_visits_iff tree).1 met, List.mem_singleton.1 told⟩
      | marker kind directories fileName node =>
        cases (path_of_mem_complaintsOf told).2.2.symm.trans unreadable
    · obtain ⟨l, -, rfl⟩ := List.mem_map.1 orphan
      cases unreadable
  · rintro ⟨names, reached, rfl⟩
    have met := (unreadable_mem_visits_iff tree).2 reached
    exact ⟨.inl (List.mem_flatMap.2 ⟨_, met, List.mem_singleton_self _⟩), rfl⟩

/-- Nothing that a scan tells lies in a directory that is left out. -/
theorem confined_of_scan (there : disk.resolve root = .ok app) (tree : app.Named IsFileName)
    (scanned : scan disk root = .ok s) : Confined root app s where
  files _ := clear_of_mem_files there tree scanned
  conflicts _ := clear_of_mem_conflicts there tree scanned
  warnings _ := clear_of_mem_warnings there tree scanned
  locked := locked_warned_iff there tree scanned
  stars := ⟨_, stars_nodup tree, fun _ => mem_stars_iff tree, filter_warnings there scanned⟩

end

/-- What lies below private directories and those named as a wildcard has no bearing on a scan:
trees that differ only there are scanned alike, if the links that are read lead to the same, and
nothing that is told of a tree lies there. -/
theorem pruned_unseen {disk disk' : Volume} {root : Path} {app app' : Node}
    (there : disk.resolve root = .ok app) (there' : disk'.resolve root = .ok app')
    (tree : app.Named IsFileName) (tree' : app'.Named IsFileName) (same : SameOutside app app')
    (links : LinksAlike disk disk' root app) :
    scan disk' root = scan disk root ∧ ∀ s, scan disk root = .ok s → Confined root app s :=
  ⟨scan_eq_of_sameOutside there there' tree tree' same links, fun _ => confined_of_scan there tree⟩

/-- What a directory that is left out holds makes no difference outside. -/
theorem sameOutside_held {n : Name} (pruned : IsPruned n)
    (held held' entries : List (Name × Node)) :
    SameOutside (.directory ((n, .directory held) :: entries))
      (.directory ((n, .directory held') :: entries)) := by
  intro names outside
  cases names with
  | nil => rfl
  | cons m rest =>
    rw [Node.standing?_cons, Node.standing?_cons, Node.find, Node.find]
    by_cases here : n = m
    · rw [if_pos here, if_pos here]
      cases rest with
      | nil => rfl
      | cons k rest => exact absurd (here ▸ pruned) (outside m (by simp))
    · rw [if_neg here, if_neg here]

/-- An application directory with a handler, and a directory that is named as a wildcard. -/
def starredWith (held : List (Name × Node)) : Node :=
  .directory [(Name.ofString "*", .directory held), (Name.ofString "route.rs", handlerFile)]

theorem named_starredWith {held : List (Name × Node)}
    (inner : (Node.directory held).Named IsFileName) :
    (starredWith held).Named IsFileName := by
  have star : IsFileName (Name.ofString "*") := isFileName_ofString (by decide) (by decide)
  have route : IsFileName (Name.ofString "route.rs") := isFileName_ofString (by decide) (by decide)
  refine .directory _ (by simp [Name.ofString_inj]) ?_ ?_
  · simpa using ⟨star, route⟩
  · simpa using ⟨inner, Node.Named.file _⟩

/-- A handler below a directory that is named as a wildcard is not found, and there is one
warning. -/
theorem scan_starred : (scan ⟨starredWith [], []⟩ (.ofString ".")).toOption.map
    (fun s => (s.handlerCount, s.warnings.length)) = some (1, 1) := by
  have star : Segment.isPrivate (Name.ofString "*").display = false ∧
      (Segment.classify (Name.ofString "*").display).isUnroutable = true := by
    simp only [Name.display_ofString]
    decide
  have route : Marker.ofFileName? (Name.ofString "route.rs").display = some .route := by
    simp only [Name.display_ofString]
    decide
  have order : nameLe (Name.ofString "*") (Name.ofString "route.rs") = true := by
    simp only [Name.ofString_eq_encode]
    decide
  have met : visits (starredWith []) = [.unroutable [Name.ofString "*"],
      .marker .route [] (Name.ofString "route.rs") handlerFile] := by
    rw [visits, starredWith, visitsOf, inNameOrder_of_sorted (by simpa [entryVisits] using order)]
    simp [entryVisits, handlerFile, Node.isDirectory, star, route]
  rw [scan_current (starredWith []) rfl, scanNode, met]
  decide +kernel

theorem pruned_unseen_starred : ∃ s, scan ⟨starredWith [], []⟩ (.ofString ".") = .ok s ∧
    scan ⟨starredWith [(Name.ofString "route.rs", handlerFile)], []⟩ (.ofString ".") = .ok s ∧
    (s.handlerCount, s.warnings.length) = (1, 1) ∧ Confined (.ofString ".") (starredWith []) s := by
  have inner : (Node.directory [(Name.ofString "route.rs", handlerFile)]).Named IsFileName := by
    have route : IsFileName (Name.ofString "route.rs") :=
      isFileName_ofString (by decide) (by decide)
    have leaf : handlerFile.Named IsFileName := .file _
    exact .directory _ (by simp) (by simpa using route) (by simpa using leaf)
  have pruned : IsPruned (Name.ofString "*") := .inr (Name.display_ofString "*")
  have same := sameOutside_held pruned [] [(Name.ofString "route.rs", handlerFile)]
    [(Name.ofString "route.rs", handlerFile)]
  have links : LinksAlike ⟨starredWith [], []⟩
      ⟨starredWith [(Name.ofString "route.rs", handlerFile)], []⟩
      (.ofString ".") (starredWith []) := by
    intro kind directories fileName target _ reached
    exfalso
    have stands := Node.standing?_eq_link_iff.2 reached
    refine Node.linkless_directory (by simp [Name.ofString_inj]) ?_ _ target stands
    have leaf (names : List Name) (target : List UInt8) :
        handlerFile.standing? names ≠ some (.link target) := by
      rw [handlerFile, Node.standing?_file]
      split <;> simp
    have bare (names : List Name) (target : List UInt8) :
        (Node.directory []).standing? names ≠ some (.link target) :=
      Node.linkless_directory (by simp) (by simp) names target
    simpa using ⟨bare, leaf⟩
  obtain ⟨s, scanned, seen⟩ := exists_of_seen scan_starred
  obtain ⟨again, confined⟩ := pruned_unseen (resolve_current (starredWith []))
    (resolve_current (starredWith [(Name.ofString "route.rs", handlerFile)]))
    (named_starredWith (.directory [] (by simp) (by simp) (by simp)))
      (named_starredWith inner) same links
  exact ⟨s, scanned, again.trans scanned, seen, confined s scanned⟩

/-! ## Links into such directories -/

/-- An application directory with a link to a file in a private directory. -/
def linkedWith (content : ByteArray) : Node :=
  .directory [
    (Name.ofString "_lib", .directory [(Name.ofString "h.rs", .file content)]),
    (Name.ofString "route.rs", .link (Path.ofString "_lib/h.rs").bytes)]

theorem at?_linkedWith (content : ByteArray) :
    (linkedWith content).at?
    [Name.ofString "route.rs"] = some (.link (Path.ofString "_lib/h.rs").bytes) ∧
    (linkedWith content).at? [Name.ofString "_lib"] =
      some (.directory [(Name.ofString "h.rs", .file content)]) ∧
    (linkedWith content).at? [Name.ofString "_lib", Name.ofString "h.rs"] = some
    (.file content) := by
  have apart : Name.ofString "_lib" ≠ Name.ofString "route.rs" := by simp [Name.ofString_inj]
  simp [linkedWith, Node.at?, Node.child?, Node.find, apart]

theorem readText_linkedWith (content : ByteArray) :
    (Volume.mk (linkedWith content) []).readText
      (pathOf (.ofString ".") [] (Name.ofString "route.rs")) =
      Volume.textOf content := by
  obtain ⟨link, directory, file⟩ := at?_linkedWith content
  have path : pathOf (.ofString ".") [] (Name.ofString "route.rs") = .ofString "./route.rs" := by
    simp only [Path.ofString_eq_encode, Name.ofString_eq_encode]
    decide
  have steps : Disk.steps (Path.ofString "./route.rs").bytes =
      [Disk.selfName, Name.ofString "route.rs"] := by
    simp only [Path.ofString_eq_encode, Name.ofString_eq_encode]
    decide
  have further : Disk.steps (Path.ofString "_lib/h.rs").bytes =
      [Name.ofString "_lib", Name.ofString "h.rs"] := by
    simp only [Path.ofString_eq_encode, Name.ofString_eq_encode]
    decide
  have written : (Path.ofString "./route.rs").bytes ≠ [] := by
    simp only [Path.ofString_eq_encode]
    decide
  have relative : (Path.ofString "./route.rs").isAbsolute = false := by
    simp only [Path.ofString_eq_encode]
    decide
  have target : (Path.ofString "_lib/h.rs").bytes ≠ [] ∧
      (Path.ofString "_lib/h.rs").bytes.head? ≠ some Disk.separator := by
    simp only [Path.ofString_eq_encode]
    decide
  have down : ∀ n ∈ [Name.ofString "route.rs", Name.ofString "_lib", Name.ofString "h.rs"],
      n ≠ [] ∧ n ≠ Disk.selfName ∧ n ≠ Disk.upName ∧ ¬ Disk.longestName < n.length := by
    simp only [Name.ofString_eq_encode]
    decide
  simp only [List.forall_mem_cons] at down
  obtain ⟨route, lib, h, -⟩ := down
  have most : Disk.mostLinks = 39 + 1 := rfl
  rw [path, Volume.readText, Volume.read, Volume.resolve, Volume.place, if_neg written, steps,
    relative, most]
  simp [Volume.follow, route, lib, h, link, directory, file, further, target]
  rfl

/-- The directory is scanned as if the file itself stood where the link does. -/
theorem scan_linkedWith (content : ByteArray) :
    scan ⟨linkedWith content, []⟩ (.ofString ".") =
      scan ⟨.directory [(Name.ofString "route.rs", .file content)], []⟩ (.ofString ".") := by
  have shared : Segment.isPrivate (Name.ofString "_lib").display = true := by
    simp only [Name.display_ofString]
    decide
  have marks : Marker.ofFileName? (Name.ofString "route.rs").display = some .route := by
    simp only [Name.display_ofString]
    decide
  have order : nameLe (Name.ofString "_lib") (Name.ofString "route.rs") = true := by
    simp only [Name.ofString_eq_encode]
    decide
  have met : visits (linkedWith content) =
      [.marker .route [] (Name.ofString "route.rs") (.link (Path.ofString "_lib/h.rs").bytes)] := by
    rw [visits, linkedWith, visitsOf, inNameOrder_of_sorted (by simpa [entryVisits] using order)]
    simp [entryVisits, Node.isDirectory, shared, marks]
  have direct : visits (.directory [(Name.ofString "route.rs", .file content)]) =
      [.marker .route [] (Name.ofString "route.rs") (.file content)] := by
    rw [visits, visitsOf, inNameOrder_of_sorted (by simp [entryVisits])]
    simp [entryVisits, Node.isDirectory, marks]
  have added : addVisit ⟨linkedWith content, []⟩ (.empty (.ofString "."))
        (.marker .route [] (Name.ofString "route.rs") (.link (Path.ofString "_lib/h.rs").bytes)) =
      addVisit ⟨.directory [(Name.ofString "route.rs", .file content)], []⟩ (.empty (.ofString "."))
        (.marker .route [] (Name.ofString "route.rs") (.file content)) := by
    unfold addVisit
    dsimp only
    rw [contentOf, contentOf, ← readText_linkedWith content]
    rfl
  rw [scan_current (linkedWith content) rfl, scan_current _ rfl, scanNode, scanNode, met, direct,
    List.foldlM_cons, List.foldlM_cons, added]
  rfl

/-- The number of handlers that are found through the link. -/
def handlersThrough (content : ByteArray) : Option Nat :=
  (scan ⟨linkedWith content, []⟩ (.ofString ".")).toOption.map AppScan.handlerCount

theorem handlersThrough_eq :
    handlersThrough ByteArray.empty = some 0 ∧
      handlersThrough "pub fn get(ctx: &mut Context) -> Result<()> { Ok(()) }\n".toUTF8 =
        some 1 := by
  have marks : Marker.ofFileName? (Name.ofString "route.rs").display = some .route := by
    simp only [Name.display_ofString]
    decide
  have direct (content : ByteArray) :
      visits (.directory [(Name.ofString "route.rs", .file content)]) =
      [.marker .route [] (Name.ofString "route.rs") (.file content)] := by
    rw [visits, visitsOf, inNameOrder_of_sorted (by simp [entryVisits])]
    simp [entryVisits, Node.isDirectory, marks]
  rw [handlersThrough, handlersThrough, scan_linkedWith, scan_linkedWith, scan_current _ rfl,
    scan_current _ rfl, scanNode, scanNode, direct, direct]
  decide +kernel

theorem named_linkedWith (content : ByteArray) : (linkedWith content).Named IsFileName := by
  have name : ∀ s ∈ ["_lib", "route.rs", "h.rs"], IsFileName (Name.ofString s) := by
    intro s hs
    refine isFileName_ofString ?_ ?_
    all_goals
      revert s
      decide
  have inner : (Node.directory [(Name.ofString "h.rs", .file content)]).Named IsFileName :=
    .directory _ (by simp) (by simpa using name "h.rs" (by simp))
      (by simpa using Node.Named.file content)
  refine .directory _ (by simp [Name.ofString_inj]) ?_ ?_
  · simpa using ⟨name "_lib" (by simp), name "route.rs" (by simp)⟩
  · simpa using ⟨inner, Node.Named.link _⟩

/-- A link is read through, so that what a private directory holds can make a difference after
all. -/
theorem linked_into_private : ∃ (disk disk' : Volume) (root : Path) (app app' : Node),
    disk.resolve root = .ok app ∧ disk'.resolve root = .ok app' ∧ app.Named IsFileName ∧
      app'.Named IsFileName ∧ SameOutside app app' ∧ scan disk' root ≠ scan disk root := by
  have pruned : IsPruned (Name.ofString "_lib") := by
    rw [IsPruned, Name.display_ofString]
    exact .inl (by decide)
  refine ⟨⟨linkedWith ByteArray.empty, []⟩,
    ⟨linkedWith "pub fn get(ctx: &mut Context) -> Result<()> { Ok(()) }\n".toUTF8, []⟩,
    .ofString ".", _, _, resolve_current _, resolve_current _, named_linkedWith _,
      named_linkedWith _, sameOutside_held pruned _ _ _, ?_⟩
  intro same
  obtain ⟨none', one⟩ := handlersThrough_eq
  rw [handlersThrough, same, ← handlersThrough, none'] at one
  cases one

end Waymark.Scan
