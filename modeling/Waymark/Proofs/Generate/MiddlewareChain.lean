import Waymark.Generate.Plan
import Waymark.Proofs.Routing.Middleware
import Waymark.Proofs.Scan.Placement

/-!
# The middleware around a generated route

Middleware is emitted by pattern and scope, and the table collects it by the prefixes of a route's
pattern. Although many directories share one pattern, the two orders agree on the directories above
a route:

* `byScope_sorted`: emitted files ascend by pattern and then by scope;
* `depth_lt_of_fileLe`: of two files above a route, the one that is emitted first is the outer one;
* `collected_eq`: what the prefixes of a route collect, the directories on its way give;
* `middlewareChain_eq_directories`: the same of a scan's plan.
-/

namespace Waymark.Generate

open Waymark.Disk (Volume Path Name Node)
open Waymark.Handling (Middleware)
open Waymark.Routing
open Waymark.Scan

theorem compareText_eq : MountKey.compareText = (compare : String → String → Ordering) := rfl

/-- Files by pattern, then by scope. -/
def placeOrder : FunctionFile → FunctionFile → Ordering :=
  compareLex (compareOn fun f => f.file.pattern) (compareOn fun f => f.file.scope)

theorem fileLe_eq (a b : FunctionFile) : fileLe a b = (placeOrder a b).isLE := by
  rw [fileLe, placeOrder, compareLex, compareOn, compareOn, compareText_eq]

instance : Std.TransCmp placeOrder :=
  inferInstanceAs (Std.TransCmp
    (compareLex (compareOn fun f : FunctionFile => f.file.pattern) (compareOn fun f =>
      f.file.scope)))

theorem fileLe_trans (a b c : FunctionFile) (hab : fileLe a b) (hbc : fileLe b c) : fileLe a c := by
  rw [fileLe_eq] at hab hbc ⊢
  exact Std.TransCmp.isLE_trans hab hbc

theorem fileLe_total (a b : FunctionFile) : (fileLe a b || fileLe b a) = true := by
  have swap : placeOrder b a = (placeOrder a b).swap := Std.OrientedCmp.eq_swap
  rw [fileLe_eq, fileLe_eq, swap]
  cases placeOrder a b <;> rfl

theorem byScope_sorted (files : List FunctionFile) :
    (byScope files).Pairwise fun a b => fileLe a b = true :=
  List.pairwise_mergeSort fileLe_trans fileLe_total files

theorem byScope_perm (files : List FunctionFile) : (byScope files).Perm files :=
  List.mergeSort_perm files _

theorem map_fst_nameFiles (ending : String) (names : Names) (files : List FunctionFile) :
    (nameFiles ending names files).1.map Prod.fst = files := by
  induction files generalizing names with
  | nil => rfl
  | cons f rest ih => simp [nameFiles, ih]

theorem map_fst_middlewares (s : AppScan) :
    (Plan.ofScan s).middlewares.map Prod.fst = byScope s.middlewares :=
  map_fst_nameFiles _ _ _

theorem scope_lt {f g : MarkerFile} (hf : f.IsText) (above : g.directories <+: f.directories)
    (other : g.directories ≠ f.directories) : g.scope < f.scope := by
  obtain ⟨more, path⟩ := above
  have below : more ≠ [] := by
    rintro rfl
    exact other (by simpa using path)
  have raws : f.raws = g.raws ++ more.map Name.display := by
    rw [MarkerFile.raws, ← path, List.map_append, MarkerFile.raws]
  have components : ∀ p ∈ more.map Name.display, IsComponent p := fun p hp =>
    hf.raws p (by rw [raws]; exact List.mem_append_right _ hp)
  rw [f.scope_eq, g.scope_eq, raws]
  exact joinStrings_lt_append components (by simpa using below)

/-- Of two files above a route that have one pattern, the first to be emitted is the outer one. -/
theorem depth_lt_of_fileLe {f g : FunctionFile} {route : List Name} (hf : f.file.IsText)
    (le : fileLe f g) (pattern : f.file.pattern = g.file.pattern)
    (other : f.file.directories ≠ g.file.directories) (aboveF : f.file.directories <+: route)
    (aboveG : g.file.directories <+: route) :
    f.file.directories.length < g.file.directories.length := by
  by_contra deeper
  have above : g.file.directories <+: f.file.directories :=
    List.prefix_of_prefix_length_le aboveG aboveF (not_lt.1 deeper)
  have lt : g.file.scope < f.file.scope := scope_lt hf above (Ne.symm other)
  have gt : compare f.file.scope g.file.scope = .gt := compare_gt_iff_gt.2 lt
  simp [fileLe, compareText_eq, pattern, gt] at le

/-- Of two files above a route, the one with the shorter pattern is the outer one. -/
theorem depth_lt_of_parts_lt {f g : MarkerFile} {route : List Name}
    (shorter : (patternParts f.segments).length < (patternParts g.segments).length)
    (aboveF : f.directories <+: route) (aboveG : g.directories <+: route) :
    f.directories.length < g.directories.length := by
  by_contra deeper
  have above : g.directories <+: f.directories :=
    List.prefix_of_prefix_length_le aboveG aboveF (not_lt.1 deeper)
  have longer := (patternParts_mono_of_directories above).length_le
  omega

theorem pairwise_inits {α : Type} (l : List α) :
    l.inits.Pairwise fun a b => a.length < b.length := by
  induction l with
  | nil => exact List.pairwise_singleton _ _
  | cons x rest ih =>
    rw [List.inits_cons, List.pairwise_cons, List.pairwise_map]
    refine ⟨?_, ih.imp fun h => by simpa using h⟩
    intro a ha
    obtain ⟨b, _, rfl⟩ := List.mem_map.1 ha
    simp

/-- One file is declared further out than another. -/
def Outer (f g : FunctionFile) : Prop := f.file.directories.length < g.file.directories.length

/-- What the prefixes of a route collect from the emitted files. -/
def collected (files : List FunctionFile) (route : MarkerFile) : List FunctionFile :=
  (Table.prefixes route.pattern).flatMap fun p =>
    files.filter fun f => f.file.pattern = p && scopeContains f.file.scope route.scope

/-- What the directories on the way to a route declare, the outermost first. -/
def declaredAbove (files : List FunctionFile) (route : MarkerFile) : List FunctionFile :=
  route.directories.inits.flatMap fun d => files.filter fun f => f.file.directories = d

section
variable {files : List FunctionFile} {route : MarkerFile}

theorem mem_declaredAbove (f : FunctionFile) :
    f ∈ declaredAbove files route ↔ f ∈ files ∧ f.file.directories <+: route.directories := by
  simp [declaredAbove, and_comm]

theorem declaredAbove_sorted (once : (files.map fun f => f.file.directories).Nodup) :
    (declaredAbove files route).Pairwise Outer := by
  rw [declaredAbove, List.pairwise_flatMap]
  constructor
  · intro d _
    -- a directory declares one file at most, so that no two have to be compared
    rw [List.nodup_iff_pairwise_ne, List.pairwise_map] at once
    refine (once.filter _).imp_of_mem ?_
    intro f g hf hg other
    have sameF : f.file.directories = d := by simpa using (List.mem_filter.1 hf).2
    have sameG : g.file.directories = d := by simpa using (List.mem_filter.1 hg).2
    exact absurd (sameF.trans sameG.symm) other
  · refine (pairwise_inits _).imp ?_
    intro d e shorter f hf g hg
    have sameF : f.file.directories = d := by simpa using (List.mem_filter.1 hf).2
    have sameG : g.file.directories = e := by simpa using (List.mem_filter.1 hg).2
    rw [Outer, sameF, sameG]
    exact shorter

theorem collected_eq_flatMap (textR : route.IsText) :
    collected files route = (patternParts route.segments).inits.flatMap fun parts =>
      files.filter fun f =>
        f.file.pattern = slashed parts && scopeContains f.file.scope route.scope := by
  rw [collected, route.pattern_eq, prefixes_slashed textR.parts, List.flatMap_map]

variable (text : ∀ f ∈ files, f.file.IsText) (textR : route.IsText)

include text textR

theorem mem_collected (f : FunctionFile) :
    f ∈ collected files route ↔ f ∈ files ∧ f.file.directories <+: route.directories := by
  rw [collected_eq_flatMap textR]
  simp only [List.mem_flatMap, List.mem_inits, List.mem_filter, Bool.and_eq_true, decide_eq_true_eq]
  constructor
  · rintro ⟨_, _, mem, _, covers⟩
    exact ⟨mem, (covers_iff (text f mem) textR).1 covers⟩
  · rintro ⟨mem, above⟩
    exact ⟨_, patternParts_mono_of_directories above, mem, f.file.pattern_eq,
      (covers_iff (text f mem) textR).2 above⟩

theorem mem_group {parts : List String} (known : parts ∈ (patternParts route.segments).inits)
    {f : FunctionFile} (h : f ∈ files.filter fun f =>
      f.file.pattern = slashed parts && scopeContains f.file.scope route.scope) :
    patternParts f.file.segments = parts ∧ f.file.directories <+: route.directories := by
  obtain ⟨mem, here⟩ := List.mem_filter.1 h
  simp only [Bool.and_eq_true, decide_eq_true_eq] at here
  have components : ∀ p ∈ parts, IsComponent p := fun p hp =>
    textR.parts p (((List.mem_inits _ _).1 known).subset hp)
  exact ⟨(pattern_eq_iff (text f mem) components).1 here.1,
    (covers_iff (text f mem) textR).1 here.2⟩

theorem collected_sorted (sorted : files.Pairwise fun f g => fileLe f g = true)
    (once : (files.map fun f => f.file.directories).Nodup) :
    (collected files route).Pairwise Outer := by
  rw [collected_eq_flatMap textR, List.pairwise_flatMap]
  constructor
  · intro parts known
    rw [List.nodup_iff_pairwise_ne, List.pairwise_map] at once
    refine ((sorted.and once).filter _).imp_of_mem ?_
    rintro f g hf hg ⟨le, other⟩
    obtain ⟨partsF, aboveF⟩ := mem_group text textR known hf
    obtain ⟨partsG, aboveG⟩ := mem_group text textR known hg
    have pattern : f.file.pattern = g.file.pattern := by
      rw [f.file.pattern_eq, g.file.pattern_eq, partsF, partsG]
    exact depth_lt_of_fileLe (text f (List.mem_filter.1 hf).1) le pattern other aboveF aboveG
  · refine (pairwise_inits _).imp_of_mem ?_
    intro parts more known knownMore shorter f hf g hg
    obtain ⟨rfl, aboveF⟩ := mem_group text textR known hf
    obtain ⟨rfl, aboveG⟩ := mem_group text textR knownMore hg
    exact depth_lt_of_parts_lt shorter aboveF aboveG

/-- The prefixes of a route collect from the emitted files what the directories on its way
declare. -/
theorem collected_eq (sorted : files.Pairwise fun f g => fileLe f g = true)
    (once : (files.map fun f => f.file.directories).Nodup) {declared : List FunctionFile}
    (emitted : files.Perm declared) : collected files route = declaredAbove declared route := by
  have sortedC := collected_sorted text textR sorted once
  have sortedD : (declaredAbove declared route).Pairwise Outer :=
    declaredAbove_sorted ((emitted.map _).nodup_iff.1 once)
  have nodup {l : List FunctionFile} (h : l.Pairwise Outer) : l.Nodup :=
    List.nodup_iff_pairwise_ne.2 (h.imp fun {f g} outer same => by
      rw [same, Outer] at outer
      exact lt_irrefl _ outer)
  have perm : (collected files route).Perm (declaredAbove declared route) := by
    rw [List.perm_ext_iff_of_nodup (nodup sortedC) (nodup sortedD)]
    intro f
    rw [mem_collected text textR, mem_declaredAbove, emitted.mem_iff]
  refine perm.eq_of_pairwise ?_ sortedC sortedD
  intro f g _ _ fg gf
  exact absurd fg (lt_asymm gf)

end

/-- The middleware that a plan registers, each file's function meaning some middleware. -/
def Plan.attached (plan : Plan) (meaning : FunctionFile → Middleware) : List Table.Attached :=
  plan.middlewares.map fun m => ⟨m.1.file.pattern, m.1.file.scope, meaning m.1⟩

theorem middlewareChain_attached (s : AppScan) (meaning : FunctionFile → Middleware)
    (route : MarkerFile) :
    (Table.empty.attach ((Plan.ofScan s).attached meaning)).middlewareChain route.pattern
      route.scope =
      (collected (byScope s.middlewares) route).map meaning := by
  have attached : (Plan.ofScan s).attached meaning =
      (byScope s.middlewares).map fun f => ⟨f.file.pattern, f.file.scope, meaning f⟩ := by
    rw [Plan.attached, ← map_fst_middlewares, List.map_map]
    rfl
  rw [Table.middlewareChain_attach, attached, collected, List.map_flatMap, List.map_flatMap]
  congr 1
  funext p
  rw [List.filter_map, List.map_map]
  rfl

/-- Around an accepted route stands the middleware of the directories on the way to it, each
directory's once and the outermost first, and no other. -/
theorem middlewareChain_eq_directories {disk : Volume} {root : Path} {app : Node} {s : AppScan}
    (there : disk.resolve root = .ok app) (tree : app.Named IsTextName)
    (scanned : scan disk root = .ok s) (meaning : FunctionFile → Middleware) {route : Entry}
    (accepted : route ∈ s.found) :
    (Table.empty.attach ((Plan.ofScan s).attached meaning)).middlewareChain
        route.file.pattern route.file.scope =
      (route.file.directories.inits.flatMap fun d =>
        s.middlewares.filter fun f => f.file.directories = d).map meaning ∧
    (s.middlewares.map fun f => f.file.directories).Nodup := by
  have textR := isText_of_mem_found tree there scanned accepted
  have text : ∀ f ∈ s.middlewares, f.file.IsText := by
    intro f hf n hn
    rw [scan_middlewares there scanned] at hf
    exact (names_of_mem_givenBy tree hf).1 n (List.mem_append_left _ hn)
  have once : (s.middlewares.map fun f => f.file.directories).Nodup := by
    rw [scan_middlewares there scanned]
    exact givenBy_directories_nodup tree .middleware
  have emitted := byScope_perm s.middlewares
  have collects : collected (byScope s.middlewares) route.file =
      declaredAbove s.middlewares route.file :=
    collected_eq (fun f hf => text f (emitted.mem_iff.1 hf)) textR (byScope_sorted _)
      ((emitted.map _).nodup_iff.2 once) emitted
  exact ⟨by rw [middlewareChain_attached, collects, declaredAbove], once⟩

def middlewareFile : Node :=
  .file "pub fn middleware(ctx: &mut Context, next: &Next) -> Result<()> { next.run(ctx) }\n".toUTF8

/-- A group with middleware of its own below a directory with middleware, both with one address. -/
def guardedGroup : Node :=
  .directory [
    (Name.ofString "(shop)", .directory [
      (Name.ofString "middleware.rs", middlewareFile), (Name.ofString "route.rs", handlerFile)]),
    (Name.ofString "middleware.rs", middlewareFile)]

theorem named_guardedGroup : guardedGroup.Named IsTextName := by
  have text : ∀ s ∈ ["(shop)", "middleware.rs", "route.rs"], IsTextName (Name.ofString s) := by
    intro s hs
    refine isTextName_ofString ?_ ?_
    all_goals
      revert s
      decide
  have shop : (Node.directory [(Name.ofString "middleware.rs", middlewareFile),
      (Name.ofString "route.rs", handlerFile)]).Named IsTextName := by
    refine .directory _ (by simp [Name.ofString_inj]) ?_ ?_
    · simpa using ⟨text "middleware.rs" (by simp), text "route.rs" (by simp)⟩
    · simpa using ⟨Node.Named.file _, Node.Named.file _⟩
  refine .directory _ (by simp [Name.ofString_inj]) ?_ ?_
  · simpa using ⟨text "(shop)" (by simp), text "middleware.rs" (by simp)⟩
  · simpa using ⟨shop, Node.Named.file _⟩

theorem counts_guardedGroup :
    ((scan ⟨guardedGroup, []⟩ (.ofString ".")).toOption.map fun s =>
      (s.found.length, s.middlewares.length)) = some (1, 2) := by
  have middleware : Marker.ofFileName? (Name.ofString "middleware.rs").display =
      some .middleware := by
    simp only [Name.display_ofString]
    decide
  have route : Marker.ofFileName? (Name.ofString "route.rs").display = some .route := by
    simp only [Name.display_ofString]
    decide
  have shown : Segment.isPrivate (Name.ofString "(shop)").display = false := by
    simp only [Name.display_ofString]
    decide
  have routable : (Segment.classify (Name.ofString "(shop)").display).isUnroutable = false := by
    simp only [Name.display_ofString]
    decide
  have inner : nameLe (Name.ofString "middleware.rs") (Name.ofString "route.rs") = true := by
    simp only [Name.ofString_eq_encode]
    decide
  have outer : nameLe (Name.ofString "(shop)") (Name.ofString "middleware.rs") = true := by
    simp only [Name.ofString_eq_encode]
    decide
  have shop (here : List Name) : visitsOf here (.directory [
      (Name.ofString "middleware.rs", middlewareFile), (Name.ofString "route.rs", handlerFile)]) =
      [.marker .middleware here (Name.ofString "middleware.rs") middlewareFile,
        .marker .route here (Name.ofString "route.rs") handlerFile] := by
    rw [visitsOf, inNameOrder_of_sorted (by simpa [entryVisits] using inner)]
    simp [entryVisits, middlewareFile, handlerFile, Node.isDirectory, middleware, route]
  have met : visits guardedGroup =
      [.marker .middleware [Name.ofString "(shop)"] (Name.ofString "middleware.rs") middlewareFile,
        .marker .route [Name.ofString "(shop)"] (Name.ofString "route.rs") handlerFile,
        .marker .middleware [] (Name.ofString "middleware.rs") middlewareFile] := by
    rw [visits, guardedGroup, visitsOf, inNameOrder_of_sorted (by simpa [entryVisits] using outer)]
    simp only [entryVisits, Node.isDirectory, Node.isLockedDirectory, shown, routable, shop]
    simp [middlewareFile, middleware]
  rw [scan_current guardedGroup rfl, scanNode, met]
  decide +kernel

theorem middlewareChain_eq_directories_guardedGroup :
    ∃ s route, scan ⟨guardedGroup, []⟩ (.ofString ".") = .ok s ∧ route ∈ s.found ∧
      s.middlewares.length = 2 ∧
      (Table.empty.attach ((Plan.ofScan s).attached fun _ => id)).middlewareChain
          route.file.pattern route.file.scope =
        (route.file.directories.inits.flatMap fun d =>
          s.middlewares.filter fun f => f.file.directories = d).map fun _ => id := by
  have counts := counts_guardedGroup
  cases scanned : scan ⟨guardedGroup, []⟩ (.ofString ".") with
  | error fault => simp [scanned, Except.toOption] at counts
  | ok s =>
    simp only [scanned, Except.toOption, Option.map_some, Option.some.injEq,
      Prod.mk.injEq] at counts
    obtain ⟨route, found⟩ := List.length_eq_one_iff.1 counts.1
    have accepted : route ∈ s.found := by simp [found]
    obtain ⟨chain, _⟩ :=
      middlewareChain_eq_directories (resolve_current _) named_guardedGroup scanned
      (fun _ => id) accepted
    exact ⟨s, route, rfl, accepted, counts.2, chain⟩

end Waymark.Generate
