import Mathlib.Data.List.Find
import Waymark.Proofs.Routing.ChainAgreement
import Waymark.Proofs.Scan.Address

/-!
# Directories with one address

Files answer at one address if and only if their directories ask the same of a path:

* `MarkerFile.sharesAddress`: the directories of two files agree in what they ask of a path;
* `conflicts_eq`: a scan reports exactly the candidates that answer one method at one address;
* `patterns_unambiguous`: this, and the chains that have one pattern.
-/

namespace Waymark.Scan

open Waymark.Disk (Volume Path Name Node)
open Waymark.Routing

/-- Two files answer at one address: their directories agree in what they ask of a path. -/
def MarkerFile.sharesAddress (f g : MarkerFile) : Bool :=
  agreeing (asked f.segments) (asked g.segments)

section
variable {disk : Volume} {root : Path} {app : Node} {s : AppScan}

/-- The directories of a file that a walk reads can be written in a pattern. -/
theorem isWritable_of_mem_openedIn (tree : app.Named IsFileName) {o : Opened}
    (h : o ∈ openedIn disk root app) : ∀ raw ∈ o.file.raws, IsWritable raw := by
  obtain ⟨v, hv, read⟩ := List.mem_filterMap.1 h
  obtain ⟨node, rfl⟩ := opened?_eq_some read
  obtain ⟨entered, -⟩ := (mem_visits_iff tree _ _ _ _).1 hv
  intro raw hraw
  obtain ⟨n, hn, rfl⟩ := List.mem_map.1 hraw
  refine ⟨((names_of_mem_openedIn tree h).1 n (List.mem_append_left _ hn)).isComponent,
    fun star => ?_⟩
  have routable := (entered n hn).2
  rw [star] at routable
  exact absurd routable (by decide +kernel)

/-- Candidates have one pattern if and only if they answer at one address. -/
theorem pattern_eq_iff_sharesAddress (tree : app.Named IsFileName) {e h : Entry}
    (he : e ∈ offeredIn disk root app) (hh : h ∈ offeredIn disk root app) :
    h.file.pattern = e.file.pattern ↔ h.file.sharesAddress e.file = true := by
  have writable {e : Entry} (he : e ∈ offeredIn disk root app) :
      ∀ raw ∈ e.file.raws, IsWritable raw := by
    obtain ⟨o, ho, offers⟩ := List.mem_flatMap.1 he
    rw [file_of_mem_offers offers]
    exact isWritable_of_mem_openedIn tree ho
  have same := urlPattern_eq_iff (writable hh) (writable he)
  rwa [← MarkerFile.segments_eq, ← MarkerFile.segments_eq] at same

/-- What stands before a candidate are candidates. -/
theorem mem_of_mem_withEarlier {es : List Entry} {p : List Entry × Entry} (h : p ∈ withEarlier es) :
    p.2 ∈ es ∧ p.1 ⊆ es := by
  obtain ⟨before, e⟩ := p
  obtain ⟨among, mem⟩ := List.of_mem_zip h
  exact ⟨mem, ((List.mem_inits _ _).1 among).subset⟩

/-- A scan reports exactly the candidates before which another one answers the same method at the
same address, each with the first that does. -/
theorem conflicts_eq (there : disk.resolve root = .ok app) (tree : app.Named IsFileName)
    (scanned : scan disk root = .ok s) :
    s.conflicts = (withEarlier (offeredIn disk root app)).filterMap fun p =>
      (p.1.find? fun h => h.method = p.2.method && h.file.sharesAddress p.2.file).map
      (·.conflict p.2) := by
  rw [(scan_holds there scanned).conflicts, clashes]
  apply List.filterMap_congr
  intro p hp
  obtain ⟨mem, earlier⟩ := mem_of_mem_withEarlier hp
  congr 1
  apply List.find?_congr
  intro h hh
  have address := pattern_eq_iff_sharesAddress tree mem (earlier hh)
  rw [Bool.eq_iff_iff]
  simp [Entry.claim, address, and_comm]

/-- Chains of directory names have one pattern if and only if they ask the same of a path, position
by position; groups are no part of it. A scan therefore reports exactly the candidates that answer
one method at one address, and no literal that merely looks like a parameter or a wildcard. -/
theorem patterns_unambiguous :
    (∀ as bs : List String, (∀ a ∈ as, IsWritable a) → (∀ b ∈ bs, IsWritable b) →
      (urlPattern (as.map Segment.classify) = urlPattern (bs.map Segment.classify) ↔
        agreeing (asked (as.map Segment.classify)) (asked (bs.map Segment.classify)) = true)) ∧
    (∀ (front behind : List Segment) (group : Segment), group.isGroup = true →
      urlPattern (front ++ group :: behind) = urlPattern (front ++ behind)) ∧
    ∀ (disk : Volume) (root : Path) (app : Node) (s : AppScan), disk.resolve root = .ok app →
      app.Named IsFileName → scan disk root = .ok s →
      s.conflicts = (withEarlier (offeredIn disk root app)).filterMap fun p =>
        (p.1.find? fun h => h.method = p.2.method && h.file.sharesAddress p.2.file).map
        (·.conflict p.2) :=
  ⟨fun _ _ => urlPattern_eq_iff, fun front behind _ => urlPattern_group front behind,
    fun _ _ _ _ => conflicts_eq⟩

end

/-- A handler at the top and one in a group, which answer at one address. -/
def groupBesideTop : Node :=
  .directory [
    (Name.ofString "(shop)", .directory [(Name.ofString "route.rs", handlerFile)]),
    (Name.ofString "route.rs", handlerFile)]

theorem named_groupBesideTop : groupBesideTop.Named IsFileName := by
  have name : ∀ s ∈ ["(shop)", "route.rs"], IsFileName (Name.ofString s) := by
    intro s hs
    refine isFileName_ofString ?_ ?_
    all_goals
      revert s
      decide
  have leaf : handlerFile.Named IsFileName := .file _
  have group : (Node.directory [(Name.ofString "route.rs", handlerFile)]).Named IsFileName :=
    .directory _ (by simp) (by simpa using name "route.rs" (by simp)) (by simpa using leaf)
  refine .directory _ (by simp [Name.ofString_inj]) ?_ ?_
  · simpa using ⟨name "(shop)" (by simp), name "route.rs" (by simp)⟩
  · simpa using ⟨group, leaf⟩

theorem visits_groupBesideTop : visits groupBesideTop =
    [.marker .route [Name.ofString "(shop)"] (Name.ofString "route.rs") handlerFile,
      .marker .route [] (Name.ofString "route.rs") handlerFile] := by
  have marks : Marker.ofFileName? (Name.ofString "route.rs").display = some .route := by
    simp only [Name.display_ofString]
    decide
  have entered : Segment.isPrivate (Name.ofString "(shop)").display = false ∧
      (Segment.classify (Name.ofString "(shop)").display).isUnroutable = false := by
    simp only [Name.display_ofString]
    decide
  have order : nameLe (Name.ofString "(shop)") (Name.ofString "route.rs") = true := by
    simp only [Name.ofString_eq_encode]
    decide
  rw [visits, groupBesideTop, visitsOf, inNameOrder_of_sorted (by simpa [entryVisits] using order)]
  simp only [entryVisits, Node.isDirectory, Node.isLockedDirectory, entered]
  rw [visitsOf, inNameOrder_of_sorted (by simp [entryVisits])]
  simp [entryVisits, handlerFile, Node.isDirectory, marks]

/-- The second handler for the address loses. -/
theorem scan_groupBesideTop : ∃ s, scan ⟨groupBesideTop, []⟩ (.ofString ".") = .ok s ∧
    s.conflicts.length = 1 := by
  have found : ((scan ⟨groupBesideTop, []⟩ (.ofString ".")).toOption.map fun s =>
      s.conflicts.length) =
      some 1 := by
    rw [scan_current groupBesideTop rfl, scanNode, visits_groupBesideTop]
    decide +kernel
  exact exists_of_seen found

/-- A group changes no pattern, a literal in braces is no parameter, and one candidate loses. -/
theorem patterns_unambiguous_groupBesideTop :
    urlPattern (["(shop)", "{id}"].map Segment.classify) =
      urlPattern (["{id}"].map Segment.classify) ∧
    urlPattern (["[id]"].map Segment.classify) ≠ urlPattern (["{id}"].map Segment.classify) ∧
    ∃ s, scan ⟨groupBesideTop, []⟩ (.ofString ".") = .ok s ∧ s.conflicts.length = 1 ∧
      s.conflicts = (withEarlier
        (offeredIn ⟨groupBesideTop, []⟩ (.ofString ".") groupBesideTop)).filterMap
        fun p => (p.1.find? fun h => h.method = p.2.method && h.file.sharesAddress p.2.file).map
          (·.conflict p.2) := by
  obtain ⟨patterns, groups, scans⟩ := patterns_unambiguous
  have writable : ∀ raw ∈ ["[id]", "{id}"], IsWritable raw := by
    intro raw h
    refine ⟨⟨?_, ?_⟩, ?_⟩
    all_goals
      revert raw
      decide +kernel
  refine ⟨groups [] _ (Segment.classify "(shop)") (by decide +kernel), ?_, ?_⟩
  · rw [Ne, patterns ["[id]"] ["{id}"] (by simpa using writable "[id]" (by simp))
      (by simpa using writable "{id}" (by simp))]
    decide +kernel
  · obtain ⟨s, scanned, one⟩ := scan_groupBesideTop
    exact ⟨s, scanned, one, scans _ _ _ s (resolve_current _) named_groupBesideTop scanned⟩

end Waymark.Scan
