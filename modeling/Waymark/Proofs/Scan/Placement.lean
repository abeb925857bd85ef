import Waymark.Proofs.Routing.Pattern
import Waymark.Proofs.Scan.Discovery
import Waymark.Proofs.Text.Encoding

/-!
# Where accepted files lie

Files are read in the order of their addresses, so that a directory gives at most one file of a
kind:

* `IsTextName`: a name that a directory can hold and that is a text;
* `openedIn_sorted`: files are read in the order of their addresses;
* `givenBy_directories_nodup`: no directory gives two files of one kind;
* `covers_iff`, `pattern_eq_iff`: scopes and patterns of files by the names of their directories.
-/

namespace Waymark.Scan

open Waymark.Disk (Volume Path Name Node)
open Waymark.Routing
open Waymark.Text (joinStrings)

/-- A name that a directory can hold and that is a text. -/
structure IsTextName (n : Name) : Prop where
  nonempty : n ≠ []
  unseparated : Disk.separator ∉ n
  text : (Text.Utf8.decode? ⟨n.toArray⟩).isSome

/-- Every text without a slash is such a name, unless it is empty. -/
theorem isTextName_ofString {s : String} (some' : s ≠ "") (flat : '/' ∉ s.toList) :
    IsTextName (Name.ofString s) := by
  refine ⟨Name.ofString_ne_nil some', Name.separator_notMem_ofString flat, ?_⟩
  rw [(Text.Utf8.decode?_eq_some_iff _ s).2 (Name.ofString_eq_encode s)]
  rfl

theorem IsTextName.eq_encode {n : Name} (h : IsTextName n) :
    n = Text.Utf8.encode n.display.toList := by
  obtain ⟨s, decoded⟩ := Option.isSome_iff_exists.1 h.text
  have written := (Text.Utf8.decode?_eq_some_iff n s).1 decoded
  have shown : n.display = s := by
    rw [Name.display, written, Text.Utf8.lossy_encode, String.ofList_toList]
  rw [shown, ← written]

/-- Names that are texts are told apart by what is shown of them. -/
theorem IsTextName.display_inj {n m : Name} (hn : IsTextName n) (hm : IsTextName m)
    (h : n.display = m.display) : n = m := by
  rw [hn.eq_encode, h, ← hm.eq_encode]

theorem IsTextName.isComponent {n : Name} (h : IsTextName n) : IsComponent n.display := by
  constructor
  · intro empty
    have nothing := h.eq_encode
    rw [empty] at nothing
    exact h.nonempty nothing
  · intro slash
    have separated := (Text.Utf8.mem_encode_iff (a := '/') (by decide) _).2 slash
    rw [← h.eq_encode] at separated
    exact h.unseparated separated

/-- The names from the application directory to a file. -/
def MarkerFile.address (f : MarkerFile) : List Name := f.directories ++ [f.fileName]

/-- What is shown of the directories of a file. -/
def MarkerFile.raws (f : MarkerFile) : List String := f.directories.map Name.display

variable {disk : Volume} {root : Path} {app : Node} {P : Name → Prop}

theorem opened?_eq_some {v : Visit} {o : Opened} (h : opened? disk root v = some o) :
    ∃ node, v = .marker o.kind o.file.directories o.file.fileName node := by
  cases v with
  | unroutable | unreadable => simp [opened?] at h
  | marker kind directories fileName node =>
    simp only [opened?] at h
    split at h
    · simp at h
    · obtain ⟨source, _, rfl⟩ := Option.map_eq_some_iff.1 h
      exact ⟨node, rfl⟩

/-- Files are read in the order of their addresses. -/
theorem openedIn_sorted (tree : app.Named P) :
    (openedIn disk root app).Pairwise fun o p => compare o.file.address p.file.address = .lt := by
  rw [openedIn, List.pairwise_filterMap]
  refine (visits_sorted tree).imp ?_
  intro v w before o ho p hp
  obtain ⟨_, rfl⟩ := opened?_eq_some ho
  obtain ⟨_, rfl⟩ := opened?_eq_some hp
  exact before

theorem names_of_mem_openedIn (tree : app.Named P) {o : Opened} (h : o ∈ openedIn disk root app) :
    (∀ n ∈ o.file.address, P n) ∧ Marker.ofFileName? o.file.fileName.display = some o.kind := by
  obtain ⟨v, hv, read⟩ := List.mem_filterMap.1 h
  obtain ⟨node, rfl⟩ := opened?_eq_some read
  obtain ⟨_, there, _, marks⟩ := (mem_visits_iff tree _ _ _ _).1 hv
  exact ⟨named_of_at? tree there, marks⟩

theorem file_of_mem_gives {o : Opened} {asked : Marker} {f : FunctionFile} (h : f ∈ o.gives asked) :
    o.kind = asked ∧ f.file = o.file := by
  unfold Opened.gives at h
  split at h
  · next kind =>
    simp only [Option.mem_toList, Option.map_eq_some_iff] at h
    obtain ⟨_, _, rfl⟩ := h
    exact ⟨kind, rfl⟩
  · simp at h

theorem file_of_mem_offers {o : Opened} {e : Entry} (h : e ∈ o.offers) : e.file = o.file := by
  unfold Opened.offers at h
  split at h
  · obtain ⟨_, _, rfl⟩ := List.mem_map.1 h
    rfl
  · simp only [Option.mem_toList, Option.map_eq_some_iff] at h
    obtain ⟨_, _, rfl⟩ := h
    rfl
  · simp at h

theorem givenBy_sorted (tree : app.Named P) (asked : Marker) :
    (givenBy asked (openedIn disk root app)).Pairwise fun f g =>
      compare f.file.address g.file.address = .lt := by
  rw [givenBy, List.pairwise_flatMap]
  constructor
  · intro o _
    unfold Opened.gives
    split
    · cases o.function? <;> simp
    · exact List.Pairwise.nil
  · refine (openedIn_sorted tree).imp ?_
    intro o p before f hf g hg
    rw [(file_of_mem_gives hf).2, (file_of_mem_gives hg).2]
    exact before

theorem fileName_of_ofFileName? {fileName : String} {kind : Marker}
    (h : Marker.ofFileName? fileName = some kind) : fileName = kind.fileName := by
  have named : kind.fileName = fileName := by simpa using List.find?_some h
  exact named.symm

theorem names_of_mem_givenBy (tree : app.Named P) {asked : Marker} {f : FunctionFile}
    (h : f ∈ givenBy asked (openedIn disk root app)) :
    (∀ n ∈ f.file.address, P n) ∧ f.file.fileName.display = asked.fileName := by
  obtain ⟨o, ho, hf⟩ := List.mem_flatMap.1 h
  obtain ⟨rfl, same⟩ := file_of_mem_gives hf
  obtain ⟨names, marks⟩ := names_of_mem_openedIn tree ho
  rw [same]
  exact ⟨names, fileName_of_ofFileName? marks⟩

/-- No directory gives two files of one kind. -/
theorem givenBy_directories_nodup (tree : app.Named IsTextName) (asked : Marker) :
    ((givenBy asked (openedIn disk root app)).map fun f => f.file.directories).Nodup := by
  rw [List.nodup_iff_pairwise_ne, List.pairwise_map]
  refine (givenBy_sorted tree asked).imp_of_mem ?_
  intro f g hf hg before same
  obtain ⟨namesF, shownF⟩ := names_of_mem_givenBy tree hf
  obtain ⟨namesG, shownG⟩ := names_of_mem_givenBy tree hg
  have textF : IsTextName f.file.fileName := namesF _ (by simp [MarkerFile.address])
  have textG : IsTextName g.file.fileName := namesG _ (by simp [MarkerFile.address])
  have address : f.file.address = g.file.address := by
    rw [MarkerFile.address, MarkerFile.address, same,
      textF.display_inj textG (shownF.trans shownG.symm)]
  have self : compare g.file.address g.file.address = .eq := Std.ReflCmp.compare_self
  rw [address, self] at before
  exact Ordering.noConfusion before

/-- Every directory of a file has a name that is a text. -/
def MarkerFile.IsText (f : MarkerFile) : Prop := ∀ n ∈ f.directories, IsTextName n

theorem isText_of_mem_found (tree : app.Named IsTextName) {s : AppScan}
    (there : disk.resolve root = .ok app) (scanned : scan disk root = .ok s) {e : Entry}
    (h : e ∈ s.found) : e.file.IsText := by
  have candidate := firsts_subset _ ((scan_holds there scanned).perm.mem_iff.1 h)
  obtain ⟨o, ho, he⟩ := List.mem_flatMap.1 candidate
  obtain ⟨names, _⟩ := names_of_mem_openedIn tree ho
  intro n hn
  rw [file_of_mem_offers he] at hn
  exact names n (List.mem_append_left _ hn)

theorem scan_middlewares {s : AppScan} (there : disk.resolve root = .ok app)
    (scanned : scan disk root = .ok s) :
    s.middlewares = givenBy .middleware (openedIn disk root app) :=
  (scan_adds there scanned).middlewares

section
variable {f g : MarkerFile}

theorem MarkerFile.segments_eq (f : MarkerFile) : f.segments = f.raws.map Segment.classify := by
  simp [segments, raws]

theorem MarkerFile.scope_eq (f : MarkerFile) : f.scope = joinStrings '/' f.raws := by
  rw [scope, segments_eq, scopeOf_eq]

theorem MarkerFile.pattern_eq (f : MarkerFile) : f.pattern = slashed (patternParts f.segments) :=
  rfl

theorem MarkerFile.IsText.raws (text : f.IsText) : ∀ raw ∈ f.raws, IsComponent raw := by
  intro raw h
  obtain ⟨n, hn, rfl⟩ := List.mem_map.1 h
  exact (text n hn).isComponent

theorem MarkerFile.IsText.parts (text : f.IsText) :
    ∀ p ∈ patternParts f.segments, IsComponent p := by
  rw [segments_eq]
  exact isComponent_patternParts text.raws

theorem MarkerFile.IsText.directories_eq (text : f.IsText) :
    f.directories = f.raws.map fun raw => Text.Utf8.encode raw.toList := by
  rw [MarkerFile.raws, List.map_map]
  exact (List.map_id _).symm.trans (List.map_congr_left fun n hn => (text n hn).eq_encode)

/-- A file's scope covers exactly the files in its directory or below. -/
theorem covers_iff (hf : f.IsText) (hg : g.IsText) :
    scopeContains f.scope g.scope = true ↔ f.directories <+: g.directories := by
  rw [f.scope_eq, g.scope_eq, scopeContains_joinStrings_iff hf.raws hg.raws]
  constructor
  · intro h
    rw [hf.directories_eq, hg.directories_eq]
    exact h.map _
  · intro h
    exact h.map _

theorem pattern_eq_iff (hf : f.IsText) {parts : List String} (hp : ∀ p ∈ parts, IsComponent p) :
    f.pattern = slashed parts ↔ patternParts f.segments = parts := by
  rw [f.pattern_eq]
  exact ⟨slashed_inj hf.parts hp, fun h => by rw [h]⟩

theorem patternParts_mono_of_directories (h : f.directories <+: g.directories) :
    patternParts f.segments <+: patternParts g.segments :=
  patternParts_mono (h.map _)

end

end Waymark.Scan
