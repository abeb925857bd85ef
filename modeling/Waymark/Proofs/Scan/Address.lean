import Mathlib.Data.List.Pairwise
import Waymark.Proofs.Scan.Placement
import Waymark.Proofs.Text.Replacing

/-!
# Paths of accepted files

A file that a walk reads is told by its path, so that pages and layouts can be looked up by it:

* `IsFileName`: a name that a directory can hold;
* `foldl_joinName_inj`: different chains of names below one directory are different paths;
* `openedIn_path_ne`: files that a walk reads have different paths;
* `pageAt?_of_mem`: an accepted page is found again by its path.
-/

namespace Waymark.Scan

open Waymark.Disk (Volume Path Name Node)

/-- A name that a directory can hold. -/
structure IsFileName (n : Name) : Prop where
  nonempty : n ≠ []
  unseparated : Disk.separator ∉ n

theorem IsTextName.isFileName {n : Name} (h : IsTextName n) : IsFileName n :=
  ⟨h.nonempty, h.unseparated⟩

/-- Every text without a slash is such a name, unless it is empty. -/
theorem isFileName_ofString {s : String} (some' : s ≠ "") (flat : '/' ∉ s.toList) :
    IsFileName (Name.ofString s) :=
  ⟨Name.ofString_ne_nil some', Name.separator_notMem_ofString flat⟩

/-- What is shown of a name is a component, whether or not the name is a text. -/
theorem IsFileName.isComponent {n : Name} (h : IsFileName n) : Routing.IsComponent n.display :=
  ⟨Text.Utf8.lossy_ne_empty h.nonempty, fun slash =>
    h.unseparated (Text.Utf8.slash_mem_of_lossy slash)⟩

/-- Names with a separator in front of each. -/
def separated (names : List Name) : List UInt8 := names.flatMap (Disk.separator :: ·)

/-- The bytes of a path up to where a name is joined to it. -/
def opened (base : Path) : List UInt8 :=
  match base.bytes.getLast? with
  | none => []
  | some last => if last = Disk.separator then base.bytes else base.bytes ++ [Disk.separator]

theorem bytes_joinName {n : Name} (name : IsFileName n) (base : Path) :
    (base.joinName n).bytes = opened base ++ n := by
  have relative : (Disk.Path.mk n).isAbsolute = false := by
    cases n with
    | nil => exact absurd rfl name.nonempty
    | cons b rest =>
      have other : b ≠ Disk.separator := fun same => name.unseparated (by simp [same])
      simp [Path.isAbsolute, other]
  unfold Path.joinName Path.join opened
  rw [relative]
  cases base.bytes.getLast? with
  | none => simp
  | some last => by_cases sep : last = Disk.separator <;> simp [sep]

theorem opened_joinName {n : Name} (name : IsFileName n) (base : Path) :
    opened (base.joinName n) = (base.joinName n).bytes ++ [Disk.separator] := by
  obtain ⟨last, isLast⟩ : ∃ last, n.getLast? = some last :=
    Option.isSome_iff_exists.1 (by simpa using name.nonempty)
  have other : last ≠ Disk.separator := fun same =>
    name.unseparated (same ▸ List.mem_of_getLast? isLast)
  have ends : (base.joinName n).bytes.getLast? = some last := by
    rw [bytes_joinName name, List.getLast?_append, isLast, Option.some_or]
  unfold opened
  rw [ends]
  simp [other]

theorem bytes_foldl_joinName {names : List Name} (each : ∀ n ∈ names, IsFileName n) {first : Name}
    (name : IsFileName first) (base : Path) :
    ((first :: names).foldl Path.joinName base).bytes = opened base ++ first
      ++ separated names := by
  induction names generalizing base first with
  | nil => simp [bytes_joinName name, separated]
  | cons n rest ih =>
    have next : IsFileName n := each n (by simp)
    have more : ∀ m ∈ rest, IsFileName m := fun m hm => each m (List.mem_cons_of_mem _ hm)
    rw [List.foldl_cons, ih more next, opened_joinName name, bytes_joinName name]
    simp [separated]

theorem closed_separated (names : List Name) : Text.Closed Disk.separator (separated names) := by
  cases names with
  | nil => exact Text.closed_nil
  | cons n rest => exact Text.closed_cons _

theorem separated_inj {names others : List Name} (hn : ∀ n ∈ names, IsFileName n)
    (ho : ∀ n ∈ others, IsFileName n) (same : separated names = separated others) :
    names = others := by
  induction names generalizing others with
  | nil =>
    cases others with
    | nil => rfl
    | cons m more => simp [separated] at same
  | cons n rest ih =>
    cases others with
    | nil => simp [separated] at same
    | cons m more =>
      have tails : n ++ separated rest = m ++ separated more := by simpa [separated] using same
      obtain ⟨rfl, behind⟩ := Text.append_inj_of_closed (hn n (by simp)).unseparated
        (ho m (by simp)).unseparated (closed_separated rest) (closed_separated more) tails
      rw [ih (fun x hx => hn x (List.mem_cons_of_mem _ hx))
        (fun x hx => ho x (List.mem_cons_of_mem _ hx)) behind]

/-- Different chains of names below one directory are different paths. -/
theorem foldl_joinName_inj {names others : List Name} (hn : ∀ n ∈ names, IsFileName n)
    (ho : ∀ n ∈ others, IsFileName n) (nonempty : names ≠ []) (nonempty' : others ≠ [])
    {base : Path}
    (same : names.foldl Path.joinName base = others.foldl Path.joinName base) : names = others := by
  obtain ⟨n, rest, rfl⟩ := List.exists_cons_of_ne_nil nonempty
  obtain ⟨m, more, rfl⟩ := List.exists_cons_of_ne_nil nonempty'
  have bytes := congrArg Path.bytes same
  rw [bytes_foldl_joinName (fun x hx => hn x (List.mem_cons_of_mem _ hx)) (hn n (by simp)),
    bytes_foldl_joinName (fun x hx => ho x (List.mem_cons_of_mem _ hx)) (ho m (by simp)),
    List.append_assoc, List.append_assoc] at bytes
  apply separated_inj hn ho
  simpa [separated] using List.append_cancel_left bytes

variable {disk : Volume} {root : Path} {app : Node} {s : AppScan}

theorem path_of_mem_openedIn {o : Opened} (h : o ∈ openedIn disk root app) :
    o.file.path = o.file.address.foldl Path.joinName root := by
  obtain ⟨v, _, read⟩ := List.mem_filterMap.1 h
  cases v with
  | unroutable | unreadable => simp [opened?] at read
  | marker kind directories fileName node =>
    simp only [opened?] at read
    split at read
    · simp at read
    · obtain ⟨source, _, rfl⟩ := Option.map_eq_some_iff.1 read
      rfl

/-- Files that a walk reads have different paths. -/
theorem openedIn_path_ne (tree : app.Named IsFileName) :
    (openedIn disk root app).Pairwise fun o p => o.file.path ≠ p.file.path := by
  refine (openedIn_sorted tree).imp_of_mem ?_
  intro o p ho hp before same
  rw [path_of_mem_openedIn ho, path_of_mem_openedIn hp] at same
  have address : o.file.address = p.file.address :=
    foldl_joinName_inj (names_of_mem_openedIn tree ho).1 (names_of_mem_openedIn tree hp).1
      (by simp [MarkerFile.address]) (by simp [MarkerFile.address]) same
  have self : compare p.file.address p.file.address = .eq := Std.ReflCmp.compare_self
  rw [address, self] at before
  exact Ordering.noConfusion before

theorem eq_of_path (tree : app.Named IsFileName) {o p : Opened} (ho : o ∈ openedIn disk root app)
    (hp : p ∈ openedIn disk root app) (same : o.file.path = p.file.path) : o = p := by
  have symm : Std.Symm fun o p : Opened => o.file.path ≠ p.file.path :=
    ⟨fun _ _ other => other.symm⟩
  by_contra other
  exact (openedIn_path_ne tree).forall ho hp other same

/-- A function that files of a kind give is told by the path of its file. -/
theorem eq_of_given_path (tree : app.Named IsFileName) {asked : Marker} {f g : FunctionFile}
    (hf : f ∈ givenBy asked (openedIn disk root app))
    (hg : g ∈ givenBy asked (openedIn disk root app))
    (same : f.file.path = g.file.path) : f = g := by
  obtain ⟨o, ho, fromO⟩ := List.mem_flatMap.1 hf
  obtain ⟨p, hp, fromP⟩ := List.mem_flatMap.1 hg
  rw [(file_of_mem_gives fromO).2, (file_of_mem_gives fromP).2] at same
  obtain rfl : o = p := eq_of_path tree ho hp same
  have kind : o.kind = asked := (file_of_mem_gives fromO).1
  rw [Opened.gives, if_pos kind, Option.mem_toList] at fromO fromP
  exact Option.some_inj.1 (fromO.symm.trans fromP)

theorem mem_found_iff (there : disk.resolve root = .ok app) (scanned : scan disk root = .ok s)
    (e : Entry) : e ∈ s.found ↔ e ∈ firsts (offeredIn disk root app) :=
  (scan_holds there scanned).perm.mem_iff

/-- An accepted page is what its file gives. -/
theorem pages_subset (there : disk.resolve root = .ok app) (scanned : scan disk root = .ok s) :
    s.pages ⊆ givenBy .page (openedIn disk root app) := by
  intro p hp
  have accepted : Entry.page p ∈ s.found := by
    rw [found_eq, AppScan.pageEntries]
    exact List.mem_append_right _ (List.mem_map_of_mem hp)
  have offered := firsts_subset _ ((mem_found_iff there scanned _).1 accepted)
  obtain ⟨o, ho, offers⟩ := List.mem_flatMap.1 offered
  refine List.mem_flatMap.2 ⟨o, ho, ?_⟩
  unfold Opened.offers at offers
  split at offers
  · simp at offers
  · next kind => simpa [Opened.gives, kind] using offers
  · simp at offers

theorem layouts_subset (there : disk.resolve root = .ok app) (scanned : scan disk root = .ok s) :
    s.layouts ⊆ givenBy .layout (openedIn disk root app) := by
  rw [(scan_adds there scanned).layouts]
  exact List.Subset.refl _

/-- An accepted page is found again by its path. -/
theorem pageAt?_of_mem (there : disk.resolve root = .ok app) (tree : app.Named IsFileName)
    (scanned : scan disk root = .ok s) {p : FunctionFile} (h : p ∈ s.pages) :
    s.pageAt? p.file.path = some p := by
  unfold AppScan.pageAt?
  cases found : s.pages.reverse.find? fun q => q.file.path = p.file.path with
  | none =>
    have missing := List.find?_eq_none.1 found p (by simpa using h)
    simp at missing
  | some q =>
    have mem : q ∈ s.pages := by simpa using List.mem_of_find?_eq_some found
    have same : q.file.path = p.file.path := by simpa using List.find?_some found
    rw [eq_of_given_path tree (pages_subset there scanned mem) (pages_subset there scanned h) same]

end Waymark.Scan
