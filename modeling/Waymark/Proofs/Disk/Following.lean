import Waymark.Proofs.Disk.Paths
import Waymark.Proofs.Disk.Standing
import Waymark.Proofs.Text.Encoding

/-!
# Where a path leads

On a disk without links the names of a path say where it leads, and what stands there says whether
it can be followed:

* `arrive`, `Volume.Passes`: where names lead, and that all of them are directories;
* `follow_of_passes`, `follow_ok`: names can be followed if and only if they pass, the last one
  aside;
* `resolve_directory_iff`, `read_child_iff`: the paths to directories, and to files in them.
-/

namespace Waymark.Disk

/-- Where names lead from a directory. Both are given with the last name first. -/
def arrive : List Name → List Name → List Name
  | here, [] => here
  | here, n :: rest => if n = upName then arrive here.tail rest else arrive (n :: here) rest

theorem arrive_append (here xs ys : List Name) :
    arrive here (xs ++ ys) = arrive (arrive here xs) ys := by
  induction xs generalizing here with
  | nil => rfl
  | cons n rest ih =>
    rw [List.cons_append, arrive, arrive]
    split <;> exact ih _

/-- Names that lead downwards are put behind the way. -/
theorem arrive_of_down {xs : List Name} (down : ∀ n ∈ xs, n ≠ upName) (here : List Name) :
    (arrive here xs).reverse = here.reverse ++ xs := by
  induction xs generalizing here with
  | nil => rw [arrive, List.append_nil]
  | cons n rest ih =>
    rw [List.forall_mem_cons] at down
    rw [arrive, if_neg down.1, ih down.2, List.reverse_cons, List.append_assoc,
      List.singleton_append]

namespace Volume

variable {d : Volume}

/-- Each of some names is that of a directory, so that a path can go on behind it. -/
def Passes (d : Volume) : List Name → List Name → Prop
  | _, [] => True
  | here, n :: rest =>
    if n = upName then d.Passes here.tail rest
    else n.length ≤ longestName ∧ d.standing? (n :: here).reverse = some .directory ∧
      d.Passes (n :: here) rest

theorem passes_append {here xs ys : List Name} :
    d.Passes here (xs ++ ys) ↔ d.Passes here xs ∧ d.Passes (arrive here xs) ys := by
  induction xs generalizing here with
  | nil => simp [Passes, arrive]
  | cons n rest ih =>
    rw [List.cons_append, Passes, Passes, arrive]
    split
    · exact ih
    · rw [ih, and_assoc, and_assoc]

theorem Passes.mono {d' : Volume} {here xs : List Name} (passes : d.Passes here xs)
    (kept : ∀ names, d.standing? names = some .directory → d'.standing? names = some .directory) :
    d'.Passes here xs := by
  induction xs generalizing here with
  | nil => trivial
  | cons n rest ih =>
    unfold Passes at passes ⊢
    split at passes
    · next up => rw [if_pos up]; exact ih passes
    · next down =>
      rw [if_neg down]
      exact ⟨passes.1, kept _ passes.2.1, ih passes.2.2⟩

/-- What lies above a directory is one. -/
theorem directory_above {here : List Name} (inside : d.standing? here.reverse = some .directory) :
    d.standing? here.tail.reverse = some .directory := by
  cases here with
  | nil => exact inside
  | cons n here =>
    rw [List.reverse_cons] at inside
    exact directory_of_child inside

/-- Names that pass lead from a directory to a directory. -/
theorem Passes.directory {here xs : List Name} (passes : d.Passes here xs)
    (inside : d.standing? here.reverse = some .directory) :
    d.standing? (arrive here xs).reverse = some .directory := by
  induction xs generalizing here with
  | nil => exact inside
  | cons n rest ih =>
    unfold Passes at passes
    rw [arrive]
    split at passes
    · next up => rw [if_pos up]; exact ih passes (directory_above inside)
    · next down => rw [if_neg down]; exact ih passes.2.2 passes.2.1

/-! ## Following names -/

theorem skipped_eq (n : Name) : (n = [] || n = selfName : Bool) = !counts n := by
  by_cases none' : n = [] <;> simp [counts, none']

/-- A piece that does not count is passed over. -/
theorem follow_skip {n : Name} (skipped : counts n = false) (last : Bool) (links : Nat)
    (here rest : List Name) :
    d.follow last links here (n :: rest) = d.follow last links here rest := by
  rw [follow, skipped_eq, skipped, Bool.not_false, if_pos rfl]

theorem follow_up (last : Bool) (links : Nat) (here rest : List Name) :
    d.follow last links here (upName :: rest) = d.follow last links here.tail rest := by
  rw [follow, if_neg (by decide), if_pos rfl]

theorem follow_down {n : Name} (counted : counts n = true) (down : n ≠ upName)
    (short : n.length ≤ longestName) {entries : List (Name × Node)} {here : List Name}
    (found : d.top.at? (n :: here).reverse = some (.directory entries)) (last : Bool) (links : Nat)
    (rest : List Name) :
    d.follow last links here (n :: rest) = d.follow last links (n :: here) rest := by
  rw [follow, skipped_eq, counted, Bool.not_true, if_neg Bool.false_ne_true, if_neg down,
    if_neg (Nat.not_lt.2 short)]
  simp only [found]

/-- Names that pass are followed to where they lead. -/
theorem follow_of_passes {here ns : List Name} (passes : d.Passes here (ns.filter counts))
    (last : Bool) (links : Nat) (behind : List Name) : d.follow last links here (ns ++ behind) =
      d.follow last links (arrive here (ns.filter counts)) behind := by
  induction ns generalizing here with
  | nil => rfl
  | cons n rest ih =>
    rw [List.cons_append]
    cases counted : counts n with
    | false =>
      rw [List.filter_cons_of_neg (by simp [counted])] at passes ⊢
      rw [follow_skip counted, ih passes]
    | true =>
      rw [List.filter_cons_of_pos counted] at passes ⊢
      unfold Passes at passes
      rw [arrive]
      split at passes
      · next up =>
        rw [if_pos up, up, follow_up, ih passes]
      · next down =>
        obtain ⟨entries, found⟩ := Node.standing?_eq_directory_iff.1 passes.2.1
        rw [if_neg down, follow_down counted down passes.1 found, ih passes.2.2]

/-- What following names tells: where they lead, and that they pass, but for a last one that is no
directory. -/
structure Followed (d : Volume) (here names : List Name) (place : Place) : Prop where
  reversed : place.reversed = arrive here names
  node : place.node = d.top.at? place.reversed.reverse
  passes : d.Passes here names ∨ ∃ xs n, names = xs ++ [n] ∧ n ≠ upName ∧ n.length ≤ longestName ∧
    d.Passes here xs ∧ d.standing? ((arrive here xs).reverse ++ [n]) ≠ some .directory

/-- A single name that is no directory. -/
theorem followed_last {here : List Name} {n : Name} (down : n ≠ upName)
    (short : n.length ≤ longestName)
    {node : Option Node} (found : d.top.at? (n :: here).reverse = node)
    (other : d.standing? (n :: here).reverse ≠ some .directory) :
    d.Followed here [n] ⟨n :: here, node⟩ where
  reversed := by rw [arrive, if_neg down, arrive]
  node := found.symm
  passes := .inr ⟨[], n, rfl, down, short, trivial, by simpa [arrive] using other⟩

theorem Followed.cons {here : List Name} {n : Name} {rest : List Name} {place : Place}
    (down : n ≠ upName)
    (short : n.length ≤ longestName) (found : d.standing? (n :: here).reverse = some .directory)
    (followed : d.Followed (n :: here) rest place) : d.Followed here (n :: rest) place where
  reversed := by rw [arrive, if_neg down, followed.reversed]
  node := followed.node
  passes := by
    rcases followed.passes with passes | ⟨xs, m, rfl, downM, shortM, passes, other⟩
    · exact .inl (by rw [Passes, if_neg down]; exact ⟨short, found, passes⟩)
    · refine .inr ⟨n :: xs, m, rfl, downM, shortM, ?_, ?_⟩
      · rw [Passes, if_neg down]
        exact ⟨short, found, passes⟩
      · rwa [arrive, if_neg down]

theorem Followed.up {here rest : List Name} {place : Place}
    (followed : d.Followed here.tail rest place) :
    d.Followed here (upName :: rest) place where
  reversed := by rw [arrive, if_pos rfl, followed.reversed]
  node := followed.node
  passes := by
    rcases followed.passes with passes | ⟨xs, m, rfl, downM, shortM, passes, other⟩
    · exact .inl (by rwa [Passes, if_pos rfl])
    · refine .inr ⟨upName :: xs, m, rfl, downM, shortM, by rwa [Passes, if_pos rfl], ?_⟩
      rwa [arrive, if_pos rfl]

theorem filter_counts_of_empty {rest : List Name} (ends : rest.all (· = []) = true) :
    rest.filter counts = [] := by
  rw [List.filter_eq_nil_iff]
  intro m hm
  have empty : m = [] := by simpa using List.all_eq_true.1 ends m hm
  simp [empty, counts]

/-- Without links, names are followed only where they lead by themselves. -/
theorem follow_ok (plain : d.Plain) {last : Bool} {links : Nat} {here ns : List Name}
    {place : Place}
    (h : d.follow last links here ns = .ok place) : d.Followed here (ns.filter counts) place := by
  induction ns generalizing here with
  | nil =>
    rw [follow] at h
    cases h
    exact ⟨rfl, rfl, .inl trivial⟩
  | cons n rest ih =>
    cases counted : counts n with
    | false =>
      rw [follow_skip counted] at h
      rw [List.filter_cons_of_neg (by simp [counted])]
      exact ih h
    | true =>
      rw [List.filter_cons_of_pos counted]
      by_cases up : n = upName
      · rw [up, follow_up] at h
        rw [up]
        exact (ih h).up
      · rw [follow, skipped_eq, counted, Bool.not_true, if_neg Bool.false_ne_true, if_neg up] at h
        split at h
        · cases h
        · next short =>
          rw [Nat.not_lt] at short
          dsimp only at h
          split at h
          · next found =>
            split at h
            · next ends =>
              cases h
              rw [filter_counts_of_empty ends]
              exact followed_last up short found (by rw [standing?, Node.standing?, found]; simp)
            · cases h
          · next entries found =>
            exact (ih h).cons up short (Node.standing?_eq_directory_iff.2 ⟨entries, found⟩)
          · next content found =>
            split at h
            · next ends =>
              cases h
              rw [List.isEmpty_iff.1 ends]
              exact followed_last up short found
                (by rw [standing?, Node.standing?, found]; simp [Node.standing])
            · cases h
          · next found =>
            split at h
            · next ends =>
              cases h
              rw [List.isEmpty_iff.1 ends]
              exact followed_last up short found
                (by rw [standing?, Node.standing?, found]; simp [Node.standing])
            · cases h
          · next found =>
            split at h
            · next ends =>
              cases h
              rw [filter_counts_of_empty ends]
              exact followed_last up short found
                (by rw [standing?, Node.standing?, found]; simp [Node.standing])
            · cases h
          · next target found =>
            exact absurd (Node.standing?_eq_link_iff.2 found) (plain.linkless _ target)

/-! ## Paths -/

/-- Where a path starts. -/
def start (d : Volume) (p : Path) : List Name := if p.isAbsolute then [] else d.current.reverse

/-- Where the names of a path lead. -/
def home (d : Volume) (p : Path) : List Name := (arrive (d.start p) p.names).reverse

/-- All names of a path are those of directories. -/
def Enters (d : Volume) (p : Path) : Prop := d.Passes (d.start p) p.names

theorem place_eq {p : Path} (written : p.bytes ≠ []) (last : Bool) :
    d.place last p = d.follow last mostLinks (d.start p) (steps p.bytes) := by
  rw [place, if_neg written]
  rfl

theorem place_of_enters {p : Path} (written : p.bytes ≠ []) (enters : d.Enters p) (last : Bool) :
    d.place last p = .ok ⟨arrive (d.start p) p.names, d.top.at? (d.home p)⟩ := by
  have same := Path.filter_steps p.bytes
  have passes : d.Passes (d.start p) ((steps p.bytes).filter counts) := same.symm ▸ enters
  have followed := follow_of_passes passes last mostLinks []
  rw [List.append_nil, same] at followed
  rw [place_eq written, followed, follow]
  rfl

theorem place_ok (plain : d.Plain) {p : Path} {last : Bool} {place : Place}
    (h : d.place last p = .ok place) :
    p.bytes ≠ [] ∧ d.Followed (d.start p) p.names place := by
  have written : p.bytes ≠ [] := fun none' => by
    rw [Volume.place, if_pos none'] at h
    cases h
  rw [place_eq written] at h
  have followed := follow_ok plain h
  rw [Path.filter_steps] at followed
  exact ⟨written, followed⟩

/-- A path leads to a directory if and only if all its names are those of directories. -/
theorem resolve_directory_iff (plain : d.Plain) {p : Path} {entries : List (Name × Node)} :
    d.resolve p = .ok (.directory entries) ↔
      p.bytes ≠ [] ∧ d.Enters p ∧ d.top.at? (d.home p) = some (.directory entries) := by
  constructor
  · intro h
    unfold resolve at h
    cases placed : d.place true p with
    | error fault => simp [placed] at h
    | ok place =>
      obtain ⟨reversed, node⟩ := place
      cases node with
      | none => simp [placed] at h
      | some node =>
        simp only [placed, Except.ok.injEq] at h
        subst h
        obtain ⟨written, followed⟩ := place_ok plain placed
        have there : d.top.at? (d.home p) = some (.directory entries) := by
          rw [home, ← followed.reversed]
          exact followed.node.symm
        refine ⟨written, ?_, there⟩
        rcases followed.passes with passes | ⟨xs, n, names, down, -, -, other⟩
        · exact passes
        · refine absurd (Node.standing?_eq_directory_iff.2 ⟨entries, ?_⟩) other
          rw [← there, home, names, arrive_append, arrive, if_neg down, arrive, List.reverse_cons]
  · rintro ⟨written, enters, there⟩
    rw [resolve, place_of_enters written enters, there]

theorem isDirectory_of_enters (plain : d.Plain) {p : Path} (written : p.bytes ≠ [])
    (enters : d.Enters p)
    (inside : d.standing? (d.home p) = some .directory) : d.isDirectory p = true := by
  obtain ⟨entries, there⟩ := Node.standing?_eq_directory_iff.1 inside
  rw [isDirectory, (resolve_directory_iff plain).2 ⟨written, enters, there⟩]
  rfl

/-- Where a path leads to a directory, which may be locked, something stands. -/
theorem standing?_of_isDirectory (plain : d.Plain) {p : Path} (directory : d.isDirectory p = true) :
    d.standing? (d.home p) ≠ none := by
  unfold isDirectory resolve at directory
  cases placed : d.place true p with
  | error fault => simp [placed] at directory
  | ok place =>
    obtain ⟨reversed, node⟩ := place
    cases node with
    | none => simp [placed] at directory
    | some node =>
      obtain ⟨-, followed⟩ := place_ok plain placed
      have there : some node = d.top.at? reversed.reverse := followed.node
      rw [home, ← followed.reversed, standing?, Ne, Node.standing?_eq_none_iff, ← there]
      exact Option.some_ne_none node

/-! ## Files in a directory -/

/-- A name by which a directory holds an entry. -/
structure IsEntryName (n : Name) : Prop where
  counted : counts n = true
  down : n ≠ upName
  flat : separator ∉ n
  short : n.length ≤ longestName

namespace IsEntryName

variable {n : Name}

theorem names (name : IsEntryName n) : (Path.mk n).names = [n] := by
  rw [Path.names, Path.namesIn_flat name.flat, if_pos name.counted]

theorem relative (name : IsEntryName n) : (Path.mk n).isAbsolute = false := by
  cases n with
  | nil => rfl
  | cons b rest =>
    have other : b ≠ separator := fun same => name.flat (by simp [same])
    simp [Path.isAbsolute, other]

theorem names_join (name : IsEntryName n) (base : Path) :
    (base.join ⟨n⟩).names = base.names ++ [n] := by
  rw [Path.names_join base name.relative, name.names]

theorem nonempty (name : IsEntryName n) : n ≠ [] := by
  rintro rfl
  exact absurd name.counted (by decide)

theorem bytes_join (name : IsEntryName n) (base : Path) :
    ∃ front, (base.join ⟨n⟩).bytes = front ++ n := by
  unfold Path.join
  rw [name.relative, if_neg Bool.false_ne_true]
  split
  · exact ⟨[], rfl⟩
  · split
    · exact ⟨_, rfl⟩
    · exact ⟨base.bytes ++ [separator], by rw [List.append_assoc, List.singleton_append]⟩

theorem written (name : IsEntryName n) (base : Path) : (base.join ⟨n⟩).bytes ≠ [] := by
  obtain ⟨front, whole⟩ := name.bytes_join base
  simp [whole, name.nonempty]

theorem last_ne (name : IsEntryName n) (base : Path) :
    (base.join ⟨n⟩).bytes.getLast? ≠ some separator := by
  obtain ⟨front, whole⟩ := name.bytes_join base
  rw [whole, List.getLast?_append, List.getLast?_eq_some_getLast name.nonempty, Option.some_or]
  intro same
  exact name.flat (Option.some.inj same ▸ List.getLast_mem name.nonempty)

theorem start_join (name : IsEntryName n) (d : Volume) (base : Path) :
    d.start (base.join ⟨n⟩) = d.start base := by
  rw [start, Path.isAbsolute_join, name.relative, Bool.false_or, start]

/-- The pieces of the path to an entry are those of the path to its directory, and its name. -/
theorem steps_join (name : IsEntryName n) (base : Path) :
    ∃ front, steps (base.join ⟨n⟩).bytes = front ++ [n] ∧ front.filter counts = base.names := by
  have pieces := Path.filter_pieces_join (· ≠ []) (by simp) base name.relative
  rw [Path.pieces_flat name.flat, List.filter_cons_of_pos (by simpa using name.nonempty),
    List.filter_nil] at pieces
  refine ⟨_, by rw [steps, if_neg (name.last_ne base)]; exact pieces, ?_⟩
  have all := Path.filter_steps (base.join ⟨n⟩).bytes
  rw [steps, if_neg (name.last_ne base), pieces, List.filter_append] at all
  have joined := name.names_join base
  rw [Path.names, ← all, List.filter_cons_of_pos name.counted, List.filter_nil] at joined
  exact List.append_cancel_right joined

end IsEntryName

theorem place_child (plain : d.Plain) {p : Path} (enters : d.Enters p) {n : Name}
    (name : IsEntryName n) (last : Bool) : d.place last (p.join ⟨n⟩) =
      .ok ⟨n :: arrive (d.start p) p.names, d.top.at? (d.home p ++ [n])⟩ := by
  obtain ⟨front, steps, names⟩ := name.steps_join p
  rw [place_eq (name.written p), steps, name.start_join,
    follow_of_passes (by rw [names]; exact enters), names, follow, skipped_eq, name.counted,
    Bool.not_true, if_neg Bool.false_ne_true, if_neg name.down, if_neg (Nat.not_lt.2 name.short)]
  have there : (n :: arrive (d.start p) p.names).reverse = d.home p ++ [n] := List.reverse_cons
  dsimp only
  rw [there]
  cases found : d.top.at? (d.home p ++ [n]) with
  | none => rfl
  | some node =>
    cases node with
    | file content => rfl
    | directory entries =>
      dsimp only
      rw [follow, there, found]
    | link target => exact absurd (Node.standing?_eq_link_iff.2 found) (plain.linkless _ target)
    | lockedFile | lockedDirectory => rfl

/-- Only what a path enters has an entry with a place. -/
theorem enters_of_place (plain : d.Plain) {p : Path} {n : Name} (name : IsEntryName n) {last : Bool}
    {place : Place} (placed : d.place last (p.join ⟨n⟩) = .ok place) : d.Enters p := by
  obtain ⟨-, followed⟩ := place_ok plain placed
  rw [name.start_join, name.names_join] at followed
  rcases followed.passes with passes | ⟨xs, m, names, -, -, passes, -⟩
  · exact (passes_append.1 passes).1
  · obtain ⟨same, -⟩ := List.append_inj' names rfl
    rwa [Enters, same]

/-- A file is read in a directory that its path enters. -/
theorem read_child_iff (plain : d.Plain) {p : Path} {n : Name} (name : IsEntryName n)
    {content : ByteArray} :
    d.read (p.join ⟨n⟩) = .ok content ↔
      d.Enters p ∧ d.standing? (d.home p ++ [n]) = some (.file content) := by
  rw [standing?, Node.standing?_eq_file_iff]
  constructor
  · intro h
    cases placed : d.place true (p.join ⟨n⟩) with
    | error fault => simp [read, resolve, placed] at h
    | ok place =>
      have enters := enters_of_place plain name placed
      refine ⟨enters, ?_⟩
      rw [read, resolve, place_child plain enters name] at h
      cases found : d.top.at? (d.home p ++ [n]) with
      | none => simp [found] at h
      | some node => cases node <;> simp_all
  · rintro ⟨enters, there⟩
    rw [read, resolve, place_child plain enters name, there]

theorem readText_child_iff (plain : d.Plain) {p : Path} {n : Name} (name : IsEntryName n)
    {text : String} :
    d.readText (p.join ⟨n⟩) = .ok text ↔
      d.Enters p ∧ d.standing? (d.home p ++ [n]) = some (.file text.toUTF8) := by
  rw [← read_child_iff plain name, readText]
  cases d.read (p.join ⟨n⟩) with
  | error fault => simp [Except.bind]
  | ok content =>
    have decoded : textOf content = .ok text ↔ content = text.toUTF8 := by
      unfold textOf
      constructor
      · intro h
        split at h
        · next found =>
          cases h
          exact (Text.Utf8.toUTF8_of_decode? found).symm
        · cases h
      · rintro rfl
        rw [Text.Utf8.decode?_toUTF8]
    simpa [Except.bind] using decoded

end Volume

end Waymark.Disk
