import Mathlib.Data.List.Basic
import Waymark.Scan.Walk

/-!
# The order of a walk

A file system holds a name once in a directory (`Named`). Under that premise a walk is described
without its recursion:

* `visits_sorted`: what is met comes in the order of the names on the way, a directory's content
  where the directory stands, so that no file is met twice;
* `mem_visits_iff`: the marker files met are those that every directory above admits.
-/

namespace Waymark.Disk

/-- Every directory holds a name once, and every name in it has the property. -/
inductive Node.Named (P : Name → Prop) : Node → Prop
  | file (content : ByteArray) : Named P (.file content)
  | link (target : List UInt8) : Named P (.link target)
  | lockedFile : Named P .lockedFile
  | lockedDirectory : Named P .lockedDirectory
  | directory (entries : List (Name × Node)) (once : (entries.map Prod.fst).Nodup)
      (names : ∀ e ∈ entries, P e.1) (below : ∀ e ∈ entries, Named P e.2) :
      Named P (.directory entries)

theorem Node.Named.imp {P Q : Name → Prop} (weaker : ∀ n, P n → Q n) {node : Node}
    (named : node.Named P) :
    node.Named Q := by
  induction named with
  | file content => exact .file content
  | link target => exact .link target
  | lockedFile => exact .lockedFile
  | lockedDirectory => exact .lockedDirectory
  | directory entries once names _ ih =>
    exact .directory entries once (fun e he => weaker _ (names e he)) ih

theorem Node.find_eq_some_iff {entries : List (Name × Node)} (once : (entries.map Prod.fst).Nodup)
    (n : Name) (node : Node) : Node.find n entries = some node ↔ (n, node) ∈ entries := by
  induction entries with
  | nil => simp [Node.find]
  | cons e rest ih =>
    obtain ⟨m, other⟩ := e
    simp only [List.map_cons, List.nodup_cons] at once
    by_cases same : m = n
    · subst same
      have absent (x : Node) : (m, x) ∉ rest := fun h => once.1 (List.mem_map_of_mem h)
      simp [Node.find, absent, eq_comm]
    · simp [Node.find, same, ih once.2, Ne.symm same]

end Waymark.Disk

namespace Waymark.Scan

open Waymark.Disk (Name Node)
open Waymark.Routing

/-- The names from the application directory to what is met. -/
def Visit.address : Visit → List Name
  | .marker _ directories fileName _ => directories ++ [fileName]
  | .unroutable directories | .unreadable directories => directories

/-- What a single entry of a directory contributes. -/
def entryFound (directories : List Name) (n : Name) (node : Node) : List Visit :=
  if node.isDirectory then
    if Segment.isPrivate n.display then []
    else if (Segment.classify n.display).isUnroutable then [.unroutable (directories ++ [n])]
    else if node.isLockedDirectory then [.unreadable (directories ++ [n])]
    else visitsOf (directories ++ [n]) node
  else match Marker.ofFileName? n.display with
    | some kind => [.marker kind directories n node]
    | none => []

theorem entryVisits_eq_map (directories : List Name) (entries : List (Name × Node)) :
    entryVisits directories entries = entries.map fun e =>
    (e.1, entryFound directories e.1 e.2) := by
  induction entries with
  | nil => rw [entryVisits]; rfl
  | cons e rest ih => rw [entryVisits, ih]; rfl

theorem mem_visitsOf_directory (directories : List Name) (entries : List (Name × Node))
    (v : Visit) :
    v ∈ visitsOf directories (.directory entries) ↔
      ∃ e ∈ entries, v ∈ entryFound directories e.1 e.2 := by
  rw [visitsOf, inNameOrder, entryVisits_eq_map]
  simp only [List.mem_flatMap, List.mem_mergeSort, List.mem_map]
  constructor
  · rintro ⟨_, ⟨e, he, rfl⟩, hv⟩
    exact ⟨e, he, hv⟩
  · rintro ⟨e, he, hv⟩
    exact ⟨_, ⟨e, he, rfl⟩, hv⟩

/-- A name by which a directory is entered. -/
def Admitted (n : Name) : Prop :=
  Segment.isPrivate n.display = false ∧ (Segment.classify n.display).isUnroutable = false

/-- What is met in an entry itself, and not in what lies below it. -/
def metAt (directories : List Name) (n : Name) (node : Node) : Option Visit :=
  if node.isDirectory then
    if Segment.isPrivate n.display then none
    else if (Segment.classify n.display).isUnroutable then some (.unroutable (directories ++ [n]))
    else if node.isLockedDirectory then some (.unreadable (directories ++ [n]))
    else none
  else (Marker.ofFileName? n.display).map fun kind => .marker kind directories n node

/-- An entry contributes what is met in itself, or what lies below it if it is entered. -/
theorem mem_entryFound_iff {directories : List Name} {n : Name} {node : Node} {v : Visit} :
    v ∈ entryFound directories n node ↔
      (node.isDirectory = true ∧ Admitted n ∧ v ∈ visitsOf (directories ++ [n]) node) ∨
        metAt directories n node = some v := by
  unfold entryFound metAt Admitted
  cases node with
  | directory entries =>
    cases Segment.isPrivate n.display with
    | true => simp [Node.isDirectory]
    | false =>
      cases (Segment.classify n.display).isUnroutable <;>
        simp [Node.isDirectory, Node.isLockedDirectory, @eq_comm _ v]
  | lockedDirectory =>
    rw [visitsOf]
    cases Segment.isPrivate n.display with
    | true => simp [Node.isDirectory]
    | false =>
      cases (Segment.classify n.display).isUnroutable <;>
        simp [Node.isDirectory, Node.isLockedDirectory, @eq_comm _ v]
  | file | link | lockedFile =>
    cases Marker.ofFileName? n.display <;> simp [Node.isDirectory, @eq_comm _ v]

theorem metAt_eq_marker_iff {directories dirs : List Name} {n fileName : Name} {node found : Node}
    {kind : Marker} : metAt directories n node = some (.marker kind dirs fileName found) ↔
      node.isDirectory = false ∧ Marker.ofFileName? n.display = some kind ∧ dirs = directories ∧
        fileName = n ∧ found = node := by
  unfold metAt
  cases node.isDirectory with
  | true =>
    cases Segment.isPrivate n.display with
    | true => simp
    | false =>
      cases (Segment.classify n.display).isUnroutable <;> cases node.isLockedDirectory <;> simp
  | false => cases Marker.ofFileName? n.display <;> simp [eq_comm]

theorem metAt_eq_unroutable_iff {directories dirs : List Name} {n : Name} {node : Node} :
    metAt directories n node = some (.unroutable dirs) ↔ node.isDirectory = true ∧
      Segment.isPrivate n.display = false ∧ (Segment.classify n.display).isUnroutable = true ∧
        dirs = directories ++ [n] := by
  unfold metAt
  cases node.isDirectory with
  | true =>
    cases Segment.isPrivate n.display with
    | true => simp
    | false =>
      cases (Segment.classify n.display).isUnroutable <;> cases node.isLockedDirectory <;>
        simp [eq_comm]
  | false => cases Marker.ofFileName? n.display <;> simp

theorem metAt_eq_unreadable_iff {directories dirs : List Name} {n : Name} {node : Node} :
    metAt directories n node = some (.unreadable dirs) ↔ node = .lockedDirectory ∧ Admitted n ∧
      dirs = directories ++ [n] := by
  unfold metAt Admitted
  cases node with
  | directory | lockedDirectory =>
    cases Segment.isPrivate n.display with
    | true => simp [Node.isDirectory]
    | false =>
      cases (Segment.classify n.display).isUnroutable <;>
        simp [Node.isDirectory, Node.isLockedDirectory, eq_comm]
  | file | link | lockedFile => cases Marker.ofFileName? n.display <;> simp [Node.isDirectory]

theorem at?_cons_directory (n : Name) (rest : List Name) (entries : List (Name × Node)) :
    Node.at? (n :: rest) (.directory entries) = (Node.find n entries).bind (Node.at? rest) := rfl

/-- What stands below something stands in a directory that can be listed. -/
theorem isListed_of_at? {names : List Name} (below : names ≠ []) {node found : Node}
    (h : node.at? names = some found) : ∃ entries, node = .directory entries := by
  obtain ⟨n, rest, rfl⟩ := List.exists_cons_of_ne_nil below
  cases node with
  | directory entries => exact ⟨entries, rfl⟩
  | file | link | lockedFile | lockedDirectory => simp [Disk.Node.at?, Node.child?] at h

variable {P : Name → Prop}

/-- A walk meets what is met in the entries that every directory above them admits. -/
theorem mem_visitsOf_iff {node : Node} (named : node.Named P) (base : List Name) (v : Visit) :
    v ∈ visitsOf base node ↔
      ∃ below n found, (∀ m ∈ below, Admitted m) ∧ node.at? (below ++ [n]) = some found ∧
        metAt (base ++ below) n found = some v := by
  induction named generalizing base with
  | file | link | lockedFile | lockedDirectory =>
    rw [visitsOf]
    simp only [List.not_mem_nil, false_iff, not_exists, not_and]
    intro below n found _ reached
    obtain ⟨entries, listed⟩ := isListed_of_at? (by simp) reached
    cases listed
  | directory entries once names below ih =>
    simp only [mem_visitsOf_directory, mem_entryFound_iff]
    constructor
    · rintro ⟨⟨n, node⟩, he, ⟨_, admitted, hv⟩ | met⟩
      · obtain ⟨below, m, found, all, reached, met⟩ := (ih _ he _).1 hv
        refine ⟨n :: below, m, found, by simpa using ⟨admitted, all⟩, ?_, by simpa using met⟩
        rw [List.cons_append, at?_cons_directory, (Node.find_eq_some_iff once n node).2 he]
        exact reached
      · refine ⟨[], n, node, by simp, ?_, by simpa using met⟩
        rw [List.nil_append, at?_cons_directory, (Node.find_eq_some_iff once _ _).2 he]
        rfl
    · rintro ⟨below, m, found, all, reached, met⟩
      cases below with
      | nil =>
        rw [List.nil_append, at?_cons_directory, Option.bind_eq_some_iff] at reached
        obtain ⟨node, here, same⟩ := reached
        simp only [Disk.Node.at?, Option.some.injEq] at same
        subst same
        exact ⟨_, (Node.find_eq_some_iff once _ _).1 here, .inr (by simpa using met)⟩
      | cons n below =>
        rw [List.cons_append, at?_cons_directory, Option.bind_eq_some_iff] at reached
        obtain ⟨node, here, deeper⟩ := reached
        have he := (Node.find_eq_some_iff once _ _).1 here
        have directory : node.isDirectory = true := by
          obtain ⟨entries, rfl⟩ := isListed_of_at? (by simp) deeper
          rfl
        refine ⟨_, he, .inl ⟨directory, all n (by simp), (ih _ he _).2 ?_⟩⟩
        exact ⟨below, m, found, fun k hk => all k (by simp [hk]), deeper, by simpa using met⟩

theorem named_of_at? {node found : Node} (named : node.Named P) {names : List Name}
    (h : node.at? names = some found) : ∀ n ∈ names, P n := by
  induction names generalizing node with
  | nil => simp
  | cons n rest ih =>
    cases named with
    | file | link | lockedFile | lockedDirectory => simp [Disk.Node.at?, Node.child?] at h
    | directory entries once names below =>
      rw [at?_cons_directory, Option.bind_eq_some_iff] at h
      obtain ⟨child, here, deeper⟩ := h
      have entry := (Node.find_eq_some_iff once n child).1 here
      exact List.forall_mem_cons.2 ⟨names _ entry, ih (below _ entry) deeper⟩

/-- The marker files that a walk meets are those that every directory above them admits. -/
theorem mem_visits_iff {app : Node} (named : app.Named P) (kind : Marker) (directories : List Name)
    (fileName : Name) (found : Node) :
    .marker kind directories fileName found ∈ visits app ↔
      (∀ n ∈ directories, Admitted n) ∧ app.at? (directories ++ [fileName]) = some found ∧
        found.isDirectory = false ∧ Marker.ofFileName? fileName.display = some kind := by
  rw [visits, mem_visitsOf_iff named]
  simp only [List.nil_append, metAt_eq_marker_iff]
  constructor
  · rintro ⟨below, n, node, all, reached, leaf, marks, rfl, rfl, rfl⟩
    exact ⟨all, reached, leaf, marks⟩
  · rintro ⟨all, reached, leaf, marks⟩
    exact ⟨_, _, _, all, reached, leaf, marks, rfl, rfl, rfl⟩

theorem address_of_mem {node : Node} (named : node.Named P) {base : List Name} {v : Visit}
    (h : v ∈ visitsOf base node) : base <+: v.address := by
  induction named generalizing base with
  | file | link | lockedFile | lockedDirectory =>
    rw [visitsOf] at h
    simp at h
  | directory entries once names below ih =>
    obtain ⟨⟨n, node⟩, he, hv⟩ := (mem_visitsOf_directory base entries v).1 h
    unfold entryFound at hv
    split at hv
    · split at hv
      · simp at hv
      · split at hv
        · simp only [List.mem_singleton] at hv
          subst hv
          exact List.prefix_append _ _
        · split at hv
          · simp only [List.mem_singleton] at hv
            subst hv
            exact List.prefix_append _ _
          · exact (List.prefix_append _ _).trans (ih _ he hv)
    · split at hv
      · simp only [List.mem_singleton] at hv
        subst hv
        exact List.prefix_append _ _
      · simp at hv

/-- What an entry contributes lies at it or below it. -/
theorem address_of_mem_entryFound {node : Node} (named : node.Named P) {base : List Name} {n : Name}
    {v : Visit} (h : v ∈ entryFound base n node) : base ++ [n] <+: v.address := by
  unfold entryFound at h
  split at h
  · split at h
    · simp at h
    · split at h
      · simp only [List.mem_singleton] at h
        subst h
        exact List.prefix_rfl
      · split at h
        · simp only [List.mem_singleton] at h
          subst h
          exact List.prefix_rfl
        · exact address_of_mem named h
  · split at h
    · simp only [List.mem_singleton] at h
      subst h
      exact List.prefix_rfl
    · simp at h

theorem compare_append_left (base as bs : List Name) :
    compare (base ++ as) (base ++ bs) = compare as bs := by
  induction base with
  | nil => rfl
  | cons n base ih => simp [List.compare_cons_cons, ih]

theorem compare_of_prefix {base as bs : List Name} {n m : Name} (before : compare n m = .lt)
    (ha : base ++ [n] <+: as) (hb : base ++ [m] <+: bs) : compare as bs = .lt := by
  obtain ⟨_, rfl⟩ := ha
  obtain ⟨_, rfl⟩ := hb
  simp [List.append_assoc, compare_append_left, List.compare_cons_cons, before]

theorem pairwise_mergeSort_names {β : Type} {found : List (Name × β)}
    (once : (found.map Prod.fst).Nodup) :
    (found.mergeSort fun a b => nameLe a.1 b.1).Pairwise fun a b => compare a.1 b.1 = .lt := by
  have total (a b : Name × β) : nameLe a.1 b.1 || nameLe b.1 a.1 := by
    have swap : compare b.1 a.1 = (compare a.1 b.1).swap := Std.OrientedCmp.eq_swap
    simp only [nameLe, swap]
    cases compare a.1 b.1 <;> rfl
  have trans (a b c : Name × β) (hab : nameLe a.1 b.1) (hbc : nameLe b.1 c.1) : nameLe a.1 c.1 :=
    Std.TransCmp.isLE_trans hab hbc
  have sorted : (found.mergeSort fun a b => nameLe a.1 b.1).Pairwise fun a b => nameLe a.1 b.1 :=
    List.pairwise_mergeSort trans total found
  have apart : ((found.mergeSort fun a b => nameLe a.1 b.1).map Prod.fst).Nodup :=
    ((List.mergeSort_perm found _).map Prod.fst).nodup_iff.2 once
  rw [List.nodup_iff_pairwise_ne, List.pairwise_map] at apart
  refine (sorted.and apart).imp ?_
  rintro a b ⟨le, ne⟩
  cases h : compare a.1 b.1 with
  | lt => rfl
  | eq => exact absurd (Std.LawfulEqCmp.eq_of_compare h) ne
  | gt => simp [nameLe, h] at le

theorem inNameOrder_of_sorted {found : List (Name × List Visit)}
    (sorted : found.Pairwise fun a b => nameLe a.1 b.1) :
    inNameOrder found = found.flatMap Prod.snd := by
  rw [inNameOrder, List.mergeSort_of_pairwise sorted]

theorem visitsOf_sorted {node : Node} (named : node.Named P) (base : List Name) :
    (visitsOf base node).Pairwise fun v w => compare v.address w.address = .lt := by
  induction named generalizing base with
  | file | link | lockedFile | lockedDirectory =>
    rw [visitsOf]
    exact List.Pairwise.nil
  | directory entries once names below ih =>
    rw [visitsOf, inNameOrder, List.pairwise_flatMap]
    have member {found : Name × List Visit}
        (h : found ∈ (entryVisits base entries).mergeSort fun a b => nameLe a.1 b.1) :
        ∃ e ∈ entries, (e.1, entryFound base e.1 e.2) = found := by
      rw [List.mem_mergeSort, entryVisits_eq_map] at h
      simpa using h
    have distinct : ((entryVisits base entries).map Prod.fst).Nodup := by
      simpa [entryVisits_eq_map, Function.comp_def] using once
    constructor
    · intro found h
      obtain ⟨e, he, rfl⟩ := member h
      show (entryFound base e.1 e.2).Pairwise _
      unfold entryFound
      split
      · split
        · exact List.Pairwise.nil
        · split
          · exact List.pairwise_singleton _ _
          · split
            · exact List.pairwise_singleton _ _
            · exact ih e he _
      · split
        · exact List.pairwise_singleton _ _
        · exact List.Pairwise.nil
    · refine (pairwise_mergeSort_names distinct).imp_of_mem ?_
      intro a b ha hb before v hv w hw
      obtain ⟨e, he, rfl⟩ := member ha
      obtain ⟨f, hf, rfl⟩ := member hb
      exact compare_of_prefix before (address_of_mem_entryFound (below e he) hv)
        (address_of_mem_entryFound (below f hf) hw)

/-- A walk meets everything in the order of the names that lead to it. -/
theorem visits_sorted {app : Node} (named : app.Named P) :
    (visits app).Pairwise fun v w => compare v.address w.address = .lt :=
  visitsOf_sorted named []

end Waymark.Scan
