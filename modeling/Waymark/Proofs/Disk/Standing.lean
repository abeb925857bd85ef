import Mathlib
import Waymark.Disk.Change
import Waymark.Proofs.Scan.Walk

/-!
# What stands where

A disk is looked at name by name: under every chain of names there is a file with its content, a
directory, a link, something locked, or nothing. A change is described by what stands where after
it:

* `Volume.standing?`: what stands under a chain of names;
* `standing?_put`: setting a leaf changes what stands there, and nothing else;
* `Volume.Plain`: a disk without links, in which a directory holds a name once.
-/

namespace Waymark.Disk

/-- What can stand under a chain of names; what a directory holds has chains of its own. -/
inductive Standing where
  | file (content : ByteArray)
  | directory
  | link (target : List UInt8)
  | lockedFile
  | lockedDirectory
deriving DecidableEq

namespace Node

/-- What a node is, without what it holds. -/
def standing : Node → Standing
  | file content => .file content
  | directory _ => .directory
  | link target => .link target
  | lockedFile => .lockedFile
  | lockedDirectory => .lockedDirectory

/-- What stands under a chain of names. -/
def standing? (names : List Name) (node : Node) : Option Standing := (node.at? names).map standing

/-- Nothing lies below the node. -/
def IsLeaf (node : Node) : Prop := ∀ n, node.child? n = none

theorem isLeaf_file (content : ByteArray) : (Node.file content).IsLeaf := fun _ => rfl

theorem isLeaf_emptyDirectory : emptyDirectory.IsLeaf := fun _ => rfl

theorem at?_append (front back : List Name) (node : Node) :
    node.at? (front ++ back) = (node.at? front).bind (at? back) := by
  induction front generalizing node with
  | nil => rfl
  | cons n front ih =>
    rw [List.cons_append, at?, at?, Option.bind_assoc]
    congr 1
    funext child
    exact ih child

theorem standing?_eq_directory_iff {names : List Name} {node : Node} :
    node.standing? names = some .directory ↔
    ∃ entries, node.at? names = some (.directory entries) := by
  unfold standing?
  cases node.at? names with
  | none => simp
  | some found => cases found <;> simp [standing]

theorem standing?_eq_file_iff {names : List Name} {node : Node} {content : ByteArray} :
    node.standing? names = some (.file content) ↔ node.at? names = some (.file content) := by
  unfold standing?
  cases node.at? names with
  | none => simp
  | some found => cases found <;> simp [standing]

theorem standing?_eq_link_iff {names : List Name} {node : Node} {target : List UInt8} :
    node.standing? names = some (.link target) ↔ node.at? names = some (.link target) := by
  unfold standing?
  cases node.at? names with
  | none => simp
  | some found => cases found <;> simp [standing]

theorem standing?_eq_lockedDirectory_iff {names : List Name} {node : Node} :
    node.standing? names = some .lockedDirectory ↔ node.at? names = some .lockedDirectory := by
  unfold standing?
  cases node.at? names with
  | none => simp
  | some found => cases found <;> simp [standing]

theorem standing?_eq_none_iff {names : List Name} {node : Node} :
    node.standing? names = none ↔ node.at? names = none := by
  simp [standing?]

/-- What stands below something stands in a directory. -/
theorem directory_of_standing? {front : List Name} {n : Name} {rest : List Name} {node : Node}
    (below : node.standing? (front ++ n :: rest) ≠ none) :
    node.standing? front = some .directory := by
  rw [standing?_eq_directory_iff]
  rw [Ne, standing?_eq_none_iff, at?_append] at below
  cases found : node.at? front with
  | none => simp [found] at below
  | some child =>
    cases child with
    | directory entries => exact ⟨entries, rfl⟩
    | file | link | lockedFile | lockedDirectory => simp [found, at?, child?] at below

theorem standing?_file (content : ByteArray) (names : List Name) :
    (file content).standing? names = if names = [] then some (.file content) else none := by
  cases names <;> rfl

theorem standing?_cons (n : Name) (rest : List Name) (entries : List (Name × Node)) :
    (Node.directory entries).standing? (n :: rest) = (find n entries).bind (standing? rest) := by
  rw [standing?, at?, Option.map_bind]
  rfl

/-- A directory is without links if all that it holds is. -/
theorem linkless_directory {entries : List (Name × Node)} (once : (entries.map Prod.fst).Nodup)
    (below : ∀ e ∈ entries, ∀ names target, e.2.standing? names ≠ some (.link target))
    (names : List Name)
    (target : List UInt8) : (directory entries).standing? names ≠ some (.link target) := by
  cases names with
  | nil => exact nofun
  | cons n rest =>
    rw [standing?_cons]
    cases found : find n entries with
    | none => exact nofun
    | some child => exact below _ ((find_eq_some_iff once n child).1 found) rest target

/-! ## Setting a leaf -/

theorem find_setEntry (n m : Name) (value : Node) (entries : List (Name × Node)) :
    find m (setEntry n value entries) = if m = n then some value else find m entries := by
  induction entries with
  | nil =>
    rw [setEntry, find, find]
    by_cases same : n = m
    · rw [if_pos same, if_pos same.symm]
    · rw [if_neg same, if_neg (Ne.symm same)]
      rfl
  | cons e rest ih =>
    obtain ⟨k, node⟩ := e
    rw [setEntry, find]
    by_cases here : k = n
    · rw [if_pos here, find, here]
      by_cases same : n = m
      · rw [if_pos same, if_pos same.symm]
      · rw [if_neg same, if_neg (Ne.symm same), if_neg same]
    · rw [if_neg here, find, ih]
      by_cases first : k = m
      · rw [if_pos first, if_neg (first ▸ here), if_pos first]
      · rw [if_neg first, if_neg first]

theorem put_last (value : Node) (n : Name) (entries : List (Name × Node)) :
    put value [n] (.directory entries) = .directory (setEntry n value entries) := by
  unfold put
  cases find n entries <;> rfl

theorem put_below (value : Node) {n m : Name} {rest : List Name} {entries : List (Name × Node)}
    {child : Node}
    (found : find n entries = some child) : put value (n :: m :: rest) (.directory entries) =
      .directory (setEntry n (put value (m :: rest) child) entries) := by
  simp [put, found]

/-- A leaf that is set among some entries, where nothing lies below, is all that changes. -/
theorem standing?_setEntry {value : Node} (leaf : value.IsLeaf) {n : Name}
    {entries : List (Name × Node)}
    (alone : (directory entries).standing? [n] ≠ some .directory) (other : List Name) :
    (directory (setEntry n value entries)).standing? other =
      if other = [n] then some value.standing else (directory entries).standing? other := by
  cases other with
  | nil => rfl
  | cons m rest =>
    rw [standing?_cons, standing?_cons, find_setEntry]
    by_cases same : m = n
    · subst same
      rw [if_pos rfl, Option.bind_some]
      cases rest with
      | nil => simp [standing?, at?]
      | cons k rest =>
        have before : (find m entries).bind (standing? (k :: rest)) = none := by
          by_contra below
          rw [← standing?_cons, ← List.singleton_append] at below
          exact alone (directory_of_standing? below)
        rw [before]
        simp [standing?, at?, leaf k]
    · simp [same]

/-- A leaf that is set in a directory, where nothing lies below, is all that changes. -/
theorem standing?_put {value : Node} (leaf : value.IsLeaf) {front : List Name} {n : Name}
    {node : Node} (inside : node.standing? front = some .directory)
    (alone : node.standing? (front ++ [n]) ≠ some .directory) (other : List Name) :
    (put value (front ++ [n]) node).standing? other =
      if other = front ++ [n] then some value.standing else node.standing? other := by
  induction front generalizing node other with
  | nil =>
    obtain ⟨entries, found⟩ := standing?_eq_directory_iff.1 inside
    cases found
    rw [List.nil_append, put_last]
    exact standing?_setEntry leaf alone other
  | cons f front ih =>
    obtain ⟨entries, rfl⟩ : ∃ entries, node = .directory entries := by
      cases node with
      | directory entries => exact ⟨entries, rfl⟩
      | file | link | lockedFile | lockedDirectory => simp [standing?, at?, child?] at inside
    rw [standing?_cons] at inside
    rw [List.cons_append, standing?_cons] at alone
    obtain ⟨child, found, within⟩ := Option.bind_eq_some_iff.1 inside
    rw [found, Option.bind_some] at alone
    have below : put value (f :: (front ++ [n])) (.directory entries) =
        .directory (setEntry f (put value (front ++ [n]) child) entries) := by
      cases front <;> exact put_below value found
    rw [List.cons_append, below]
    cases other with
    | nil => rfl
    | cons m rest =>
      rw [standing?_cons, standing?_cons, find_setEntry]
      by_cases same : m = f
      · subst same
        simp [found, ih within alone]
      · simp [same]

/-! ## Names once -/

theorem map_fst_setEntry (n : Name) (value : Node) (entries : List (Name × Node)) :
    (setEntry n value entries).map Prod.fst =
      if n ∈ entries.map Prod.fst then entries.map Prod.fst else entries.map Prod.fst ++ [n] := by
  induction entries with
  | nil => rfl
  | cons e rest ih =>
    obtain ⟨k, node⟩ := e
    rw [setEntry]
    by_cases here : k = n
    · simp [here]
    · rw [if_neg here, List.map_cons, ih, List.map_cons]
      by_cases among : n ∈ rest.map Prod.fst
      · rw [if_pos among, if_pos (List.mem_cons_of_mem _ among)]
      · rw [if_neg among, if_neg (List.not_mem_cons_of_ne_of_not_mem (Ne.symm here) among),
          List.cons_append]

theorem mem_setEntry {n : Name} {value : Node} {entries : List (Name × Node)} {e : Name × Node}
    (h : e ∈ setEntry n value entries) : e = (n, value) ∨ e ∈ entries := by
  induction entries with
  | nil => simpa [setEntry] using h
  | cons first rest ih =>
    obtain ⟨k, node⟩ := first
    rw [setEntry] at h
    split at h
    · next here =>
      subst here
      exact (List.mem_cons.1 h).imp id (List.mem_cons_of_mem _)
    · rcases List.mem_cons.1 h with rfl | later
      · exact .inr List.mem_cons_self
      · exact (ih later).imp id (List.mem_cons_of_mem _)

theorem named_setEntry {P : Name → Prop} {n : Name} {value : Node} {entries : List (Name × Node)}
    (name : P n) (inner : value.Named P) (named : (directory entries).Named P) :
    (directory (setEntry n value entries)).Named P := by
  cases named with
  | directory _ once names below =>
    refine .directory _ ?_ ?_ ?_
    · rw [map_fst_setEntry]
      split
      · exact once
      · next fresh =>
        exact List.nodup_append.2 ⟨once, List.pairwise_singleton _ _, fun a ha b hb => by
          rw [List.mem_singleton] at hb
          exact fun same => fresh (hb ▸ same ▸ ha)⟩
    · intro e he
      rcases mem_setEntry he with rfl | old
      · exact name
      · exact names e old
    · intro e he
      rcases mem_setEntry he with rfl | old
      · exact inner
      · exact below e old

/-- A directory still holds a name once when a node is set below it. -/
theorem named_put {P : Name → Prop} {value : Node} (inner : value.Named P) {names : List Name}
    (each : ∀ n ∈ names, P n) {node : Node} (named : node.Named P) :
    (put value names node).Named P := by
  induction names generalizing node with
  | nil => exact inner
  | cons n rest ih =>
    have name : P n := each n List.mem_cons_self
    cases node with
    | file | link | lockedFile | lockedDirectory => exact named
    | directory entries =>
      unfold put
      cases found : find n entries with
      | some child =>
        refine named_setEntry name (ih (fun m hm => each m (List.mem_cons_of_mem _ hm)) ?_) named
        cases named with
        | directory _ once _ below => exact below _ ((find_eq_some_iff once n child).1 found)
      | none =>
        cases rest with
        | nil => exact named_setEntry name inner named
        | cons m rest => exact named

end Node

/-! ## Disks -/

namespace Volume

/-- What stands under a chain of names on a disk. -/
def standing? (d : Volume) (names : List Name) : Option Standing := d.top.standing? names

/-- A disk without links, in which a directory holds a name once. -/
structure Plain (d : Volume) : Prop where
  once : d.top.Named fun _ => True
  linkless : ∀ names target, d.standing? names ≠ some (.link target)

/-- What stands somewhere stands in a directory. -/
theorem directory_of_child {d : Volume} {names : List Name} {n : Name} {s : Standing}
    (there : d.standing? (names ++ [n]) = some s) : d.standing? names = some .directory := by
  have below : d.top.standing? (names ++ [n]) ≠ none := by
    rw [← standing?, there]
    exact nofun
  exact Node.directory_of_standing? below

/-- Something that is set in a directory, where no directory stands, is all that changes. -/
theorem standing?_putAt {d : Volume} {value : Node} (leaf : value.IsLeaf)
    {here : List Name} {n : Name} (inside : d.standing? here.reverse = some .directory)
    (alone : d.standing? (here.reverse ++ [n]) ≠ some .directory) (other : List Name) :
    (d.putAt (n :: here) value).standing? other =
      if other = here.reverse ++ [n] then some value.standing else d.standing? other := by
  rw [standing?, putAt, List.reverse_cons]
  exact Node.standing?_put leaf inside alone other

theorem plain_putAt {d : Volume} (plain : d.Plain) {value : Node} (leaf : value.IsLeaf)
    (inner : value.Named fun _ => True) (unlinked : ∀ target, value.standing ≠ .link target)
    {here : List Name} {n : Name} (inside : d.standing? here.reverse = some .directory)
    (alone : d.standing? (here.reverse ++ [n]) ≠ some .directory) :
    (d.putAt (n :: here) value).Plain where
  once := Node.named_put inner (fun _ _ => trivial) plain.once
  linkless names target := by
    rw [standing?_putAt leaf inside alone]
    split
    · exact fun same => unlinked target (Option.some.inj same)
    · exact plain.linkless names target

end Volume

end Waymark.Disk
