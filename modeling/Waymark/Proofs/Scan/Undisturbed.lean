import Mathlib.Data.List.Sort
import Waymark.Proofs.Disk.Making
import Waymark.Proofs.Scan.Discovery

/-!
# What a scan does not see

A walk says nothing of files that have no marker's name, nor of directories that it can read. A disk
on which only these differ is scanned alike:

* `Noticed`, `Alike`: what a walk says something about, and disks that agree in it;
* `visits_eq`: a walk through them meets the same;
* `scan_undisturbed`: a scan of them finds the same.
-/

namespace Waymark.Scan

open Waymark.Disk (Volume Path Name Node Standing)
open Waymark.Routing (Segment)

/-- A walk says something about what stands under a name: a file that is named as a marker, or a
directory that cannot be matched or read. -/
def Noticed (n : Name) : Standing → Prop
  | .directory => (Segment.classify n.display).isUnroutable = true
  | .lockedDirectory => Segment.isPrivate n.display = false
  | .file _ | .link _ | .lockedFile => (Marker.ofFileName? n.display).isSome = true

theorem noticed_of_metAt {directories : List Name} {n : Name} {node : Node} {v : Visit}
    (met : metAt directories n node = some v) : Noticed n node.standing := by
  unfold metAt at met
  cases node with
  | directory entries =>
    simp only [Node.isDirectory, if_true] at met
    split at met
    · cases met
    · split at met
      · next unroutable => exact unroutable
      · cases met
  | lockedDirectory =>
    simp only [Node.isDirectory, if_true] at met
    split at met
    · cases met
    · next shown => exact eq_false_of_ne_true shown
  | file | link | lockedFile =>
    simp only [Node.isDirectory, Bool.false_eq_true, if_false] at met
    obtain ⟨kind, marks, -⟩ := Option.map_eq_some_iff.1 met
    exact Option.isSome_iff_exists.2 ⟨kind, marks⟩

/-- What is met in an entry itself depends on what stands there. -/
theorem metAt_congr {node other : Node} (same : node.standing = other.standing)
    (directories : List Name)
    (n : Name) : metAt directories n node = metAt directories n other := by
  cases node <;> cases other <;> simp [Node.standing] at same
  · rw [same]
  · rfl
  · rw [same]
  · rfl
  · rfl

section
variable {app app' : Node} {P : Name → Prop}

/-- What a walk says something about in a directory stands in another one, too, as far as it is
walked through. -/
theorem visits_subset (named : app.Named P) (named' : app'.Named P)
    (kept : ∀ names n s, (∀ m ∈ names, Admitted m) → Noticed n s →
      app.standing? (names ++ [n]) = some s →
      app'.standing? (names ++ [n]) = some s) : visits app ⊆ visits app' := by
  intro v met
  obtain ⟨below, n, found, all, reached, itself⟩ := (mem_visitsOf_iff named [] v).1 met
  have there : app'.standing? (below ++ [n]) = some found.standing :=
    kept below n _ all (noticed_of_metAt itself) (by rw [Node.standing?, reached]; rfl)
  obtain ⟨found', reached', same⟩ := Option.map_eq_some_iff.1 there
  exact (mem_visitsOf_iff named' [] v).2 ⟨below, n, found', all, reached',
    (metAt_congr same _ _).trans itself⟩

/-- Walks that meet the same meet it in the same order. -/
theorem visits_eq (named : app.Named P) (named' : app'.Named P)
    (alike : ∀ names n s, (∀ m ∈ names, Admitted m) → Noticed n s →
      (app.standing? (names ++ [n]) = some s ↔ app'.standing? (names ++ [n]) = some s)) :
    visits app = visits app' := by
  have irrefl : Std.Irrefl fun v w : Visit => compare v.address w.address = .lt :=
    ⟨fun v before => by
      have self : compare v.address v.address = .eq := Std.ReflCmp.compare_self
      rw [self] at before
      cases before⟩
  have antisymm : Std.Antisymm fun v w : Visit => compare v.address w.address = .lt :=
    ⟨fun v w before after => by
      have swap : compare w.address v.address = (compare v.address w.address).swap :=
        Std.OrientedCmp.eq_swap
      rw [before, after] at swap
      cases swap⟩
  refine (visits_sorted named).eq_of_mem_iff (visits_sorted named') fun v => ⟨?_, ?_⟩
  · exact fun met => visits_subset named named' (fun names n s all noticed =>
      (alike names n s all noticed).1) met
  · exact fun met => visits_subset named' named (fun names n s all noticed =>
      (alike names n s all noticed).2) met

end

/-- What is met has the same content on two disks, if a scan asks for it. -/
def Visit.ReadsAlike (d d' : Volume) (root : Path) : Visit → Prop
  | .marker kind directories fileName node => (kind = .proxy → directories = []) →
      contentOf d' ((directories ++ [fileName]).foldl Path.joinName root) node =
        contentOf d ((directories ++ [fileName]).foldl Path.joinName root) node
  | .unroutable _ | .unreadable _ => True

/-- What reads alike is added alike. -/
theorem addVisit_of_readsAlike {d d' : Volume} {s : AppScan} {v : Visit}
    (alike : v.ReadsAlike d d' s.root) :
    addVisit d' s v = addVisit d s v := by
  cases v with
  | unroutable | unreadable => rfl
  | marker kind directories fileName node =>
    unfold addVisit
    dsimp only
    split
    · rfl
    · next read =>
      have asked : kind = .proxy → directories = [] := by simpa using read
      rw [alike asked]

theorem foldlM_of_readsAlike {d d' : Volume} {vs : List Visit} {s : AppScan}
    (alike : ∀ v ∈ vs, v.ReadsAlike d d' s.root) :
    vs.foldlM (addVisit d') s = vs.foldlM (addVisit d) s := by
  induction vs generalizing s with
  | nil => rfl
  | cons v vs ih =>
    rw [List.forall_mem_cons] at alike
    rw [List.foldlM_cons, List.foldlM_cons, addVisit_of_readsAlike alike.1]
    cases step : addVisit d s v with
    | error fault => rfl
    | ok t =>
      rw [← root_of_addVisit step] at alike
      exact ih alike.2

/-- What is met is no link, so that the disk is not asked for its content. -/
def Visit.IsHeld : Visit → Prop
  | .marker _ _ _ node => (∃ content, node = .file content) ∨ node = .lockedFile
  | .unroutable _ | .unreadable _ => True

/-- A file that is met reads alike on every disk. -/
theorem Visit.IsHeld.readsAlike {v : Visit} (held : v.IsHeld) (d d' : Volume) (root : Path) :
    v.ReadsAlike d d' root := by
  cases v with
  | unroutable | unreadable => trivial
  | marker kind directories fileName node =>
    obtain ⟨content, rfl⟩ | rfl := held
    · exact fun _ => rfl
    · exact fun _ => rfl

/-- Where there are no links, none is met. -/
theorem isHeld_of_mem_visits {app : Node} {P : Name → Prop} (named : app.Named P)
    (linkless : ∀ names target, app.standing? names ≠ some (.link target)) :
    ∀ v ∈ visits app, v.IsHeld := by
  intro v met
  cases v with
  | unroutable | unreadable => trivial
  | marker kind directories fileName node =>
    obtain ⟨-, reached, leaf, -⟩ := (mem_visits_iff named kind directories fileName node).1 met
    cases node with
    | file content => exact .inl ⟨content, rfl⟩
    | lockedFile => exact .inr rfl
    | directory | lockedDirectory => cases leaf
    | link target => exact absurd (Node.standing?_eq_link_iff.2 reached) (linkless _ target)

/-- What stands in the directory that stands somewhere. -/
theorem standing?_below {d : Volume} {here : List Name} {app : Node}
    (there : d.top.at? here = some app)
    (names : List Name) : d.standing? (here ++ names) = app.standing? names := by
  rw [Volume.standing?, Node.standing?, Node.at?_append, there, Option.bind_some, Node.standing?]

theorem named_at? {node found : Node} {P : Name → Prop} (named : node.Named P) {names : List Name}
    (reached : node.at? names = some found) : found.Named P := by
  induction names generalizing node with
  | nil =>
    cases reached
    exact named
  | cons n rest ih =>
    cases named with
    | file | link | lockedFile | lockedDirectory => simp [Disk.Node.at?, Node.child?] at reached
    | directory entries once names below =>
      rw [at?_cons_directory, Option.bind_eq_some_iff] at reached
      obtain ⟨child, here, deeper⟩ := reached
      exact ih (below _ ((Node.find_eq_some_iff once n child).1 here)) deeper

/-- Disks that have the same directories to start with, and agree in all that a walk says something
about. -/
structure Alike (d d' : Volume) : Prop where
  current : d'.current = d.current
  directories : ∀ names, d.standing? names = some .directory → d'.standing? names = some .directory
  noticed : ∀ names n s, Noticed n s →
    (d.standing? (names ++ [n]) = some s ↔ d'.standing? (names ++ [n]) = some s)

/-- A scan does not see what a walk says nothing about. -/
theorem scan_undisturbed {d d' : Volume} (plain : d.Plain) (plain' : d'.Plain) (alike : Alike d d')
    {root : Path} {s : AppScan} (scanned : scan d root = .ok s) : scan d' root = .ok s := by
  obtain ⟨entries, resolved⟩ : ∃ entries, d.resolve root = .ok (.directory entries) := by
    unfold scan at scanned
    split at scanned
    · next entries resolved => exact ⟨entries, resolved⟩
    · cases scanned
    · cases scanned
  obtain ⟨written, enters, there⟩ := (Volume.resolve_directory_iff plain).1 resolved
  have home : d'.home root = d.home root := Volume.home_eq alike.current root
  have inside : d'.standing? (d.home root) = some .directory :=
    alike.directories _ (Node.standing?_eq_directory_iff.2 ⟨entries, there⟩)
  obtain ⟨entries', there'⟩ := Node.standing?_eq_directory_iff.1 inside
  have enters' : d'.Enters root := by
    rw [Volume.Enters, Volume.start_eq alike.current rfl]
    exact enters.mono alike.directories
  have resolved' : d'.resolve root = .ok (.directory entries') :=
    (Volume.resolve_directory_iff plain').2 ⟨written, enters', by rw [home, there']⟩
  have below := standing?_below there
  have below' := standing?_below there'
  have named := named_at? plain.once there
  have named' := named_at? plain'.once there'
  have same : visits (.directory entries) = visits (.directory entries') := by
    refine visits_eq named named' fun names n s _ noticed => ?_
    rw [← below, ← below', ← List.append_assoc]
    exact alike.noticed _ n s noticed
  have held := isHeld_of_mem_visits named fun names target => by
    rw [← below]
    exact plain.linkless _ target
  rw [scan, resolved] at scanned
  rw [scan, resolved', ← scanned]
  show scanNode d' root _ = scanNode d root _
  rw [scanNode, scanNode, ← same, foldlM_of_readsAlike fun v met => (held v met).readsAlike d d' _]

end Waymark.Scan
