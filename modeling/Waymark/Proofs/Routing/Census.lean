import Mathlib.Algebra.GroupWithZero.Nat
import Waymark.Proofs.Routing.FirstClaims
import Waymark.Proofs.Routing.Middleware
import Waymark.Proofs.Text.Encoding

/-!
# The census of middleware

The census is counted group by group, and one entry of it is found and changed for each
registration. It comes to the registrations themselves, each prefix and scope where it is first met
and with the number of times that it is met:

* `listed`, `count_listed`: a listing of targets, and what one more registration does to it;
* `tally_eq`: what counting a whole list of registrations comes to;
* `filter_targetsIn`: the groups hold the targets of a prefix as they were registered;
* `IsCensus`, `isCensus_attach`: the census of all registrations.
-/

namespace Waymark.Routing.Table

open Waymark.Disk (Name)

/-- What a registration is for: its prefix and its scope. -/
def Attached.target (a : Attached) : String × String := (a.pattern, a.scope)

/-- What an entry of a listing counts. -/
def targetOf (entry : String × String × Nat) : String × String := (entry.1, entry.2.1)

/-- A listing of targets, each with its size. -/
def listed (size : String × String → Nat) (targets : List (String × String)) :
    List (String × String × Nat) :=
  targets.map fun t => (t.1, t.2, size t)

section
variable {size : String × String → Nat} {targets : List (String × String)} {t : String × String}

@[simp] theorem map_targetOf_listed : (listed size targets).map targetOf = targets := by
  simp [listed, targetOf, Function.comp_def]

theorem mem_listed_iff {p s : String} {n : Nat} :
    (p, s, n) ∈ listed size targets ↔ (p, s) ∈ targets ∧ n = size (p, s) := by
  simp only [listed, List.mem_map, Prod.mk.injEq, Prod.exists]
  constructor
  · rintro ⟨q, r, mem, rfl, rfl, rfl⟩
    exact ⟨mem, rfl⟩
  · rintro ⟨mem, rfl⟩
    exact ⟨p, s, mem, rfl, rfl, rfl⟩

/-- One more registration adds to the size of its target, which comes last if it is new. -/
theorem count_listed (once : targets.Nodup) (absent : t ∉ targets → size t = 0) :
    count t.1 t.2 (listed size targets) =
      listed (fun u => size u + if u = t then 1 else 0) (targets ++ if t ∈ targets then []
        else [t]) := by
  induction targets with
  | nil => simp [listed, count, absent]
  | cons u rest ih =>
    obtain ⟨apart, behind⟩ := List.nodup_cons.1 once
    by_cases same : u = t
    · subst same
      have others : ∀ v ∈ rest, v ≠ u := fun v hv other => apart (other ▸ hv)
      simp +contextual [listed, count, others]
    · have other : ¬(u.1 = t.1 ∧ u.2 = t.2) := fun both => same (Prod.ext both.1 both.2)
      have step := ih behind fun fresh => absent (by simp [fresh, Ne.symm same])
      have head : count t.1 t.2 (listed size (u :: rest)) =
          (u.1, u.2, size u) :: count t.1 t.2 (listed size rest) := by
        rw [listed, List.map_cons, count, if_neg other, listed]
      rw [head, step]
      simp [listed, same, Ne.symm same]

end

/-- Registrations counted one after the other. -/
def tally (targets : List (String × String)) : List (String × String × Nat) :=
  targets.foldl (fun listing t => count t.1 t.2 listing) []

theorem tally_concat (targets : List (String × String)) (t : String × String) :
    tally (targets ++ [t]) = count t.1 t.2 (tally targets) := by
  rw [tally, List.foldl_concat, tally]

theorem firstsBy_id_nodup (targets : List (String × String)) : (firstsBy id targets).Nodup := by
  have apart : ((firstsBy id targets).map id).Nodup := firstsBy_nodup targets
  rwa [List.map_id] at apart

theorem mem_firstsBy_id_iff {targets : List (String × String)} {t : String × String} :
    t ∈ firstsBy id targets ↔ t ∈ targets := by
  have held : t ∈ (firstsBy id targets).map id ↔ t ∈ targets.map id := mem_map_firstsBy_iff
  rwa [List.map_id, List.map_id] at held

theorem filter_firstsBy_id (keep : String × String → Bool) (targets : List (String × String)) :
    (firstsBy id targets).filter keep = firstsBy id (targets.filter keep) :=
  firstsBy_filter keep targets

/-- Each target is listed where it is first met, with the number of times that it is met. -/
theorem tally_eq (targets : List (String × String)) :
    tally targets = listed (targets.count ·) (firstsBy id targets) := by
  induction targets using List.reverseRecOn with
  | nil => rfl
  | append_singleton targets t ih =>
    have sizes : (fun u => targets.count u + if u = t then 1 else 0) =
        ((targets ++ [t]).count ·) := by
      funext u
      obtain rfl | other := eq_or_ne u t
      · simp
      · simp [other, other.symm]
    have last : (if t ∈ firstsBy id targets then [] else [t]) =
        if (holder? id targets (id t)).isNone then [t] else [] := by
      have held : holder? id targets t = none ↔ t ∉ targets.map id := holder?_eq_none_iff targets t
      simp [mem_firstsBy_id_iff, held]
    have absent : t ∉ firstsBy id targets → targets.count t = 0 := by
      rw [mem_firstsBy_id_iff]
      exact List.count_eq_zero_of_not_mem
    rw [tally_concat, ih, count_listed (firstsBy_id_nodup targets) absent, sizes, last,
      firstsBy_concat]

/-- One more registration adds one to what a listing comes to. -/
theorem sum_count (pfx scope : String) (listing : List (String × String × Nat)) :
    ((count pfx scope listing).map fun entry => entry.2.2).sum =
      (listing.map fun entry => entry.2.2).sum + 1 := by
  induction listing with
  | nil => rfl
  | cons entry rest ih =>
    obtain ⟨p, s, n⟩ := entry
    rw [count]
    split
    · simp only [List.map_cons, List.sum_cons]
      omega
    · simp only [List.map_cons, List.sum_cons, ih]
      omega

/-- Counting loses no registration. -/
theorem sum_tally (targets : List (String × String)) :
    ((tally targets).map fun entry => entry.2.2).sum = targets.length := by
  induction targets using List.reverseRecOn with
  | nil => rfl
  | append_singleton targets t ih =>
    rw [tally_concat, sum_count, ih, List.length_append, List.length_singleton]

/-! ## The groups -/

/-- The targets of all entries, group by group. -/
def targetsIn (groups : List (String × List ScopedMiddleware)) : List (String × String) :=
  groups.flatMap fun g => g.2.map fun entry => (g.1, entry.scope)

theorem census_eq_tally (t : Table) : t.census = tally (targetsIn t.middleware) := by
  simp [census, tally, targetsIn, List.foldl_flatMap, List.foldl_map]

/-- The prefixes of the groups ascend, and so do those of their targets. -/
theorem targetsIn_sorted {groups : List (String × List ScopedMiddleware)} (h : Ascending groups) :
    (targetsIn groups).Pairwise fun t u => t.1 ≤ u.1 := by
  refine List.pairwise_flatMap.2 ⟨fun g _ => ?_, h.imp fun less => ?_⟩
  · exact List.pairwise_map.2 (List.pairwise_of_forall fun _ _ => le_refl g.1)
  · rintro t ht u hu
    obtain ⟨_, -, rfl⟩ := List.mem_map.1 ht
    obtain ⟨_, -, rfl⟩ := List.mem_map.1 hu
    exact less.le

/-- The targets of a prefix are those of its group. -/
theorem filter_targetsIn {groups : List (String × List ScopedMiddleware)} (h : Ascending groups)
    (p : String) :
    (targetsIn groups).filter (·.1 = p) =
      ((groups.lookup p).getD []).map fun entry => (p, entry.scope) := by
  induction groups with
  | nil => rfl
  | cons g rest ih =>
    obtain ⟨first, behind⟩ := List.pairwise_cons.1 h
    rw [targetsIn, List.flatMap_cons, ← targetsIn, List.filter_append, ih behind, lookup_cons_eq]
    by_cases here : p = g.1
    · subst here
      rw [lookup_eq_none_of_lt first]
      simp [List.filter_map, Function.comp_def]
    · simp [here, Ne.symm here, List.filter_map, Function.comp_def]

variable (calls : List Attached)

/-- The targets of a prefix are grouped as they were registered. -/
theorem filter_targetsIn_attach (p : String) :
    (targetsIn (empty.attach calls).middleware).filter (·.1 = p) =
      (calls.map Attached.target).filter (·.1 = p) := by
  have none' : empty.entriesAt p = [] := rfl
  rw [filter_targetsIn (isAscending_attach isAscending_empty calls), ← entriesAt,
    entriesAt_attach isAscending_empty, none', List.nil_append, List.map_map, List.filter_map]
  refine List.map_congr_left fun a ha => ?_
  have own : a.pattern = p := by simpa using (List.mem_filter.1 ha).2
  simp [Attached.target, own]

/-- The groups hold the targets that were registered, each as often. -/
theorem targetsIn_attach_perm :
    (targetsIn (empty.attach calls).middleware).Perm (calls.map Attached.target) := by
  refine List.perm_iff_count.2 fun t => ?_
  have own (targets : List (String × String)) :
      (targets.filter (·.1 = t.1)).count t = targets.count t :=
    List.count_filter (by simp)
  rw [← own, filter_targetsIn_attach, own]

/-- A listing that counts some registrations by their prefix and scope. Prefixes ascend in it byte
by byte, and the scopes of one prefix stand as they were first registered. -/
structure IsCensus (made : List (String × String)) (listing : List (String × String × Nat)) :
    Prop where
  distinct : (listing.map targetOf).Nodup
  exact : ∀ p s n, (p, s, n) ∈ listing ↔ 0 < n ∧ n = made.count (p, s)
  total : (listing.map fun entry => entry.2.2).sum = made.length
  ordered : listing.Pairwise fun e f => Name.ofString e.1 < Name.ofString f.1 ∨
    e.1 = f.1 ∧ made.findIdx (· = targetOf e) < made.findIdx (· = targetOf f)

/-- Counting the targets prefix by prefix makes a census of them. -/
theorem isCensus_tally {made grouped : List (String × String)} (perm : grouped.Perm made)
    (sorted : grouped.Pairwise fun t u => t.1 ≤ u.1)
    (kept : ∀ p, grouped.filter (·.1 = p) = made.filter (·.1 = p)) :
    IsCensus made (tally grouped) := by
  have sizes : (grouped.count ·) = (made.count ·) := funext perm.count_eq
  have listing : tally grouped =
      listed (made.count ·) (firstsBy id grouped) := by rw [tally_eq, sizes]
  constructor
  · rw [listing, map_targetOf_listed]
    exact firstsBy_id_nodup grouped
  · intro p s n
    rw [listing, mem_listed_iff, mem_firstsBy_id_iff, perm.mem_iff, ← List.count_pos_iff]
    constructor
    · rintro ⟨some', rfl⟩
      exact ⟨some', rfl⟩
    · rintro ⟨some', rfl⟩
      exact ⟨some', rfl⟩
  · rw [sum_tally, perm.length_eq]
  · rw [listing, listed, List.pairwise_map, List.pairwise_iff_forall_sublist]
    intro t u both
    by_cases same : t.1 = u.1
    · -- among the targets of one prefix, the groups are as good as the registrations
      have there : [t, u].Sublist ((firstsBy id grouped).filter fun v => v.1 = u.1) := by
        simpa [same] using both.filter fun v => decide (v.1 = u.1)
      have firsts : (firstsBy id grouped).filter (fun v => v.1 = u.1) =
          (firstsBy id made).filter fun v => v.1 = u.1 := by
        rw [filter_firstsBy_id, kept, filter_firstsBy_id]
      rw [firsts] at there
      have order : made.findIdx (id · = id t) < made.findIdx (id · = id u) :=
        List.pairwise_iff_forall_sublist.1 (firstsBy_pairwise made)
          (there.trans List.filter_sublist)
      exact .inr ⟨same, order⟩
    · have upward := List.pairwise_iff_forall_sublist.1 sorted
        (both.trans (firstsBy_sublist grouped))
      exact .inl (Name.ofString_lt (lt_of_le_of_ne upward same))

/-- **The census is exact.** Whatever middleware was registered, in whatever order, each prefix and
scope is listed once, with the number of registrations that were made for it, and nothing else
is. -/
theorem isCensus_attach : IsCensus (calls.map Attached.target) (empty.attach calls).census := by
  rw [census_eq_tally]
  exact isCensus_tally (targetsIn_attach_perm calls)
    (targetsIn_sorted (isAscending_attach isAscending_empty calls)) (filter_targetsIn_attach calls)

/-- Registrations for two prefixes, one after the other and not grouped. -/
def interleaved : List Attached :=
  [⟨"/users", "users", id⟩, ⟨"/", "(admin)", id⟩, ⟨"/users", "(admin)/users", id⟩,
    ⟨"/users", "users", id⟩]

example : (empty.attach interleaved).census =
    [("/", "(admin)", 1), ("/users", "users", 2),
      ("/users", "(admin)/users", 1)] := by decide +kernel

end Waymark.Routing.Table
