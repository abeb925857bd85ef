import Mathlib.Data.List.Basic
import Mathlib.Data.List.Nodup
import Waymark.Routing.Table

/-!
# Mount order is total

Mount order is total, and no two keys share a place in it. So sorted items do not hang on the order
in which they came:

* `MountKey.le_antisymm`: keys that are not after each other are one key;
* `map_key_inMountOrder`: sorting items sorts their keys;
* `inMountOrder_eq_of_perm`: sorted items do not hang on the order they came in;
* `Table.claimOf`: what a route claims.
-/

namespace Waymark.Routing

open Waymark.Http (Method)

namespace MountKey

/-- The parts of mount order, one after the other. -/
def order : MountKey → MountKey → Ordering :=
  compareLex (fun a b => Ord.compare b.priority.toNat a.priority.toNat) <|
  compareLex (fun a b => Ord.compare b.pattern.utf8ByteSize a.pattern.utf8ByteSize) <|
  compareLex (compareOn fun k => k.pattern) (compareOn fun k => k.method.rank)

theorem compare_eq (a b : MountKey) : a.compare b = order a b := rfl

instance : Std.TransCmp order := by
  have priority : Std.TransCmp fun a b : MountKey =>
      Ord.compare b.priority.toNat a.priority.toNat :=
    inferInstanceAs (Std.TransCmp fun a b : MountKey =>
      compareOn (fun k : MountKey => k.priority.toNat) b a)
  have length : Std.TransCmp fun a b : MountKey =>
      Ord.compare b.pattern.utf8ByteSize a.pattern.utf8ByteSize :=
    inferInstanceAs (Std.TransCmp fun a b : MountKey =>
      compareOn (fun k : MountKey => k.pattern.utf8ByteSize) b a)
  unfold order
  infer_instance

theorem le_trans (a b c : MountKey) (ab : a.le b) (bc : b.le c) : a.le c := by
  rw [le, compare_eq] at *
  exact Std.TransCmp.isLE_trans ab bc

theorem le_total (a b : MountKey) : (a.le b || b.le a) = true := by
  have swap : order b a = (order a b).swap := Std.OrientedCmp.eq_swap
  rw [le, le, compare_eq, compare_eq, swap]
  cases order a b <;> rfl

theorem rank_injective : Function.Injective Method.rank := by
  intro m n
  cases m <;> cases n <;> decide

theorem eq_of_compare {a b : MountKey} (h : a.compare b = .eq) : a = b := by
  rw [compare_eq] at h
  simp only [order, compareLex, compareOn, Ordering.then_eq_eq,
    Std.LawfulEqCmp.compare_eq_iff_eq] at h
  obtain ⟨priority, -, pattern, method⟩ := h
  obtain ⟨p, s, m⟩ := a
  obtain ⟨q, t, n⟩ := b
  obtain rfl : p = q := (UInt8.toNat_inj.1 priority).symm
  obtain rfl : s = t := pattern
  obtain rfl : m = n := rank_injective method
  rfl

/-- Keys that are not after each other are one key. -/
theorem le_antisymm {a b : MountKey} (ab : a.le b) (ba : b.le a) : a = b := by
  apply eq_of_compare
  rw [le, compare_eq] at *
  exact Std.OrientedCmp.isLE_antisymm ab ba

end MountKey

section
variable {α β : Type}

/-- Items and what they are shown as are sorted alike when both have the same keys. -/
theorem map_inMountOrder {key : α → MountKey} {shown : β → MountKey} {f : α → β}
    (same : ∀ a, shown (f a) = key a) (items : List α) :
    (inMountOrder key items).map f = inMountOrder shown (items.map f) := by
  apply List.map_mergeSort
  intro a _ b _
  rw [same, same]

theorem map_key_inMountOrder (key : α → MountKey) (items : List α) :
    (inMountOrder key items).map key = inMountOrder id (items.map key) := by
  apply map_inMountOrder
  intro a
  rfl

theorem perm_inMountOrder (key : α → MountKey) (items : List α) :
    (inMountOrder key items).Perm items :=
  List.mergeSort_perm items _

/-- No two of some items have one measure. -/
def ToldApart (measure : α → β) (items : List α) : Prop :=
  ∀ a ∈ items, ∀ b ∈ items, measure a = measure b → a = b

theorem toldApart_of_nodup {measure : α → β} {items : List α} (once : (items.map measure).Nodup) :
    ToldApart measure items :=
  fun _ ha _ hb => List.inj_on_of_nodup_map once ha hb

/-- Sorting undoes any rearrangement of items that are not level with each other. -/
theorem mergeSort_eq_of_perm {le : α → α → Bool} (trans : ∀ a b c, le a b → le b c → le a c)
    (total : ∀ a b, le a b || le b a) {items others : List α} (perm : others.Perm items)
    (apart : ∀ a ∈ items, ∀ b ∈ items, le a b → le b a → a = b) :
    others.mergeSort le = items.mergeSort le := by
  have same : (others.mergeSort le).Perm (items.mergeSort le) :=
    (List.mergeSort_perm others le).trans (perm.trans (List.mergeSort_perm items le).symm)
  refine same.eq_of_pairwise ?_ (List.pairwise_mergeSort trans total _)
    (List.pairwise_mergeSort trans total _)
  intro a b ha hb
  exact apart a (perm.mem_iff.1 (List.mem_mergeSort.1 ha)) b (List.mem_mergeSort.1 hb)

theorem pairwise_inMountOrder (key : α → MountKey) (items : List α) :
    (inMountOrder key items).Pairwise fun a b => (key a).le (key b) = true :=
  List.pairwise_mergeSort (fun a b c => MountKey.le_trans (key a) (key b) (key c))
    (fun a b => MountKey.le_total (key a) (key b)) items

/-- Sorted items do not hang on the order they came in, if their keys tell them apart. -/
theorem inMountOrder_eq_of_perm {key : α → MountKey} {items others : List α}
    (apart : ToldApart key items) (perm : others.Perm items) :
    inMountOrder key others = inMountOrder key items := by
  refine mergeSort_eq_of_perm (fun a b c => MountKey.le_trans (key a) (key b) (key c))
    (fun a b => MountKey.le_total (key a) (key b)) perm ?_
  intro a ha b hb ab ba
  exact apart a ha b hb (MountKey.le_antisymm ab ba)

/-- Sorted keys do not hang on the order they came in. -/
theorem inMountOrder_perm {keys others : List MountKey} (h : keys.Perm others) :
    inMountOrder id keys = inMountOrder id others := by
  apply inMountOrder_eq_of_perm _ h
  intro a _ b _ same
  exact same

end

namespace Table

/-- What a route claims: its pattern and its method. -/
def claimOf (r : Route) : String × Method := (r.pattern, r.method)

end Table

end Waymark.Routing
