import Mathlib.Data.List.Infix
import Mathlib.Data.List.Nodup

/-!
# The first to make a claim

Items come one after the other, each with a claim. The first to make a claim holds it against all
that come later.

* `holder?`: the item that holds a claim;
* `firstsBy`, `latersBy`: the items that hold their claim, and the others with its holder;
* `firstsBy_concat`, `latersBy_concat`: what one more item comes to;
* `holder?_firstsBy`: dropping the others changes no holder;
* `firstsBy_nodup`, `length_firstsBy_add_length_latersBy`: no claim is held twice, and no item is
  lost;
* `firstsBy_pairwise`, `firstsBy_filter`: the order of the claims that are held, and of some of
  them.
-/

namespace Waymark.Routing

section
variable {α κ : Type} [DecidableEq κ] {claim : α → κ}

/-- The first of some items that makes a claim. -/
def holder? (claim : α → κ) (items : List α) (c : κ) : Option α :=
  items.find? fun a => claim a = c

/-- Each item together with all items before it. -/
def withBefore (items : List α) : List (List α × α) := items.inits.zip items

/-- The items whose claim nothing before them has made. -/
def firstsBy (claim : α → κ) (items : List α) : List α :=
  ((withBefore items).filter fun p => (holder? claim p.1 (claim p.2)).isNone).map Prod.snd

/-- The items whose claim was made before them, each behind the first that made it. -/
def latersBy (claim : α → κ) (items : List α) : List (α × α) :=
  (withBefore items).filterMap fun p => (holder? claim p.1 (claim p.2)).map fun first =>
    (first, p.2)

theorem holder?_append (items more : List α) (c : κ) :
    holder? claim (items ++ more) c = (holder? claim items c).or (holder? claim more c) :=
  List.find?_append

theorem holder?_eq_none_iff (items : List α) (c : κ) :
    holder? claim items c = none ↔ c ∉ items.map claim := by
  simp [holder?]

theorem holder?_isSome_iff (items : List α) (c : κ) :
    (holder? claim items c).isSome ↔ c ∈ items.map claim := by
  simp [holder?]

theorem mem_of_holder? {items : List α} {c : κ} {a : α} (h : holder? claim items c = some a) :
    a ∈ items ∧ claim a = c :=
  ⟨List.mem_of_find?_eq_some h, by simpa using List.find?_some h⟩

theorem holder?_eq_some_iff {items : List α} (once : (items.map claim).Nodup) (a : α) (c : κ) :
    holder? claim items c = some a ↔ a ∈ items ∧ claim a = c := by
  constructor
  · exact mem_of_holder?
  · rintro ⟨mem, rfl⟩
    obtain ⟨x, found⟩ := Option.isSome_iff_exists.1
      ((holder?_isSome_iff items (claim a)).2 (List.mem_map_of_mem mem))
    obtain ⟨among, same⟩ := mem_of_holder? found
    rw [found, List.inj_on_of_nodup_map once among mem same]

theorem withBefore_concat (items : List α) (a : α) :
    withBefore (items ++ [a]) = withBefore items ++ [(items, a)] := by
  induction items with
  | nil => rfl
  | cons first rest ih =>
    simp only [withBefore, List.cons_append, List.inits_cons, List.zip_cons_cons,
      List.zip_map_left] at ih ⊢
    rw [ih]
    simp

theorem firstsBy_concat (items : List α) (a : α) : firstsBy claim (items ++ [a]) =
    firstsBy claim items ++ if (holder? claim items (claim a)).isNone then [a] else [] := by
  rw [firstsBy, withBefore_concat, List.filter_append, List.map_append, firstsBy]
  split <;> next h => simp [h]

theorem latersBy_concat (items : List α) (a : α) : latersBy claim (items ++ [a]) =
    latersBy claim items
      ++ ((holder? claim items (claim a)).map fun first => (first, a)).toList := by
  rw [latersBy, withBefore_concat, List.filterMap_append, latersBy]
  cases h : holder? claim items (claim a) <;> simp [h]

/-- Dropping the items that hold nothing changes no holder. -/
theorem holder?_firstsBy (items : List α) (c : κ) :
    holder? claim (firstsBy claim items) c = holder? claim items c := by
  induction items using List.reverseRecOn with
  | nil => rfl
  | append_singleton items a ih =>
    rw [firstsBy_concat, holder?_append, holder?_append, ih]
    cases earlier : holder? claim items c with
    | some x => simp
    | none =>
      by_cases same : claim a = c
      · subst same
        simp [earlier]
      · split <;> simp [holder?, same]

theorem firstsBy_nodup (items : List α) : ((firstsBy claim items).map claim).Nodup := by
  induction items using List.reverseRecOn with
  | nil => exact List.nodup_nil
  | append_singleton items a ih =>
    rw [firstsBy_concat]
    split
    · next free =>
      have fresh : claim a ∉ (firstsBy claim items).map claim := by
        rw [← holder?_eq_none_iff, holder?_firstsBy]
        simpa using free
      rw [List.map_append, List.nodup_append]
      refine ⟨ih, List.nodup_singleton _, ?_⟩
      rintro c hc d hd rfl
      simp only [List.map_cons, List.map_nil, List.mem_singleton] at hd
      exact fresh (hd ▸ hc)
    · simpa using ih

theorem length_firstsBy_add_length_latersBy (items : List α) :
    (firstsBy claim items).length + (latersBy claim items).length = items.length := by
  induction items using List.reverseRecOn with
  | nil => rfl
  | append_singleton items a ih =>
    rw [firstsBy_concat, latersBy_concat]
    cases holder? claim items (claim a) with
    | none => simp; omega
    | some x => simp; omega

theorem map_snd_withBefore (items : List α) : (withBefore items).map Prod.snd = items :=
  List.map_snd_zip (by simp)

theorem firstsBy_sublist (items : List α) : (firstsBy claim items).Sublist items := by
  have kept : (firstsBy claim items).Sublist ((withBefore items).map Prod.snd) :=
    List.filter_sublist.map Prod.snd
  rwa [map_snd_withBefore] at kept

theorem firstsBy_subset (items : List α) : firstsBy claim items ⊆ items :=
  (firstsBy_sublist items).subset

/-- Every claim that is made is held. -/
theorem mem_map_firstsBy_iff {items : List α} {c : κ} :
    c ∈ (firstsBy claim items).map claim ↔ c ∈ items.map claim := by
  rw [← holder?_isSome_iff, holder?_firstsBy, holder?_isSome_iff]

/-- The claims are held in the order in which they are first made. -/
theorem firstsBy_pairwise (items : List α) : (firstsBy claim items).Pairwise fun a b =>
    items.findIdx (claim · = claim a) < items.findIdx (claim · = claim b) := by
  induction items using List.reverseRecOn with
  | nil => exact List.Pairwise.nil
  | append_singleton items a ih =>
    have made {b : α} (hb : b ∈ firstsBy claim items) :
        items.findIdx (claim · = claim b) < items.length :=
      List.findIdx_lt_length.2 ⟨b, firstsBy_subset items hb, by simp⟩
    have before : (firstsBy claim items).Pairwise fun b c =>
        (items ++ [a]).findIdx (claim · = claim b) <
          (items ++ [a]).findIdx (claim · = claim c) := by
      refine ih.imp_of_mem fun {b c} hb hc less => ?_
      rwa [List.findIdx_append, if_pos (made hb), List.findIdx_append, if_pos (made hc)]
    rw [firstsBy_concat]
    split
    · next free =>
      have fresh : ¬ items.findIdx (claim · = claim a) < items.length := by
        simpa [holder?] using free
      refine List.pairwise_append.2 ⟨before, List.pairwise_singleton _ _, ?_⟩
      rintro b hb c hc
      obtain rfl := List.mem_singleton.1 hc
      rw [List.findIdx_append, if_pos (made hb), List.findIdx_append, if_neg fresh]
      exact Nat.lt_add_left _ (made hb)
    · rwa [List.append_nil]

/-- Who holds a claim depends on the items that make it, so that other claims may be left out. -/
theorem firstsBy_filter (keep : κ → Bool) (items : List α) :
    (firstsBy claim items).filter (fun a => keep (claim a)) =
      firstsBy claim (items.filter fun a => keep (claim a)) := by
  have holder (items : List α) {c : κ} (kept : keep c = true) :
      holder? claim (items.filter fun a => keep (claim a)) c = holder? claim items c := by
    rw [holder?, List.find?_filter, holder?]
    congr 1
    funext a
    by_cases same : claim a = c <;> simp [same, kept]
  induction items using List.reverseRecOn with
  | nil => rfl
  | append_singleton items a ih =>
    rw [firstsBy_concat, List.filter_append, ih, List.filter_append]
    cases kept : keep (claim a) with
    | true =>
      have all : ([a].filter fun a => keep (claim a)) = [a] := by simp [kept]
      rw [all, firstsBy_concat, holder items kept]
      split <;> simp [kept]
    | false =>
      have none' : ([a].filter fun a => keep (claim a)) = [] := by simp [kept]
      rw [none', List.append_nil]
      split <;> simp [kept]

/-- An item that comes later stands behind the first of all that makes its claim. -/
theorem holder?_of_mem_latersBy {items : List α} {p : α × α} (h : p ∈ latersBy claim items) :
    holder? claim items (claim p.2) = some p.1 := by
  induction items using List.reverseRecOn with
  | nil => simp [latersBy, withBefore] at h
  | append_singleton items a ih =>
    rw [latersBy_concat, List.mem_append] at h
    rw [holder?_append]
    cases h with
    | inl before => rw [ih before, Option.some_or]
    | inr last =>
      obtain ⟨first, holds, rfl⟩ := Option.map_eq_some_iff.1 (Option.mem_toList.1 last)
      rw [holds, Option.some_or]

/-- Items with claims of their own are measured against what stands before all of them. -/
theorem holder?_of_nodup {more : List α} {a : α} (apart : ((more ++ [a]).map claim).Nodup)
    (items : List α) : holder? claim (items ++ more) (claim a) = holder? claim items (claim a) := by
  rw [List.map_append, List.nodup_append] at apart
  have other : holder? claim more (claim a) = none :=
    (holder?_eq_none_iff _ _).2 fun h => apart.2.2 _ h (claim a) (by simp) rfl
  rw [holder?_append, other, Option.or_none]

theorem firstsBy_append {items more : List α} (apart : (more.map claim).Nodup) :
    firstsBy claim (items ++ more) =
      firstsBy claim items ++ more.filter fun a => (holder? claim items (claim a)).isNone := by
  induction more using List.reverseRecOn with
  | nil => simp
  | append_singleton more a ih =>
    have before : (more.map claim).Nodup := by
      rw [List.map_append] at apart
      exact apart.of_append_left
    rw [← List.append_assoc, firstsBy_concat, ih before, holder?_of_nodup apart,
      List.filter_append, List.append_assoc]
    cases h : holder? claim items (claim a) <;> simp [h]

theorem latersBy_append {items more : List α} (apart : (more.map claim).Nodup) :
    latersBy claim (items ++ more) = latersBy claim items ++
      more.filterMap fun a => (holder? claim items (claim a)).map fun first => (first, a) := by
  induction more using List.reverseRecOn with
  | nil => simp
  | append_singleton more a ih =>
    have before : (more.map claim).Nodup := by
      rw [List.map_append] at apart
      exact apart.of_append_left
    rw [← List.append_assoc, latersBy_concat, ih before, holder?_of_nodup apart,
      List.filterMap_append, List.append_assoc]
    cases h : holder? claim items (claim a) <;> simp [h]

/-- Items with claims of their own all hold them. -/
theorem firstsBy_of_nodup {items : List α} (apart : (items.map claim).Nodup) :
    firstsBy claim items = items ∧ latersBy claim items = [] := by
  have free (a : α) : holder? claim [] (claim a) = none := rfl
  constructor
  · have all : firstsBy claim ([] ++ items) = _ := firstsBy_append apart
    simpa [free, firstsBy, withBefore] using all
  · have none : latersBy claim ([] ++ items) = _ := latersBy_append apart
    simpa [free, latersBy, withBefore] using none

end

end Waymark.Routing
