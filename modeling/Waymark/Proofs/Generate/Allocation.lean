import Mathlib.Data.Finset.Card
import Waymark.Proofs.Generate.Names

/-!
# The search for a free name

A free name for a base is searched among its candidates, and nothing bounds that search but that
only so many names are given out:

* `Searches`: the search, candidate by candidate;
* `searches_iff`: where it ends;
* `Searches.tried_le`: it looks at one candidate more than names are given out, at the most;
* `FirstFree`: a base, or the base with the least number behind it, that is free;
* `allocate_first_free`: what one call comes to, and what a sequence of calls does.
-/

namespace Waymark.Generate.Names

/-- The search for a free name from the `n`-th candidate of a base on. It goes on while candidates
are given out, and counts those that it looks at. -/
inductive Searches (used : List String) (base : String) : Nat → Nat → String → Prop
  | free {n : Nat} (absent : candidate base n ∉ used) : Searches used base n 1 (candidate base n)
  | taken {n tried : Nat} {name : String} (present : candidate base n ∈ used)
      (later : Searches used base (n + 1) tried name) : Searches used base n (tried + 1) name

section
variable {used : List String} {base : String}

/-- A search ends at the first candidate that is free. -/
theorem searches_iff {n tried : Nat} {name : String} : Searches used base n tried name ↔
    ∃ k, tried = k + 1 ∧ name = candidate base (n + k) ∧ candidate base (n + k) ∉ used ∧
      ∀ j < k, candidate base (n + j) ∈ used := by
  constructor
  · intro search
    induction search with
    | free absent => exact ⟨0, rfl, rfl, absent, by simp⟩
    | @taken n _ _ present _ ih =>
      obtain ⟨k, rfl, rfl, absent, before⟩ := ih
      have shift (j : Nat) : n + 1 + j = n + (j + 1) := by omega
      simp only [shift] at absent before ⊢
      refine ⟨k + 1, rfl, rfl, absent, fun j hj => ?_⟩
      cases j with
      | zero => exact present
      | succ j => exact before j (by omega)
  · rintro ⟨k, rfl, rfl, absent, before⟩
    induction k generalizing n with
    | zero => exact .free absent
    | succ k ih =>
      have shift (j : Nat) : n + (j + 1) = n + 1 + j := by omega
      rw [shift] at absent ⊢
      refine .taken (before 0 (by omega)) (ih absent fun j hj => ?_)
      rw [← shift]
      exact before (j + 1) (by omega)

/-- A search ends in one way only. -/
theorem Searches.unique {n tried tried' : Nat} {name name' : String}
    (one : Searches used base n tried name) (other : Searches used base n tried' name') :
    tried = tried' ∧ name = name' := by
  induction one generalizing tried' with
  | free absent =>
    cases other with
    | free => exact ⟨rfl, rfl⟩
    | taken present => exact absurd present absent
  | taken present later ih =>
    cases other with
    | free absent => exact absurd present absent
    | taken present' later' =>
      obtain ⟨rfl, rfl⟩ := ih later'
      exact ⟨rfl, rfl⟩

/-- No two candidates are the same, so the names that are given out keep a search going no longer
than there are such names. -/
theorem Searches.tried_le {n tried : Nat} {name : String}
    (search : Searches used base n tried name) :
    tried ≤ used.toFinset.card + 1 := by
  obtain ⟨k, rfl, -, -, before⟩ := searches_iff.1 search
  have apart : Function.Injective fun j => candidate base (n + j) := by
    intro i j same
    have := candidate_injective base same
    omega
  have among : (Finset.range k).image (fun j => candidate base (n + j)) ⊆ used.toFinset := by
    intro name tested
    obtain ⟨j, hj, rfl⟩ := Finset.mem_image.1 tested
    exact List.mem_toFinset.2 (before j (Finset.mem_range.1 hj))
  have fewer := Finset.card_le_card among
  rw [Finset.card_image_of_injective _ apart, Finset.card_range] at fewer
  omega

end

/-- The first name for a text that is free: the text itself, or the text with the least number
behind it. -/
inductive FirstFree (used : List String) (text : String) : String → Prop
  | itself (free : text ∉ used) : FirstFree used text text
  | numbered {n : Nat} (taken : text ∈ used) (low : 2 ≤ n) (free : text ++ "_" ++ toString n ∉ used)
      (least : ∀ m, 2 ≤ m → m < n → text ++ "_" ++ toString m ∈ used) :
      FirstFree used text (text ++ "_" ++ toString n)

/-- A search from the base on finds its first free name. -/
theorem Searches.firstFree {used : List String} {base name : String} {tried : Nat}
    (search : Searches used base 0 tried name) : FirstFree used base name := by
  obtain ⟨k, -, rfl, absent, before⟩ := searches_iff.1 search
  rw [Nat.zero_add] at absent ⊢
  simp only [Nat.zero_add] at before
  cases k with
  | zero => exact .itself absent
  | succ k =>
    refine .numbered (before 0 (by omega)) (by omega) absent fun m low high => ?_
    obtain ⟨j, rfl⟩ := Nat.exists_eq_add_of_le' low
    exact before (j + 1) (by omega)

/-- A call searches for a free name, and gives out the one that it finds. -/
theorem searches_allocate (names : Names) (base : String) :
    ∃ tried, Searches names.used (identifierOf base) 0 tried (names.allocate base).1 := by
  obtain ⟨k, same, before⟩ := names.allocate_eq_candidate base
  have absent := names.allocate_not_mem base
  rw [same] at absent ⊢
  have start : candidate (identifierOf base) k =
      candidate (identifierOf base) (0 + k) := by rw [Nat.zero_add]
  refine ⟨k + 1, searches_iff.2 ⟨k, rfl, start, start ▸ absent, fun j hj => ?_⟩⟩
  rw [Nat.zero_add]
  exact before j hj

theorem identifierOf_eq (base : String) :
    identifierOf base = if base.toList.head?.any Char.isDigit then "_" ++ base else base := by
  unfold identifierOf
  split
  · next chars => simp [chars]
  · next chars => simp [chars]

/-- What a call for a base comes to, when it gives out `name` and leaves the names `after`. -/
structure Allocated (names : Names) (base name : String) (after : Names) : Prop where
  /-- The search ends, in one way, and with no more than one candidate for each name given out and
  one. -/
  ends : ∃ tried ≤ names.used.toFinset.card + 1, ∀ k found,
    Searches names.used (identifierOf base) 0 k found ↔ k = tried ∧ found = name
  unused : name ∉ names.used
  used : ∀ other, other ∈ after.used ↔ other = name ∨ other ∈ names.used
  first : FirstFree names.used (if base.toList.head?.any Char.isDigit then "_" ++ base
        else base) name

theorem allocated_allocate (names : Names) (base : String) :
    Allocated names base (names.allocate base).1 (names.allocate base).2 := by
  obtain ⟨tried, search⟩ := names.searches_allocate base
  constructor
  · refine ⟨tried, search.tried_le, fun k found => ⟨fun other => other.unique search, ?_⟩⟩
    rintro ⟨rfl, rfl⟩
    exact search
  · exact names.allocate_not_mem base
  · exact fun other => List.mem_cons
  · rw [← identifierOf_eq]
    exact search.firstFree

/-- Names for some bases, given out one after the other. -/
def allocateAll : Names → List String → List String × Names
  | names, [] => ([], names)
  | names, base :: bases =>
    let (name, names) := names.allocate base
    let (others, names) := allocateAll names bases
    (name :: others, names)

/-- Names that are given out one after the other are free and different. -/
theorem allocateAll_fresh (names : Names) (bases : List String) :
    (names.allocateAll bases).1.Nodup ∧ (∀ name ∈ (names.allocateAll bases).1, name ∉ names.used) ∧
      ∀ other, other ∈ (names.allocateAll bases).2.used ↔
        other ∈ (names.allocateAll bases).1 ∨ other ∈ names.used := by
  induction bases generalizing names with
  | nil => simp [allocateAll]
  | cons base bases ih =>
    obtain ⟨-, unused, used, -⟩ := names.allocated_allocate base
    obtain ⟨apart, fresh, all⟩ := ih (names.allocate base).2
    simp only [used, not_or] at fresh all
    rw [allocateAll]
    refine ⟨List.nodup_cons.2 ⟨fun again => (fresh _ again).1 rfl, apart⟩, ?_, ?_⟩
    · exact List.forall_mem_cons.2 ⟨unused, fun name given => (fresh name given).2⟩
    · intro other
      rw [all, List.mem_cons, or_left_comm, or_assoc]

/-- **A free name is found.** Whatever names are given out, the search for a base ends, after no
more candidates than those names and one. It gives out the base, or the base with the least number
behind it, that was free, and only this name is taken from then on. So the names that a sequence of
calls gives out are all different. -/
theorem allocate_first_free (names : Names) :
    (∀ base, Allocated names base (names.allocate base).1 (names.allocate base).2) ∧
      ∀ bases, (names.allocateAll bases).1.Nodup ∧
      ∀ name ∈ (names.allocateAll bases).1, name ∉ names.used := by
  refine ⟨names.allocated_allocate, fun bases => ?_⟩
  obtain ⟨apart, fresh, -⟩ := names.allocateAll_fresh bases
  exact ⟨apart, fresh⟩

/-- A suffixed name can be the natural name of another base. -/
example : (empty.allocateAll ["a", "a", "a_2", "404", "a"]).1 =
    ["a", "a_2", "a_2_2", "_404", "a_3"] := by
  decide +kernel

end Waymark.Generate.Names
