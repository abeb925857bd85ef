import Mathlib.Data.List.Induction
import Waymark.Text.Bindings

/-!
# Looking names up

A name that is bound is found with its last value; a name that is not keeps what it had:

* `get?_set`: what a name is bound to after another binding;
* `get?_ofList_concat`, `get?_ofList_of_unique`, `get?_ofList_of_not_mem`: the same for pairs bound
  in order.
-/

namespace Waymark.Text.Bindings

variable {α : Type}

theorem get?_set (b : Bindings α) (name other : String) (value : α) :
    (b.set name value).get? other = if other = name then some value else b.get? other := by
  by_cases same : other = name
  · subst same
    simp [set, get?]
  · have apart : (other == name) = false := by simpa using same
    have kept (entries : List (String × α)) :
        (entries.filter fun entry => entry.1 ≠ name).lookup other = entries.lookup other := by
      induction entries with
      | nil => rfl
      | cons entry entries ih =>
        obtain ⟨key, v⟩ := entry
        by_cases dropped : key = name
        · subst dropped
          simpa [List.lookup_cons, apart] using ih
        · simp only [List.filter_cons, dropped, ne_eq, not_false_eq_true, decide_true, ↓reduceIte,
            List.lookup_cons]
          rw [ih]
    rw [if_neg same, set, get?, List.lookup_cons, apart]
    exact kept b.entries

theorem ofList_concat (pairs : List (String × α)) (name : String) (value : α) :
    ofList (pairs ++ [(name, value)]) = (ofList pairs).set name value := by
  rw [ofList, List.foldl_append]
  rfl

/-- The last of several pairs is found. -/
theorem get?_ofList_concat (pairs : List (String × α)) (name : String) (value : α) :
    (ofList (pairs ++ [(name, value)])).get? name = some value := by
  rw [ofList_concat, get?_set, if_pos rfl]

/-- A name that is bound to one value only is found with it. -/
theorem get?_ofList_of_unique {pairs : List (String × α)} {name : String} {value : α}
    (bound : (name, value) ∈ pairs) (only : ∀ pair ∈ pairs, pair.1 = name → pair.2 = value) :
    (ofList pairs).get? name = some value := by
  induction pairs using List.reverseRecOn with
  | nil => cases bound
  | append_singleton pairs pair ih =>
    obtain ⟨key, last⟩ := pair
    rw [ofList_concat, get?_set]
    by_cases own : name = key
    · rw [if_pos own]
      exact congrArg some (only (key, last) (by simp) own.symm)
    · rw [if_neg own]
      apply ih
      · simpa [own] using bound
      · intro pair hpair
        exact only pair (List.mem_append_left _ hpair)

/-- A name that no pair binds is not found. -/
theorem get?_ofList_of_not_mem {pairs : List (String × α)} {name : String}
    (absent : ∀ pair ∈ pairs, pair.1 ≠ name) : (ofList pairs).get? name = none := by
  have kept (b : Bindings α) :
      (pairs.foldl (fun b pair => b.set pair.1 pair.2) b).get? name = b.get? name := by
    induction pairs generalizing b with
    | nil => rfl
    | cons pair pairs ih =>
      rw [List.foldl_cons, ih (fun p hp => absent p (List.mem_cons_of_mem pair hp)), get?_set,
        if_neg (Ne.symm (absent pair (List.mem_cons_self ..)))]
  exact kept empty

end Waymark.Text.Bindings
