import Waymark.Proofs.Routing.Fate

/-!
# Rejected registrations

What a mux answers hangs on its proxy and its look-ups. A registration only touches the index of its
method, and a rejected one cannot be seen at all:

* `lookup_handle_of_ne`: a registration leaves the look-ups of the other methods as they are;
* `dispatch_eq_of_lookup`: muxes with the same look-ups give the same answers;
* `Node.InsertsQuietly`: a refused insertion leads every path where it led before;
* `search_eq_of_stores`: trees that store the same lead paths to the same;
* `rejected_unseen`: a rejected registration changes no answer.
-/

namespace Waymark.Routing

open Waymark.Handling
open Waymark.Http (Method Request)

/-! ## Trees that store the same -/

namespace Node

variable {α : Type}

/-- An insertion, if it is refused, leads every path where it led before. -/
def InsertsQuietly (n : Node α) (pattern : String) (value : α) : Prop :=
  (n.insert pattern value).2 ≠ none → ∀ path, (n.insert pattern value).1.at? path = n.at? path

/-- Trees that store the same lead a path to the same. -/
theorem search_eq_of_stores {depth : Nat} {n n' : Node α} (shaped : Shaped .branch depth n)
    (shaped' : Shaped .branch depth n') (same : ∀ us w ms, n'.Stores us w ms ↔ n.Stores us w ms)
    (path : List UInt8) : n'.search [] path = n.search [] path := by
  have answer := answer_search shaped path
  have answer' := answer_search shaped' path
  generalize n.search [] path = result at answer ⊢
  generalize n'.search [] path = result' at answer' ⊢
  cases result with
  | none =>
    cases result' with
    | none => rfl
    | some found =>
      obtain ⟨ts, v, ns, taken, rest, stored, fits, -, -⟩ := answer'
      exact absurd ⟨taken, rest, fits⟩ (answer ts v ns ((same ts v ns).1 stored))
  | some found =>
    obtain ⟨ts, v, ns, taken, rest, stored, fits, rfl, least⟩ := answer
    cases result' with
    | none => exact absurd ⟨taken, rest, fits⟩ (answer' ts v ns ((same ts v ns).2 stored))
    | some found' =>
      obtain ⟨us, w, ms, taken', rest', stored', fits', rfl, least'⟩ := answer'
      have there := (same us w ms).1 stored'
      -- each of the two templates is the other one, or comes before it
      have equal : us = ts := by
        obtain equal | before := least us w ms there ⟨taken', rest', fits'⟩
        · exact equal
        · obtain equal | after := least' ts v ns ((same ts v ns).2 stored) ⟨taken, rest, fits⟩
          · exact equal.symm
          · exact absurd after before.not_swap
      subst equal
      obtain ⟨rfl, rfl⟩ := shaped.unique there stored
      obtain ⟨rfl, rfl⟩ := fits.unique fits'
      rfl

/-- A refused insertion of a documented pattern cannot be seen. -/
theorem insertsQuietly_documented {n : Node α} (rooted : Rooted n) {cs : List Component}
    (documented : IsDocumented cs) (value : α) :
    n.InsertsQuietly (Mux.indexTemplate (patternOf cs)) value := by
  intro refused path
  obtain ⟨rooted', stores⟩ :=
    insert_refused_documented rooted documented (Option.ne_none_iff_isSome.1 refused)
  exact search_eq_of_stores rooted.1 rooted'.1 stores _

end Node

/-! ## Answers of a mux -/

namespace Mux

variable {m m' : Mux} {method : Method} {pattern : String} {handler : Handler}

theorem proxy_handle : (m.handle method pattern handler).1.proxy = m.proxy := rfl

/-- A registration leaves the look-ups of the other methods as they are. -/
theorem lookup_handle_of_ne {other : Method} (apart : other ≠ method) (path : String) :
    (m.handle method pattern handler).1.lookup other path = m.lookup other path := by
  rw [lookup, indexOf_handle, if_neg apart, lookup]

/-- What a mux allows hangs on its look-ups alone. -/
theorem allowed_eq_of_lookup (same : ∀ method path, m'.lookup method path = m.lookup method path)
    (path : String) : m'.allowed path = m.allowed path := by
  simp only [allowed_eq, same]

/-- What a mux answers hangs on its proxy and its look-ups alone. -/
theorem dispatch_eq_of_lookup (proxy : m'.proxy = m.proxy)
    (same : ∀ method path, m'.lookup method path = m.lookup method path) (request : Request) :
    m'.dispatch request = m.dispatch request := by
  have run : m'.run = m.run := by
    funext c
    simp only [Mux.run, route?, same, allowed_eq_of_lookup same]
  rw [dispatch, dispatch, proxy, run]

/-- The index of a method refuses what the mux rejects. -/
theorem insert_refused_of_rejected (rejected : (m.handle method pattern handler).2 ≠ none) :
    ((m.indexOf method).insert (indexTemplate pattern) handler).2 ≠ none := by
  intro taken
  exact rejected (by simp [handle, taken])

/-- A rejected registration changes no answer, and no method that is allowed, where the index of its
method refuses without a trace. -/
theorem rejected_unseen (quiet : (m.indexOf method).InsertsQuietly (indexTemplate pattern) handler)
    (rejected : (m.handle method pattern handler).2 ≠ none) :
    (∀ request, (m.handle method pattern handler).1.dispatch request = m.dispatch request) ∧
      ∀ path, (m.handle method pattern handler).1.allowed path = m.allowed path := by
  have same (other : Method) (path : String) :
      (m.handle method pattern handler).1.lookup other path = m.lookup other path := by
    by_cases own : other = method
    · subst own
      rw [lookup, indexOf_handle, if_pos rfl, quiet (insert_refused_of_rejected rejected) path,
        lookup]
    · exact lookup_handle_of_ne own path
  exact ⟨dispatch_eq_of_lookup proxy_handle same, allowed_eq_of_lookup same⟩

end Mux

end Waymark.Routing
