import Waymark.Proofs.Routing.Parameters
import Waymark.Proofs.Routing.PathIndex.Provenance
import Waymark.Proofs.Routing.PathIndex.Refusal
import Waymark.Proofs.Routing.Precedence

/-!
# Registrations, taken in or refused

A mux is filled by registrations one after the other, and a refused one leaves no trace that a
look-up could see:

* `attempt`, `attemptAll`: the mux, and the registrations that were taken in;
* `handle_refused`: a refused registration changes nothing that is held;
* `Accounted`, `Faithful`: what a mux has, and what it holds, are registrations that were taken in;
* `Registration.Takes`: a registration takes a path, with what its handler is given;
* `Faithful.takes_of_lookup`, `Faithful.lookup_eq_none_iff`: what a look-up finds, and when it finds
  nothing.
-/

namespace Waymark.Routing

open Template Waymark.Handling
open Waymark.Http (Method)
open Waymark.Text (Bindings splitString)
open Waymark.Text.Utf8 (encode)
open Table (Registration Written Held)

/-- A registration takes a path: its pattern matches, and `params` is what its handler is given. -/
def Table.Registration.Takes (r : Registration) (path : String) (params : Bindings String) : Prop :=
  ∃ cs parts values capture, IsDocumented cs ∧ r.pattern = patternOf cs ∧ path = slashed parts ∧
    Matches cs parts values capture ∧
    params = Bindings.ofList (((parameterNames cs).zip values ++ capture.toList).map renamed)

/-- The tokens of a pattern do not depend on the components it is taken apart into. -/
theorem tokensOf_of_patternOf {cs ds : List Component} (documented : IsDocumented cs)
    (documented' : IsDocumented ds) (same : patternOf cs = patternOf ds) :
    tokensOf cs = tokensOf ds := by
  -- The root is also the pattern of one empty component, with the same tokens.
  have rooted {cs : List Component} (documented : IsDocumented cs) (root : patternOf cs = "/") :
      tokensOf cs = [.literal slash] := by
    by_cases empty : cs = []
    · rw [tokensOf, if_pos empty]
    · have parts := splitString_patternOf documented.proper empty
      have split : splitString '/' "/" = ["", ""] := by decide
      rw [root, split, List.cons.injEq] at parts
      obtain ⟨c, rfl⟩ : ∃ c, cs = [c] := by
        apply List.length_eq_one_iff.1
        simpa using (congrArg List.length parts.2).symm
      have spelled : (Component.literal "").text = "" := by decide
      have blank : c.text = (Component.literal "").text := by simpa [spelled] using parts.2.symm
      rw [Component.eq_of_text (documented.proper c (by simp)) (by decide) blank]
      rfl
  by_cases empty : cs = []
  · subst empty
    exact (rooted documented' same.symm).symm
  · by_cases empty' : ds = []
    · subst empty'
      exact rooted documented same
    · have parts := splitString_patternOf documented.proper empty
      rw [same, splitString_patternOf documented'.proper empty', List.cons.injEq] at parts
      rw [eq_of_map_text documented.proper documented'.proper parts.2.symm]

namespace Node

variable {α : Type}

/-- A refused insertion of a documented pattern keeps what is stored. -/
theorem insert_refused_documented {n : Node α} (rooted : Rooted n) {cs : List Component}
    (documented : IsDocumented cs) {value : α}
    (refused : (n.insert (Mux.indexTemplate (patternOf cs)) value).2.isSome) :
    Rooted (n.insert (Mux.indexTemplate (patternOf cs)) value).1 ∧
      ∀ us w ms, (n.insert (Mux.indexTemplate (patternOf cs)) value).1.Stores us w ms ↔
      n.Stores us w ms := by
  have spells := spells_template documented
  by_cases few : (namesOf cs).length ≤ 25
  · exact insert_refused rooted (normalize_spells spells few) (spells.regular (by omega))
      (Mux.starts_tokensOf cs) refused
  · obtain ⟨e, crowded⟩ := normalize_crowded spells (by omega)
    rw [insert_abnormal crowded]
    exact ⟨rooted, fun _ _ _ => Iff.rfl⟩

end Node

namespace Mux

/-- One more registration is tried; the second part are those that were taken in. -/
def attempt (state : Mux × List Registration) (r : Registration) : Mux × List Registration :=
  match state.1.handle r.method r.pattern r.handler with
  | (m, none) => (m, state.2 ++ [r])
  | (m, some _) => (m, state.2)

/-- A mux without proxy after some registrations, and those that were taken in. -/
def attemptAll (calls : List Registration) : Mux × List Registration :=
  calls.foldl attempt (empty, [])

theorem attemptAll_concat (calls : List Registration) (r : Registration) :
    attemptAll (calls ++ [r]) = attempt (attemptAll calls) r := by
  rw [attemptAll, List.foldl_concat]
  rfl

theorem fst_attempt (state : Mux × List Registration) (r : Registration) :
    (attempt state r).1 = (state.1.handle r.method r.pattern r.handler).1 := by
  rw [attempt]
  split
  · next taken => rw [taken]
  · next refused => rw [refused]

theorem snd_attempt (state : Mux × List Registration) (r : Registration) :
    (attempt state r).2 = if (state.1.handle r.method r.pattern r.handler).2 =
      none then state.2 ++ [r]
      else state.2 := by
  rw [attempt]
  split
  · next taken => rw [taken, if_pos rfl]
  · next refused => rw [refused, if_neg (Option.some_ne_none _)]

/-- What was taken in was tried. -/
theorem taken_sublist (calls : List Registration) : (attemptAll calls).2.Sublist calls := by
  induction calls using List.reverseRecOn with
  | nil => exact List.Sublist.refl []
  | append_singleton calls r ih =>
    rw [attemptAll_concat, snd_attempt]
    split
    · exact ih.append (List.Sublist.refl [r])
    · exact ih.trans (List.sublist_append_left calls [r])

/-! ## Any patterns -/

/-- A mux has no proxy, and every handler in it is that of a registration that was taken in. -/
structure Accounted (state : Mux × List Registration) : Prop where
  unguarded : state.1.proxy = none
  owned : ∀ method v, (state.1.indexOf method).Has v → ∃ r ∈ state.2, r.method = method ∧
      r.handler = v

theorem accounted_empty : Accounted (empty, []) :=
  ⟨rfl, fun _ v has => absurd has (Node.not_has_blank v)⟩

theorem Accounted.attempt {state : Mux × List Registration} (accounted : Accounted state)
    (r : Registration) : Accounted (attempt state r) := by
  have still : ∀ method v, (state.1.indexOf method).Has v →
      ∃ s ∈ (Mux.attempt state r).2, s.method = method ∧ s.handler = v := by
    intro method v has
    obtain ⟨s, taken, same⟩ := accounted.owned method v has
    refine ⟨s, ?_, same⟩
    rw [snd_attempt]
    split
    · exact List.mem_append_left _ taken
    · exact taken
  constructor
  · rw [fst_attempt]
    exact accounted.unguarded
  · intro method v has
    rw [fst_attempt, indexOf_handle] at has
    split at has
    · next same =>
      subst same
      obtain old | ⟨unrefused, rfl⟩ := Node.insert_brings _ _ _ v has
      · exact still r.method v old
      · have taken : (state.1.handle r.method r.pattern r.handler).2 = none := by
          simp [handle, unrefused]
        refine ⟨r, ?_, rfl, rfl⟩
        rw [snd_attempt, if_pos taken]
        exact List.mem_append_right _ (List.mem_singleton_self r)
    · exact still method v has

theorem accounted_attemptAll (calls : List Registration) : Accounted (attemptAll calls) := by
  induction calls using List.reverseRecOn with
  | nil => exact accounted_empty
  | append_singleton calls r ih =>
    rw [attemptAll_concat]
    exact ih.attempt r

/-- What a look-up finds is the handler of a registration of its method that was taken in. -/
theorem Accounted.exists_taken {state : Mux × List Registration} (accounted : Accounted state)
    {method : Method} {path : String} {handler : Handler} {params : Bindings String}
    (found : state.1.lookup method path = some (handler, params)) :
    ∃ r ∈ state.2, r.method = method ∧ r.handler = handler := by
  obtain ⟨there, search, same⟩ := Option.map_eq_some_iff.1 found
  obtain ⟨rfl, -⟩ := Prod.mk.inj same
  exact accounted.owned method there.value (Node.has_of_search search)

/-! ## Documented patterns -/

/-- A refused registration changes nothing that is held. -/
theorem handle_refused {m : Mux} (rooted : m.Rooted) {cs : List Component}
    (documented : IsDocumented cs)
    {method : Method} {handler : Handler}
    (refused : (m.handle method (patternOf cs) handler).2 ≠ none) :
    (m.handle method (patternOf cs) handler).1.Rooted ∧
      ∀ other ts w ms, (m.handle method (patternOf cs) handler).1.Holds other ts w ms ↔
        m.Holds other ts w ms := by
  have refused' : ((m.indexOf method).insert (indexTemplate (patternOf cs)) handler).2.isSome := by
    rw [← Option.ne_none_iff_isSome]
    intro taken
    exact refused (by simp [handle, taken])
  obtain ⟨rooted', stores⟩ := Node.insert_refused_documented (rooted method) documented refused'
  constructor
  · intro other
    rw [indexOf_handle]
    split
    · exact rooted'
    · exact rooted other
  · intro other ts w ms
    rw [Holds, Holds, indexOf_handle]
    split
    · next same =>
      subst same
      exact stores ts w ms
    · exact Iff.rfl

/-- A mux holds the registrations that were taken in, and nothing else. -/
structure Faithful (parts : Registration → List Component) (state : Mux × List Registration) :
    Prop where
  rooted : state.1.Rooted
  holds : ∀ method ts w ms, state.1.Holds method ts w ms ↔
      ∃ r ∈ state.2, Held parts r method ts w ms
  written : Written parts state.2

section
variable {parts : Registration → List Component}

theorem faithful_empty : Faithful parts (empty, []) := by
  refine ⟨rooted_empty, ?_, by simp [Written]⟩
  intro method ts w ms
  rw [iff_false_intro (not_holds_empty method ts w ms)]
  simp

theorem Faithful.attempt {state : Mux × List Registration} (faithful : Faithful parts state)
    {r : Registration} (documented : IsDocumented (parts r))
    (pattern : r.pattern = patternOf (parts r)) :
    Faithful parts (attempt state r) := by
  have outcome := handle_spec faithful.rooted documented r.method r.handler
  have unchanged (refused : (state.1.handle r.method (patternOf (parts r)) r.handler).2 ≠ none) :=
    handle_refused faithful.rooted documented refused
  rw [← pattern] at outcome unchanged
  rw [Mux.attempt]
  generalize state.1.handle r.method r.pattern r.handler = result at outcome unchanged ⊢
  obtain ⟨m, _ | e⟩ := result
  · obtain ⟨-, -, rooted, gains⟩ := outcome
    refine ⟨rooted, ?_, ?_⟩
    · intro method ts w ms
      rw [gains, faithful.holds]
      simp only [List.mem_append, List.mem_singleton, or_and_right, exists_or, exists_eq_left]
      rfl
    · intro s hs
      obtain old | new := List.mem_append.1 hs
      · exact faithful.written s old
      · rw [List.mem_singleton.1 new]
        exact ⟨documented, pattern⟩
  · obtain ⟨rooted, holds⟩ := unchanged (Option.some_ne_none e)
    exact ⟨rooted, fun method ts w ms =>
      (holds method ts w ms).trans (faithful.holds method ts w ms), faithful.written⟩

theorem faithful_attemptAll {calls : List Registration} (written : Written parts calls) :
    Faithful parts (attemptAll calls) := by
  induction calls using List.reverseRecOn with
  | nil => exact faithful_empty
  | append_singleton calls r ih =>
    obtain ⟨documented, pattern⟩ := written r (by simp)
    rw [attemptAll_concat]
    exact (ih fun s hs => written s (List.mem_append_left _ hs)).attempt documented pattern

variable {state : Mux × List Registration} (faithful : Faithful parts state)
include faithful

/-- What a look-up finds is the handler of a registration that takes the path, with what that
takes. -/
theorem Faithful.takes_of_lookup {method : Method} {path : String} {handler : Handler}
    {params : Bindings String} (found : state.1.lookup method path = some (handler, params)) :
    ∃ r ∈ state.2, r.method = method ∧ r.handler = handler ∧ r.Takes path params := by
  obtain ⟨nothing, -⟩ | ⟨ts, w, ms, taken, rest, held, fits, -, answer⟩ :=
    lookup_answer faithful.rooted method path
  · rw [nothing] at found
    cases found
  · obtain ⟨r, mem, rfl, rfl, rfl, rfl⟩ := (faithful.holds _ _ _ _).1 held
    obtain ⟨documented, pattern⟩ := faithful.written r mem
    obtain ⟨parts', values, capture, rfl, matched⟩ := matches_of_fits documented fits
    obtain ⟨rfl, rfl⟩ := fits.unique (fits_of_matches matched)
    have given := paramsOf_matched r.handler (parts r) values capture
    rw [paramsOf] at given
    rw [given, found] at answer
    obtain ⟨rfl, rfl⟩ := Prod.mk.inj (Option.some.inj answer)
    exact ⟨r, mem, rfl, rfl, parts r, parts', values, capture, documented, pattern, rfl,
      matched, rfl⟩

/-- Nothing is found exactly when no registration that was taken in takes the path. -/
theorem Faithful.lookup_eq_none_iff (method : Method) (path : String) :
    state.1.lookup method path = none ↔
      ∀ r ∈ state.2, r.method = method → ∀ params, ¬ r.Takes path params := by
  constructor
  · intro nothing r mem same params takes
    obtain ⟨cs, parts', values, capture, documented, pattern, rfl, matched, -⟩ := takes
    obtain ⟨-, unreached⟩ | ⟨_, _, _, _, _, _, _, _, answer⟩ :=
      lookup_answer faithful.rooted method (slashed parts')
    · obtain ⟨documented', pattern'⟩ := faithful.written r mem
      have spelled : tokensOf (parts r) = tokensOf cs :=
        tokensOf_of_patternOf documented' documented
        (pattern'.symm.trans pattern)
      have held := (faithful.holds method (tokensOf cs) r.handler (namesOf (parts r))).2
        ⟨r, mem, same.symm, spelled.symm, rfl, rfl⟩
      exact unreached _ _ _ held ⟨_, _, fits_of_matches matched⟩
    · rw [nothing] at answer
      cases answer
  · intro untaken
    cases found : state.1.lookup method path with
    | none => rfl
    | some there =>
      obtain ⟨r, mem, same, -, takes⟩ := faithful.takes_of_lookup found
      exact absurd takes (untaken r mem same there.2)

end

end Mux

end Waymark.Routing
