import Mathlib.Data.String.Basic
import Waymark.Routing.Table

/-!
# Middleware in the table

Groups of middleware are found by their prefix, for prefixes stand in ascending order:

* `Table.entriesAt_addMiddleware`: a registration comes last in its group, other groups stay;
* `Table.entriesAt_attach`: the entries of a prefix are those registered for it, in their order;
* `Table.middlewareChain_attach`: the middleware around a route, prefix by prefix.
-/

namespace Waymark.Routing

open Waymark.Handling (Middleware)

namespace Table

/-- The prefixes of the groups ascend, so that each occurs once. -/
def Ascending (groups : List (String × List ScopedMiddleware)) : Prop :=
  groups.Pairwise fun g h => g.1 < h.1

variable {groups : List (String × List ScopedMiddleware)} {pfx : String} {entry : ScopedMiddleware}

theorem mem_insertMiddleware {g : String × List ScopedMiddleware}
    (h : g ∈ insertMiddleware pfx entry groups) : g.1 = pfx ∨ ∃ k ∈ groups, g.1 = k.1 := by
  induction groups with
  | nil =>
    simp only [insertMiddleware, List.mem_singleton] at h
    exact .inl (by rw [h])
  | cons k rest ih =>
    rw [insertMiddleware] at h
    split at h
    · next same =>
      obtain rfl | there := List.mem_cons.1 h
      · exact .inl same.symm
      · exact .inr ⟨g, by simp [there], rfl⟩
    · split at h
      · obtain rfl | there := List.mem_cons.1 h
        · exact .inl rfl
        · exact .inr ⟨g, there, rfl⟩
      · obtain rfl | there := List.mem_cons.1 h
        · exact .inr ⟨_, List.mem_cons_self, rfl⟩
        · obtain new | ⟨m, hm, same⟩ := ih there
          · exact .inl new
          · exact .inr ⟨m, by simp [hm], same⟩

theorem ascending_insertMiddleware (h : Ascending groups) (pfx : String)
    (entry : ScopedMiddleware) :
    Ascending (insertMiddleware pfx entry groups) := by
  induction groups with
  | nil => exact List.pairwise_singleton _ _
  | cons k rest ih =>
    obtain ⟨first, behind⟩ := List.pairwise_cons.1 h
    rw [insertMiddleware]
    split
    · exact List.pairwise_cons.2 ⟨first, behind⟩
    · next other =>
      split
      · next before =>
        refine List.pairwise_cons.2 ⟨?_, h⟩
        intro g hg
        obtain rfl | there := List.mem_cons.1 hg
        · exact before
        · exact before.trans (first g there)
      · next after =>
        have later : k.1 < pfx := lt_of_le_of_ne (not_lt.1 after) (Ne.symm other)
        refine List.pairwise_cons.2 ⟨?_, ih behind⟩
        intro g hg
        obtain same | ⟨m, hm, same⟩ := mem_insertMiddleware hg
        · rw [same]
          exact later
        · rw [same]
          exact first m hm

theorem lookup_eq_none_of_lt (h : ∀ g ∈ groups, pfx < g.1) : groups.lookup pfx = none := by
  rw [List.lookup_eq_none_iff]
  intro g hg
  simpa using (h g hg).ne

theorem lookup_cons_eq (g : String × List ScopedMiddleware) (p : String) :
    (g :: groups).lookup p = if p = g.1 then some g.2 else groups.lookup p := by
  rw [List.lookup_cons]
  by_cases same : p = g.1
  · simp [same]
  · simp [beq_eq_false_iff_ne.2 same, same]

theorem lookup_insertMiddleware (h : Ascending groups) (pfx p : String) (entry : ScopedMiddleware) :
    ((insertMiddleware pfx entry groups).lookup p).getD [] =
      (groups.lookup p).getD [] ++ if p = pfx then [entry] else [] := by
  induction groups with
  | nil => by_cases same : p = pfx <;> simp [insertMiddleware, lookup_cons_eq, same]
  | cons k rest ih =>
    obtain ⟨first, behind⟩ := List.pairwise_cons.1 h
    rw [insertMiddleware]
    split
    · next same =>
      subst same
      by_cases here : p = k.1 <;> simp [lookup_cons_eq, here]
    · next other =>
      split
      · next before =>
        -- every group of the table lies behind the new prefix
        have absent : (k :: rest).lookup pfx = none := by
          refine lookup_eq_none_of_lt fun g hg => ?_
          obtain rfl | there := List.mem_cons.1 hg
          · exact before
          · exact before.trans (first g there)
        rw [lookup_cons_eq (pfx, [entry])]
        by_cases here : p = pfx
        · subst here
          simp [absent]
        · simp [here]
      · rw [lookup_cons_eq, lookup_cons_eq]
        by_cases here : p = k.1
        · subst here
          simp [Ne.symm other]
        · simp [here, ih behind]

/-- The groups of the table ascend. -/
def IsAscending (t : Table) : Prop := Ascending t.middleware

theorem isAscending_empty : empty.IsAscending := List.Pairwise.nil

theorem isAscending_addMiddleware {t : Table} (h : t.IsAscending) (pfx scope : String)
    (middleware : Middleware) : (t.addMiddleware pfx scope middleware).IsAscending :=
  ascending_insertMiddleware h pfx _

/-- A registration comes last in the group of its prefix, and all other groups stay. -/
theorem entriesAt_addMiddleware {t : Table} (h : t.IsAscending) (pfx scope : String)
    (middleware : Middleware) (p : String) :
    (t.addMiddleware pfx scope middleware).entriesAt p =
      t.entriesAt p ++ if p = pfx then [⟨scope, middleware⟩] else [] :=
  lookup_insertMiddleware h pfx p _

/-- One registration of middleware. -/
structure Attached where
  pattern : String
  scope : String
  middleware : Middleware

/-- The table with some middleware registered, in order. -/
def attach (t : Table) (attached : List Attached) : Table :=
  attached.foldl (fun t a => t.addMiddleware a.pattern a.scope a.middleware) t

theorem isAscending_attach {t : Table} (h : t.IsAscending) (attached : List Attached) :
    (t.attach attached).IsAscending := by
  induction attached generalizing t with
  | nil => exact h
  | cons a rest ih => exact ih (isAscending_addMiddleware h a.pattern a.scope a.middleware)

theorem entriesAt_attach {t : Table} (h : t.IsAscending) (attached : List Attached) (p : String) :
    (t.attach attached).entriesAt p = t.entriesAt p ++
      (attached.filter (·.pattern = p)).map fun a => ⟨a.scope, a.middleware⟩ := by
  induction attached generalizing t with
  | nil => simp [attach]
  | cons a rest ih =>
    have step := ih (isAscending_addMiddleware h a.pattern a.scope a.middleware)
    rw [attach, List.foldl_cons, ← attach, step, entriesAt_addMiddleware h, List.append_assoc]
    by_cases here : a.pattern = p
    · simp [here]
    · simp [here, Ne.symm here]

/-- What surrounds a route: the middleware of each prefix, in its order, whose scope covers the
route. -/
theorem middlewareChain_attach (attached : List Attached) (pattern scope : String) :
    (empty.attach attached).middlewareChain pattern scope =
      ((prefixes pattern).flatMap fun p =>
        attached.filter fun a => a.pattern = p && scopeContains a.scope scope).map
          Attached.middleware := by
  have none' (p : String) : empty.entriesAt p = [] := rfl
  rw [middlewareChain, List.filter_flatMap, List.map_flatMap, List.map_flatMap]
  congr 1
  funext p
  rw [entriesAt_attach isAscending_empty, none', List.nil_append, List.filter_map, List.map_map,
    List.filter_filter]
  congr 1
  simp [Bool.and_comm]

end Table

end Waymark.Routing
