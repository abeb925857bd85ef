import Waymark.Proofs.Routing.Handled
import Waymark.Proofs.Routing.Kinds
import Waymark.Proofs.Routing.MountOrder

/-!
# Explicit routes at the base of an optional catch-all

An optional catch-all is registered twice, for its own pattern and for its base. A route that has
the base as its own pattern is mounted before, and a router that keeps what it holds then refuses
the base:

* `entry`, `attempts`, `attempted`: the registrations of a mount, and what the router comes to by
  them;
* `KeepsHandlers`: what is assumed of a router, and `Mux.keepsHandlers` that a mux behaves so;
* `priority_ne_of_plain`: precedence tells patterns with a wildcard from others;
* `exists_attempts`: the base is registered behind the route whose own pattern it is;
* `explicit_route_keeps_base`: so the route keeps its place.
-/

namespace Waymark.Routing

open Waymark.Handling
open Waymark.Http (Method)

/-- The chain up to its first wildcard. -/
def beforeWildcard (chain : List Segment) : List Segment := chain.takeWhile fun s => !s.isWildcard

theorem beforeWildcard_map_classify (raws : List String) :
    beforeWildcard (raws.map Segment.classify) =
    (raws.takeWhile fun raw => !(Segment.classify raw).isWildcard).map Segment.classify := by
  rw [beforeWildcard, List.takeWhile_map]
  rfl

theorem urlPattern_beforeWildcard (chain : List Segment) :
    urlPattern (beforeWildcard chain) = patternOf (frontOf chain) := by
  rw [urlPattern_eq_patternOf]
  congr 1
  induction chain with
  | nil => rfl
  | cons s chain ih =>
    rw [beforeWildcard, List.takeWhile_cons, frontOf]
    cases wild : s.isWildcard with
    | true => rfl
    | false =>
      rw [Bool.not_false, if_pos rfl, componentsOf_cons, wild, if_neg Bool.false_ne_true,
        if_neg Bool.false_ne_true, ← ih]
      rfl

namespace Table

variable {σ : Type} [PathRouter σ]

/-- The handler of a route as it is handed to a router, in all its middleware. -/
def handlerOf (t : Table) (global : List Middleware) (r : Route) : Handler :=
  compose (global ++ t.middlewareChain r.pattern r.scope ++ r.middleware) r.endpoint

/-- A registration of a route under a pattern. -/
def entry (t : Table) (global : List Middleware) (r : Route) (pattern : String) : Registration :=
  ⟨r.method, pattern, t.handlerOf global r⟩

/-- Everything that a mount tries to register, in order. -/
def attempts (t : Table) (global : List Middleware) : List Registration :=
  t.routesInOrder.flatMap (t.registrations global)

/-- What a router has come to after some registrations of a mount, and the report so far. -/
def attempted (t : Table) (router : σ) (rs : List Registration) : σ × MountReport :=
  rs.foldl register
    (match t.proxy with
      | none => router
      | some proxy => PathRouter.setProxy router proxy, ⟨0, []⟩)

theorem mount_eq_attempted (t : Table) (router : σ) (global : List Middleware) :
    t.mount router global = t.attempted router (t.attempts global) := rfl

theorem registrations_eq_map (t : Table) (global : List Middleware) (r : Route) :
    t.registrations global r = (r.pattern :: r.basePattern?.toList).map (t.entry global r) := rfl

/-- The pattern of each route comes from a chain of directories, and its priority from the
pattern. -/
def Derived (t : Table) : Prop := ∀ r ∈ t.routes, r.priority = priority r.pattern ∧
  ∃ raws : List String, (∀ raw ∈ raws, IsWritable raw) ∧
    r.pattern = urlPattern (raws.map Segment.classify)

/-- A router refuses a pattern that it holds, and keeps the handler it holds for it. `Reached` are
the states that a router comes to, `Holds` says which handler it holds for a method and a
pattern. -/
structure KeepsHandlers (Reached : σ → Prop) (Holds : σ → Method → String → Handler → Prop) :
    Prop where
  guarded : ∀ {router proxy}, Reached router → Reached (PathRouter.setProxy router proxy)
  reached : ∀ {router method pattern handler}, Reached router → IsPattern pattern →
    Reached (PathRouter.handle router method pattern handler).1
  takes : ∀ {router method pattern handler}, Reached router → IsPattern pattern →
    (PathRouter.handle router method pattern handler).2 = none →
    Holds (PathRouter.handle router method pattern handler).1 method pattern handler
  refuses : ∀ {router method pattern held handler}, Reached router → IsPattern pattern →
    Holds router method pattern held → (PathRouter.handle router method pattern handler).2 ≠ none
  keeps : ∀ {router method pattern held other pattern' handler}, Reached router →
      IsPattern pattern' →
    Holds router method pattern held →
    Holds (PathRouter.handle router other pattern' handler).1 method pattern held
  unique : ∀ {router method pattern held held'}, Reached router → Holds router method pattern held →
    Holds router method pattern held' → held = held'

theorem fst_register (state : σ × MountReport) (r : Registration) :
    (register state r).1 = (PathRouter.handle state.1 r.method r.pattern r.handler).1 := by
  rw [register_eq]

theorem rejected_register {state : σ × MountReport} {r : Registration} {e : MountError}
    (refused : (PathRouter.handle state.1 r.method r.pattern r.handler).2 = some e) :
    (register state r).2.rejected = state.2.rejected ++ [e] := by
  rw [register_eq, refused]
  rfl

section
variable {Reached : σ → Prop} {Holds : σ → Method → String → Handler → Prop}
  (laws : KeepsHandlers Reached Holds)
include laws

theorem KeepsHandlers.registered {rs : List Registration}
    (isPattern : ∀ r ∈ rs, IsPattern r.pattern)
    {state : σ × MountReport} (reached : Reached state.1) :
    Reached (rs.foldl register state).1 := by
  induction rs generalizing state with
  | nil => exact reached
  | cons r rs ih =>
    rw [List.foldl_cons]
    apply ih fun s hs => isPattern s (List.mem_cons_of_mem r hs)
    rw [fst_register]
    exact laws.reached reached (isPattern r (by simp))

/-- What is held stays held, whatever else is registered. -/
theorem KeepsHandlers.kept {rs : List Registration} (isPattern : ∀ r ∈ rs, IsPattern r.pattern)
    {state : σ × MountReport} (reached : Reached state.1) {method : Method} {pattern : String}
    {held : Handler} (holds : Holds state.1 method pattern held) :
    Holds (rs.foldl register state).1 method pattern held := by
  induction rs generalizing state with
  | nil => exact holds
  | cons r rs ih =>
    have own : IsPattern r.pattern := isPattern r (by simp)
    rw [List.foldl_cons]
    apply ih fun s hs => isPattern s (List.mem_cons_of_mem r hs)
    · rw [fst_register]
      exact laws.reached reached own
    · rw [fst_register]
      exact laws.keeps reached own holds

theorem KeepsHandlers.started {t : Table} {router : σ} (reached : Reached router) :
    Reached (t.attempted router []).1 := by
  rw [Table.attempted, List.foldl_nil]
  cases t.proxy with
  | none => exact reached
  | some proxy => exact laws.guarded reached

/-- What is taken in is held from there on. -/
theorem KeepsHandlers.held {state : σ × MountReport} (reached : Reached state.1)
    {own : Registration}
    {rest : List Registration} (isPattern : ∀ r ∈ own :: rest, IsPattern r.pattern)
    (accepted : (PathRouter.handle state.1 own.method own.pattern own.handler).2 = none) :
    Holds ((own :: rest).foldl register state).1 own.method own.pattern own.handler := by
  have isOwn : IsPattern own.pattern := isPattern own (by simp)
  rw [List.foldl_cons]
  apply laws.kept fun r hr => isPattern r (List.mem_cons_of_mem own hr)
  · rw [fst_register]
    exact laws.reached reached isOwn
  · rw [fst_register]
    exact laws.takes reached isOwn accepted

/-- A registration for what is held is refused, and the report says so. -/
theorem KeepsHandlers.reported {state : σ × MountReport} (reached : Reached state.1)
    {later : Registration} (isPattern : IsPattern later.pattern) {held : Handler}
    (holds : Holds state.1 later.method later.pattern held) (rest : List Registration) :
    ∃ e, (PathRouter.handle state.1 later.method later.pattern later.handler).2 = some e ∧
      e ∈ ((later :: rest).foldl register state).2.rejected := by
  have untaken : (PathRouter.handle state.1 later.method later.pattern later.handler).2 ≠ none :=
    laws.refuses reached isPattern holds
  obtain ⟨e, refused⟩ := Option.ne_none_iff_exists'.1 untaken
  refine ⟨e, refused, ?_⟩
  rw [List.foldl_cons]
  apply (rejected_initial rest _).subset
  rw [rejected_register refused]
  exact List.mem_append_right _ (List.mem_singleton_self e)

/-- Of two registrations for one method and pattern, the second is refused and the first one is
held, if that was taken in. -/
theorem KeepsHandlers.first_kept {state : σ × MountReport} (reached : Reached state.1)
    {front mid back : List Registration} {own later : Registration}
    (isPattern : ∀ r ∈ front ++ own :: mid ++ later :: back, IsPattern r.pattern)
    (method : later.method = own.method) (pattern : later.pattern = own.pattern)
    (accepted : (PathRouter.handle (front.foldl register state).1 own.method own.pattern
      own.handler).2 = none) :
    (∃ e, (PathRouter.handle ((front ++ own :: mid).foldl register state).1 later.method
      later.pattern
        later.handler).2 = some e ∧
      e ∈ ((front ++ own :: mid ++ later :: back).foldl register state).2.rejected) ∧
    ∀ handler, Holds ((front ++ own :: mid ++ later :: back).foldl register state).1
      own.method own.pattern
      handler ↔ handler = own.handler := by
  have before : ∀ r ∈ front ++ own :: mid, IsPattern r.pattern := fun r hr =>
    isPattern r (List.mem_append_left _ hr)
  have behind : ∀ r ∈ later :: back, IsPattern r.pattern :=
    fun r hr => isPattern r (List.mem_append_right _ hr)
  have reachedFront : Reached (front.foldl register state).1 :=
    laws.registered (fun r hr => before r (List.mem_append_left _ hr)) reached
  have reachedLater : Reached ((front ++ own :: mid).foldl register state).1 :=
    laws.registered before reached
  have heldLater : Holds ((front ++ own :: mid).foldl register state).1 own.method own.pattern
      own.handler := by
    rw [List.foldl_append]
    exact laws.held reachedFront (fun r hr => before r (List.mem_append_right _ hr)) accepted
  rw [List.foldl_append (l := front ++ own :: mid)]
  constructor
  · apply laws.reported reachedLater (behind later (by simp))
    rw [method, pattern]
    exact heldLater
  · have reachedAll := laws.registered behind reachedLater
    have heldAll := laws.kept behind reachedLater heldLater
    intro handler
    constructor
    · exact fun other => laws.unique reachedAll other heldAll
    · rintro rfl
      exact heldAll

end

/-! ## Mount order -/

theorem IsWritable.urlPattern {raws : List String} (writable : ∀ raw ∈ raws, IsWritable raw) :
    IsPattern (urlPattern (raws.map Segment.classify)) :=
  ⟨componentsOf (raws.map Segment.classify),
    documented_componentsOf (isRoutable_of_isWritable writable), urlPattern_eq_patternOf _⟩

theorem Derived.isPattern {t : Table} (derived : t.Derived) (global : List Middleware) :
    ∀ r ∈ t.attempts global, IsPattern r.pattern := by
  apply isPattern_registrations
  intro r hr
  obtain ⟨-, raws, writable, pattern⟩ := derived r hr
  rw [pattern]
  exact IsWritable.urlPattern writable

section
variable {raws : List String} (writable : ∀ raw ∈ raws, IsWritable raw)
include writable

theorem priority_wildcard (wild : (raws.map Segment.classify).any Segment.isWildcard = true) :
    priority (urlPattern (raws.map Segment.classify)) = 5 := by
  rw [priority_urlPattern writable, if_pos wild]

/-- Without its wildcard, a pattern has a higher precedence. -/
theorem priority_beforeWildcard :
    5 < priority (urlPattern (beforeWildcard (raws.map Segment.classify))) := by
  have plain : (beforeWildcard (raws.map Segment.classify)).any Segment.isWildcard = false := by
    rw [List.any_eq_false]
    intro s hs
    simpa using List.mem_takeWhile_imp hs
  rw [beforeWildcard_map_classify] at plain ⊢
  rw [priority_urlPattern fun raw hraw =>
    writable raw ((List.takeWhile_sublist _).subset hraw), plain, if_neg Bool.false_ne_true]
  split <;> decide

end

/-- An item comes before another one in a sorted list in which it may not come after. -/
theorem exists_split {α : Type} {R : α → α → Prop} {items : List α}
    (sorted : items.Pairwise R) {a b : α}
    (ha : a ∈ items) (hb : b ∈ items) (other : b ≠ a) (notBehind : ¬ R b a) :
    ∃ front mid back, items = front ++ a :: mid ++ b :: back := by
  obtain ⟨front, behind, rfl⟩ := List.append_of_mem ha
  obtain before | rfl | after := by simpa using hb
  · exact absurd ((List.pairwise_append.1 sorted).2.2 b before a (by simp)) notBehind
  · exact absurd rfl other
  · obtain ⟨mid, back, rfl⟩ := List.append_of_mem after
    exact ⟨front, mid, back, by simp⟩

section
variable {t : Table} (derived : t.Derived) (global : List Middleware) {raws : List String}
  (writable : ∀ raw ∈ raws, IsWritable raw) {star own : Route} (hStar : star ∈ t.routes)
  (pattern : star.pattern = urlPattern (raws.map Segment.classify))
  (wild : (raws.map Segment.classify).any Segment.isWildcard = true)
include pattern wild

theorem basePattern?_eq_beforeWildcard (optional : star.optionalCatchAll = true) :
    star.basePattern? = some (urlPattern (beforeWildcard (raws.map Segment.classify))) := by
  have found : (catchAll? (raws.map Segment.classify)).isSome = true := by
    rw [catchAll?, List.find?_isSome]
    exact List.any_eq_true.1 wild
  rw [basePattern?_of_wildcard pattern found optional, urlPattern_beforeWildcard]

include derived writable hStar

/-- The base is registered behind the route whose own pattern it is, right after the pattern with
the wildcard. -/
theorem exists_attempts (optional : star.optionalCatchAll = true) (hOwn : own ∈ t.routes)
    (base : own.pattern = urlPattern (beforeWildcard (raws.map Segment.classify))) :
    ∃ front mid back, t.attempts global = front ++ t.entry global own own.pattern :: mid ++
      t.entry global star star.pattern :: t.entry global star own.pattern :: back := by
  have low : star.priority.toNat = 5 := by
    rw [(derived star hStar).1, pattern, priority_wildcard writable wild]
    rfl
  have high : 5 < own.priority.toNat := by
    rw [(derived own hOwn).1, base]
    exact priority_beforeWildcard writable
  have notBehind : ¬ (keyOf star).le (keyOf own) = true := by
    have compared : Ord.compare own.priority.toNat star.priority.toNat = .gt :=
      Nat.compare_eq_gt.2 (by omega)
    simp [MountKey.le, MountKey.compare, keyOf, compared]
  have other : star ≠ own := by
    rintro rfl
    omega
  obtain ⟨front, mid, back, split⟩ := exists_split (pairwise_inMountOrder keyOf t.routes)
    (mem_routesInOrder.2 hOwn) (mem_routesInOrder.2 hStar) other notBehind
  have twice : t.registrations global star =
      [t.entry global star star.pattern, t.entry global star own.pattern] := by
    rw [registrations_eq_map, basePattern?_eq_beforeWildcard pattern wild optional, ← base]
    rfl
  have first : t.registrations global own =
      t.entry global own own.pattern :: own.basePattern?.toList.map (t.entry global own) :=
    registrations_eq_map t global own
  refine ⟨front.flatMap (t.registrations global),
    own.basePattern?.toList.map (t.entry global own) ++ mid.flatMap (t.registrations global),
    back.flatMap (t.registrations global), ?_⟩
  rw [attempts, routesInOrder, split]
  simp [first, twice]

/-- **An explicit route keeps its place.** The base of an optional catch-all is the pattern of its
chain before the wildcard. When that is the own pattern of a route for the same method, this is
registered first, and the pattern with the wildcard is registered all the same. If the router has
taken the route, it rejects the base, reports that, and holds the handler of the route for it, and
no other. -/
theorem explicit_route_keeps_base (optional : star.optionalCatchAll = true) {σ : Type}
    [PathRouter σ] {Reached : σ → Prop} {Holds : σ → Method → String → Handler → Prop}
    (laws : KeepsHandlers Reached Holds) {router : σ} (reached : Reached router) :
    star.basePattern? = some (urlPattern (beforeWildcard (raws.map Segment.classify))) ∧
    ∀ own ∈ t.routes, own.method = star.method →
      own.pattern = urlPattern (beforeWildcard (raws.map Segment.classify)) →
      ∃ front mid back, t.attempts global = front ++ t.entry global own own.pattern :: mid ++
          t.entry global star star.pattern :: t.entry global star own.pattern :: back ∧
        ((PathRouter.handle (t.attempted router front).1 own.method own.pattern
            (t.handlerOf global own)).2 = none →
          (∃ e, (PathRouter.handle
              (t.attempted router (front ++ t.entry global own own.pattern :: mid ++
                [t.entry global star star.pattern])).1
              star.method own.pattern (t.handlerOf global star)).2 = some e ∧
            e ∈ (t.mount router global).2.rejected) ∧
          ∀ handler, Holds (t.mount router global).1 own.method own.pattern handler ↔
            handler = t.handlerOf global own) := by
  refine ⟨basePattern?_eq_beforeWildcard pattern wild optional, ?_⟩
  intro own hOwn method base
  obtain ⟨front, mid, back, order⟩ :=
    exists_attempts derived global writable hStar pattern wild optional hOwn base
  refine ⟨front, mid, back, order, fun accepted => ?_⟩
  have isPattern := derived.isPattern global
  have grouped : t.attempts global = front ++ t.entry global own own.pattern ::
      (mid ++ [t.entry global star star.pattern]) ++ t.entry global star own.pattern :: back := by
    rw [order]
    simp
  rw [grouped] at isPattern
  have moved : front ++ t.entry global own own.pattern :: mid
      ++ [t.entry global star star.pattern] =
      front ++ t.entry global own own.pattern ::
        (mid ++ [t.entry global star star.pattern]) := by simp
  rw [mount_eq_attempted, grouped, moved]
  exact laws.first_kept (laws.started reached) isPattern method.symm rfl accepted

end

end Table

/-! ## The mux -/

namespace Mux

/-- A handler is held for a method and a documented pattern. -/
def HoldsPattern (m : Mux) (method : Method) (pattern : String) (handler : Handler) : Prop :=
  ∃ cs names, IsDocumented cs ∧ pattern = patternOf cs ∧ m.Holds method (tokensOf cs) handler names

/-- A registration leaves a mux in which everything is held that was held before. -/
theorem handle_keeps {m : Mux} (rooted : m.Rooted) {cs : List Component}
    (documented : IsDocumented cs) (method : Method) (handler : Handler) :
    (m.handle method (patternOf cs) handler).1.Rooted ∧ ∀ other ts w ms, m.Holds other ts w ms →
      (m.handle method (patternOf cs) handler).1.Holds other ts w ms := by
  have outcome := handle_spec rooted documented method handler
  by_cases taken : (m.handle method (patternOf cs) handler).2 = none
  · generalize m.handle method (patternOf cs) handler = result at outcome taken ⊢
    obtain ⟨m', _ | e⟩ := result
    · obtain ⟨-, -, rooted', gains⟩ := outcome
      exact ⟨rooted', fun other ts w ms held => (gains other ts w ms).2 (.inl held)⟩
    · cases taken
  · obtain ⟨rooted', holds⟩ := handle_refused rooted documented taken
    exact ⟨rooted', fun other ts w ms => (holds other ts w ms).2⟩

theorem handle_takes {m : Mux} (rooted : m.Rooted) {cs : List Component}
    (documented : IsDocumented cs)
    {method : Method} {handler : Handler}
    (taken : (m.handle method (patternOf cs) handler).2 = none) :
    ¬ (m.indexOf method).Meets (tokensOf cs) ∧
      (m.handle method (patternOf cs) handler).1.Holds method (tokensOf cs) handler
      (namesOf cs) := by
  have outcome := handle_spec rooted documented method handler
  generalize m.handle method (patternOf cs) handler = result at outcome taken ⊢
  obtain ⟨m', _ | e⟩ := result
  · obtain ⟨-, alone, -, gains⟩ := outcome
    exact ⟨alone, (gains _ _ _ _).2 (.inr ⟨rfl, rfl, rfl, rfl⟩)⟩
  · cases taken

/-- A mux refuses a pattern that it holds, and keeps the handler that it holds for it. -/
theorem keepsHandlers : Table.KeepsHandlers Rooted HoldsPattern := by
  constructor
  · exact fun rooted => rooted
  · rintro m method _ handler rooted ⟨cs, documented, rfl⟩
    exact (handle_keeps rooted documented method handler).1
  · rintro m method _ handler rooted ⟨cs, documented, rfl⟩ taken
    exact ⟨cs, namesOf cs, documented, rfl, (handle_takes rooted documented taken).2⟩
  · rintro m method pattern held handler rooted - ⟨cs, names, documented, rfl, holds⟩ taken
    have alone := (handle_takes rooted documented taken).1
    exact alone ⟨_, held, names, holds, clash_self _⟩
  · rintro m method pattern held other _ handler rooted ⟨ds, documented', rfl⟩
      ⟨cs, names, documented, rfl, holds⟩
    exact ⟨cs, names, documented, rfl,
      (handle_keeps rooted documented' other handler).2 _ _ _ _ holds⟩
  · rintro m method pattern held held' rooted ⟨cs, names, documented, same, holds⟩
      ⟨ds, names', documented', same', holds'⟩
    rw [tokensOf_of_patternOf documented documented' (same.symm.trans same')] at holds
    exact ((rooted method).1.unique holds holds').1

end Mux

namespace Table

/-- The documentation, with everything below it and without. -/
def docsStar : Route :=
  { Route.new .get "/docs/*" (modify (·.text 200 "page")) with optionalCatchAll := true }

/-- Its overview. -/
def docsOverview : Route := Route.new .get "/docs" (modify (·.text 200 "overview"))

/-- The overview is added behind the route that would also answer for it. -/
def docsTable : Table := (empty.addRoute docsStar).addRoute docsOverview

theorem routes_docsTable : docsTable.routes = [docsStar, docsOverview] := by
  simp [docsTable, addRoute, empty, docsStar, docsOverview, Route.new]

/-- The overview keeps its place. -/
theorem explicit_route_keeps_base_docs :
    docsStar.basePattern? = some "/docs" ∧
    (docsTable.mount Mux.empty []).2.rejected ≠ [] ∧
    ∀ handler, (docsTable.mount Mux.empty []).1.HoldsPattern .get "/docs" handler ↔
      handler = docsTable.handlerOf [] docsOverview := by
  have docs : ∀ raw ∈ ["docs", "[[...path]]"], IsWritable raw := by
    intro raw h
    refine ⟨⟨?_, ?_⟩, ?_⟩
    all_goals
      revert raw
      decide +kernel
  have overview : ∀ raw ∈ ["docs"], IsWritable raw := fun raw h =>
    docs raw (List.mem_append_left ["[[...path]]"] h)
  have star : docsStar.pattern =
      urlPattern (["docs", "[[...path]]"].map Segment.classify) := by decide +kernel
  have base : docsOverview.pattern =
      urlPattern (beforeWildcard (["docs", "[[...path]]"].map Segment.classify)) := by
        decide +kernel
  have derived : docsTable.Derived := by
    simp only [Derived, routes_docsTable, List.mem_cons, List.not_mem_nil, or_false,
      forall_eq_or_imp, forall_eq]
    exact ⟨⟨rfl, _, docs, star⟩, rfl, _, overview, by decide +kernel⟩
  have hStar : docsStar ∈ docsTable.routes := by simp [routes_docsTable]
  obtain ⟨bases, keeps⟩ :=
    explicit_route_keeps_base derived [] docs hStar star (by decide +kernel) rfl
    Mux.keepsHandlers Mux.rooted_empty
  rw [← base] at bases
  obtain ⟨front, mid, back, order, kept⟩ := keeps docsOverview (by simp [routes_docsTable]) rfl base
  -- Two routes and one base leave no room in front.
  have length : (docsTable.attempts []).length = 3 := by
    have perm := (perm_inMountOrder keyOf docsTable.routes).flatMap_right
      (docsTable.registrations [])
    have none : docsOverview.basePattern? = none := rfl
    rw [attempts, routesInOrder, perm.length_eq, routes_docsTable]
    simp [registrations_eq_map, bases, none]
  obtain rfl : front = [] := by
    rw [order] at length
    apply List.eq_nil_of_length_eq_zero
    simp at length
    omega
  have proxy : docsTable.proxy = none := by simp [docsTable, empty]
  have accepted : (PathRouter.handle (docsTable.attempted Mux.empty []).1 docsOverview.method
      docsOverview.pattern (docsTable.handlerOf [] docsOverview)).2 = none := by
    rw [attempted, proxy]
    exact Option.isNone_iff_eq_none.1 (by decide +kernel)
  obtain ⟨⟨e, -, rejected⟩, holds⟩ := kept accepted
  exact ⟨bases, List.ne_nil_of_mem rejected, holds⟩

end Table

end Waymark.Routing
