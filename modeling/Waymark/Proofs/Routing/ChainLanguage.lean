import Waymark.Proofs.Routing.ChainPattern
import Waymark.Proofs.Routing.Mount
import Waymark.Proofs.Text.Bindings

/-!
# The paths that a chain of directories answers

The route of a chain of directories is mounted alone. It is reached by the paths that go through one
component for each directory that is no group, up to the first wildcard:

* `mountedAlone_complete`, `mountedAlone_holds`: the mount is complete, and what is held then;
* `mountedAlone_lookup`: what a path leads to then;
* `lookup_of_reads`, `reads_of_lookup`: the paths that lead to the route's endpoint;
* `get?_paramsOf`: the wildcard of a request is what was captured for it;
* `route_reached_iff_reads`: the paths by which the handler of a chain is reached, and what it sees.
-/

namespace Waymark.Routing

open Waymark.Handling Waymark.Text
open Waymark.Http (Method Request)

/-- The registrations of a table with one route that has no middleware. -/
theorem registrations_single {r : Route} (alone : r.middleware = []) :
    (Table.empty.addRoute r).routesInOrder.flatMap ((Table.empty.addRoute r).registrations []) =
      (r.pattern :: r.basePattern?.toList).map fun pattern => ⟨r.method, pattern, r.endpoint⟩ := by
  have routes : (Table.empty.addRoute r).routes = [r] := by
    simp [Table.addRoute, Table.empty]
  have none : (Table.empty.addRoute r).middleware = [] := Table.middleware_addRoute _ r
  have order : (Table.empty.addRoute r).routesInOrder = [r] := by
    rw [Table.routesInOrder, routes, inMountOrder, List.mergeSort_singleton]
  rw [order, List.flatMap_singleton, Table.registrations_bare none alone]

/-- A wildcard goes on where the pattern before it ends. -/
theorem tokensOf_wildcard (cs : List Component) (name : Option String) :
    ∃ more, more ≠ [] ∧ tokensOf (cs ++ [.wildcard name]) = tokensOf cs ++ more := by
  by_cases empty : cs = []
  · subst empty
    exact ⟨(Component.wildcard name).tokens, by simp [Component.tokens],
      by simp [tokensOf, tokensEach]⟩
  · refine ⟨tokensEach [.wildcard name], by simp [tokensEach], ?_⟩
    simp [tokensOf, tokensEach, empty]

section
variable {chain : List Segment} {r : Route}

/-- The components of the patterns under which the route of a chain is registered. -/
def partsFor (chain : List Segment) (reg : Table.Registration) : List Component :=
  if reg.pattern = urlPattern chain then componentsOf chain else frontOf chain

theorem written_single (routable : ∀ s ∈ chain, s.IsRoutable) (isOf : r.IsOf chain) :
    Table.Written (partsFor chain)
      ((r.pattern :: r.basePattern?.toList).map fun pattern =>
        ⟨r.method, pattern, r.endpoint⟩) := by
  intro reg hreg
  obtain ⟨pattern, given, rfl⟩ := List.mem_map.1 hreg
  rw [partsFor]
  split
  · next same =>
      exact ⟨documented_componentsOf routable, same.trans (urlPattern_eq_patternOf chain)⟩
  · next other =>
    obtain rfl | base := List.mem_cons.1 given
    · exact absurd isOf.pattern other
    · rw [basePattern?_eq isOf] at base
      split at base
      · have front : pattern = patternOf (frontOf chain) := by simpa using base
        have documented := documented_frontOf routable .nil
        rw [List.append_nil] at documented
        exact ⟨documented, front⟩
      · simp at base

theorem urlPattern_ne_front (optional : (catchAllParam? chain).any Prod.snd = true) :
    patternOf (frontOf chain) ≠ urlPattern chain := by
  intro same
  have text := congrArg String.toList same
  rw [urlPattern_eq_patternOf, exists_wildcard optional, toList_patternOf_wildcard] at text
  by_cases empty : frontOf chain = []
  · rw [empty] at text
    exact absurd text (by decide)
  · rw [patternOf, toList_slashed (by simpa using empty)] at text
    have length := congrArg List.length text
    simp at length

/-- The registrations of a chain's route do not clash. -/
theorem apart_single (isOf : r.IsOf chain) :
    ((r.pattern :: r.basePattern?.toList).map fun pattern =>
      (⟨r.method, pattern, r.endpoint⟩ : Table.Registration)).Pairwise
        fun a b => ¬ Table.Collide (partsFor chain) a b := by
  rw [basePattern?_eq isOf]
  split
  · next optional =>
    simp only [Option.toList_some, List.map_cons, List.map_nil, List.pairwise_cons,
      List.mem_singleton, forall_eq, List.not_mem_nil, false_imp_iff, implies_true,
      List.Pairwise.nil, and_true]
    rintro ⟨-, clash⟩
    obtain ⟨more, written, goesOn⟩ := tokensOf_wildcard (frontOf chain) none
    rw [partsFor, if_pos isOf.pattern, partsFor, if_neg (urlPattern_ne_front optional),
      exists_wildcard optional, goesOn] at clash
    nth_rewrite 2 [← List.append_nil (tokensOf (frontOf chain))] at clash
    exact written (clash_nil_right.1 ((clash_append _ _ _).1 clash))
  · simp

/-- A route mounted alone. -/
def mountedAlone (r : Route) : Mux × Table.MountReport :=
  (Table.empty.addRoute r).mount Mux.empty []

/-- The tokens under which the route of a chain is held. -/
def IsTokensOf (chain : List Segment) (ts : List Token) : Prop :=
  ts = tokensOf (componentsOf chain) ∨
    ((catchAllParam? chain).any Prod.snd = true ∧ ts = tokensOf (frontOf chain))

/-- The route of a chain is mounted alone without a rejection. -/
theorem mountedAlone_complete (routable : ∀ s ∈ chain, s.IsRoutable) (isOf : r.IsOf chain)
    (few : ((throughWildcard chain).countP fun s => s.kind = .dynamic) ≤ 25) :
    (mountedAlone r).2.isComplete = true := by
  have written := written_single routable isOf
  have apart := apart_single isOf
  rw [← registrations_single isOf.middleware] at written apart
  refine (Table.mount_complete_iff written).2 ⟨?_, apart⟩
  intro reg _
  rw [partsFor]
  split
  · rw [namesOf_componentsOf, length_namesOf_frontOf]
    exact few
  · rw [length_namesOf_frontOf]
    exact few

/-- What the mux holds then. -/
theorem mountedAlone_holds (routable : ∀ s ∈ chain, s.IsRoutable) (isOf : r.IsOf chain)
    (few : ((throughWildcard chain).countP fun s => s.kind = .dynamic) ≤ 25) :
    (mountedAlone r).1.Rooted ∧ ∀ method ts w ms, (mountedAlone r).1.Holds method ts w ms ↔
      method = r.method ∧ IsTokensOf chain ts ∧ w = r.endpoint ∧ ms = namesOf (frontOf chain) := by
  have written := written_single routable isOf
  rw [← registrations_single isOf.middleware] at written
  obtain ⟨rooted, holds⟩ := Table.mount_holds_iff written (Table.proxy_addRoute Table.empty r)
    (mountedAlone_complete routable isOf few)
  refine ⟨rooted, fun method ts w ms => (holds method ts w ms).trans ?_⟩
  rw [registrations_single isOf.middleware, basePattern?_eq isOf]
  have full : partsFor chain ⟨r.method, r.pattern, r.endpoint⟩ = componentsOf chain :=
    if_pos isOf.pattern
  by_cases optional : (catchAllParam? chain).any Prod.snd = true
  · have base : partsFor chain ⟨r.method, patternOf (frontOf chain), r.endpoint⟩ = frontOf chain :=
      if_neg (urlPattern_ne_front optional)
    simp only [optional, ↓reduceIte, Option.toList_some, List.map_cons, List.map_nil, List.mem_cons,
      List.not_mem_nil, or_false, exists_eq_or_imp, exists_eq_left, Table.Held, full, base,
      namesOf_componentsOf, IsTokensOf, true_and]
    tauto
  · simp only [optional, Bool.false_eq_true, ↓reduceIte, Option.toList_none, List.map_cons,
      List.map_nil, List.mem_singleton, exists_eq_left, Table.Held, full, namesOf_componentsOf,
      IsTokensOf, false_and, or_false]

theorem IsTokensOf.eq {ts us : List Token} (first : IsTokensOf chain ts)
    (second : IsTokensOf chain us) (least : us = ts ∨ Before ts us) : us = ts := by
  obtain same | before := least
  · exact same
  obtain rfl | ⟨optional, rfl⟩ := first
  · obtain rfl | ⟨optional, rfl⟩ := second
    · rfl
    · obtain ⟨more, -, goesOn⟩ := tokensOf_wildcard (frontOf chain) none
      rw [exists_wildcard optional, goesOn] at before
      exact absurd before (not_before_append _ _)
  · obtain rfl | ⟨-, rfl⟩ := second
    · obtain ⟨more, -, goesOn⟩ := tokensOf_wildcard (frontOf chain) none
      rw [exists_wildcard optional, goesOn] at before
      exact absurd before (not_before_of_append _ _)
    · rfl

/-- A path that goes through a chain fits the tokens of one of its patterns. -/
theorem fits_of_reads {parts : List String} {rest : Option String}
    (reads : Reads chain parts rest) :
    ∃ ts values capture, IsTokensOf chain ts ∧
      Fits ts (bytesOf (slashed parts)) values (capture.toList.map captureBytes) ∧
      rest.getD "" = (capture.map Prod.snd).getD "" ∧
      ∀ name text, capture = some (name, text) → name = Mux.wildcardName := by
  obtain ⟨values, capture, found, rfl⟩ | ⟨optional, rfl, values, found⟩ := reads_iff.1 reads
  · refine ⟨_, _, capture, .inl rfl, fits_of_matches found, rfl, ?_⟩
    rintro key text captured
    obtain ⟨name, mem, rfl⟩ := found.exists_wildcard captured
    rw [bare_componentsOf mem]
    rfl
  · exact ⟨_, _, none, .inr ⟨optional, rfl⟩, fits_of_matches found, rfl, by simp⟩

/-- A path that fits the tokens of one of the patterns of a chain goes through the chain. -/
theorem reads_of_fits (routable : ∀ s ∈ chain, s.IsRoutable) {ts : List Token}
    (isTokens : IsTokensOf chain ts) {path : String} {taken : List (List UInt8)}
    {rest : List (List UInt8 × List UInt8)} (fits : Fits ts (bytesOf path) taken rest) :
    ∃ parts rest, path = slashed parts ∧ Reads chain parts rest := by
  obtain rfl | ⟨optional, rfl⟩ := isTokens
  · obtain ⟨parts, values, capture, text, found⟩ :=
      matches_of_fits (documented_componentsOf routable) fits
    exact ⟨parts, _, text, reads_iff.2 (.inl ⟨values, capture, found, rfl⟩)⟩
  · have documented := documented_frontOf routable .nil
    rw [List.append_nil] at documented
    obtain ⟨parts, values, capture, text, found⟩ := matches_of_fits documented fits
    cases capture with
    | none => exact ⟨parts, some "", text, reads_iff.2 (.inr ⟨optional, rfl, values, found⟩)⟩
    | some capture =>
      obtain ⟨name, mem, -⟩ := found.exists_wildcard rfl
      exact absurd (plain_frontOf _ mem) (by simp [Component.isWildcard])

theorem isSome_of_reads {parts : List String} {rest : Option String}
    (reads : Reads chain parts rest)
    (wild : (catchAllParam? chain).isSome = true) : rest.isSome = true := by
  induction reads with
  | nil => simp [catchAllParam?, catchAll?] at wild
  | wildcard | absent => rfl
  | group kind _ ih | static kind _ ih | dynamic kind _ _ ih =>
    rw [catchAllParam?_cons] at wild
    have plain (s : Segment) (h : s.kind ≠ .catchAll ∧ s.kind ≠ .optionalCatchAll) :
        s.isWildcard = false := by simpa [Segment.isWildcard] using h
    rw [plain _ (by simp [kind])] at wild
    exact ih wild

end

theorem textOf_bytesOf (s : String) : Found.textOf (bytesOf s) = s := by
  have decoded := (Utf8.decode?_eq_some_iff (bytesOf s) s).2 rfl
  rw [Utf8.decode?] at decoded
  rw [Found.textOf, decoded]
  rfl

/-- The parameters of a request, as the path index captured them. -/
def paramsOf {α : Type} (found : Found α) : Bindings String :=
  Bindings.ofList (found.params.map fun (name, value) =>
    (if name = Mux.wildcardName then Context.wildcardParam else name, value))

/-- The wildcard of a request is what was captured for it, and nothing else. -/
theorem get?_paramsOf {α : Type} (value : α) {names : List (List UInt8)}
    (values : List (List UInt8)) {capture : Option (String × String)}
    (named : ∀ name ∈ names, ∃ s, name = bytesOf s ∧ s ≠ Mux.wildcardName ∧
      s ≠ Context.wildcardParam)
    (wildcard : ∀ key text, capture = some (key, text) → key = Mux.wildcardName) :
    (paramsOf ⟨value, names.zip values ++ capture.toList.map captureBytes⟩).get?
      Context.wildcardParam =
      capture.map Prod.snd := by
  cases capture with
  | none =>
    refine Bindings.get?_ofList_of_not_mem ?_
    intro pair hpair
    simp only [Found.params, Option.toList_none, List.map_nil, List.append_nil, List.map_map,
      List.mem_map] at hpair
    obtain ⟨⟨name, v⟩, mem, rfl⟩ := hpair
    obtain ⟨s, rfl, other, apart⟩ := named name (List.of_mem_zip mem).1
    simpa [textOf_bytesOf, other] using apart
  | some capture =>
    obtain ⟨key, text⟩ := capture
    obtain rfl := wildcard key text rfl
    simp only [paramsOf, Found.params, Option.toList_some, List.map_cons, List.map_nil,
      List.map_append, captureBytes, textOf_bytesOf, ↓reduceIte, Option.map_some]
    exact Bindings.get?_ofList_concat _ _ _

/-- The context that the handler of a route sees. -/
def Route.exposed (r : Route) (c : Context) : Context :=
  match r.catchAllParam with
  | none => c
  | some name => c.exposeWildcard name

theorem endpoint_on (r : Route) (c : Context) : r.endpoint.on c = r.handler.on (r.exposed c) := by
  rw [Route.endpoint, Route.exposed]
  cases r.catchAllParam <;> rfl

theorem request_exposed (r : Route) (c : Context) : (r.exposed c).request = c.request := by
  rw [Route.exposed]
  cases r.catchAllParam <;> rfl

theorem param?_exposed {r : Route} {name : String} (given : r.catchAllParam = some name)
    (c : Context) :
    (r.exposed c).param? name = some ((c.params.get? Context.wildcardParam).getD "") := by
  have exposed : r.exposed c = c.exposeWildcard name := by rw [Route.exposed, given]
  rw [exposed, Context.param?, Context.exposeWildcard, Bindings.get?_set, if_pos rfl]

/-- The names of a chain's parameters are no names of wildcards. -/
theorem named_frontOf {chain : List Segment} (routable : ∀ s ∈ chain, s.IsRoutable)
    (named : ∀ s ∈ chain, s.kind = .dynamic → s.name ≠ Mux.wildcardName) :
    ∀ name ∈ namesOf (frontOf chain),
      ∃ s, name = bytesOf s ∧ s ≠ Mux.wildcardName ∧ s ≠ Context.wildcardParam := by
  intro name mem
  obtain ⟨s, hs, kind, rfl⟩ := mem_namesOf_frontOf mem
  refine ⟨s.name, rfl, named s hs kind, ?_⟩
  intro star
  have isName := (routable s hs).2 kind
  rw [star] at isName
  exact absurd isName (by decide)

section
variable {chain : List Segment} {r : Route}

/-- What a path leads to when the route of a chain is mounted alone: to nothing, or to the route's
endpoint with what the tokens of one pattern take, the only pattern that they fit. -/
theorem mountedAlone_lookup (routable : ∀ s ∈ chain, s.IsRoutable) (isOf : r.IsOf chain)
    (few : ((throughWildcard chain).countP fun s => s.kind = .dynamic) ≤ 25) (method : Method)
    (path : String) :
    ((mountedAlone r).1.lookup method path = none ∧
      ∀ ts, method = r.method → IsTokensOf chain ts → ¬ Reaches ts (bytesOf path)) ∨
    ∃ ts taken rest, method = r.method ∧ IsTokensOf chain ts ∧ Fits ts (bytesOf path) taken rest ∧
      (∀ us, IsTokensOf chain us → Reaches us (bytesOf path) → us = ts) ∧
      (mountedAlone r).1.lookup method path =
        some (r.endpoint, paramsOf ⟨r.endpoint, (namesOf (frontOf chain)).zip taken ++ rest⟩) := by
  obtain ⟨rooted, holds⟩ := mountedAlone_holds routable isOf few
  have held {ts : List Token} (own : method = r.method) (isTokens : IsTokensOf chain ts) :=
    (holds method ts r.endpoint _).2 ⟨own, isTokens, rfl, rfl⟩
  obtain ⟨absent, nothing⟩ | ⟨ts, w, ms, taken, rest, held', fits, least, found⟩ :=
    Mux.lookup_answer rooted method path
  · exact .inl ⟨absent, fun ts own isTokens => nothing ts r.endpoint _ (held own isTokens)⟩
  · obtain ⟨own, isTokens, rfl, rfl⟩ := (holds method ts w ms).1 held'
    refine .inr ⟨ts, taken, rest, own, isTokens, fits, ?_, found⟩
    intro us isTokens' reaches
    exact isTokens.eq isTokens' (least us r.endpoint _ (held own isTokens') reaches)

/-- A path that goes through a chain leads to the route's endpoint, with what the wildcard takes. -/
theorem lookup_of_reads (routable : ∀ s ∈ chain, s.IsRoutable) (isOf : r.IsOf chain)
    (few : ((throughWildcard chain).countP fun s => s.kind = .dynamic) ≤ 25)
    (named : ∀ s ∈ chain, s.kind = .dynamic → s.name ≠ Mux.wildcardName) {parts : List String}
    {rest : Option String} (reads : Reads chain parts rest) :
    ∃ params, (mountedAlone r).1.lookup r.method (slashed parts) = some (r.endpoint, params) ∧
      (params.get? Context.wildcardParam).getD "" = rest.getD "" := by
  obtain ⟨ts, values, capture, isTokens, fits, same, wildcard⟩ := fits_of_reads reads
  obtain ⟨-, nothing⟩ | ⟨us, taken, rest', -, -, fits', only, found⟩ :=
    mountedAlone_lookup routable isOf few r.method (slashed parts)
  · exact absurd ⟨_, _, fits⟩ (nothing ts rfl isTokens)
  · obtain rfl := only ts isTokens ⟨_, _, fits⟩
    obtain ⟨rfl, rfl⟩ := fits'.unique fits
    refine ⟨_, found, ?_⟩
    rw [get?_paramsOf r.endpoint taken (named_frontOf routable named) wildcard, same]

theorem reads_of_lookup (routable : ∀ s ∈ chain, s.IsRoutable) (isOf : r.IsOf chain)
    (few : ((throughWildcard chain).countP fun s => s.kind = .dynamic) ≤ 25) {method : Method}
    {path : String} (found : ((mountedAlone r).1.lookup method path).isSome = true) :
    method = r.method ∧ ∃ parts rest, path = slashed parts ∧ Reads chain parts rest := by
  obtain ⟨nothing, -⟩ | ⟨ts, taken, rest, same, isTokens, fits, -, -⟩ :=
    mountedAlone_lookup routable isOf few method path
  · simp [nothing] at found
  · exact ⟨same, reads_of_fits routable isTokens fits⟩

end

/-- **The paths of a chain.** The route of a chain of directories is mounted alone without a
rejection. Its handler is reached by the paths that go through the chain, and sees what the wildcard
takes; all other paths are answered as if nothing was mounted. -/
theorem route_reached_iff_reads {raws : List String} (components : ∀ raw ∈ raws, IsComponent raw)
    (literal : ∀ raw ∈ raws, raw ≠ "*") {r : Route} (isOf : r.IsOf (raws.map Segment.classify))
    (few : ((throughWildcard (raws.map Segment.classify)).countP fun s => s.kind = .dynamic) ≤ 25)
    (named : ∀ s ∈ raws.map Segment.classify, s.kind = .dynamic → s.name ≠ Mux.wildcardName) :
    (mountedAlone r).2.isComplete = true ∧ ∀ request : Request, request.method = r.method →
      (((mountedAlone r).1.route? request.method (Mux.normalize request.path)).isSome = true ↔
        ∃ parts rest, Mux.normalize request.path = slashed parts ∧
          Reads (raws.map Segment.classify) parts rest) ∧
      ((¬ ∃ parts rest, Mux.normalize request.path = slashed parts ∧
          Reads (raws.map Segment.classify) parts rest) →
        (mountedAlone r).1.dispatch request = Mux.empty.dispatch request) ∧
      ∀ parts rest, Mux.normalize request.path = slashed parts →
        Reads (raws.map Segment.classify) parts rest → ∃ seen : Context,
          (mountedAlone r).1.dispatch request = Mux.answered request (r.handler.on seen) ∧
          seen.request = request ∧ ∀ name, r.catchAllParam = some name →
            ∃ text, rest = some text ∧ seen.param? name = some text := by
  have routable : ∀ s ∈ raws.map Segment.classify, s.IsRoutable := by
    intro s hs
    obtain ⟨raw, hraw, rfl⟩ := List.mem_map.1 hs
    exact isRoutable_classify (components raw hraw) (literal raw hraw)
  have noProxy := Table.proxy_mount (Table.proxy_addRoute Table.empty r) []
  refine ⟨mountedAlone_complete routable isOf few, fun request method => ⟨⟨?_, ?_⟩, ?_, ?_⟩⟩
  · intro found
    rw [Mux.route?] at found
    split at found
    · next own => exact (reads_of_lookup routable isOf few (by rw [own]; rfl)).2
    · split at found
      · exact (reads_of_lookup routable isOf few found).2
      · simp at found
  · rintro ⟨parts, rest, path, reads⟩
    obtain ⟨params, found, -⟩ := lookup_of_reads routable isOf few named reads
    rw [method, path, Mux.route?_of_lookup found]
    rfl
  · intro elsewhere
    refine Mux.dispatch_of_nothing noProxy fun other => ?_
    rw [← Option.not_isSome_iff_eq_none]
    intro found
    exact elsewhere (reads_of_lookup routable isOf few found).2
  · intro parts rest path reads
    obtain ⟨params, found, captured⟩ := lookup_of_reads routable isOf few named reads
    have route : (mountedAlone r).1.route? request.method (Mux.normalize request.path) =
        some (r.endpoint, params) := by
      rw [method, path, Mux.route?_of_lookup found]
    have dispatched := Mux.dispatch_of_route noProxy route
    refine ⟨r.exposed ((Context.new request).setParams params), ?_, ?_, ?_⟩
    · rw [← endpoint_on]
      exact dispatched
    · rw [request_exposed]
      rfl
    · intro name given
      have wild : (catchAllParam? (raws.map Segment.classify)).isSome = true := by
        rw [isOf.catchAllParam] at given
        cases found : catchAllParam? (raws.map Segment.classify) with
        | none => simp [found] at given
        | some _ => rfl
      obtain ⟨text, rfl⟩ := Option.isSome_iff_exists.1 (isSome_of_reads reads wild)
      refine ⟨text, rfl, ?_⟩
      rw [param?_exposed given]
      exact congrArg some captured

/-- The directories of an optional wildcard behind a group and a parameter. -/
def volumeChain : List String := ["docs", "(shop)", "[id]", "[[...rest]]"]

/-- Their route, with a handler that does nothing. -/
def volumeRoute : Route :=
  { Route.new .get "/docs/{id}/*" (pure ()) with
    catchAllParam := some "rest", optionalCatchAll := true }

theorem classify_volumeChain : volumeChain.map Segment.classify =
    [⟨"docs", "docs", .static⟩, ⟨"(shop)", "shop", .group⟩, ⟨"[id]", "id", .dynamic⟩,
      ⟨"[[...rest]]", "rest", .optionalCatchAll⟩] := by
  decide +kernel

theorem route_reached_iff_reads_volume :
    (mountedAlone volumeRoute).2.isComplete = true ∧ ∃ seen : Context,
      (mountedAlone volumeRoute).1.dispatch (Request.new .get "/docs/7/a/b/") =
        Mux.answered (Request.new .get "/docs/7/a/b/") ((pure () : Handler).on seen) ∧
      seen.param? "rest" = some "a/b" := by
  have components : ∀ raw ∈ volumeChain, IsComponent raw := by
    unfold volumeChain IsComponent
    decide +kernel
  have isOf : volumeRoute.IsOf (volumeChain.map Segment.classify) :=
    ⟨by decide +kernel, by decide +kernel, by decide +kernel, rfl⟩
  have few : ((throughWildcard (volumeChain.map Segment.classify)).countP fun s =>
      s.kind = .dynamic) ≤ 25 := by
    rw [classify_volumeChain]
    decide
  have named : ∀ s ∈ volumeChain.map Segment.classify, s.kind = .dynamic →
      s.name ≠ Mux.wildcardName := by
    rw [classify_volumeChain]
    decide
  have path : Mux.normalize (Request.new .get "/docs/7/a/b/").path =
      slashed ["docs", "7", "a/b"] := by
    decide +kernel
  have reads : Reads (volumeChain.map Segment.classify) ["docs", "7", "a/b"] (some "a/b") := by
    rw [classify_volumeChain]
    have component : IsComponent "7" := ⟨by decide, by decide⟩
    exact .static rfl (.group rfl (.dynamic rfl component (.wildcard rfl (by decide))))
  obtain ⟨complete, reached⟩ := route_reached_iff_reads components (by decide) isOf few named
  obtain ⟨seen, dispatched, -, param⟩ :=
    (reached (Request.new .get "/docs/7/a/b/") rfl).2.2 _ _ path reads
  obtain ⟨text, same, given⟩ := param "rest" rfl
  refine ⟨complete, seen, dispatched, ?_⟩
  rw [given, ← same]

end Waymark.Routing
