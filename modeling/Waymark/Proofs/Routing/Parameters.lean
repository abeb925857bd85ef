import Waymark.Proofs.Routing.ChainLanguage
import Waymark.Proofs.Routing.Kinds

/-!
# Parameters under their own names

A parameter passes through a template, a list of captures, a renaming and a finite map before a
handler asks for it. What the handler gets is the component of the path at the place of the
directory:

* `Matches.at_parameter`: a parameter takes the component of the path at its place;
* `exists_captures`: what a request that reaches the route of a chain is given;
* `get?_renamed`: captures are found under their names, but for one name that is kept for wildcards;
* `parameter_eq_component`: the same for the handler of a route that is mounted alone.
-/

namespace Waymark.Routing

open Waymark.Handling Waymark.Text
open Waymark.Http (Method Request)

/-- The segment takes something of a path under a name. -/
def Segment.isParameter (s : Segment) : Bool := s.isDynamic || s.isWildcard

/-- The names of the parameters. -/
def parameterNames (cs : List Component) : List String :=
  cs.filterMap fun
    | .parameter name => some name
    | .literal _ | .wildcard _ => none

theorem namesOf_eq (cs : List Component) : namesOf cs = (parameterNames cs).map bytesOf := by
  rw [namesOf, parameterNames, List.map_filterMap]
  apply List.filterMap_congr
  intro c _
  cases c <;> rfl

/-! ## Places -/

theorem slashed_append (front : List String) (part : String) (behind : List String) :
    (slashed (front ++ part :: behind)).toList =
      lead '/' (front.map String.toList ++ part.toList :: behind.map String.toList) := by
  rw [toList_slashed (by simp), List.map_append, List.map_cons]

theorem getElem?_splitString_slashed {front : List String} {part : String}
    (flat : ∀ p ∈ front, '/' ∉ p.toList) (own : '/' ∉ part.toList) (behind : List String) :
    (splitString '/' (slashed (front ++ part :: behind)))[front.length + 1]? = some part := by
  have flat' : ∀ p ∈ front.map String.toList, '/' ∉ p := by
    intro p hp
    obtain ⟨q, hq, rfl⟩ := List.mem_map.1 hp
    exact flat q hq
  have found := getElem?_split_lead flat' own (behind.map String.toList)
  rw [List.length_map] at found
  rw [splitString, slashed_append, List.getElem?_map, found, Option.map_some, String.ofList_toList]

section
variable {cs : List Component} {parts values : List String} {capture : Option (String × String)}

theorem Matches.length_values (h : Matches cs parts values capture) :
    (parameterNames cs).length = values.length := by
  induction h with
  | nil => rfl
  | literal raw _ ih => exact ih
  | parameter name _ _ ih => exact congrArg (· + 1) ih
  | wildcard name _ => rfl

/-- A parameter takes the component of the path at its place, and nothing before it has a slash. -/
theorem Matches.at_parameter (h : Matches cs parts values capture) (proper : ∀ c ∈ cs, c.IsProper)
    {i : Nat} {name : String} (there : cs[i]? = some (.parameter name)) :
    ∃ front value behind, parts = front ++ value :: behind ∧ front.length = i ∧
      (∀ p ∈ front, '/' ∉ p.toList) ∧ IsComponent value ∧
      (name, value) ∈ (parameterNames cs).zip values := by
  induction h generalizing i with
  | nil => simp at there
  | @literal cs parts values capture raw more ih =>
    cases i with
    | zero => simp at there
    | succ i =>
      obtain ⟨front, value, behind, rfl, rfl, flat, component, taken⟩ :=
        ih (fun c hc => proper c (List.mem_cons_of_mem _ hc)) there
      have own : Component.IsProper (.literal raw) := proper _ (by simp)
      refine ⟨raw :: front, value, behind, rfl, rfl, ?_, component, taken⟩
      exact List.forall_mem_cons.2 ⟨own.2, flat⟩
  | @parameter cs parts values capture own value component more ih =>
    cases i with
    | zero =>
      obtain rfl : own = name := by simpa using there
      exact ⟨[], value, parts, rfl, rfl, by simp, component, List.mem_cons_self ..⟩
    | succ i =>
      obtain ⟨front, other, behind, rfl, rfl, flat, component', taken⟩ :=
        ih (fun c hc => proper c (List.mem_cons_of_mem _ hc)) there
      refine ⟨value :: front, other, behind, rfl, rfl, ?_, component', List.mem_cons_of_mem _ taken⟩
      exact List.forall_mem_cons.2 ⟨component.2, flat⟩
  | wildcard own _ =>
    cases i with
    | zero => simp at there
    | succ i => simp at there

end

section
variable {chain : List Segment} {s : Segment}

theorem component?_of_isDynamic (dynamic : s.isDynamic = true) :
    s.component? = some (.parameter s.name) := by
  have kind : s.kind = .dynamic := by simpa [Segment.isDynamic] using dynamic
  rw [Segment.component?, kind]

theorem not_isWildcard_of_isDynamic (dynamic : s.isDynamic = true) : s.isWildcard = false := by
  have kind : s.kind = .dynamic := by simpa [Segment.isDynamic] using dynamic
  simp [Segment.isWildcard, kind]

/-- A parameter that a chain asks for is the component at its place. -/
theorem getElem?_frontOf {i : Nat} (there : (asked chain)[i]? = some s)
    (dynamic : s.isDynamic = true) :
    (frontOf chain)[i]? = some (.parameter s.name) := by
  induction chain generalizing i with
  | nil => simp [asked, throughWildcard] at there
  | cons t chain ih =>
    rw [asked_cons] at there
    rw [frontOf]
    by_cases group : t.isGroup = true
    · rw [if_pos group] at there
      rw [not_isWildcard_of_isGroup group, (isGroup_iff t).1 group]
      exact ih there
    by_cases wild : t.isWildcard = true
    · -- the wildcard comes last, and it is no parameter
      rw [if_neg group, if_pos wild] at there
      obtain rfl : s = t := List.mem_singleton.1 (List.mem_of_getElem? there)
      rw [not_isWildcard_of_isDynamic dynamic] at wild
      cases wild
    · rw [if_neg group, if_neg wild] at there
      obtain ⟨c, given⟩ := Option.ne_none_iff_exists'.1 (mt (isGroup_iff t).2 group)
      rw [if_neg wild, given, Option.toList_some, List.singleton_append]
      cases i with
      | zero =>
        obtain rfl : t = s := by simpa using there
        rw [List.getElem?_cons_zero, ← given, component?_of_isDynamic dynamic]
      | succ i => exact ih there

theorem parameterNames_frontOf (chain : List Segment) :
    parameterNames (frontOf chain) = ((asked chain).filter Segment.isDynamic).map Segment.name := by
  induction chain with
  | nil => rfl
  | cons s chain ih =>
    rw [frontOf, asked_cons]
    simp only [parameterNames] at ih
    cases kind : s.kind <;>
      simp [Segment.isWildcard, Segment.isGroup, Segment.isDynamic, Segment.component?, kind,
        parameterNames, ih]

/-- The wildcard of a chain is asked for under its name. -/
theorem exists_asked_of_catchAllParam? {name : String} {optional : Bool}
    (given : catchAllParam? chain = some (name, optional)) :
    ∃ s ∈ asked chain, s.isWildcard = true ∧ s.name = name := by
  induction chain with
  | nil => simp [catchAllParam?, catchAll?] at given
  | cons s chain ih =>
    rw [catchAllParam?_cons] at given
    rw [asked_cons]
    by_cases wild : s.isWildcard = true
    · have plain : s.isGroup = false := by
        obtain kind | kind := isWildcard_iff.1 wild <;> simp [Segment.isGroup, kind]
      rw [if_pos wild, Option.some.injEq, Prod.mk.injEq] at given
      exact ⟨s, by simp [wild, plain], wild, given.1⟩
    · rw [if_neg wild] at given
      obtain ⟨t, among, found⟩ := ih given
      refine ⟨t, ?_, found⟩
      by_cases group : s.isGroup = true
      · simpa [group] using among
      · simpa [group, wild] using Or.inr among

end

/-! ## Captures -/

/-- A capture under the name that a request gives it: wildcards are kept under one name. -/
def renamed (capture : String × String) : String × String :=
  (if capture.1 = Mux.wildcardName then Context.wildcardParam else capture.1, capture.2)

theorem params_captures {α : Type} (value : α) (captures : List (String × String)) :
    Found.params ⟨value, captures.map captureBytes⟩ = captures := by
  rw [Found.params, List.map_map]
  refine (List.map_congr_left ?_).trans (List.map_id captures)
  intro capture _
  rw [Function.comp_apply, captureBytes, textOf_bytesOf, textOf_bytesOf]
  rfl

theorem paramsOf_captures {α : Type} (value : α) (captures : List (String × String)) :
    paramsOf ⟨value, captures.map captureBytes⟩ = Bindings.ofList (captures.map renamed) := by
  rw [paramsOf, params_captures]
  rfl

/-- What a pattern takes of a path, as it is given to a handler. -/
theorem paramsOf_matched {α : Type} (value : α) (cs : List Component) (values : List String)
    (capture : Option (String × String)) :
    paramsOf ⟨value, (namesOf cs).zip (values.map bytesOf) ++ capture.toList.map captureBytes⟩ =
      Bindings.ofList (((parameterNames cs).zip values ++ capture.toList).map renamed) := by
  have written : (namesOf cs).zip (values.map bytesOf) ++ capture.toList.map captureBytes =
      ((parameterNames cs).zip values ++ capture.toList).map captureBytes := by
    rw [namesOf_eq, List.zip_map, List.map_append]
    rfl
  rw [written, paramsOf_captures]

/-- The name that is kept for wildcards is bound to nothing. -/
theorem get?_renamed_wildcardName (captures : List (String × String)) :
    (Bindings.ofList (captures.map renamed)).get? Mux.wildcardName = none := by
  apply Bindings.get?_ofList_of_not_mem
  intro pair hpair same
  obtain ⟨c, -, rfl⟩ := List.mem_map.1 hpair
  rw [renamed] at same
  split at same
  · exact absurd (show Context.wildcardParam = Mux.wildcardName from same) (by decide)
  · next other => exact other same

/-- Any other name that is given out once is bound to what was captured for it. -/
theorem get?_renamed {captures : List (String × String)} {name value : String}
    (taken : (name, value) ∈ captures) (once : ∀ c ∈ captures, c.1 = name → c.2 = value)
    (other : name ≠ Mux.wildcardName) (apart : name ≠ Context.wildcardParam) :
    (Bindings.ofList (captures.map renamed)).get? name = some value := by
  apply Bindings.get?_ofList_of_unique
  · refine List.mem_map.2 ⟨_, taken, ?_⟩
    rw [renamed, if_neg other]
  · intro pair hpair same
    obtain ⟨c, hc, rfl⟩ := List.mem_map.1 hpair
    rw [renamed] at same
    split at same
    · exact absurd same.symm apart
    · exact once c hc same

section
variable {chain : List Segment} {r : Route}

/-- What may stand behind the front of a chain in a pattern of its route. -/
def IsEnding (more : List Component) : Prop := more = [] ∨ more = [.wildcard none]

theorem exists_ending {ts : List Token} (isTokens : IsTokensOf chain ts) :
    ∃ more, IsEnding more ∧ ts = tokensOf (frontOf chain ++ more) := by
  obtain rfl | ⟨-, rfl⟩ := isTokens
  · refine ⟨_, ?_, congrArg tokensOf (componentsOf_eq chain)⟩
    split
    · exact .inr rfl
    · exact .inl rfl
  · exact ⟨[], .inl rfl, by rw [List.append_nil]⟩

section
variable {more : List Component} (ending : IsEnding more)
include ending

theorem documented_ending (routable : ∀ s ∈ chain, s.IsRoutable) :
    IsDocumented (frontOf chain ++ more) := by
  apply documented_frontOf routable
  obtain rfl | rfl := ending
  · exact .nil
  · exact .wildcard (by simp [Component.IsProper])

theorem parameterNames_ending (chain : List Segment) :
    parameterNames (frontOf chain ++ more) = parameterNames (frontOf chain) := by
  obtain rfl | rfl := ending <;> simp [parameterNames]

theorem bare_ending {name : Option String} (h : .wildcard name ∈ frontOf chain ++ more) :
    name = none := by
  obtain front | behind := List.mem_append.1 h
  · exact absurd (plain_frontOf _ front) (by simp [Component.isWildcard])
  · obtain rfl | rfl := ending
    · cases behind
    · simpa using behind

end

/-- What a request that reaches the route of a chain is given: the components of its path at the
places of the parameters, and what the wildcard takes. -/
theorem exists_captures (routable : ∀ s ∈ chain, s.IsRoutable) (isOf : r.IsOf chain)
    (few : ((throughWildcard chain).countP fun s => s.kind = .dynamic) ≤ 25) {method : Method}
    {path : String} {found : Handler × Bindings String}
    (reached : (mountedAlone r).1.lookup method path = some found) :
    ∃ more parts values capture, IsEnding more ∧ path = slashed parts ∧
      Matches (frontOf chain ++ more) parts values capture ∧
      (∀ key text, capture = some (key, text) → key = Mux.wildcardName) ∧
      found = (r.endpoint, Bindings.ofList
        (((parameterNames (frontOf chain)).zip values ++ capture.toList).map renamed)) := by
  obtain ⟨nothing, -⟩ | ⟨ts, taken, rest, -, isTokens, fits, -, answer⟩ :=
    mountedAlone_lookup routable isOf few method path
  · rw [nothing] at reached
    cases reached
  obtain ⟨more, ending, rfl⟩ := exists_ending isTokens
  obtain ⟨parts, values, capture, rfl, matched⟩ :=
    matches_of_fits (documented_ending ending routable) fits
  obtain ⟨rfl, rfl⟩ := fits.unique (fits_of_matches matched)
  refine ⟨more, parts, values, capture, ending, rfl, matched, ?_, ?_⟩
  · rintro key text captured
    obtain ⟨name, mem, rfl⟩ := matched.exists_wildcard captured
    rw [bare_ending ending mem]
    rfl
  · rw [paramsOf_matched, reached] at answer
    exact Option.some.inj answer

end

/-- A path that goes through a chain leads somewhere, whatever the names of its parameters. -/
theorem isSome_route?_of_reads {chain : List Segment} {r : Route}
    (routable : ∀ s ∈ chain, s.IsRoutable) (isOf : r.IsOf chain)
    (few : ((throughWildcard chain).countP fun s => s.kind = .dynamic) ≤ 25) {parts : List String}
    {rest : Option String} (reads : Reads chain parts rest) :
    ((mountedAlone r).1.route? r.method (slashed parts)).isSome = true := by
  obtain ⟨ts, values, capture, isTokens, fits, -, -⟩ := fits_of_reads reads
  obtain ⟨-, nothing⟩ | ⟨us, taken, rest', -, -, -, -, found⟩ :=
    mountedAlone_lookup routable isOf few r.method (slashed parts)
  · exact absurd ⟨_, _, fits⟩ (nothing ts rfl isTokens)
  · rw [Mux.route?_of_lookup found]
    rfl

theorem Mux.exists_lookup_of_route? {m : Mux} {method : Method} {path : String}
    {found : Handler × Bindings String} (reached : m.route? method path = some found) :
    ∃ other, m.lookup other path = some found := by
  rw [Mux.route?] at reached
  split at reached
  · next own => exact ⟨method, own.trans reached⟩
  · split at reached
    · exact ⟨.get, reached⟩
    · cases reached

theorem param?_exposed_of_ne {r : Route} {name : String} (other : r.catchAllParam ≠ some name)
    (c : Context) : (r.exposed c).param? name = c.param? name := by
  cases given : r.catchAllParam with
  | none => rw [Route.exposed, given]
  | some own =>
    have exposed : r.exposed c = c.exposeWildcard own := by rw [Route.exposed, given]
    have apart : name ≠ own := by
      rintro rfl
      exact other given
    rw [exposed, Context.param?, Context.exposeWildcard, Bindings.get?_set, if_neg apart]
    rfl

section
variable {chain : List Segment} {r : Route}
  (apart : (((asked chain).filter Segment.isParameter).map Segment.name).Nodup)
include apart

/-- A parameter is not found under the name of the wildcard, which is another. -/
theorem catchAllParam_ne (isOf : r.IsOf chain) {s : Segment} (among : s ∈ asked chain)
    (dynamic : s.isDynamic = true) : r.catchAllParam ≠ some s.name := by
  intro given
  rw [isOf.catchAllParam] at given
  obtain ⟨⟨own, optional⟩, wildcard, rfl⟩ := Option.map_eq_some_iff.1 given
  obtain ⟨w, among', wild, same⟩ := exists_asked_of_catchAllParam? wildcard
  have first : s ∈ (asked chain).filter Segment.isParameter :=
    List.mem_filter.2 ⟨among, by rw [Segment.isParameter, dynamic, Bool.true_or]⟩
  have second : w ∈ (asked chain).filter Segment.isParameter :=
    List.mem_filter.2 ⟨among', by rw [Segment.isParameter, wild, Bool.or_true]⟩
  obtain rfl : w = s := List.inj_on_of_nodup_map apart second first same
  rw [not_isWildcard_of_isDynamic dynamic] at wild
  cases wild

theorem nodup_parameterNames : (parameterNames (frontOf chain)).Nodup := by
  rw [parameterNames_frontOf]
  refine apart.sublist (List.Sublist.map _ (List.monotone_filter_right _ ?_))
  intro s dynamic
  rw [Segment.isParameter, dynamic, Bool.true_or]

/-- Each name is captured for once, but for the one that is kept for wildcards. -/
theorem captured_once {values : List String}
    (even : (parameterNames (frontOf chain)).length = values.length)
    {capture : Option (String × String)}
    (wildcard : ∀ key text, capture = some (key, text) → key = Mux.wildcardName)
    {name value : String} (taken : (name, value) ∈ (parameterNames (frontOf chain)).zip values)
    (other : name ≠ Mux.wildcardName) :
    ∀ c ∈ (parameterNames (frontOf chain)).zip values ++ capture.toList, c.1 = name →
    c.2 = value := by
  have once : (((parameterNames (frontOf chain)).zip values).map Prod.fst).Nodup := by
    rw [List.map_fst_zip even.le]
    exact nodup_parameterNames apart
  rintro ⟨key, text⟩ hc rfl
  obtain front | last := List.mem_append.1 hc
  · exact congrArg Prod.snd (List.inj_on_of_nodup_map once front taken rfl)
  · exact absurd (wildcard key text (Option.mem_toList.1 last)) other

end

/-- Directories whose parameters have names of their own, and at most twenty-five of them, are
mounted alone. A request that reaches the handler gives it, for each parameter before the first
wildcard, the component of the path at its place, trailing slashes aside. The one exception is the
name under which the path index captures wildcards: a parameter of that name is not found under
it. -/
theorem parameter_eq_component {raws : List String} (writable : ∀ raw ∈ raws, IsWritable raw)
    {r : Route} (isOf : r.IsOf (raws.map Segment.classify))
    (few : ((throughWildcard (raws.map Segment.classify)).countP fun s => s.kind = .dynamic) ≤ 25)
    (apart : (((asked (raws.map Segment.classify)).filter Segment.isParameter).map
      Segment.name).Nodup) :
    (mountedAlone r).2.isComplete = true ∧ ∀ request : Request,
      ((mountedAlone r).1.route? request.method (Mux.normalize request.path)).isSome = true →
      ∃ seen : Context,
        (mountedAlone r).1.dispatch request = Mux.answered request (r.handler.on seen) ∧
        seen.request = request ∧
        ∀ i s, (asked (raws.map Segment.classify))[i]? = some s → s.isDynamic = true →
          ∃ value, (splitString '/' (Mux.normalize request.path))[i + 1]? = some value ∧
            seen.param? s.name = if s.name = Mux.wildcardName then none else some value := by
  have routable := isRoutable_of_isWritable writable
  generalize raws.map Segment.classify = chain at isOf few apart routable ⊢
  refine ⟨mountedAlone_complete routable isOf few, fun request reached => ?_⟩
  obtain ⟨found, route⟩ := Option.isSome_iff_exists.1 reached
  obtain ⟨method, lookup⟩ := Mux.exists_lookup_of_route? route
  obtain ⟨more, parts, values, capture, ending, path, matched, wildcard, rfl⟩ :=
    exists_captures routable isOf few lookup
  have noProxy := Table.proxy_mount (Table.proxy_addRoute Table.empty r) []
  have dispatched := Mux.dispatch_of_route noProxy route
  rw [endpoint_on] at dispatched
  refine ⟨_, dispatched, request_exposed r _, ?_⟩
  intro i s there dynamic
  have among : s ∈ asked chain := List.mem_of_getElem? there
  have place : (frontOf chain ++ more)[i]? = some (.parameter s.name) := by
    have front := getElem?_frontOf there dynamic
    rwa [List.getElem?_append_left (List.getElem?_eq_some_iff.1 front).1]
  obtain ⟨front, value, behind, rfl, rfl, flat, component, taken⟩ :=
    matched.at_parameter (documented_ending ending routable).proper place
  have even := matched.length_values
  rw [parameterNames_ending ending] at taken even
  refine ⟨value, ?_, ?_⟩
  · rw [path]
    exact getElem?_splitString_slashed flat component.2 behind
  rw [param?_exposed_of_ne (catchAllParam_ne apart isOf among dynamic)]
  change (Bindings.ofList _).get? s.name = _
  by_cases kept : s.name = Mux.wildcardName
  · rw [if_pos kept, kept]
    exact get?_renamed_wildcardName _
  · rw [if_neg kept]
    apply get?_renamed (List.mem_append_left _ taken) _ kept
    · have named : Component.IsName s.name :=
        (routable s (asked_subset chain among)).2 (by simpa [Segment.isDynamic] using dynamic)
      intro star
      rw [star] at named
      exact absurd named (by decide)
    · exact captured_once apart even wildcard taken kept

/-- A group, a parameter, and a parameter under the name that is kept for wildcards. -/
def reservedChain : List String := ["users", "(shop)", "[id]", "[__wildcard]"]

/-- Their route, with a handler that does nothing. -/
def reservedRoute : Route := Route.new .get "/users/{id}/{__wildcard}" (pure ())

theorem classify_reservedChain : reservedChain.map Segment.classify =
    [⟨"users", "users", .static⟩, ⟨"(shop)", "shop", .group⟩, ⟨"[id]", "id", .dynamic⟩,
      ⟨"[__wildcard]", "__wildcard", .dynamic⟩] := by
  decide +kernel

theorem asked_reservedChain : asked (reservedChain.map Segment.classify) =
    [⟨"users", "users", .static⟩, ⟨"[id]", "id", .dynamic⟩,
      ⟨"[__wildcard]", "__wildcard", .dynamic⟩] := by
  rw [classify_reservedChain]
  decide

theorem reads_reservedChain :
    Reads (reservedChain.map Segment.classify) ["users", "7", "x"] none := by
  have id : IsComponent "7" := ⟨by decide, by decide⟩
  have other : IsComponent "x" := ⟨by decide, by decide⟩
  rw [classify_reservedChain]
  exact .static rfl (.group rfl (.dynamic rfl id (.dynamic rfl other .nil)))

/-- The parameter is found under its name, and the other one is not. -/
theorem parameter_eq_component_reserved : ∃ seen : Context,
    (mountedAlone reservedRoute).1.dispatch (Request.new .get "/users/7/x/") =
      Mux.answered (Request.new .get "/users/7/x/") ((pure () : Handler).on seen) ∧
    seen.param? "id" = some "7" ∧
    (splitString '/' (Mux.normalize "/users/7/x/"))[3]? = some "x" ∧
    seen.param? "__wildcard" = none := by
  have writable : ∀ raw ∈ reservedChain, IsWritable raw := by
    intro raw h
    refine ⟨⟨?_, ?_⟩, ?_⟩
    all_goals
      revert raw
      decide +kernel
  have isOf : reservedRoute.IsOf (reservedChain.map Segment.classify) :=
    ⟨by decide +kernel, by decide +kernel, by decide +kernel, rfl⟩
  have few : ((throughWildcard (reservedChain.map Segment.classify)).countP fun s =>
      s.kind = .dynamic) ≤ 25 := by
    rw [classify_reservedChain]
    decide
  have apart : (((asked (reservedChain.map Segment.classify)).filter Segment.isParameter).map
      Segment.name).Nodup := by
    rw [asked_reservedChain]
    decide
  have path : Mux.normalize "/users/7/x/" = slashed ["users", "7", "x"] := by decide +kernel
  have parts : splitString '/' (Mux.normalize "/users/7/x/") =
      ["", "users", "7", "x"] := by decide +kernel
  have reached :
      ((mountedAlone reservedRoute).1.route? .get (Mux.normalize "/users/7/x/")).isSome = true := by
    rw [path]
    exact isSome_route?_of_reads (isRoutable_of_isWritable writable) isOf few reads_reservedChain
  obtain ⟨-, reads⟩ := parameter_eq_component writable isOf few apart
  obtain ⟨seen, dispatched, -, found⟩ := reads (Request.new .get "/users/7/x/") reached
  rw [asked_reservedChain] at found
  refine ⟨seen, dispatched, ?_, by rw [parts]; rfl, ?_⟩
  · obtain ⟨value, there, param⟩ := found 1 _ rfl rfl
    change (splitString '/' (Mux.normalize "/users/7/x/"))[2]? = some value at there
    rw [parts] at there
    obtain rfl : "7" = value := by simpa using there
    exact param
  · obtain ⟨value, -, param⟩ := found 2 _ rfl rfl
    exact param

end Waymark.Routing
