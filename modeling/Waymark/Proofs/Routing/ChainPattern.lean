import Waymark.Proofs.Routing.Matching
import Waymark.Routing.Page

/-!
# The patterns of chains of directories

A chain of directories has a pattern of whole components, cut at its first wildcard; an optional
wildcard has a second pattern for the empty rest:

* `Reads`: the components of a path go through a chain, and what its wildcard takes;
* `Route.IsOf`: a route is registered for a chain;
* `componentsOf`, `frontOf`: the components of a chain's pattern, and those before its wildcard;
* `reads_iff`: a path goes through a chain as it matches one of the two patterns of its route;
* `basePattern?_eq`: the second pattern.
-/

namespace Waymark.Routing

open Waymark.Text

/-- The components of a path go through a chain of segments. With a wildcard in the chain, `rest` is
what the wildcard takes. -/
inductive Reads : List Segment → List String → Option String → Prop
  | nil : Reads [] [] none
  | group {s : Segment} {chain : List Segment} {parts : List String} {rest : Option String}
    (kind : s.kind = .group) (more : Reads chain parts rest) : Reads (s :: chain) parts rest
  | static {s : Segment} {chain : List Segment} {parts : List String} {rest : Option String}
    (kind : s.kind = .static) (more : Reads chain parts rest) :
    Reads (s :: chain) (s.raw :: parts) rest
  | dynamic {s : Segment} {chain : List Segment} {parts : List String} {rest : Option String}
    {value : String} (kind : s.kind = .dynamic) (component : IsComponent value)
    (more : Reads chain parts rest) : Reads (s :: chain) (value :: parts) rest
  | wildcard {s : Segment} {chain : List Segment} {text : String} (kind : s.isWildcard = true)
    (written : text ≠ "") : Reads (s :: chain) [text] (some text)
  | absent {s : Segment} {chain : List Segment} (kind : s.kind = .optionalCatchAll) :
    Reads (s :: chain) [] (some "")

/-- A route is registered for a chain, without middleware of its own. -/
structure Route.IsOf (r : Route) (chain : List Segment) : Prop where
  pattern : r.pattern = urlPattern chain
  catchAllParam : r.catchAllParam = (catchAllParam? chain).map Prod.fst
  optionalCatchAll : r.optionalCatchAll = (catchAllParam? chain).any Prod.snd
  middleware : r.middleware = []

/-- What a segment stands for in a pattern. -/
def Segment.component? (s : Segment) : Option Component :=
  match s.kind with
  | .static => some (.literal s.raw)
  | .dynamic => some (.parameter s.name)
  | .catchAll | .optionalCatchAll => some (.wildcard none)
  | .group => none

/-- The components of the pattern of a chain. -/
def componentsOf (chain : List Segment) : List Component :=
  (throughWildcard chain).filterMap Segment.component?

/-- The components before the first wildcard of a chain. -/
def frontOf : List Segment → List Component
  | [] => []
  | s :: chain => if s.isWildcard then [] else s.component?.toList ++ frontOf chain

/-- A segment that can be written in a pattern. -/
def Segment.IsRoutable (s : Segment) : Prop :=
  (s.kind = .static → s.raw ≠ "*" ∧ '/' ∉ s.raw.toList) ∧
    (s.kind = .dynamic → Component.IsName s.name)

theorem isName_of_isValidName {name : List Char} (valid : Segment.isValidName name = true) :
    Component.IsName (String.ofList name) := by
  have absent {c : Char} (other : Segment.isNameChar c = false) :
      c ∉ (String.ofList name).toList := by
    rw [String.toList_ofList]
    exact Segment.not_mem_of_isValidName valid other
  refine ⟨?_, absent (by decide), absent (by decide), absent (by decide), absent (by decide)⟩
  simpa using Segment.ne_nil_of_isValidName valid

/-- Directory names give segments that can be written in a pattern. -/
theorem isRoutable_classify {raw : String} (component : IsComponent raw) (literal : raw ≠ "*") :
    (Segment.classify raw).IsRoutable := by
  obtain read | ⟨kind, name, read, other, valid⟩ := Segment.classify_cases raw
  · rw [read]
    exact ⟨fun _ => ⟨literal, component.2⟩, fun dynamic => by simp at dynamic⟩
  · rw [read]
    exact ⟨fun static => absurd static other, fun _ => isName_of_isValidName valid⟩

theorem patternPart?_eq (s : Segment) : s.patternPart? = s.component?.map Component.text := by
  cases kind : s.kind <;> simp [Segment.patternPart?, Segment.component?, kind, Component.text]

theorem patternParts_eq (chain : List Segment) :
    patternParts chain = (componentsOf chain).map Component.text := by
  rw [patternParts, componentsOf, List.map_filterMap]
  exact List.filterMap_congr fun s _ => patternPart?_eq s

theorem urlPattern_eq_patternOf (chain : List Segment) :
    urlPattern chain = patternOf (componentsOf chain) := by
  rw [urlPattern_eq, patternParts_eq, patternOf]

theorem componentsOf_cons (s : Segment) (chain : List Segment) :
    componentsOf (s :: chain) =
      if s.isWildcard then [.wildcard none] else s.component?.toList ++ componentsOf chain := by
  rw [componentsOf, throughWildcard]
  by_cases wild : s.isWildcard = true
  · have component : s.component? = some (.wildcard none) := by
      simp only [Segment.isWildcard, Bool.or_eq_true, decide_eq_true_eq] at wild
      obtain kind | kind := wild <;> simp [Segment.component?, kind]
    simp [wild, component]
  · cases given : s.component? with
    | none => simp [wild, given, componentsOf]
    | some c => simp [wild, given, componentsOf]

/-- The pattern of a chain is what stands before its wildcard, and the wildcard. -/
theorem componentsOf_eq (chain : List Segment) :
    componentsOf chain = frontOf chain ++ if (catchAll? chain).isSome then [.wildcard none]
      else [] := by
  induction chain with
  | nil => rfl
  | cons s chain ih =>
    rw [componentsOf_cons, frontOf, catchAll?, List.find?_cons]
    cases wild : s.isWildcard with
    | true => simp
    | false => simpa [catchAll?] using ih

theorem catchAllParam?_cons (s : Segment) (chain : List Segment) :
    catchAllParam? (s :: chain) =
      if s.isWildcard then some (s.name, decide (s.kind = .optionalCatchAll))
        else catchAllParam? chain := by
  rw [catchAllParam?, catchAll?, List.find?_cons]
  cases wild : s.isWildcard with
  | true => simp
  | false => simp [catchAllParam?, catchAll?]

section
variable {s : Segment} {chain : List Segment} {parts : List String} {rest : Option String}

theorem isWildcard_iff : s.isWildcard = true ↔ s.kind = .catchAll ∨ s.kind = .optionalCatchAll := by
  simp [Segment.isWildcard]

theorem reads_group (kind : s.kind = .group) :
    Reads (s :: chain) parts rest ↔ Reads chain parts rest := by
  constructor
  · intro reads
    cases reads with
    | group _ more => exact more
    | static other | dynamic other | absent other => cases kind.symm.trans other
    | wildcard wild => simp [isWildcard_iff, kind] at wild
  · exact .group kind

theorem reads_static (kind : s.kind = .static) :
    Reads (s :: chain) parts rest ↔ ∃ more, parts = s.raw :: more ∧ Reads chain more rest := by
  constructor
  · intro reads
    cases reads with
    | static _ more => exact ⟨_, rfl, more⟩
    | group other | dynamic other | absent other => cases kind.symm.trans other
    | wildcard wild => simp [isWildcard_iff, kind] at wild
  · rintro ⟨more, rfl, reads⟩
    exact .static kind reads

theorem reads_dynamic (kind : s.kind = .dynamic) :
    Reads (s :: chain) parts rest ↔
      ∃ value more, parts = value :: more ∧ IsComponent value ∧ Reads chain more rest := by
  constructor
  · intro reads
    cases reads with
    | dynamic _ component more => exact ⟨_, _, rfl, component, more⟩
    | group other | static other | absent other => cases kind.symm.trans other
    | wildcard wild => simp [isWildcard_iff, kind] at wild
  · rintro ⟨value, more, rfl, component, reads⟩
    exact .dynamic kind component reads

theorem reads_wildcard (wild : s.isWildcard = true) :
    Reads (s :: chain) parts rest ↔
      (∃ text, text ≠ "" ∧ parts = [text] ∧ rest = some text) ∨
      (s.kind = .optionalCatchAll ∧ parts = [] ∧ rest = some "") := by
  constructor
  · intro reads
    cases reads with
    | wildcard _ written => exact .inl ⟨_, written, rfl, rfl⟩
    | absent kind => exact .inr ⟨kind, rfl, rfl⟩
    | group other | static other | dynamic other => simp [isWildcard_iff, other] at wild
  · rintro (⟨text, written, rfl, rfl⟩ | ⟨kind, rfl, rfl⟩)
    · exact .wildcard wild written
    · exact .absent kind

end

section
variable {cs : List Component} {parts values : List String} {capture : Option (String × String)}

theorem matches_literal {raw : String} : Matches (.literal raw :: cs) parts values capture ↔
    ∃ more, parts = raw :: more ∧ Matches cs more values capture := by
  constructor
  · rintro ⟨⟩
    exact ⟨_, rfl, by assumption⟩
  · rintro ⟨more, rfl, found⟩
    exact .literal raw found

theorem matches_parameter {name : String} : Matches (.parameter name :: cs) parts values capture ↔
    ∃ value more taken, parts = value :: more ∧ values = value :: taken ∧ IsComponent value ∧
      Matches cs more taken capture := by
  constructor
  · rintro ⟨⟩
    exact ⟨_, _, _, rfl, rfl, by assumption, by assumption⟩
  · rintro ⟨value, more, taken, rfl, rfl, component, found⟩
    exact .parameter name component found

theorem matches_wildcard {name : Option String} : Matches [.wildcard name] parts values capture ↔
    ∃ text, text ≠ "" ∧ parts = [text] ∧ values = [] ∧
      capture = some (Component.captureName name, text) := by
  constructor
  · rintro ⟨⟩
    exact ⟨_, by assumption, rfl, rfl, rfl⟩
  · rintro ⟨text, written, rfl, rfl, rfl⟩
    exact .wildcard name written

/-- What is captured is what a wildcard of the pattern takes. -/
theorem Matches.exists_wildcard (h : Matches cs parts values capture) {key text : String}
    (captured : capture = some (key, text)) :
    ∃ name, .wildcard name ∈ cs ∧ key = Component.captureName name := by
  induction h with
  | nil => cases captured
  | literal raw _ ih | parameter raw _ _ ih =>
    obtain ⟨name, mem, same⟩ := ih captured
    exact ⟨name, List.mem_cons_of_mem _ mem, same⟩
  | wildcard name written =>
    obtain ⟨rfl, rfl⟩ := Prod.mk.inj (Option.some.inj captured)
    exact ⟨name, by simp, rfl⟩

theorem matches_nil : Matches [] parts values capture ↔ parts = [] ∧ values = [] ∧
    capture = none := by
  constructor
  · rintro ⟨⟩
    exact ⟨rfl, rfl, rfl⟩
  · rintro ⟨rfl, rfl, rfl⟩
    exact .nil

end

theorem matches_rest {name : Option String} {parts : List String} {rest : Option String} :
    (∃ values capture, Matches [.wildcard name] parts values capture ∧
      rest = capture.map Prod.snd) ↔
      ∃ text, text ≠ "" ∧ parts = [text] ∧ rest = some text := by
  constructor
  · rintro ⟨values, capture, found, rfl⟩
    obtain ⟨text, written, rfl, rfl, rfl⟩ := matches_wildcard.1 found
    exact ⟨text, written, rfl, rfl⟩
  · rintro ⟨text, written, rfl, rfl⟩
    exact ⟨[], _, .wildcard name written, rfl⟩

/-- A path goes through a chain as it matches its pattern, or as it matches what stands before an
optional wildcard. -/
theorem reads_iff {chain : List Segment} {parts : List String} {rest : Option String} :
    Reads chain parts rest ↔
      (∃ values capture, Matches (componentsOf chain) parts values capture ∧
        rest = capture.map Prod.snd) ∨
      ((catchAllParam? chain).any Prod.snd = true ∧ rest = some "" ∧
        ∃ values, Matches (frontOf chain) parts values none) := by
  induction chain generalizing parts with
  | nil =>
    constructor
    · rintro ⟨⟩
      exact .inl ⟨[], none, .nil, rfl⟩
    · rintro (⟨_, _, ⟨⟩, rfl⟩ | ⟨optional, -⟩)
      · exact .nil
      · simp [catchAllParam?, catchAll?] at optional
  | cons s chain ih =>
    rw [componentsOf_cons, frontOf, catchAllParam?_cons]
    cases kind : s.kind with
    | static =>
      have plain : s.isWildcard = false := by simp [Segment.isWildcard, kind]
      have component : s.component? = some (.literal s.raw) := by simp [Segment.component?, kind]
      simp only [plain, Bool.false_eq_true, ↓reduceIte, component, Option.toList_some,
        List.singleton_append, reads_static kind, matches_literal, ih]
      grind
    | dynamic =>
      have plain : s.isWildcard = false := by simp [Segment.isWildcard, kind]
      have component : s.component? = some (.parameter s.name) := by simp [Segment.component?, kind]
      simp only [plain, Bool.false_eq_true, ↓reduceIte, component, Option.toList_some,
        List.singleton_append, reads_dynamic kind, matches_parameter, ih]
      grind
    | group =>
      have plain : s.isWildcard = false := by simp [Segment.isWildcard, kind]
      have component : s.component? = none := by simp [Segment.component?, kind]
      simp only [plain, Bool.false_eq_true, ↓reduceIte, component, Option.toList_none,
        List.nil_append, reads_group kind, ih]
    | catchAll =>
      have wild : s.isWildcard = true := by simp [Segment.isWildcard, kind]
      simp only [wild, ↓reduceIte, reads_wildcard wild, matches_rest, kind]
      simp
    | optionalCatchAll =>
      have wild : s.isWildcard = true := by simp [Segment.isWildcard, kind]
      simp only [wild, ↓reduceIte, reads_wildcard wild, matches_rest, matches_nil, kind]
      simp [and_comm]

theorem component?_of_plain {s : Segment} (plain : s.isWildcard = false) (routable : s.IsRoutable)
    {c : Component} (given : s.component? = some c) : c.IsProper ∧ c.isWildcard = false := by
  cases kind : s.kind with
  | static =>
    obtain rfl : .literal s.raw = c := by simpa [Segment.component?, kind] using given
    exact ⟨routable.1 kind, rfl⟩
  | dynamic =>
    obtain rfl : .parameter s.name = c := by simpa [Segment.component?, kind] using given
    exact ⟨routable.2 kind, rfl⟩
  | group => simp [Segment.component?, kind] at given
  | catchAll | optionalCatchAll => simp [Segment.isWildcard, kind] at plain

/-- What stands before the wildcard of a chain goes on with any documented ending. -/
theorem documented_frontOf {chain : List Segment} (routable : ∀ s ∈ chain, s.IsRoutable)
    {cs : List Component} (documented : IsDocumented cs) : IsDocumented (frontOf chain ++ cs) := by
  induction chain with
  | nil => exact documented
  | cons s chain ih =>
    have behind := ih fun t ht => routable t (List.mem_cons_of_mem s ht)
    rw [frontOf]
    cases plain : s.isWildcard with
    | true => simpa using documented
    | false =>
      cases given : s.component? with
      | none => simpa using behind
      | some c =>
        obtain ⟨proper, goesOn⟩ := component?_of_plain plain (routable s (by simp)) given
        exact .cons proper goesOn behind

theorem isWildcard_of_component? {s : Segment} {c : Component} (given : s.component? = some c) :
    c.isWildcard = s.isWildcard := by
  cases kind : s.kind <;> simp only [Segment.component?, kind, Option.some.injEq,
    reduceCtorEq] at given
  all_goals subst given; simp [Segment.isWildcard, kind, Component.isWildcard]

theorem plain_frontOf {chain : List Segment} : ∀ c ∈ frontOf chain, c.isWildcard = false := by
  induction chain with
  | nil => simp [frontOf]
  | cons s chain ih =>
    intro c hc
    rw [frontOf] at hc
    split at hc
    · simp at hc
    · next plain =>
      obtain given | hc := List.mem_append.1 hc
      · rw [isWildcard_of_component? (by simpa using given)]
        simpa using plain
      · exact ih c hc

theorem bare_componentsOf {chain : List Segment} {name : Option String}
    (h : .wildcard name ∈ componentsOf chain) : name = none := by
  obtain ⟨s, -, given⟩ := List.mem_filterMap.1 h
  cases kind : s.kind <;> simp only [Segment.component?, kind, Option.some.injEq, reduceCtorEq,
    Component.wildcard.injEq] at given
  · exact given.symm
  · exact given.symm

theorem documented_componentsOf {chain : List Segment} (routable : ∀ s ∈ chain, s.IsRoutable) :
    IsDocumented (componentsOf chain) := by
  rw [componentsOf_eq]
  refine documented_frontOf routable ?_
  split
  · exact .wildcard (by simp [Component.IsProper])
  · exact .nil

theorem namesOf_componentsOf (chain : List Segment) :
    namesOf (componentsOf chain) = namesOf (frontOf chain) := by
  rw [componentsOf_eq]
  split <;> simp [namesOf]

/-- The parameters of a chain are its dynamic segments before its wildcard. -/
theorem length_namesOf_frontOf (chain : List Segment) :
    (namesOf (frontOf chain)).length =
      (throughWildcard chain).countP fun s => s.kind = .dynamic := by
  induction chain with
  | nil => rfl
  | cons s chain ih =>
    rw [frontOf, throughWildcard]
    cases kind : s.kind with
    | static | dynamic | group =>
      have plain : s.isWildcard = false := by simp [Segment.isWildcard, kind]
      simp only [namesOf] at ih
      simp [plain, Segment.component?, kind, namesOf, ih]
    | catchAll | optionalCatchAll =>
      have wild : s.isWildcard = true := by simp [Segment.isWildcard, kind]
      simp [wild, namesOf, kind]

/-- A parameter of a chain has the name of one of its dynamic segments. -/
theorem mem_namesOf_frontOf {chain : List Segment} {name : List UInt8}
    (h : name ∈ namesOf (frontOf chain)) : ∃ s ∈ chain, s.kind = .dynamic ∧
    name = bytesOf s.name := by
  induction chain with
  | nil => simp [frontOf, namesOf] at h
  | cons s chain ih =>
    have behind (h : name ∈ namesOf (frontOf chain)) :
        ∃ t ∈ s :: chain, t.kind = .dynamic ∧ name = bytesOf t.name := by
      obtain ⟨t, ht, found⟩ := ih h
      exact ⟨t, List.mem_cons_of_mem s ht, found⟩
    rw [frontOf] at h
    cases kind : s.kind with
    | static | group =>
      have plain : s.isWildcard = false := by simp [Segment.isWildcard, kind]
      exact behind (by simpa [plain, Segment.component?, kind, namesOf] using h)
    | dynamic =>
      have plain : s.isWildcard = false := by simp [Segment.isWildcard, kind]
      have either : name = bytesOf s.name ∨ name ∈ namesOf (frontOf chain) := by
        simpa [plain, Segment.component?, kind, namesOf, bytesOf] using h
      obtain rfl | h := either
      · exact ⟨s, by simp, kind, rfl⟩
      · exact behind h
    | catchAll | optionalCatchAll =>
      have wild : s.isWildcard = true := by simp [Segment.isWildcard, kind]
      simp [wild, namesOf] at h

/-- The pattern of a chain whose wildcard is left out. -/
theorem toList_patternOf_wildcard (cs : List Component) :
    (patternOf (cs ++ [.wildcard none])).toList =
      lead '/' ((cs.map Component.text).map String.toList) ++ ['/', '*'] := by
  rw [patternOf, toList_slashed (by simp)]
  simp [Component.text]

theorem exists_wildcard {chain : List Segment}
    (optional : (catchAllParam? chain).any Prod.snd = true) :
    componentsOf chain = frontOf chain ++ [.wildcard none] := by
  rw [catchAllParam?] at optional
  cases found : catchAll? chain with
  | none => simp [found] at optional
  | some s => rw [componentsOf_eq, found, Option.isSome_some, if_pos rfl]

/-- The base of a route with a wildcard is what stands before it. -/
theorem basePattern?_of_wildcard {r : Route} {chain : List Segment}
    (pattern : r.pattern = urlPattern chain)
    (wild : (catchAll? chain).isSome = true) (optional : r.optionalCatchAll = true) :
    r.basePattern? = some (patternOf (frontOf chain)) := by
  have text : r.pattern.toList =
      lead '/' (((frontOf chain).map Component.text).map String.toList) ++
      ['/', '*'] := by
    rw [pattern, urlPattern_eq_patternOf, componentsOf_eq, if_pos wild, toList_patternOf_wildcard]
  rw [Route.basePattern?, if_pos optional, withoutSuffix_eq_some_iff.2 text, Option.map_some]
  by_cases empty : frontOf chain = []
  · rw [empty]
    rfl
  · have written : (frontOf chain).map Component.text ≠ [] := by simpa using empty
    have front := toList_slashed written
    have goesOn : (lead '/' (((frontOf chain).map Component.text).map String.toList)).isEmpty =
        false := by
      obtain ⟨c, cs, spelled⟩ := List.exists_cons_of_ne_nil empty
      simp [spelled]
    rw [goesOn, if_neg (by simp), ← front, String.ofList_toList]
    rfl

theorem basePattern?_eq {r : Route} {chain : List Segment} (isOf : r.IsOf chain) :
    r.basePattern? =
      if (catchAllParam? chain).any Prod.snd then some (patternOf (frontOf chain)) else none := by
  split
  · next optional =>
    have wild : (catchAll? chain).isSome = true := by
      rw [catchAllParam?] at optional
      cases found : catchAll? chain with
      | none => simp [found] at optional
      | some s => rfl
    exact basePattern?_of_wildcard isOf.pattern wild (isOf.optionalCatchAll.trans optional)
  · next mandatory => rw [Route.basePattern?, isOf.optionalCatchAll, if_neg mandatory]

end Waymark.Routing
