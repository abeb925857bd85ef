import Waymark.Proofs.Routing.Kinds
import Waymark.Proofs.Routing.Scope
import Waymark.Proofs.Scan.Address

/-!
# Scopes as records of directories

A scope is cut at its slashes and read again, name by name. So nothing is lost in it: what a file is
mapped to can be told from its scope alone. A pattern is cut at a wildcard, and it is read off the
pattern's end whether there is one:

* `segmentsIn`, `segmentsIn_scope`: what a scope records, and that it is the chain it was made from;
* `scope_injective`: different directories have different scopes;
* `catchAll?_eq_some_iff`: the first wildcard of a chain, and what stands before it;
* `EndsWithWildcard`, `endsWithWildcard_classify`: the wildcard of a chain and the end of its
  pattern;
* `scope_lossless`: all of this, for directories and for the files in them.
-/

namespace Waymark.Scan

open Waymark.Disk (Path Name)
open Waymark.Routing
open Waymark.Text

/-- What a scope records, name by name; the empty scope is that of the application directory. -/
def segmentsIn (scope : String) : List Segment :=
  if scope = "" then [] else (splitString '/' scope).map Segment.classify

theorem splitString_joinStrings {names : List String} (proper : ∀ n ∈ names, IsComponent n)
    (some' : names ≠ []) :
    splitString '/' (joinStrings '/' names) = names := by
  obtain ⟨first, rest, rfl⟩ := List.exists_cons_of_ne_nil some'
  obtain ⟨own, behind⟩ := List.forall_mem_cons.1 proper
  have flat : ∀ p ∈ rest.map String.toList, '/' ∉ p := by simpa using fun n hn => (behind n hn).2
  rw [splitString, joinStrings, String.toList_ofList, List.map_cons, join_cons,
    split_append_lead own.2 flat]
  simp [Function.comp_def]

theorem segmentsIn_joinStrings {names : List String} (proper : ∀ n ∈ names, IsComponent n) :
    segmentsIn (joinStrings '/' names) = names.map Segment.classify := by
  by_cases top : names = []
  · subst top
    rfl
  · rw [segmentsIn, if_neg (joinStrings_ne_empty proper top), splitString_joinStrings proper top]

/-- A scope is read back to the chain that it was made from. -/
theorem segmentsIn_scope (c : Chain) : segmentsIn c.scope = c.names.map Segment.classify := by
  rw [Chain.scope_eq, segmentsIn_joinStrings c.proper]

/-- Different directories have different scopes. -/
theorem scope_injective : Function.Injective Chain.scope := by
  intro a b same
  have read : a.names.map Segment.classify = b.names.map Segment.classify := by
    rw [← segmentsIn_scope, same, segmentsIn_scope]
  have names := congrArg (List.map Segment.raw) read
  rw [List.map_map, List.map_map] at names
  apply Chain.ext
  simpa [Function.comp_def] using names

section
variable {chain : List Segment} {s : Segment}

/-- A segment is written as a star exactly when it is a wildcard, unless it is a literal star. -/
theorem patternPart?_eq_star_iff (routable : s.IsRoutable) :
    s.patternPart? = some "*" ↔ s.isWildcard = true := by
  cases kind : s.kind with
  | static =>
    have other : escapeLiteral s.raw ≠ "*" :=
      fun same => (routable.1 kind).1 (escapeLiteral_eq_star same)
    simp [Segment.patternPart?, Segment.isWildcard, kind, other]
  | dynamic => simp [Segment.patternPart?, Segment.isWildcard, kind, placeholder_ne_star]
  | catchAll | optionalCatchAll | group => simp [Segment.patternPart?, Segment.isWildcard, kind]

theorem star_mem_filterMap_iff (routable : ∀ s ∈ chain, s.IsRoutable) :
    "*" ∈ chain.filterMap Segment.patternPart? ↔ ∃ s ∈ chain, s.isWildcard = true := by
  rw [List.mem_filterMap]
  exact exists_congr fun s => and_congr_right fun hs => patternPart?_eq_star_iff (routable s hs)

/-- The first wildcard of a chain, with none before it. -/
theorem catchAll?_eq_some_iff : catchAll? chain = some s ↔
    s.isWildcard = true ∧ ∃ front behind, chain = front ++ s :: behind ∧
    ∀ t ∈ front, t.isWildcard = false := by
  simp [catchAll?, List.find?_eq_some_iff_append]

theorem throughWildcard_append {front : List Segment} (plain : ∀ t ∈ front, t.isWildcard = false)
    (wild : s.isWildcard = true) (behind : List Segment) :
    throughWildcard (front ++ s :: behind) = front ++ [s] := by
  induction front with
  | nil => rw [List.nil_append, throughWildcard, if_pos wild, List.nil_append]
  | cons t front ih =>
    obtain ⟨first, more⟩ := List.forall_mem_cons.1 plain
    rw [List.cons_append, throughWildcard, if_neg (by simp [first]), ih more, List.cons_append]

end

/-- A chain has a wildcard if and only if its pattern ends in one. It is then the first wildcard
that wrote this end, behind what the segments before it wrote. -/
structure EndsWithWildcard (chain : List Segment) : Prop where
  isSome_iff : (catchAll? chain).isSome ↔ (splitNonEmpty '/' (urlPattern chain)).getLast? = some "*"
  written : ∀ s, catchAll? chain = some s → ∃ front behind, chain = front ++ s :: behind ∧
    s.patternPart? = some "*" ∧ "*" ∉ front.filterMap Segment.patternPart? ∧
    splitNonEmpty '/' (urlPattern chain) = front.filterMap Segment.patternPart? ++ ["*"]
  absent : catchAll? chain = none → "*" ∉ splitNonEmpty '/' (urlPattern chain)

theorem endsWithWildcard_classify {names : List String} (proper : ∀ n ∈ names, IsComponent n)
    (starless : "*" ∉ names) : EndsWithWildcard (names.map Segment.classify) := by
  have routable : ∀ s ∈ names.map Segment.classify, s.IsRoutable := by
    intro s hs
    obtain ⟨n, hn, rfl⟩ := List.mem_map.1 hs
    exact isRoutable_classify (proper n hn) fun same => starless (same ▸ hn)
  have parts : splitNonEmpty '/' (urlPattern (names.map Segment.classify)) =
      patternParts (names.map Segment.classify) := by
    rw [urlPattern_eq, splitNonEmpty_slashed (isComponent_patternParts proper)]
  generalize names.map Segment.classify = chain at routable parts ⊢
  have written : ∀ s, catchAll? chain = some s → ∃ front behind, chain = front ++ s :: behind ∧
      s.patternPart? = some "*" ∧ "*" ∉ front.filterMap Segment.patternPart? ∧
      splitNonEmpty '/' (urlPattern chain) = front.filterMap Segment.patternPart? ++ ["*"] := by
    intro s first
    obtain ⟨wild, front, behind, rfl, plain⟩ := catchAll?_eq_some_iff.1 first
    have star : s.patternPart? = some "*" :=
      (patternPart?_eq_star_iff (routable s (by simp))).2 wild
    refine ⟨front, behind, rfl, star, ?_, ?_⟩
    · rw [star_mem_filterMap_iff fun t ht => routable t (List.mem_append_left _ ht)]
      rintro ⟨t, ht, other⟩
      rw [plain t ht] at other
      cases other
    · rw [parts, patternParts, throughWildcard_append plain wild, List.filterMap_append,
        List.filterMap_cons_some star, List.filterMap_nil]
  have absent : catchAll? chain = none → "*" ∉ splitNonEmpty '/' (urlPattern chain) := by
    intro none'
    have plain : ∀ s ∈ chain, s.isWildcard = false := by simpa [catchAll?] using none'
    rw [parts, patternParts, throughWildcard_eq_self plain, star_mem_filterMap_iff routable]
    rintro ⟨s, hs, wild⟩
    rw [plain s hs] at wild
    cases wild
  refine ⟨⟨fun some' => ?_, fun ends => ?_⟩, written, absent⟩
  · obtain ⟨s, first⟩ := Option.isSome_iff_exists.1 some'
    obtain ⟨front, behind, -, -, -, text⟩ := written s first
    rw [text, List.getLast?_concat]
  · by_contra none'
    exact absent (by simpa using none') (List.mem_of_getLast? ends)

/-- What a file is mapped to, told from its scope. -/
structure ToldByScope (f : MarkerFile) : Prop where
  segments : f.segments = segmentsIn f.scope
  pattern : f.pattern = urlPattern (segmentsIn f.scope)
  priority : Routing.priority f.pattern = Routing.priority (urlPattern (segmentsIn f.scope))
  catchAllParam : f.catchAllParam? = Routing.catchAllParam? (segmentsIn f.scope)

theorem toldByScope_of_isFileName {f : MarkerFile} (named : ∀ n ∈ f.directories, IsFileName n) :
    ToldByScope f := by
  have proper : ∀ raw ∈ f.raws, IsComponent raw := by
    intro raw hr
    obtain ⟨n, hn, rfl⟩ := List.mem_map.1 hr
    exact (named n hn).isComponent
  have read : segmentsIn f.scope = f.segments := by
    rw [f.scope_eq, segmentsIn_joinStrings proper, f.segments_eq]
  constructor
  · exact read.symm
  · rw [read]
    rfl
  · rw [read]
    rfl
  · rw [read]
    rfl

/-- **A scope records its directory without loss.** Cut at its slashes and read name by name, it is
the chain that it was made from. So different directories have different scopes, and what a file is
mapped to is told by its scope alone. Where no name is a bare star, a chain has a wildcard exactly
when its pattern ends in one, which its first wildcard wrote, and else there is none in its
pattern. -/
theorem scope_lossless :
    (∀ c : Chain, segmentsIn c.scope = c.names.map Segment.classify) ∧
    (∀ c d : Chain, c.scope = d.scope → c = d) ∧
    (∀ f : MarkerFile, (∀ n ∈ f.directories, IsFileName n) → ToldByScope f) ∧
    ∀ c : Chain, "*" ∉ c.names → EndsWithWildcard (c.names.map Segment.classify) := by
  refine ⟨segmentsIn_scope, fun c d same => scope_injective same, fun f =>
    toldByScope_of_isFileName, ?_⟩
  intro c starless
  exact endsWithWildcard_classify c.proper starless

/-- Directories with a group, a parameter and two wildcards, and one more below. -/
def nestedWildcards : Chain :=
  ⟨["(shop)", "[id]", "[...path]", "[[...rest]]", "edit"], by simp [IsComponent]⟩

/-- A file in these directories. -/
def nestedFile : MarkerFile :=
  ⟨⟨Name.ofString "/app"⟩, nestedWildcards.names.map Name.ofString, Name.ofString "page.rs", []⟩

/-- A scope names two wildcards and a directory below, no other directory has it, and the pattern
ends in what the first of the wildcards wrote. -/
theorem scope_lossless_nestedWildcards :
    segmentsIn "(shop)/[id]/[...path]/[[...rest]]/edit" =
      nestedWildcards.names.map Segment.classify ∧
      (∀ c : Chain, c.scope = "(shop)/[id]/[...path]/[[...rest]]/edit" → c = nestedWildcards) ∧
      nestedFile.pattern = "/\x7bid\x7d/*" ∧ nestedFile.catchAllParam? = some ("path", false) ∧
      (splitNonEmpty '/' (urlPattern (nestedWildcards.names.map Segment.classify))).getLast? =
        some "*" := by
  obtain ⟨read, apart, told, ends⟩ := scope_lossless
  have scope : nestedWildcards.scope = "(shop)/[id]/[...path]/[[...rest]]/edit" := by decide +kernel
  have named : ∀ n ∈ nestedFile.directories, IsFileName n := by
    intro n hn
    obtain ⟨raw, hr, rfl⟩ := List.mem_map.1 hn
    obtain ⟨some', flat⟩ := nestedWildcards.proper raw hr
    exact isFileName_ofString some' flat
  have own := told nestedFile named
  have first : (catchAll? (nestedWildcards.names.map Segment.classify)).isSome := by decide +kernel
  refine ⟨scope ▸ read nestedWildcards, fun c same => apart c _ (same.trans scope.symm), ?_, ?_, ?_⟩
  · rw [own.pattern]
    decide +kernel
  · rw [own.catchAllParam]
    decide +kernel
  · exact (ends nestedWildcards (by decide)).isSome_iff.1 first

end Waymark.Scan
