import Mathlib.Data.List.Forall2
import Waymark.Proofs.Routing.ChainAgreement

/-!
# The kinds of segments, read back from a pattern

Writer and readers of a pattern are separate tests on its text. They agree: what a chain of
directories is written as reads as the segments it was written from.

* `ReadsAs`: a component is how a segment is written, and reads as what the segment is;
* `readsAs_each`: the components of a pattern read as the segments that are no groups, one by one;
* `priority_urlPattern`: the precedence of a pattern is that of the kinds in the chain;
* `kinds_read_back`: both, for all names that can be written in a pattern.
-/

namespace Waymark.Routing

open Waymark.Text

/-- The segment asks for one component of a path. -/
def Segment.isDynamic (s : Segment) : Bool := s.kind = .dynamic

/-- A component is how a segment is written, and it reads as a wildcard or as a parameter exactly
when the segment is one. -/
structure ReadsAs (part : String) (s : Segment) : Prop where
  written : s.patternPart? = some part
  wildcard : isWildcardPart part = s.isWildcard
  parameter : isPlaceholderPart part = s.isDynamic

theorem ofPart_eq_parameter_iff (part : String) : PartShape.ofPart part = .parameter ↔
    isWildcardPart part = false ∧ isPlaceholderPart part = true := by
  rw [PartShape.ofPart]
  by_cases wild : isWildcardPart part = true
  · simp [wild]
  · by_cases hole : isPlaceholderPart part = true
    · simp [wild, hole]
    · simp [wild, hole]

/-- A segment that is no group is written as a component that reads as the segment. -/
theorem exists_readsAs {s : Segment} (routable : s.IsRoutable) (kept : s.isGroup = false) :
    ∃ part, ReadsAs part s := by
  cases kind : s.kind with
  | static =>
    obtain ⟨literal, -⟩ := routable.1 kind
    refine ⟨escapeLiteral s.raw, ?_, ?_, ?_⟩
    · simp [Segment.patternPart?, kind]
    · simp [Component.isWildcardPart_escapeLiteral literal, Segment.isWildcard, kind]
    · simp [Component.isPlaceholderPart_escapeLiteral, Segment.isDynamic, kind]
  | dynamic =>
    have named : Component.IsName s.name := routable.2 kind
    obtain ⟨other, hole⟩ := (ofPart_eq_parameter_iff _).1 (Component.ofPart_placeholder named)
    refine ⟨placeholder s.name, ?_, ?_, ?_⟩
    · simp [Segment.patternPart?, kind]
    · simp [other, Segment.isWildcard, kind]
    · simp [hole, Segment.isDynamic, kind]
  | catchAll | optionalCatchAll =>
    have other : isPlaceholderPart "*" = false := by decide
    refine ⟨"*", ?_, ?_, ?_⟩
    · simp [Segment.patternPart?, kind]
    · simp [isWildcardPart, Segment.isWildcard, kind]
    · simp [other, Segment.isDynamic, kind]
  | group => simp [Segment.isGroup, kind] at kept

theorem patternParts_eq_asked (chain : List Segment) :
    patternParts chain = (asked chain).filterMap Segment.patternPart? := by
  rw [patternParts_eq, ← filterMap_asked, List.map_filterMap]
  exact (List.filterMap_congr fun s _ => patternPart?_eq s).symm

/-- The components of a pattern read as the segments that are no groups, one by one. -/
theorem readsAs_each {chain : List Segment} (routable : ∀ s ∈ chain, s.IsRoutable)
    (kept : ∀ s ∈ chain, s.isGroup = false) :
    List.Forall₂ ReadsAs (chain.filterMap Segment.patternPart?) chain := by
  induction chain with
  | nil => exact .nil
  | cons s chain ih =>
    obtain ⟨part, reads⟩ := exists_readsAs (routable s (by simp)) (kept s (by simp))
    rw [List.filterMap_cons_some reads.written]
    apply List.Forall₂.cons reads
    apply ih
    · intro t ht
      exact routable t (List.mem_cons_of_mem s ht)
    · intro t ht
      exact kept t (List.mem_cons_of_mem s ht)

/-- A chain without a wildcard is not cut. -/
theorem throughWildcard_eq_self {chain : List Segment} (plain : ∀ s ∈ chain, s.isWildcard = false) :
    throughWildcard chain = chain := by
  induction chain with
  | nil => rfl
  | cons s chain ih =>
    have behind := ih fun t ht => plain t (List.mem_cons_of_mem s ht)
    rw [throughWildcard, plain s (by simp), behind]
    simp

/-- A chain is cut behind a wildcard only, and there is one if the chain has any. -/
theorem any_throughWildcard (chain : List Segment) :
    (throughWildcard chain).any Segment.isWildcard = chain.any Segment.isWildcard := by
  induction chain with
  | nil => rfl
  | cons s chain ih =>
    rw [throughWildcard, List.any_cons]
    cases wild : s.isWildcard with
    | true => simp [wild]
    | false => simp [wild, ih]

/-- Only the last segment of a chain that is cut can be a wildcard. -/
theorem not_isWildcard_of_mem_dropLast {chain : List Segment} :
    ∀ s ∈ (throughWildcard chain).dropLast, s.isWildcard = false := by
  induction chain with
  | nil => simp [throughWildcard]
  | cons t chain ih =>
    rw [throughWildcard]
    split
    · simp
    · next plain =>
      intro s hs
      by_cases last : throughWildcard chain = []
      · simp [last] at hs
      · rw [List.dropLast_cons_of_ne_nil last, List.mem_cons] at hs
        obtain rfl | hs := hs
        · simpa using plain
        · exact ih s hs

/-- What is asked of the segments of a chain may leave its groups out. -/
theorem any_filter_isGroup (chain : List Segment) {test : Segment → Bool}
    (groupless : ∀ s, s.isGroup = true → test s = false) :
    (chain.filter fun s => !s.isGroup).any test = chain.any test := by
  rw [List.any_filter]
  congr 1
  funext s
  by_cases group : s.isGroup = true
  · rw [groupless s group, Bool.and_false]
  · simp [group]

theorem not_isWildcard_of_isGroup {s : Segment} (group : s.isGroup = true) :
    s.isWildcard = false := by
  have kind : s.kind = .group := by simpa [Segment.isGroup] using group
  simp [Segment.isWildcard, kind]

theorem any_asked_isWildcard (chain : List Segment) :
    (asked chain).any Segment.isWildcard = chain.any Segment.isWildcard := by
  rw [asked, any_throughWildcard, any_filter_isGroup]
  intro s group
  exact not_isWildcard_of_isGroup group

/-- Without a wildcard, no parameter is cut off. -/
theorem any_asked_isDynamic {chain : List Segment} (plain : chain.any Segment.isWildcard = false) :
    (asked chain).any Segment.isDynamic = chain.any Segment.isDynamic := by
  rw [List.any_eq_false] at plain
  rw [asked, throughWildcard_eq_self, any_filter_isGroup]
  · intro s group
    have kind : s.kind = .group := by simpa [Segment.isGroup] using group
    simp [Segment.isDynamic, kind]
  · intro s hs
    simpa using plain s (List.mem_of_mem_filter hs)

/-- Components that read as segments pass a test where these do. -/
theorem any_of_forall₂ {parts : List String} {chain : List Segment} {read : String → Bool}
    {test : Segment → Bool} (reads : List.Forall₂ ReadsAs parts chain)
    (same : ∀ part s, ReadsAs part s → read part = test s) : parts.any read = chain.any test := by
  induction reads with
  | nil => rfl
  | cons first _ ih => rw [List.any_cons, List.any_cons, ih, same _ _ first]

/-- Empty components have no part in what is asked of the components of a pattern. -/
theorem any_splitString (sep : Char) (s : String) {test : String → Bool} (blank : test "" = false) :
    (splitString sep s).any test = (splitNonEmpty sep s).any test := by
  rw [splitNonEmpty, List.any_filter]
  congr 1
  funext part
  by_cases empty : part = ""
  · simp [empty, blank]
  · simp [empty]

section
variable {raws : List String}

/-- The components of the pattern of directories read as what these ask of a path. -/
theorem forall₂_readsAs (writable : ∀ raw ∈ raws, IsWritable raw) :
    List.Forall₂ ReadsAs (splitNonEmpty '/' (urlPattern (raws.map Segment.classify)))
      (asked (raws.map Segment.classify)) := by
  have components : ∀ raw ∈ raws, IsComponent raw := fun raw h => (writable raw h).component
  rw [urlPattern_eq, splitNonEmpty_slashed (isComponent_patternParts components),
    patternParts_eq_asked]
  apply readsAs_each
  · intro s hs
    exact isRoutable_of_isWritable writable s (asked_subset _ hs)
  · exact not_isGroup_of_mem_asked

/-- The precedence of the pattern of directories is that of what they stand for. -/
theorem priority_urlPattern (writable : ∀ raw ∈ raws, IsWritable raw) :
    priority (urlPattern (raws.map Segment.classify)) =
      if (raws.map Segment.classify).any Segment.isWildcard then 5
      else if (raws.map Segment.classify).any Segment.isDynamic then 50 else 100 := by
  have reads := forall₂_readsAs writable
  have wild := any_of_forall₂ reads fun _ _ h => h.wildcard
  have dynamic := any_of_forall₂ reads fun _ _ h => h.parameter
  rw [any_asked_isWildcard] at wild
  rw [priority]
  simp only [any_splitString '/' _ (show isWildcardPart "" = false by decide), wild,
    any_splitString '/' _ (show isPlaceholderPart "" = false by decide), dynamic]
  split
  · rfl
  · next plain =>
    rw [any_asked_isDynamic (by simpa using plain)]
    rfl

/-- Only the last component of the pattern of directories can read as a wildcard. -/
theorem not_isWildcardPart_of_mem_dropLast (writable : ∀ raw ∈ raws, IsWritable raw) :
    ∀ part ∈ (splitNonEmpty '/' (urlPattern (raws.map Segment.classify))).dropLast,
      isWildcardPart part = false := by
  have reads := forall₂_readsAs writable
  have front :=
    List.forall₂_take ((splitNonEmpty '/' (urlPattern (raws.map Segment.classify))).length - 1)
      reads
  rw [← List.dropLast_eq_take, reads.length_eq, ← List.dropLast_eq_take] at front
  have none' : (asked (raws.map Segment.classify)).dropLast.any Segment.isWildcard = false := by
    rw [List.any_eq_false]
    intro s hs
    simp [not_isWildcard_of_mem_dropLast s hs]
  rw [← any_of_forall₂ front fun _ _ h => h.wildcard, List.any_eq_false] at none'
  intro part among
  simpa using none' part among

end

/-- Chains that differ in groups only have one pattern. -/
theorem urlPattern_congr {chain others : List Segment}
    (same : others.filter (fun s => !s.isGroup) = chain.filter fun s => !s.isGroup) :
    urlPattern others = urlPattern chain := by
  have agree : asked others = asked chain := congrArg throughWildcard same
  rw [urlPattern_eq_patternOf, urlPattern_eq_patternOf, ← filterMap_asked, agree, filterMap_asked]

/-- What directories are written as reads as the segments they stand for: component by component as
those that are no groups, up to the first wildcard, which comes last. So precedence is that of the
kinds in the chain, whatever groups there are. -/
theorem kinds_read_back {raws : List String} (writable : ∀ raw ∈ raws, IsWritable raw) :
    List.Forall₂ ReadsAs (splitNonEmpty '/' (urlPattern (raws.map Segment.classify)))
      (asked (raws.map Segment.classify)) ∧
    (∀ part ∈ (splitNonEmpty '/' (urlPattern (raws.map Segment.classify))).dropLast,
      isWildcardPart part = false) ∧
    (priority (urlPattern (raws.map Segment.classify)) = 5 ↔
      ∃ s ∈ raws.map Segment.classify, s.isWildcard = true) ∧
    (priority (urlPattern (raws.map Segment.classify)) = 50 ↔
      (∀ s ∈ raws.map Segment.classify, s.isWildcard = false) ∧
        ∃ s ∈ raws.map Segment.classify, s.isDynamic = true) ∧
    (priority (urlPattern (raws.map Segment.classify)) = 100 ↔
      ∀ s ∈ raws.map Segment.classify, s.isWildcard = false ∧ s.isDynamic = false) ∧
    ∀ others : List Segment,
      others.filter (fun s => !s.isGroup) =
        (raws.map Segment.classify).filter (fun s => !s.isGroup) →
      priority (urlPattern others) = priority (urlPattern (raws.map Segment.classify)) := by
  refine ⟨forall₂_readsAs writable, not_isWildcardPart_of_mem_dropLast writable, ?_⟩
  have value := priority_urlPattern writable
  generalize raws.map Segment.classify = chain at value ⊢
  have plain : (∀ s ∈ chain, s.isWildcard = false) ↔ chain.any Segment.isWildcard = false := by simp
  have static : (∀ s ∈ chain, s.isDynamic = false) ↔ chain.any Segment.isDynamic = false := by simp
  have neither : (∀ s ∈ chain, s.isWildcard = false ∧ s.isDynamic = false) ↔
      chain.any Segment.isWildcard = false ∧ chain.any Segment.isDynamic = false := by
    rw [← plain, ← static]
    exact forall₂_and
  refine and_assoc.1 (and_assoc.1 ⟨?_, fun others same =>
    congrArg priority (urlPattern_congr same)⟩)
  rw [value, ← List.any_eq_true, ← List.any_eq_true, plain, neither]
  cases chain.any Segment.isWildcard <;> cases chain.any Segment.isDynamic <;> decide

/-- Directories with names in braces beside a parameter, a group, and something below a wildcard. -/
def bracedChain : List String := ["{id}", "(shop)", "[id]", "[...rest]", "[below]"]

/-- The name in braces stays a literal, the group is no component, and nothing is read below the
wildcard. -/
theorem kinds_read_back_braced :
    splitNonEmpty '/' (urlPattern (bracedChain.map Segment.classify)) = ["{{id}}", "{id}", "*"] ∧
    List.Forall₂ ReadsAs ["{{id}}", "{id}", "*"]
      [⟨"{id}", "{id}", .static⟩, ⟨"[id]", "id", .dynamic⟩, ⟨"[...rest]", "rest", .catchAll⟩] ∧
    priority (urlPattern (bracedChain.map Segment.classify)) = 5 ∧
    priority (urlPattern (["{id}"].map Segment.classify)) = 100 := by
  have writable : ∀ raw ∈ bracedChain, IsWritable raw := by
    intro raw h
    refine ⟨⟨?_, ?_⟩, ?_⟩
    all_goals
      revert raw
      decide +kernel
  have parts : splitNonEmpty '/' (urlPattern (bracedChain.map Segment.classify)) =
      ["{{id}}", "{id}", "*"] := by
    decide +kernel
  have kept : asked (bracedChain.map Segment.classify) =
      [⟨"{id}", "{id}", .static⟩, ⟨"[id]", "id", .dynamic⟩, ⟨"[...rest]", "rest", .catchAll⟩] := by
    decide +kernel
  obtain ⟨reads, -, wildcard, -⟩ := kinds_read_back writable
  rw [parts, kept] at reads
  refine ⟨parts, reads, wildcard.2 ⟨Segment.classify "[...rest]", ?_, by decide +kernel⟩, ?_⟩
  · exact List.mem_map_of_mem (by decide)
  · have alone : ∀ raw ∈ ["{id}"], IsWritable raw := by simpa using writable "{id}" (by decide)
    obtain ⟨-, -, -, -, literal, -⟩ := kinds_read_back alone
    refine literal.2 ?_
    decide +kernel

end Waymark.Routing
