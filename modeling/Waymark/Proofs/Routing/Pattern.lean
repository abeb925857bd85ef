import Mathlib.Data.List.Infix
import Waymark.Proofs.Text.Splitting
import Waymark.Routing.Table

/-!
# Patterns and scopes of chains

The components of a pattern and the names in a scope are texts without slashes, so that both can be
read back from the text they are joined to:

* `classify_cases`: a directory name is a literal, or stands for something by a valid name;
* `splitNonEmpty_slashed`: the components of a pattern are found again;
* `prefixes_slashed`: the prefixes of a pattern are those of its components;
* `scopeContains_scopeOf_iff`: a scope covers exactly the chains that begin with its own.
-/

namespace Waymark.Routing

open Waymark.Text

/-- A text that can stand between two slashes. -/
def IsComponent (s : String) : Prop := s ≠ "" ∧ '/' ∉ s.toList

namespace Segment

@[simp] theorem classify_raw (raw : String) : (classify raw).raw = raw := by
  unfold classify
  split <;> rfl

theorem isValidName_of_between? {opening closing : String} {raw name : List Char}
    (h : between? opening closing raw = some name) : isValidName name = true := by
  rw [between?, Option.filter_eq_some_iff] at h
  exact h.2

theorem isValidName_of_behind? {opening : String} {raw name : List Char}
    (h : behind? opening raw = some name) : isValidName name = true := by
  rw [behind?, Option.filter_eq_some_iff] at h
  exact h.2

/-- A reading of a name that is no literal. -/
def IsReading (r : SegmentKind × List Char) : Prop := r.1 ≠ .static ∧ isValidName r.2 = true

theorem isReading_of_map {k : SegmentKind} (other : k ≠ .static) {o : Option (List Char)}
    (valid : ∀ {name}, o = some name → isValidName name = true) {r : SegmentKind × List Char}
    (h : o.map (Prod.mk k) = some r) : IsReading r := by
  obtain ⟨name, found, rfl⟩ := Option.map_eq_some_iff.1 h
  exact ⟨other, valid found⟩

theorem eq_some_of_orElse {α : Type} {o p : Option α} {x : α} (h : (o <|> p) = some x) :
    o = some x ∨ p = some x := by
  cases o with
  | none => exact .inr (by simpa using h)
  | some y => exact .inl (by simpa using h)

theorem isReading_of_ofBrackets? {raw : List Char} {r : SegmentKind × List Char}
    (h : ofBrackets? raw = some r) : IsReading r := by
  unfold ofBrackets? at h
  obtain h | h := eq_some_of_orElse h
  · exact isReading_of_map (by decide) isValidName_of_between? h
  obtain h | h := eq_some_of_orElse h
  · exact isReading_of_map (by decide) isValidName_of_between? h
  obtain h | h := eq_some_of_orElse h
  · exact isReading_of_map (by decide) isValidName_of_between? h
  · exact isReading_of_map (by decide) isValidName_of_between? h

theorem isReading_of_ofUnderscores? {raw : List Char} {r : SegmentKind × List Char}
    (h : ofUnderscores? raw = some r) : IsReading r := by
  unfold ofUnderscores? at h
  split at h
  · simp at h
  obtain h | h := eq_some_of_orElse h
  · exact isReading_of_map (by decide) isValidName_of_behind? h
  obtain h | h := eq_some_of_orElse h
  · exact isReading_of_map (by decide) isValidName_of_behind? h
  obtain h | h := eq_some_of_orElse h
  · exact isReading_of_map (by decide) isValidName_of_behind? h
  obtain h | h := eq_some_of_orElse h
  · exact isReading_of_map (by decide) isValidName_of_between? h
  · exact isReading_of_map (by decide) isValidName_of_behind? h

/-- A directory name is a literal, or it stands for something by a valid name. -/
theorem classify_cases (raw : String) :
    classify raw = ⟨raw, raw, .static⟩ ∨
      ∃ kind name, classify raw = ⟨raw, String.ofList name, kind⟩ ∧ IsReading (kind, name) := by
  unfold classify
  split
  · next kind name read =>
    refine .inr ⟨kind, name, rfl, ?_⟩
    obtain h | h := eq_some_of_orElse read
    · exact isReading_of_ofBrackets? h
    · exact isReading_of_ofUnderscores? h
  · exact .inl rfl

theorem not_mem_of_isValidName {name : List Char} (valid : isValidName name = true) {c : Char}
    (other : isNameChar c = false) : c ∉ name := by
  intro h
  simp only [isValidName, Bool.and_eq_true, List.all_eq_true] at valid
  simp [valid.1 c h] at other

theorem ne_nil_of_isValidName {name : List Char} (valid : isValidName name = true) : name ≠ [] := by
  rintro rfl
  simp [isValidName] at valid

end Segment

theorem mem_escapeLiteral (raw : String) (c : Char) :
    c ∈ (escapeLiteral raw).toList ↔ c ∈ raw.toList := by
  simp only [escapeLiteral, String.toList_ofList, List.mem_flatMap]
  constructor
  · rintro ⟨d, hd, hc⟩
    split at hc <;> simp_all
  · intro hc
    refine ⟨c, hc, ?_⟩
    split <;> simp

theorem isComponent_escapeLiteral {raw : String} (h : IsComponent raw) :
    IsComponent (escapeLiteral raw) := by
  constructor
  · intro empty
    have none' (c : Char) : c ∉ raw.toList := by
      rw [← mem_escapeLiteral, empty]
      simp
    exact h.1 (String.toList_eq_nil_iff.1 (List.eq_nil_iff_forall_not_mem.2 none'))
  · rw [mem_escapeLiteral]
    exact h.2

theorem isComponent_placeholder {name : List Char} (valid : Segment.isValidName name = true) :
    IsComponent (placeholder (String.ofList name)) := by
  constructor
  · intro empty
    have := congrArg String.toList empty
    simp [placeholder] at this
  · have := Segment.not_mem_of_isValidName valid (c := '/') (by decide)
    simpa [placeholder] using this

/-- The components that directory names contribute are components. -/
theorem isComponent_patternPart? {raw part : String} (h : IsComponent raw)
    (given : (Segment.classify raw).patternPart? = some part) : IsComponent part := by
  obtain literal | ⟨kind, name, read, other, valid⟩ := Segment.classify_cases raw
  · simp only [literal, Segment.patternPart?, Option.some.injEq] at given
    exact given ▸ isComponent_escapeLiteral h
  · rw [read, Segment.patternPart?] at given
    cases kind with
    | static => exact absurd rfl other
    | group => simp at given
    | dynamic =>
      simp only [Option.some.injEq] at given
      exact given ▸ isComponent_placeholder valid
    | catchAll | optionalCatchAll =>
      simp only [Option.some.injEq] at given
      subst given
      exact ⟨by decide, by decide⟩

theorem throughWildcard_initial (chain : List Segment) : throughWildcard chain <+: chain := by
  induction chain with
  | nil => exact List.prefix_rfl
  | cons s rest ih =>
    rw [throughWildcard]
    split
    · exact ⟨rest, rfl⟩
    · exact (List.prefix_cons_inj s).2 ih

theorem throughWildcard_mono {a b : List Segment} (h : a <+: b) :
    throughWildcard a <+: throughWildcard b := by
  induction a generalizing b with
  | nil => exact List.nil_prefix
  | cons s rest ih =>
    obtain ⟨more, rfl⟩ := h
    rw [List.cons_append, throughWildcard, throughWildcard]
    split
    · exact List.prefix_rfl
    · exact (List.prefix_cons_inj s).2 (ih (List.prefix_append rest more))

/-- A chain that begins another one has a pattern that begins the other's. -/
theorem patternParts_mono {a b : List Segment} (h : a <+: b) : patternParts a <+: patternParts b :=
  (throughWildcard_mono h).filterMap _

theorem isComponent_patternParts {raws : List String} (h : ∀ raw ∈ raws, IsComponent raw) :
    ∀ part ∈ patternParts (raws.map Segment.classify), IsComponent part := by
  intro part mem
  obtain ⟨s, hs, given⟩ := List.mem_filterMap.1 mem
  obtain ⟨raw, hraw, rfl⟩ := List.mem_map.1 ((throughWildcard_initial _).subset hs)
  exact isComponent_patternPart? (h raw hraw) given

/-- Components joined behind a slash. -/
def slashed (parts : List String) : String := "/" ++ joinStrings '/' parts

theorem urlPattern_eq (chain : List Segment) : urlPattern chain = slashed (patternParts chain) :=
  rfl

theorem toList_slashed {parts : List String} (h : parts ≠ []) :
    (slashed parts).toList = lead '/' (parts.map String.toList) := by
  have joined : '/' :: join '/' (parts.map String.toList) = lead '/' (parts.map String.toList) :=
    cons_join (by simpa using h)
  simpa [slashed, joinStrings] using joined

theorem splitNonEmpty_slashed {parts : List String} (h : ∀ p ∈ parts, IsComponent p) :
    splitNonEmpty '/' (slashed parts) = parts := by
  by_cases empty : parts = []
  · subst empty
    decide
  · have closed : ∀ p ∈ parts.map String.toList, '/' ∉ p := by
      simpa using fun p hp => (h p hp).2
    have kept : parts.filter (· ≠ "") = parts := List.filter_eq_self.2 fun p hp => by
      simpa using (h p hp).1
    rw [splitNonEmpty, splitString, toList_slashed empty, split_lead closed]
    simpa [Function.comp_def] using kept

theorem slashed_inj {ps qs : List String} (hp : ∀ p ∈ ps, IsComponent p)
    (hq : ∀ q ∈ qs, IsComponent q) (h : slashed ps = slashed qs) : ps = qs := by
  rw [← splitNonEmpty_slashed hp, h, splitNonEmpty_slashed hq]

theorem inits_eq_cons {α : Type} (l : List α) : l.inits = [] :: l.inits.tail := by
  cases l <;> simp

/-- Components with a slash in front of each. -/
def slashedEach (parts : List String) : String := String.ofList (lead '/' (parts.map String.toList))

theorem slashedEach_concat (parts : List String) (part : String) :
    slashedEach (parts ++ [part]) = slashedEach parts ++ "/" ++ part := by
  apply String.toList_inj.1
  simp [slashedEach]

theorem slashed_eq_slashedEach {parts : List String} (h : parts ≠ []) :
    slashed parts = slashedEach parts := by
  rw [← String.toList_inj, toList_slashed h, slashedEach, String.toList_ofList]

theorem prefixesFrom_slashedEach (start parts : List String) :
    Table.prefixesFrom (slashedEach start) parts =
      parts.inits.tail.map fun ps => slashedEach (start ++ ps) := by
  induction parts generalizing start with
  | nil => rfl
  | cons part rest ih =>
    rw [Table.prefixesFrom, ← slashedEach_concat, ih, List.inits_cons, List.tail_cons, List.map_map,
      inits_eq_cons rest]
    simp [Function.comp_def]

/-- The prefixes of a pattern are the patterns of the beginnings of its components. -/
theorem prefixes_slashed {parts : List String} (h : ∀ p ∈ parts, IsComponent p) :
    Table.prefixes (slashed parts) = parts.inits.map slashed := by
  have behind : Table.prefixesFrom "" parts = parts.inits.tail.map slashedEach :=
    prefixesFrom_slashedEach [] parts
  have nonempty : ∀ ps ∈ parts.inits.tail, slashedEach ps = slashed ps := by
    intro ps hps
    refine (slashed_eq_slashedEach ?_).symm
    cases parts with
    | nil => simp at hps
    | cons part rest =>
      rw [List.inits_cons, List.tail_cons, List.mem_map] at hps
      obtain ⟨_, _, rfl⟩ := hps
      simp
  have root : slashed [] = "/" := by decide
  rw [Table.prefixes, splitNonEmpty_slashed h, behind, List.map_congr_left nonempty,
    inits_eq_cons parts, List.map_cons, root, List.tail_cons]

theorem scopeOf_eq (raws : List String) :
    scopeOf (raws.map Segment.classify) = joinStrings '/' raws := by
  simp [scopeOf, Function.comp_def]

theorem joinStrings_ne_empty {parts : List String} (h : ∀ p ∈ parts, IsComponent p)
    (some' : parts ≠ []) : joinStrings '/' parts ≠ "" := by
  intro empty
  cases parts with
  | nil => exact some' rfl
  | cons part rest =>
    have joined : join '/' ((part :: rest).map String.toList) = [] := by
      simpa [joinStrings] using congrArg String.toList empty
    rw [List.map_cons, join_cons, List.append_eq_nil_iff] at joined
    exact (h part (by simp)).1 (String.toList_eq_nil_iff.1 joined.1)

/-- Further names stand behind the joined ones, each with a slash in front of it. -/
theorem toList_joinStrings_append {as : List String} (some' : as ≠ []) (more : List String) :
    (joinStrings '/' (as ++ more)).toList = (joinStrings '/' as).toList ++ lead '/'
    (more.map String.toList) := by
  simp [joinStrings, join_append (by simpa using some' : as.map String.toList ≠ [])]

/-- The scope of a directory comes before those of the directories below it. -/
theorem joinStrings_lt_append {as more : List String} (h : ∀ p ∈ more, IsComponent p)
    (below : more ≠ []) : joinStrings '/' as < joinStrings '/' (as ++ more) := by
  rw [String.lt_iff]
  by_cases empty : as = []
  · subst empty
    have written : (joinStrings '/' more).toList ≠ [] := by
      simpa using joinStrings_ne_empty h below
    obtain ⟨c, cs, text⟩ := List.exists_cons_of_ne_nil written
    rw [List.nil_append, text]
    exact List.nil_lt_cons c cs
  · obtain ⟨part, rest, rfl⟩ := List.exists_cons_of_ne_nil below
    have longer : (joinStrings '/' as).toList ++ [] <
        (joinStrings '/' as).toList ++ lead '/' ((part :: rest).map String.toList) :=
      List.append_left_lt (List.nil_lt_cons _ _)
    rw [toList_joinStrings_append empty]
    simpa using longer

/-- A scope covers exactly the chains that begin with its own names. -/
theorem scopeContains_joinStrings_iff {as bs : List String} (ha : ∀ a ∈ as, IsComponent a)
    (hb : ∀ b ∈ bs, IsComponent b) :
    scopeContains (joinStrings '/' as) (joinStrings '/' bs) = true ↔ as <+: bs := by
  have closedA : ∀ p ∈ as.map String.toList, '/' ∉ p := by simpa using fun a h => (ha a h).2
  have closedB : ∀ p ∈ bs.map String.toList, '/' ∉ p := by simpa using fun b h => (hb b h).2
  by_cases empty : as = []
  · subst empty
    simp [scopeContains, joinStrings, join]
  have written : as.map String.toList ≠ [] := by simpa using empty
  constructor
  · intro covers
    -- the text of the scope begins the text of the route, and a slash or nothing follows
    have begun : ∃ rest, Closed '/' rest ∧
        join '/' (bs.map String.toList) = join '/' (as.map String.toList) ++ rest := by
      simp only [scopeContains, Bool.or_eq_true, decide_eq_true_eq, Option.any_eq_true,
        withoutPrefix_eq_some_iff] at covers
      obtain (none' | same) | ⟨rest, text, head⟩ := covers
      · exact absurd none' (joinStrings_ne_empty ha empty)
      · exact ⟨[], closed_nil, by simpa [joinStrings] using congrArg String.toList same⟩
      · refine ⟨rest, ?_, by simpa [joinStrings] using text⟩
        intro c hc
        rw [head, Option.mem_def, Option.some.injEq] at hc
        exact hc.symm
    obtain ⟨rest, closed, text⟩ := begun
    have writtenB : bs.map String.toList ≠ [] := by
      intro none'
      rw [none', join, eq_comm, List.append_eq_nil_iff] at text
      exact joinStrings_ne_empty ha empty (by rw [joinStrings, text.1, String.ofList_nil])
    have led : lead '/' (as.map String.toList) ++ rest = lead '/' (bs.map String.toList) := by
      rw [← cons_join written, ← cons_join writtenB, text, List.cons_append]
    obtain ⟨front, sub, same⟩ :=
      List.prefix_map_iff.1 (prefix_of_lead_append closedA closedB closed led)
    rwa [List.map_injective_iff.2 (fun _ _ => String.toList_inj.1) same]
  · rintro ⟨more, rfl⟩
    by_cases none' : more = []
    · simp [none', scopeContains]
    · have found := withoutPrefix_eq_some_iff.2 (toList_joinStrings_append empty more)
      obtain ⟨part, more, rfl⟩ := List.exists_cons_of_ne_nil none'
      simp [scopeContains, found]

end Waymark.Routing
