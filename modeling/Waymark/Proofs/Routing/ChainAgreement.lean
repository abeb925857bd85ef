import Waymark.Proofs.Routing.ChainPattern
import Waymark.Proofs.Routing.Meeting

/-!
# What chains of directories ask of a path

A pattern is a flat text, but it says what every directory on the way stands for. Chains of
directories have one pattern if and only if they ask the same of a path, position by position:

* `Segment.agrees`, `agreeing`: segments and chains that ask the same of a path;
* `asked`, `filterMap_asked`: what a chain asks of a path, and the components of its pattern;
* `urlPattern_eq_iff`: chains with one pattern, for all names that can be written in one;
* `urlPattern_group`: a group is no part of a pattern, wherever it stands.
-/

namespace Waymark.Routing

open Waymark.Text

/-- Two segments ask the same of a path: one literal, a parameter of one name, or the rest. -/
def Segment.agrees (s t : Segment) : Bool :=
  (s.kind = .static && t.kind = .static && s.raw = t.raw)
    || (s.kind = .dynamic && t.kind = .dynamic && s.name = t.name)
    || (s.isWildcard && t.isWildcard)

/-- Chains are of one length and agree position by position. -/
def agreeing : List Segment → List Segment → Bool
  | [], [] => true
  | s :: ss, t :: ts => s.agrees t && agreeing ss ts
  | [], _ :: _ | _ :: _, [] => false

/-- What a chain asks of a path: its segments without groups, cut behind the first wildcard. -/
def asked (chain : List Segment) : List Segment :=
  throughWildcard (chain.filter fun s => !s.isGroup)

/-- A directory name that can be written in a pattern. -/
structure IsWritable (raw : String) : Prop where
  component : IsComponent raw
  literal : raw ≠ "*"

theorem isRoutable_of_isWritable {raws : List String} (writable : ∀ raw ∈ raws, IsWritable raw) :
    ∀ s ∈ raws.map Segment.classify, s.IsRoutable := by
  intro s hs
  obtain ⟨raw, hraw, rfl⟩ := List.mem_map.1 hs
  exact isRoutable_classify (writable raw hraw).component (writable raw hraw).literal

/-! ## Components -/

theorem isGroup_iff (s : Segment) : s.isGroup = true ↔ s.component? = none := by
  cases kind : s.kind <;> simp [Segment.isGroup, Segment.component?, kind]

/-- Segments that are no groups agree if and only if they are one component of a pattern. -/
theorem agrees_iff {s t : Segment} (hs : s.isGroup = false) :
    s.agrees t = true ↔ s.component? = t.component? := by
  cases first : s.kind <;> cases second : t.kind <;>
    simp_all [Segment.agrees, Segment.isWildcard, Segment.isGroup, Segment.component?]

/-- Chains without groups agree if and only if they are the same components of a pattern. -/
theorem agreeing_iff {ss ts : List Segment} (hs : ∀ s ∈ ss, s.isGroup = false)
    (ht : ∀ t ∈ ts, t.isGroup = false) :
    agreeing ss ts = true ↔ ss.filterMap Segment.component? = ts.filterMap Segment.component? := by
  have written {s : Segment} (h : s.isGroup = false) : ∃ c, s.component? = some c := by
    rw [← Option.ne_none_iff_exists']
    exact mt (isGroup_iff s).2 (by simp [h])
  induction ss generalizing ts with
  | nil =>
    cases ts with
    | nil => simp [agreeing]
    | cons t ts =>
      obtain ⟨c, component⟩ := written (ht t (by simp))
      simp [agreeing, component]
  | cons s ss ih =>
    obtain ⟨c, component⟩ := written (hs s (by simp))
    cases ts with
    | nil => simp [agreeing, component]
    | cons t ts =>
      obtain ⟨d, component'⟩ := written (ht t (by simp))
      have behind : agreeing ss ts = true ↔
          ss.filterMap Segment.component? = ts.filterMap Segment.component? :=
            ih (fun x hx => hs x (List.mem_cons_of_mem _ hx))
        (fun x hx => ht x (List.mem_cons_of_mem _ hx))
      rw [agreeing, Bool.and_eq_true, agrees_iff (hs s (by simp)), behind,
        List.filterMap_cons_some component, List.filterMap_cons_some component', component,
        component', List.cons.injEq, Option.some_inj]

theorem asked_cons (s : Segment) (chain : List Segment) : asked (s :: chain) =
    if s.isGroup then asked chain else if s.isWildcard then [s] else s :: asked chain := by
  unfold asked
  cases group : s.isGroup with
  | true => simp [group]
  | false => simp [group, throughWildcard]

/-- What a chain asks of a path are the components of its pattern. -/
theorem filterMap_asked (chain : List Segment) :
    (asked chain).filterMap Segment.component? = componentsOf chain := by
  induction chain with
  | nil => rfl
  | cons s chain ih =>
    rw [asked_cons, componentsOf_cons]
    cases kind : s.kind <;>
      simp [Segment.isGroup, Segment.isWildcard, Segment.component?, kind, ih]

theorem asked_subset (chain : List Segment) : asked chain ⊆ chain := by
  intro s h
  exact List.mem_of_mem_filter ((throughWildcard_initial _).subset h)

theorem not_isGroup_of_mem_asked {chain : List Segment} : ∀ s ∈ asked chain, s.isGroup = false := by
  intro s h
  have kept := (throughWildcard_initial _).subset h
  simpa using (List.mem_filter.1 kept).2

/-- Chains agree in what they ask if and only if their patterns have the same components. -/
theorem agreeing_asked_iff (chain other : List Segment) :
    agreeing (asked chain) (asked other) = true ↔ componentsOf chain = componentsOf other := by
  rw [agreeing_iff not_isGroup_of_mem_asked not_isGroup_of_mem_asked, filterMap_asked,
    filterMap_asked]

/-! ## Patterns -/

theorem placeholder_inj {n m : String} (same : placeholder n = placeholder m) : n = m := by
  apply String.toList_inj.1
  simpa [placeholder] using congrArg String.toList same

theorem wildcard_inj {n m : Option String}
    (same : (Component.wildcard n).text = (Component.wildcard m).text) : n = m := by
  have chars := congrArg String.toList same
  cases n with
  | none =>
    cases m with
    | none => rfl
    | some m => simp [Component.text, placeholder] at chars
  | some n =>
    cases m with
    | none => simp [Component.text, placeholder] at chars
    | some m =>
      have names : "*" ++ n = "*" ++ m := placeholder_inj same
      rw [String.append_right_inj] at names
      rw [names]

/-- Proper components are told apart by how they are written. -/
theorem Component.eq_of_text {c d : Component} (hc : c.IsProper) (hd : d.IsProper)
    (same : c.text = d.text) : c = d := by
  -- the shape tells literals, parameters and wildcards apart, and what is inside is written out
  have shapes : c.shape = d.shape := by rw [← ofPart_text hc, ← ofPart_text hd, same]
  cases c with
  | literal raw =>
    cases d with
    | literal other => rw [escapeLiteral_injective same]
    | parameter | wildcard => simp [Component.shape] at shapes
  | parameter n =>
    cases d with
    | parameter m => rw [placeholder_inj same]
    | literal | wildcard => simp [Component.shape] at shapes
  | wildcard n =>
    cases d with
    | wildcard m => rw [wildcard_inj same]
    | literal | parameter => simp [Component.shape] at shapes

theorem eq_of_map_text {cs ds : List Component} (hc : ∀ c ∈ cs, c.IsProper)
    (hd : ∀ d ∈ ds, d.IsProper)
    (same : cs.map Component.text = ds.map Component.text) : cs = ds := by
  induction cs generalizing ds with
  | nil => simpa [eq_comm] using same
  | cons c cs ih =>
    cases ds with
    | nil => simp at same
    | cons d ds =>
      simp only [List.map_cons, List.cons.injEq] at same
      rw [Component.eq_of_text (hc c (by simp)) (hd d (by simp)) same.1,
        ih (fun x hx => hc x (List.mem_cons_of_mem _ hx)) (fun x hx =>
          hd x (List.mem_cons_of_mem _ hx)) same.2]

/-- Chains of directory names have one pattern if and only if they agree in what they ask of a
path. -/
theorem urlPattern_eq_iff {as bs : List String} (ha : ∀ a ∈ as, IsWritable a)
    (hb : ∀ b ∈ bs, IsWritable b) :
    urlPattern (as.map Segment.classify) = urlPattern (bs.map Segment.classify) ↔
      agreeing (asked (as.map Segment.classify)) (asked (bs.map Segment.classify)) = true := by
  have proper {names : List String} (h : ∀ n ∈ names, IsWritable n) :
      ∀ c ∈ componentsOf (names.map Segment.classify), c.IsProper :=
    (documented_componentsOf (isRoutable_of_isWritable h)).proper
  rw [agreeing_asked_iff]
  constructor
  · intro same
    have parts := slashed_inj (isComponent_patternParts fun a h => (ha a h).component)
      (isComponent_patternParts fun b h => (hb b h).component) same
    rw [patternParts_eq, patternParts_eq] at parts
    exact eq_of_map_text (proper ha) (proper hb) parts
  · intro same
    rw [urlPattern_eq_patternOf, urlPattern_eq_patternOf, same]

/-- A group is no part of a pattern, wherever it stands. -/
theorem urlPattern_group (front behind : List Segment) {group : Segment}
    (kind : group.isGroup = true) :
    urlPattern (front ++ group :: behind) = urlPattern (front ++ behind) := by
  have same : asked (front ++ group :: behind) = asked (front ++ behind) := by
    simp [asked, List.filter_append, kind]
  rw [urlPattern_eq_patternOf, urlPattern_eq_patternOf, ← filterMap_asked, same, filterMap_asked]

end Waymark.Routing
