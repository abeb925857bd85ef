import Waymark.Proofs.Routing.Component
import Waymark.Routing.Page

/-!
# Which of two patterns comes first

The path index goes for literals first, one component after another. On patterns in the documented
form that is an order of the patterns themselves:

* `PartShape`: what a component of a pattern takes of a path;
* `precedes`: where two patterns first differ in shape, the first one has a literal;
* `precedes_of_before`: tokens come in the order of their patterns;
* `isPattern_basePattern?`: the second pattern of an optional wildcard is in the documented form,
  too.
-/

namespace Waymark.Routing

open Template Waymark.Text
open Waymark.Text.Utf8 (encode)

/-- What a component of a pattern takes of a path. -/
inductive PartShape where
  | literal (part : String)
  | parameter
  | wildcard
deriving DecidableEq

namespace PartShape

/-- The shape of a component. -/
def ofPart (part : String) : PartShape :=
  if isWildcardPart part then wildcard
  else if isPlaceholderPart part then parameter
  else literal part

/-- The component takes what it spells out. -/
def isLiteral : PartShape → Bool
  | literal _ => true
  | parameter | wildcard => false

end PartShape

/-- Where two lists of components first differ in shape, the first one has a literal. -/
def precedesParts : List String → List String → Bool
  | p :: ps, q :: qs =>
    if PartShape.ofPart p = PartShape.ofPart q then precedesParts ps qs
    else (PartShape.ofPart p).isLiteral && !(PartShape.ofPart q).isLiteral
  | [], _ | _, [] => false

/-- Where two patterns first differ in shape, the first one has a literal. -/
def precedes (p q : String) : Bool := precedesParts (splitString '/' p) (splitString '/' q)

/-- A pattern in the documented form. -/
def IsPattern (pattern : String) : Prop := ∃ cs, IsDocumented cs ∧ pattern = patternOf cs

theorem precedesParts_asymm {ps qs : List String} (first : precedesParts ps qs = true) :
    precedesParts qs ps = false := by
  induction ps generalizing qs with
  | nil => simp [precedesParts] at first
  | cons p ps ih =>
    cases qs with
    | nil => simp [precedesParts] at first
    | cons q qs =>
      by_cases same : PartShape.ofPart p = PartShape.ofPart q
      · simp only [precedesParts, same, ↓reduceIte] at first ⊢
        exact ih first
      · simp only [precedesParts, same, Ne.symm same, ↓reduceIte, Bool.and_eq_true,
          Bool.not_eq_true'] at first ⊢
        rw [first.2, Bool.false_and]

theorem precedes_asymm {p q : String} (first : precedes p q = true) : precedes q p = false :=
  precedesParts_asymm first

theorem precedesParts_irrefl (ps : List String) : precedesParts ps ps = false := by
  induction ps with
  | nil => rfl
  | cons p ps ih => simpa [precedesParts] using ih

theorem precedes_irrefl (p : String) : precedes p p = false := precedesParts_irrefl _

namespace Component

/-- The shape of a component as it is written. -/
def shape : Component → PartShape
  | literal raw => .literal (escapeLiteral raw)
  | parameter _ => .parameter
  | wildcard _ => .wildcard

/-- A doubled brace begins no placeholder. -/
theorem escapeLiteral_cases (raw : String) :
    (escapeLiteral raw).toList.head? ≠ some '{' ∨
    ∃ rest, (escapeLiteral raw).toList = '{' :: '{' :: rest := by
  rw [toList_escapeLiteral]
  cases raw.toList with
  | nil => simp
  | cons c cs =>
    by_cases opened : c = '{'
    · exact .inr ⟨_, by simp [opened]; rfl⟩
    · left
      rw [List.flatMap_cons]
      split <;> simpa using opened

theorem isWildcardPart_escapeLiteral {raw : String} (proper : raw ≠ "*") :
    isWildcardPart (escapeLiteral raw) = false := by
  have other : escapeLiteral raw ≠ "*" := fun same => proper (escapeLiteral_eq_star same)
  obtain plainly | ⟨rest, doubled⟩ := escapeLiteral_cases raw
  · cases spelled : (escapeLiteral raw).toList with
    | nil => simp [isWildcardPart, other, spelled, withoutPrefix]
    | cons c cs =>
      have apart : '{' ≠ c := by simpa [spelled, eq_comm] using plainly
      simp [isWildcardPart, other, spelled, withoutPrefix, apart]
  · simp [isWildcardPart, other, doubled, withoutPrefix]

theorem isPlaceholderPart_escapeLiteral (raw : String) :
    isPlaceholderPart (escapeLiteral raw) = false := by
  obtain plainly | ⟨rest, doubled⟩ := escapeLiteral_cases raw
  · simp [isPlaceholderPart, plainly]
  · simp [isPlaceholderPart, doubled, withoutPrefix]

theorem ofPart_placeholder {name : String} (named : IsName name) :
    PartShape.ofPart (placeholder name) = .parameter := by
  obtain ⟨written, opened, -, starless, -⟩ := named
  obtain ⟨c, cs, spelled⟩ := List.exists_cons_of_ne_nil (String.toList_eq_nil_iff.not.2 written)
  rw [spelled, List.mem_cons, not_or] at opened starless
  have braces : (placeholder name).toList =
      '{' :: c :: (cs ++ ['}']) := by simp [placeholder, spelled]
  have length : 2 < (placeholder name).length := by
    rw [← String.length_toList, braces]
    simp
  have closed : (c :: (cs ++ ['}'])).getLast? = some '}' := by
    rw [← List.cons_append]
    exact List.getLast?_concat
  simp [PartShape.ofPart, isWildcardPart, isPlaceholderPart, placeholder_ne_star, closed,
    braces, length, withoutPrefix, opened.1, starless.1]

/-- A component is written in its shape. -/
theorem ofPart_text {c : Component} (proper : c.IsProper) : PartShape.ofPart c.text = c.shape := by
  cases c with
  | literal raw =>
    simp [PartShape.ofPart, text, shape, isWildcardPart_escapeLiteral proper.1,
      isPlaceholderPart_escapeLiteral]
  | parameter name => exact ofPart_placeholder proper
  | wildcard name =>
    cases name with
    | none => decide
    | some name => simp [PartShape.ofPart, text, shape, isWildcardPart, placeholder, withoutPrefix]

end Component

/-- Behind a placeholder, tokens come first only in what follows the same placeholder. -/
theorem before_hole {hole : Token} (isHole : hole.isHole = true) {ts us : List Token}
    (before : Before (hole :: ts) us) : ∃ more, us = hole :: more ∧ Before ts more := by
  cases us with
  | nil => exact absurd before not_before_nil_right
  | cons u us =>
    obtain ⟨rfl, behind⟩ | ⟨literal, -⟩ := before_cons_iff.1 before
    · exact ⟨us, rfl, behind⟩
    · exact absurd (isHole.symm.trans literal) (by decide)

/-- Whole literal components are the same where tokens come first behind them. -/
theorem before_literals {as bs : List UInt8} (flatA : slash ∉ as) (flatB : slash ∉ bs)
    {ts us : List Token} (endsT : ∀ t ∈ ts.head?, t = .literal slash)
    (endsU : ∀ u ∈ us.head?, u = .literal slash)
    (before : Before (literals as ++ ts) (literals bs ++ us)) :
    as = bs ∧ Before ts us := by
  induction as generalizing bs with
  | nil =>
    cases bs with
    | nil => exact ⟨rfl, before⟩
    | cons b bs =>
      cases ts with
      | nil => exact absurd before not_before_nil_left
      | cons t ts =>
        obtain rfl := endsT t rfl
        obtain ⟨same, -⟩ | ⟨-, hole⟩ := before_cons_iff.1 before
        · exact absurd (Token.literal.inj same ▸ List.mem_cons_self) flatB
        · cases hole
  | cons a as ih =>
    cases bs with
    | nil =>
      cases us with
      | nil => exact absurd before not_before_nil_right
      | cons u us =>
        obtain rfl := endsU u rfl
        obtain ⟨same, -⟩ | ⟨-, hole⟩ := before_cons_iff.1 before
        · exact absurd (Token.literal.inj same ▸ List.mem_cons_self) flatA
        · cases hole
    | cons b bs =>
      obtain ⟨same, behind⟩ | ⟨-, hole⟩ := before_cons_iff.1 before
      · obtain rfl := Token.literal.inj same
        obtain ⟨rfl, rest⟩ := ih (fun mem => flatA (List.mem_cons_of_mem a mem))
          (fun mem => flatB (List.mem_cons_of_mem a mem)) behind
        exact ⟨rfl, rest⟩
      · cases hole

theorem tokensEach_cons (c : Component) (cs : List Component) :
    tokensEach (c :: cs) = .literal slash :: (c.tokens ++ tokensEach cs) := by
  simp [tokensEach]

/-- A leading slash is passed over. -/
theorem before_slash {ts us : List Token}
    (before : Before (.literal slash :: ts) (.literal slash :: us)) : Before ts us := by
  obtain ⟨-, behind⟩ | ⟨-, hole⟩ := before_cons_iff.1 before
  · exact behind
  · cases hole

theorem precedesParts_same {p q : String} (same : PartShape.ofPart p = PartShape.ofPart q)
    (ps qs : List String) : precedesParts (p :: ps) (q :: qs) = precedesParts ps qs := by
  rw [precedesParts, if_pos same]

/-- A literal comes before anything that is none. -/
theorem precedesParts_literal {p q : String} (literal : (PartShape.ofPart p).isLiteral = true)
    (other : (PartShape.ofPart q).isLiteral = false) (ps qs : List String) :
    precedesParts (p :: ps) (q :: qs) = true := by
  have apart : PartShape.ofPart p ≠ PartShape.ofPart q := by
    intro same
    rw [same, other] at literal
    cases literal
  rw [precedesParts, if_neg apart, literal, other]
  rfl

theorem flat_encode {raw : String} (proper : (Component.literal raw).IsProper) :
    slash ∉ encode raw.toList := by
  rw [slash_mem_encode]
  exact proper.2

/-- A parameter comes first only in what follows another parameter. -/
theorem before_parameter {ts : List Token} {d : Component} {ds : List Component}
    (before : Before (.parameter :: ts) (d.tokens ++ tokensEach ds)) :
    (∃ name, d = .parameter name) ∧ Before ts (tokensEach ds) := by
  obtain ⟨more, goes, behind⟩ := before_hole rfl before
  cases d with
  | parameter name =>
    obtain rfl : tokensEach ds = more := (List.cons.inj goes).2
    exact ⟨⟨name, rfl⟩, behind⟩
  | wildcard name => cases (List.cons.inj goes).1
  | literal raw =>
    -- An empty literal leaves the next slash, which is no parameter either.
    have ends := ends_tokensEach ds
    rw [Component.tokens] at goes
    cases spelled : encode raw.toList with
    | nil =>
      have first : tokensEach ds = .parameter :: more := by simpa [spelled] using goes
      rw [first] at ends
      cases ends .parameter rfl
    | cons b bs =>
      rw [spelled] at goes
      cases (List.cons.inj goes).1

theorem precedesParts_of_before {cs ds : List Component} (first : IsDocumented cs)
    (second : IsDocumented ds) (before : Before (tokensEach cs) (tokensEach ds)) :
    precedesParts (cs.map Component.text) (ds.map Component.text) = true := by
  induction first generalizing ds with
  | nil => exact absurd before not_before_nil_left
  | @wildcard name proper =>
    cases ds with
    | nil => exact absurd before not_before_nil_right
    | cons d ds =>
      rw [tokensEach_cons, tokensEach_cons] at before
      obtain ⟨more, -, behind⟩ := before_hole rfl (before_slash before)
      exact absurd behind not_before_nil_left
  | @cons c cs proper goesOn _ ih =>
    cases ds with
    | nil => exact absurd before not_before_nil_right
    | cons d ds =>
      have properD : d.IsProper := second.proper d (by simp)
      have documented : IsDocumented ds := by
        cases second with
        | wildcard => exact .nil
        | cons _ _ more => exact more
      rw [tokensEach_cons, tokensEach_cons] at before
      have inside := before_slash before
      rw [List.map_cons, List.map_cons]
      cases c with
      | wildcard name => cases goesOn
      | parameter name =>
        obtain ⟨⟨other, rfl⟩, behind⟩ := before_parameter inside
        have same : PartShape.ofPart (Component.parameter name).text =
            PartShape.ofPart (Component.parameter other).text := by
          rw [Component.ofPart_text proper, Component.ofPart_text properD]
          rfl
        rw [precedesParts_same same]
        exact ih documented behind
      | literal raw =>
        cases d with
        | literal other =>
          obtain ⟨same, behind⟩ := before_literals (flat_encode proper) (flat_encode properD)
            (ends_tokensEach cs) (ends_tokensEach ds) inside
          obtain rfl : raw = other := String.toList_inj.1 (Utf8.encode_injective same)
          rw [precedesParts_same rfl]
          exact ih documented behind
        | parameter | wildcard =>
          refine precedesParts_literal ?_ ?_ _ _
          · rw [Component.ofPart_text proper]
            rfl
          · rw [Component.ofPart_text properD]
            rfl

theorem splitString_patternOf {cs : List Component} (proper : ∀ c ∈ cs, c.IsProper)
    (written : cs ≠ []) :
    splitString '/' (patternOf cs) = "" :: cs.map Component.text := by
  have flat : ∀ p ∈ (cs.map Component.text).map String.toList, '/' ∉ p := by
    simpa using fun c hc => slash_not_mem_text (proper c hc)
  rw [splitString, patternOf, toList_slashed (by simpa using written), split_lead flat]
  simp [Function.comp_def]

/-- Tokens come in the order of their patterns. -/
theorem precedes_of_before {cs ds : List Component} (first : IsDocumented cs)
    (second : IsDocumented ds)
    (before : Before (tokensOf cs) (tokensOf ds)) :
    precedes (patternOf cs) (patternOf ds) = true := by
  by_cases emptyC : cs = []
  · subst emptyC
    cases ds with
    | nil => exact absurd (before_slash before) not_before_nil_left
    | cons d ds => exact absurd (before_slash before) not_before_nil_left
  · by_cases emptyD : ds = []
    · subst emptyD
      obtain ⟨c, cs, rfl⟩ := List.exists_cons_of_ne_nil emptyC
      exact absurd (before_slash before) not_before_nil_right
    · rw [tokensOf, if_neg emptyC, tokensOf, if_neg emptyD] at before
      rw [precedes, splitString_patternOf first.proper emptyC,
        splitString_patternOf second.proper emptyD, precedesParts_same rfl]
      exact precedesParts_of_before first second before

theorem IsDocumented.initial {cs : List Component} {c : Component}
    (documented : IsDocumented (cs ++ [c])) :
    IsDocumented cs := by
  induction cs with
  | nil => exact .nil
  | cons d cs ih =>
    rw [List.cons_append] at documented
    generalize rest : cs ++ [c] = more at documented ih
    cases documented with
    | wildcard => simp at rest
    | cons proper goesOn behind => exact .cons proper goesOn (ih behind)

/-- What stands before the bare wildcard of a pattern is what stands before its last component. -/
theorem front_of_wildcard {cs : List Component} {c : Component} {front : List Char}
    (proper : c.IsProper) (same : (patternOf (cs ++ [c])).toList = front ++ ['/', '*']) :
    front = lead '/' ((cs.map Component.text).map String.toList) := by
  have text : (patternOf (cs ++ [c])).toList =
      lead '/' ((cs.map Component.text).map String.toList) ++ '/' :: c.text.toList := by
    rw [patternOf, toList_slashed (by simp)]
    simp
  rw [text] at same
  have reversed := congrArg List.reverse same
  simp only [List.reverse_append, List.reverse_cons, List.append_assoc, List.reverse_nil,
    List.nil_append, List.singleton_append] at reversed
  have flat : '/' ∉ c.text.toList.reverse := by
    rw [List.mem_reverse]
    exact slash_not_mem_text proper
  obtain ⟨-, fronts⟩ :=
    append_inj_of_closed (q := ['*']) flat (by decide) (closed_cons _) (closed_cons _)
    reversed
  exact (List.reverse_inj.1 (List.cons.inj fronts).2).symm

/-- The second pattern of an optional wildcard is in the documented form, too. -/
theorem isPattern_basePattern? {r : Route} (isPattern : IsPattern r.pattern) {base : String}
    (given : r.basePattern? = some base) : IsPattern base := by
  obtain ⟨cs, documented, pattern⟩ := isPattern
  rw [Route.basePattern?] at given
  split at given
  · obtain ⟨front, ending, rfl⟩ := Option.map_eq_some_iff.1 given
    rw [withoutSuffix_eq_some_iff, pattern] at ending
    obtain rfl | ⟨cs, c, rfl⟩ := List.eq_nil_or_concat' cs
    · have length := congrArg List.length ending
      simp [patternOf, slashed, joinStrings, join] at length
    · refine ⟨cs, documented.initial, ?_⟩
      rw [front_of_wildcard (documented.proper c (by simp)) ending]
      by_cases empty : cs = []
      · subst empty
        rfl
      · obtain ⟨d, ds, rfl⟩ := List.exists_cons_of_ne_nil empty
        apply String.toList_inj.1
        rw [patternOf, toList_slashed (by simp)]
        simp
  · cases given

end Waymark.Routing
