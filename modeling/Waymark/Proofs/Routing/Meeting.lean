import Waymark.Proofs.Routing.MountOrder
import Waymark.Proofs.Routing.Precedence

/-!
# Patterns that cannot stand in one mux

A mux refuses a pattern that has the shape of one it holds, and one with a parameter where the other
has a wildcard. Both can be read off the patterns as they are written:

* `meets`: two patterns in the documented form of which a mux holds one at most;
* `meets_iff_clash`: these are the patterns whose tokens clash;
* `parameterCount_patternOf`: the parameters of a pattern, counted as it is written;
* `mount_complete_iff_apart`: the tables that are mounted without a rejection.
-/

namespace Waymark.Routing

open Template Waymark.Text Waymark.Handling
open Waymark.Http (Method)
open Waymark.Text.Utf8 (encode)

/-- Two lists of components have one shape, or no literal where they first differ in shape. -/
def meetsParts : List String → List String → Bool
  | [], [] => true
  | p :: ps, q :: qs =>
    if PartShape.ofPart p = PartShape.ofPart q then meetsParts ps qs
    else !(PartShape.ofPart p).isLiteral && !(PartShape.ofPart q).isLiteral
  | [], _ :: _ | _ :: _, [] => false

/-- Two patterns have one shape, or no literal where they first differ in shape. -/
def meets (p q : String) : Bool := meetsParts (splitString '/' p) (splitString '/' q)

/-- How many parameters a pattern has. -/
def parameterCount (pattern : String) : Nat :=
  (splitString '/' pattern).countP fun part => PartShape.ofPart part = .parameter

theorem meetsParts_comm (ps qs : List String) : meetsParts ps qs = meetsParts qs ps := by
  induction ps generalizing qs with
  | nil => cases qs <;> rfl
  | cons p ps ih =>
    cases qs with
    | nil => rfl
    | cons q qs =>
      by_cases same : PartShape.ofPart p = PartShape.ofPart q
      · simp only [meetsParts, same, ↓reduceIte, ih]
      · simp only [meetsParts, same, Ne.symm same, ↓reduceIte, Bool.and_comm]

theorem meets_comm (p q : String) : meets p q = meets q p := meetsParts_comm _ _

theorem meetsParts_same {p q : String} (same : PartShape.ofPart p = PartShape.ofPart q)
    (ps qs : List String) : meetsParts (p :: ps) (q :: qs) = meetsParts ps qs := by
  rw [meetsParts, if_pos same]

theorem meetsParts_other {p q : String} (other : PartShape.ofPart p ≠ PartShape.ofPart q)
    (ps qs : List String) : meetsParts (p :: ps) (q :: qs) =
      (!(PartShape.ofPart p).isLiteral && !(PartShape.ofPart q).isLiteral) := by
  rw [meetsParts, if_neg other]

theorem clash_comm {ts us : List Token} : Clash ts us ↔ Clash us ts := by
  induction ts generalizing us with
  | nil => cases us <;> simp [Clash]
  | cons t ts ih =>
    cases us with
    | nil => simp [Clash]
    | cons u us =>
      by_cases same : t = u
      · subst same
        simp only [Clash, ↓reduceIte, ih]
      · simp only [Clash, same, Ne.symm same, ↓reduceIte, and_comm]

theorem escapeLiteral_injective : Function.Injective escapeLiteral := by
  intro raw other same
  have templates (raw : String) : ofBytes (encode (escapeLiteral raw).toList) =
      (encode raw.toList).map symbolOf := by
    have read := ofBytes_escapeLiteral raw.toList []
    rw [← toList_escapeLiteral] at read
    simpa [ofBytes] using read
  have bytes : (encode raw.toList).map symbolOf = (encode other.toList).map symbolOf := by
    rw [← templates, same, templates]
  exact String.toList_inj.1 (Utf8.encode_injective (symbolOf_injective.list_map bytes))

theorem IsDocumented.tail {c : Component} {cs : List Component}
    (documented : IsDocumented (c :: cs)) :
    IsDocumented cs := by
  cases documented with
  | wildcard => exact .nil
  | cons _ _ more => exact more

/-- A wildcard is the last component. -/
theorem IsDocumented.eq_nil {c : Component} {cs : List Component}
    (documented : IsDocumented (c :: cs)) (wild : c.isWildcard = true) : cs = [] := by
  cases documented with
  | wildcard => rfl
  | cons _ goesOn _ => simp [goesOn] at wild

/-- Literal components clash only in what follows the same one. -/
theorem clash_literals {as bs : List UInt8} (flatA : slash ∉ as) (flatB : slash ∉ bs)
    {ts us : List Token} (endsT : ∀ t ∈ ts.head?, t = .literal slash)
    (endsU : ∀ u ∈ us.head?, u = .literal slash)
    (clash : Clash (literals as ++ ts) (literals bs ++ us)) :
    as = bs ∧ Clash ts us := by
  induction as generalizing bs with
  | nil =>
    cases bs with
    | nil => exact ⟨rfl, clash⟩
    | cons b bs =>
      cases ts with
      | nil => exact absurd clash (by simp [literals, Clash])
      | cons t ts =>
        obtain rfl := endsT t rfl
        rw [List.mem_cons, not_or] at flatB
        exact absurd clash (not_clash_literal _ _ flatB.1)
  | cons a as ih =>
    rw [List.mem_cons, not_or] at flatA
    cases bs with
    | nil =>
      cases us with
      | nil => exact absurd clash (by simp [literals, Clash])
      | cons u us =>
        obtain rfl := endsU u rfl
        exact absurd clash (not_clash_literal _ _ (Ne.symm flatA.1))
    | cons b bs =>
      rw [List.mem_cons, not_or] at flatB
      by_cases same : a = b
      · subst same
        obtain ⟨rfl, rest⟩ := ih flatA.2 flatB.2 (by simpa [literals, Clash] using clash)
        exact ⟨rfl, rest⟩
      · exact absurd clash (not_clash_literal _ _ same)

/-- A placeholder and a literal component do not clash. -/
theorem not_clash_hole {hole : Token} (isHole : hole.isHole = true) (raw : String) (ts : List Token)
    {us : List Token} (ends : ∀ u ∈ us.head?, u = .literal slash) :
    ¬ Clash (hole :: ts) (literals (encode raw.toList) ++ us) := by
  have differ (b : UInt8) : hole.isHole ≠ (Token.literal b).isHole := by
    rw [isHole]
    exact Bool.noConfusion
  cases encode raw.toList with
  | nil =>
    -- An empty literal leaves the next slash, which is no placeholder either.
    cases us with
    | nil => simp [literals, Clash]
    | cons u us =>
      obtain rfl := ends u rfl
      exact not_clash_of_isHole _ _ (differ slash)
  | cons b bs => exact not_clash_of_isHole _ _ (differ b)

/-- Components of one shape clash as what follows them. -/
theorem clash_of_shape_eq {c d : Component} {cs ds : List Component}
    (first : IsDocumented (c :: cs)) (second : IsDocumented (d :: ds)) (same : c.shape = d.shape) :
    Clash (c.tokens ++ tokensEach cs) (d.tokens ++ tokensEach ds) ↔
      Clash (tokensEach cs) (tokensEach ds) := by
  cases c <;> cases d <;> simp only [Component.shape, PartShape.literal.injEq, reduceCtorEq] at same
  case literal.literal raw other =>
    obtain rfl : raw = other := escapeLiteral_injective same
    rw [clash_append]
  case parameter.parameter => exact clash_append [.parameter] _ _
  case wildcard.wildcard name other =>
    obtain rfl : cs = [] := first.eq_nil rfl
    obtain rfl : ds = [] := second.eq_nil rfl
    have met : Clash (Component.wildcard name).tokens (Component.wildcard other).tokens := by
      by_cases named : (Component.wildcard name).tokens = (Component.wildcard other).tokens
      · rw [named]
        exact clash_self _
      · exact clash_holes rfl rfl (fun same => named (congrArg (fun t => [t]) same)) [] []
    simpa [tokensEach] using met

/-- Components of different shapes clash unless one is a literal. -/
theorem clash_of_shape_ne {c d : Component} (properC : c.IsProper) (properD : d.IsProper)
    (other : c.shape ≠ d.shape) (cs ds : List Component) :
    Clash (c.tokens ++ tokensEach cs) (d.tokens ++ tokensEach ds) ↔
      (!c.shape.isLiteral && !d.shape.isLiteral) = true := by
  have endsC := ends_tokensEach cs
  have endsD := ends_tokensEach ds
  cases c with
  | literal raw =>
    refine iff_of_false ?_ (by simp [Component.shape, PartShape.isLiteral])
    intro clash
    cases d with
    | literal text =>
      obtain ⟨same, -⟩ := clash_literals (flat_encode properC) (flat_encode properD)
        endsC endsD clash
      rw [String.toList_inj.1 (Utf8.encode_injective same)] at other
      exact other rfl
    | parameter | wildcard => exact not_clash_hole rfl raw _ endsC (clash_comm.1 clash)
  | parameter name =>
    cases d with
    | literal text =>
      exact iff_of_false (not_clash_hole rfl text _ endsD)
        (by simp [Component.shape, PartShape.isLiteral])
    | parameter => exact absurd rfl other
    | wildcard => exact iff_of_true (clash_holes rfl rfl (by simp) _ _) rfl
  | wildcard name =>
    cases d with
    | literal text =>
      exact iff_of_false (not_clash_hole rfl text _ endsD)
        (by simp [Component.shape, PartShape.isLiteral])
    | parameter => exact iff_of_true (clash_holes rfl rfl (by simp) _ _) rfl
    | wildcard => exact absurd rfl other

/-- Components that are written one behind the other meet as their tokens clash. -/
theorem meetsParts_iff_clash {cs ds : List Component} (first : IsDocumented cs)
    (second : IsDocumented ds) :
    meetsParts (cs.map Component.text) (ds.map Component.text) = true ↔
      Clash (tokensEach cs) (tokensEach ds) := by
  induction cs generalizing ds with
  | nil =>
    cases ds with
    | nil => simp [meetsParts, tokensEach]
    | cons d ds => simp [meetsParts, tokensEach, clash_nil_left]
  | cons c cs ih =>
    cases ds with
    | nil => simp [meetsParts, tokensEach, clash_nil_right]
    | cons d ds =>
      have properC : c.IsProper := first.proper c (by simp)
      have properD : d.IsProper := second.proper d (by simp)
      have shapes : PartShape.ofPart c.text = PartShape.ofPart d.text ↔ c.shape = d.shape := by
        rw [Component.ofPart_text properC, Component.ofPart_text properD]
      have behindSlash {ts us : List Token} :
          Clash (.literal slash :: ts) (.literal slash :: us) ↔ Clash ts us := by simp [Clash]
      rw [List.map_cons, List.map_cons, tokensEach_cons, tokensEach_cons, behindSlash]
      by_cases same : c.shape = d.shape
      · rw [meetsParts_same (shapes.2 same), ih first.tail second.tail,
          clash_of_shape_eq first second same]
      · rw [meetsParts_other (mt shapes.1 same), clash_of_shape_ne properC properD same,
          Component.ofPart_text properC, Component.ofPart_text properD]

/-- Every pattern is some components one behind the other; the root is an empty one. -/
theorem exists_written_each {cs : List Component} (documented : IsDocumented cs) :
    ∃ ds, IsDocumented ds ∧ tokensOf cs = tokensEach ds ∧ namesOf cs = namesOf ds ∧
      splitString '/' (patternOf cs) = "" :: ds.map Component.text := by
  by_cases empty : cs = []
  · subst empty
    exact ⟨[.literal ""], .cons (by decide) rfl .nil, rfl, rfl, by decide +kernel⟩
  · exact ⟨cs, documented, if_neg empty, rfl, splitString_patternOf documented.proper empty⟩

/-- Patterns meet as their tokens clash. -/
theorem meets_iff_clash {cs ds : List Component} (first : IsDocumented cs)
    (second : IsDocumented ds) :
    meets (patternOf cs) (patternOf ds) = true ↔ Clash (tokensOf cs) (tokensOf ds) := by
  obtain ⟨cs', documented, tokens, -, parts⟩ := exists_written_each first
  obtain ⟨ds', documented', tokens', -, parts'⟩ := exists_written_each second
  rw [meets, parts, parts', meetsParts_same rfl, tokens, tokens',
    meetsParts_iff_clash documented documented']

theorem countP_text {cs : List Component} (proper : ∀ c ∈ cs, c.IsProper) :
    (cs.map Component.text).countP (fun part => PartShape.ofPart part = .parameter) =
      (namesOf cs).length := by
  induction cs with
  | nil => rfl
  | cons c cs ih =>
    have behind := ih fun d hd => proper d (List.mem_cons_of_mem c hd)
    rw [List.map_cons, List.countP_cons, behind, Component.ofPart_text (proper c (by simp))]
    cases c <;> simp [namesOf, Component.shape]

/-- The parameters of a pattern are the names in it. -/
theorem parameterCount_patternOf {cs : List Component} (documented : IsDocumented cs) :
    parameterCount (patternOf cs) = (namesOf cs).length := by
  obtain ⟨ds, documented', -, names, parts⟩ := exists_written_each documented
  have root : decide (PartShape.ofPart "" = .parameter) = false := by decide
  rw [parameterCount, parts, names, List.countP_cons, countP_text documented'.proper, root]
  simp

namespace Table

/-- Every method and pattern that a table registers, in the order of its routes. -/
def patterns (t : Table) : List (Method × String) :=
  t.routes.flatMap fun r => (r.pattern :: r.basePattern?.toList).map fun pattern =>
    (r.method, pattern)

variable {t : Table} {global : List Middleware}

theorem map_registrations (r : Route) :
    (t.registrations global r).map (fun reg => (reg.method, reg.pattern)) =
      (r.pattern :: r.basePattern?.toList).map fun pattern => (r.method, pattern) := by
  rw [registrations, List.map_map]
  rfl

theorem patterns_perm (t : Table) (global : List Middleware) :
    t.patterns.Perm ((t.routesInOrder.flatMap (t.registrations global)).map
    fun reg => (reg.method, reg.pattern)) := by
  have each : (t.routesInOrder.flatMap (t.registrations global)).map
      (fun reg => (reg.method, reg.pattern)) = t.routesInOrder.flatMap fun r =>
        (r.pattern :: r.basePattern?.toList).map fun pattern => (r.method, pattern) := by
    rw [List.map_flatMap]
    exact congrArg (fun f => t.routesInOrder.flatMap f) (funext map_registrations)
  rw [each, patterns]
  exact (perm_inMountOrder keyOf t.routes).symm.flatMap_right _

/-- A table is mounted without a rejection if and only if no pattern has too many parameters and no
two patterns of one method meet. -/
theorem mount_complete_iff_apart (isPattern : ∀ r ∈ t.routes, IsPattern r.pattern) :
    (t.mount Mux.empty global).2.isComplete = true ↔
      (∀ p ∈ t.patterns, parameterCount p.2 ≤ 25) ∧
      t.patterns.Pairwise fun p q => p.1 = q.1 → meets p.2 q.2 = false := by
  obtain ⟨parts, written⟩ : ∃ parts,
    Written parts (t.routesInOrder.flatMap (t.registrations global)) :=
    exists_written isPattern
  have perm := patterns_perm t global
  have symm {p q : Method × String} (apart : p.1 = q.1 → meets p.2 q.2 = false) (same : q.1 = p.1) :
      meets q.2 p.2 = false := (meets_comm q.2 p.2).trans (apart same.symm)
  rw [mount_complete_iff written, perm.pairwise_iff symm, List.pairwise_map]
  refine and_congr ?_ ?_
  · simp only [perm.mem_iff, List.forall_mem_map]
    refine forall₂_congr fun reg made => ?_
    obtain ⟨documented, pattern⟩ := written reg made
    rw [pattern, parameterCount_patternOf documented]
  · refine List.Pairwise.iff_of_mem fun {a b} madeA madeB => ?_
    obtain ⟨documentedA, patternA⟩ := written a madeA
    obtain ⟨documentedB, patternB⟩ := written b madeB
    rw [Collide, patternA, patternB, ← meets_iff_clash documentedA documentedB, not_and,
      Bool.not_eq_true]

end Table

end Waymark.Routing
