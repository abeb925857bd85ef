import Waymark.Proofs.Routing.PathIndex.Shape

/-!
# Growing a template

A template is grown at once below a node that has no part of it yet. What is grown is a chain of
nodes that stores this template alone:

* `exists_literals`: a template is bytes up to its first placeholder;
* `growsHole`: growing from a placeholder on gives a branch one placeholder child;
* `grow_blank`: growing below an empty node stores the template and nothing else.
-/

namespace Waymark.Routing

open Template

/-- Tokens that are no tokens, or begin with a placeholder. -/
def StartsWithHole (ts : List Token) : Prop := ∀ t ∈ ts.head?, t.isHole = true

/-- A template is bytes up to its first placeholder. -/
theorem exists_literals (ts : List Token) :
    ∃ bs rest, ts = literals bs ++ rest ∧ StartsWithHole rest := by
  induction ts with
  | nil => exact ⟨[], [], rfl, by simp [StartsWithHole]⟩
  | cons t ts ih =>
    cases t with
    | literal b =>
      obtain ⟨bs, rest, rfl, hole⟩ := ih
      exact ⟨b :: bs, rest, rfl, hole⟩
    | parameter => exact ⟨[], .parameter :: ts, rfl, by simp [StartsWithHole, Token.isHole]⟩
    | wildcard name => exact ⟨[], .wildcard name :: ts, rfl, by simp [StartsWithHole, Token.isHole]⟩

namespace Node

variable {α : Type}

/-- A node stores one template and nothing else. -/
def StoresOnly (n : Node α) (ts : List Token) (value : α) (names : List (List UInt8)) : Prop :=
  ∀ us w ms, n.Stores us w ms ↔ us = ts ∧ w = value ∧ ms = names

/-- The bytes of a label, unless nothing is written anew. -/
def relabelled (old new : List UInt8) : List UInt8 := if new = [] then old else new

section
variable (value : α) (names : List (List UInt8)) (fuel : Nat) (old bs : List UInt8) (weight : Nat)
  (lits : List (Node α)) (own : Option α) (ownNames : List (List UInt8))

theorem grow_literals (n : Node α) :
    grow value names (fuel + 1) n (bs.map symbolOf) =
      ((n.withLabel (bs.map symbolOf)).store value names, none) := by
  simp [grow, nextPlaceholder_literals]

theorem withLabel_branch :
    (if (bs.map symbolOf).isEmpty then branch old weight lits none own ownNames
      else (branch old weight lits none own ownNames).withLabel (bs.map symbolOf)) =
      branch (relabelled old bs) weight lits none own ownNames := by
  cases bs <;> rfl

theorem addChild_withWild (h : Node α) :
    ((branch old weight lits none own ownNames).addChild h).withWild =
      branch old weight lits (some h) own ownNames := by
  simp [branch, addChild, withChildren, withWild, hasWild, children, label, Node.weight, firstBytes,
    kind, Node.value, Node.names]

theorem grow_wildcard {name : List UInt8} (named : IsPlaceholderName name) :
    grow value names (fuel + 1) (branch old weight lits none own ownNames)
        (bs.map symbolOf ++ starred name) =
      (branch (relabelled old bs) weight lits (some (wildcardNode name 1 value names)) own ownNames,
        none) := by
  have next := nextPlaceholder_wildcard named bs []
  rw [List.append_nil] at next
  have wild : Placeholder.isWildcard ⟨bs.map symbolOf, starred name, []⟩ = true := by
    simp [Placeholder.isWildcard, starred, braced]
  have child : (labelled .wildcard (starred name)).store value names =
      wildcardNode name 1 value names := rfl
  simp only [grow, next, wild, withLabel_branch, List.isEmpty_nil, ↓reduceIte, child,
    addChild_withWild]

theorem not_isWildcard {depth : Nat} (h : depth < 25) (before after : Template) :
    Placeholder.isWildcard ⟨before, lettered (letterAt depth), after⟩ = false := by
  have noStar : letterAt depth ≠ star := letterAt_ne h (by decide)
  simp [Placeholder.isWildcard, lettered, noStar]

theorem grow_parameter {depth : Nat} (h : depth < 25) :
    grow value names (fuel + 1) (branch old weight lits none own ownNames)
        (bs.map symbolOf ++ lettered (letterAt depth)) =
      (branch (relabelled old bs) weight lits
        (some (parameterNode depth 1 false none (some value) names)) own ownNames, none) := by
  have next := nextPlaceholder_parameter h bs []
  rw [List.append_nil] at next
  have plainSuffix : holdsPlaceholder [] = false := by decide
  have child : (labelled (.placeholder false) (lettered (letterAt depth))).store value names =
      parameterNode depth 1 false none (some value) names := rfl
  simp only [grow, next, not_isWildcard h, withLabel_branch, throughSlash, plainSuffix,
    List.isEmpty_nil, ↓reduceIte, Bool.true_or, Bool.not_true, Bool.false_eq_true, child,
    addChild_withWild]

theorem grow_component {depth : Nat} (h : depth < 25) (rest : Template) :
    grow value names (fuel + 1) (branch old weight lits none own ownNames)
        (bs.map symbolOf ++ (lettered (letterAt depth) ++ symbolOf slash :: rest)) =
      (let ending : Node α := branch [slash] 1 [] none none []
       let (ending, refused) :=
        match rest with
        | [] => (ending.store value names, none)
        | next :: _ =>
          if opens next then grow value names fuel ending rest
          else
            let (child, refused) := grow value names fuel (branch [] 1 [] none none []) rest
            ((ending.withFirstByte next.byte).addChild child, refused)
       (branch (relabelled old bs) weight lits
         (some (parameterNode depth 1 false (some ending) none []))
        own ownNames, refused)) := by
  have next := nextPlaceholder_parameter h bs (symbolOf slash :: rest)
  have suffix : throughSlash (symbolOf slash :: rest) = [symbolOf slash] := by
    simp [throughSlash]
  have plainSuffix : holdsPlaceholder [symbolOf slash] = false := by decide
  have holder (ending : Node α) :
      (labelled (.placeholder false) (lettered (letterAt depth))).addSuffix ending =
        parameterNode depth 1 false (some ending) none [] := rfl
  have onlySlash : (!([symbolOf slash].isEmpty || [symbolOf slash].map Symbol.byte = [slash])) =
      false := by
    decide
  simp only [grow, next, not_isWildcard h, withLabel_branch, suffix, plainSuffix,
    Bool.false_eq_true, ↓reduceIte, onlySlash, holder, addChild_withWild]
  rfl

end

@[simp] theorem relabelled_nil_left (bs : List UInt8) : relabelled [] bs = bs := by
  by_cases h : bs = [] <;> simp [relabelled, h]

@[simp] theorem relabelled_nil_right (bs : List UInt8) :
    relabelled bs [] = bs := by simp [relabelled]

theorem storesOnly_wildcardNode (name : List UInt8) (weight : Nat) (value : α)
    (names : List (List UInt8)) :
    (wildcardNode name weight value names).StoresOnly [.wildcard name] value names := by
  intro us w ms
  rw [stores_wildcardNode]
  constructor
  · rintro ⟨rfl, rfl, rfl⟩
    exact ⟨rfl, rfl, rfl⟩
  · rintro ⟨rfl, rfl, rfl⟩
    exact ⟨rfl, rfl, rfl⟩

theorem storesOnly_parameterNode (depth weight : Nat) (suffixed : Bool) (value : α)
    (names : List (List UInt8)) :
    (parameterNode depth weight suffixed none (some value) names).StoresOnly [.parameter]
      value names := by
  intro us w ms
  rw [stores_parameterNode]
  constructor
  · rintro (⟨same, rfl, rfl⟩ | ⟨_, absent, _⟩)
    · exact ⟨rfl, (Option.some.inj same).symm, rfl⟩
    · simp at absent
  · rintro ⟨rfl, rfl, rfl⟩
    exact .inl ⟨rfl, rfl, rfl⟩

theorem StoresOnly.behind_parameter {c : Node α} {ts : List Token} {value : α}
    {names : List (List UInt8)} (only : c.StoresOnly ts value names) (depth weight : Nat)
    (suffixed : Bool) : (parameterNode depth weight suffixed (some c) none []).StoresOnly
      (.parameter :: ts) value names := by
  intro us w ms
  rw [stores_parameterNode]
  constructor
  · rintro (⟨absent, _⟩ | ⟨d, same, below, rfl, stored⟩)
    · simp at absent
    · obtain rfl : c = d := by simpa using same
      obtain ⟨rfl, rest⟩ := (only below w ms).1 stored
      exact ⟨rfl, rest⟩
  · rintro ⟨rfl, rest⟩
    exact .inr ⟨c, rfl, ts, rfl, (only ts w ms).2 ⟨rfl, rest⟩⟩

theorem storesOnly_label (bs : List UInt8) (weight : Nat) (value : α) (names : List (List UInt8)) :
    (branch bs weight [] none (some value) names).StoresOnly (literals bs) value names := by
  intro us w ms
  rw [stores_branch]
  constructor
  · rintro (⟨same, rfl, rfl⟩ | ⟨_, absent, _⟩)
    · exact ⟨rfl, (Option.some.inj same).symm, rfl⟩
    · simp at absent
  · rintro ⟨rfl, rfl, rfl⟩
    exact .inl ⟨rfl, rfl, rfl⟩

/-- A branch with a single child stores what the child does, behind its label. -/
theorem StoresOnly.below_branch {c : Node α} {ts : List Token} {value : α}
    {names : List (List UInt8)} (only : c.StoresOnly ts value names) {lits : List (Node α)}
    {hole : Option (Node α)} (single : ∀ d, d ∈ lits ∨ d ∈ hole ↔ d = c) (bs : List UInt8)
    (weight : Nat) (ownNames : List (List UInt8)) :
    (branch bs weight lits hole none ownNames).StoresOnly (literals bs ++ ts) value names := by
  intro us w ms
  rw [stores_branch]
  constructor
  · rintro (⟨absent, _⟩ | ⟨d, child, below, rfl, stored⟩)
    · simp at absent
    · obtain rfl := (single d).1 child
      obtain ⟨rfl, rest⟩ := (only below w ms).1 stored
      exact ⟨rfl, rest⟩
  · rintro ⟨rfl, rest⟩
    exact .inr ⟨c, (single c).2 rfl, ts, rfl, (only ts w ms).2 ⟨rfl, rest⟩⟩

/-- Growing from a placeholder on gives a branch without one a placeholder child for the
template. -/
def GrowsHole (value : α) (names : List (List UInt8)) (fuel : Nat) : Prop :=
  ∀ {depth : Nat} {ts : List Token}, Regular depth ts → StartsWithHole ts → ts ≠ [] →
    (render depth ts).length < fuel → ∀ (old bs : List UInt8) (weight : Nat) (lits : List (Node α))
      (own : Option α) (ownNames : List (List UInt8)), ∃ h,
    grow value names fuel (branch old weight lits none own ownNames)
        (bs.map symbolOf ++ render depth ts) =
      (branch (relabelled old bs) weight lits (some h) own ownNames, none) ∧
    Shaped .hole depth h ∧ h.StoresOnly ts value names

/-- Growing below an empty node stores the template and nothing else. -/
theorem grow_blank {value : α} {names : List (List UInt8)} {fuel : Nat}
    (grows : GrowsHole value names fuel) {depth : Nat} {bs : List UInt8} {ts : List Token}
    (regular : Regular depth ts) (hole : StartsWithHole ts)
    (enough : (render depth (literals bs ++ ts)).length < fuel) (weight : Nat) :
    ∃ child own ownNames, grow value names fuel (branch [] weight [] none none [])
        (render depth (literals bs ++ ts)) = (branch bs weight [] child own ownNames, none) ∧
      Shaped .branch depth (branch bs weight [] child own ownNames) ∧
      (branch bs weight [] child own ownNames).StoresOnly (literals bs ++ ts) value names := by
  by_cases empty : ts = []
  · subst empty
    obtain ⟨fuel, rfl⟩ := Nat.exists_eq_add_of_lt enough
    refine ⟨none, some value, names, ?_, .branch (by simp) (by simp) (by simp) (by simp) (by simp),
      ?_⟩
    · rw [render_literals, render, List.append_nil, grow_literals]
      rfl
    · rw [List.append_nil]
      exact storesOnly_label bs weight value names
  · rw [render_literals] at enough ⊢
    have short : (render depth ts).length < fuel := by
      rw [List.length_append] at enough
      omega
    obtain ⟨h, grown, shaped, only⟩ := grows regular hole empty short [] bs weight [] none []
    refine ⟨some h, none, [], by rw [grown, relabelled_nil_left], ?_, ?_⟩
    · refine .branch (by simp) (by simp) (by simp) ?_ ?_
      · simpa using shaped
      · simpa using ⟨ts, value, names, (only _ _ _).2 ⟨rfl, rfl, rfl⟩⟩
    · exact only.below_branch (by simp [eq_comm]) bs weight []

theorem render_hole (depth : Nat) {ts : List Token} (hole : StartsWithHole ts) (written : ts ≠ []) :
    ∃ more, render depth ts = plain openBrace :: more := by
  obtain ⟨t, ts, rfl⟩ := List.exists_cons_of_ne_nil written
  have isHole : t.isHole = true := hole t rfl
  cases t with
  | literal b => simp [Token.isHole] at isHole
  | parameter => exact ⟨_, rfl⟩
  | wildcard name => exact ⟨_, rfl⟩

theorem symbolOf_slash : symbolOf slash = plain slash := by decide

theorem opens_openBrace : opens (plain openBrace) = true := by decide

/-- A literal child added to the node behind a parameter. -/
theorem addChild_ending (b : UInt8) (bs : List UInt8) (weight : Nat) (hole : Option (Node α))
    (own : Option α) (ownNames : List (List UInt8)) :
    ((branch [slash] 1 [] none none []).withFirstByte b).addChild
        (branch (b :: bs) weight [] hole own ownNames) =
      branch [slash] 1 [branch (b :: bs) weight [] hole own ownNames] none none [] := rfl

/-- What is grown behind a parameter and its slash. -/
theorem grow_ending {value : α} {names : List (List UInt8)} {fuel : Nat}
    (grows : GrowsHole value names fuel) {depth : Nat} {ts : List Token}
    (regular : Regular depth ts) (enough : (render depth ts).length < fuel) :
    ∃ ending, (match render depth ts with
        | [] => ((branch [slash] 1 [] none none []).store value names, none)
        | next :: _ =>
          if opens next then grow value names fuel (branch [slash] 1 [] none none [])
            (render depth ts)
          else
            let (child, refused) :=
              grow value names fuel (branch [] 1 [] none none []) (render depth ts)
            (((branch [slash] 1 [] none none []).withFirstByte next.byte).addChild child, refused))
              =
        (ending, none) ∧ ending.label = [plain slash] ∧ Shaped .branch depth ending ∧
      ending.StoresOnly (.literal slash :: ts) value names := by
  obtain ⟨bs, us, rfl, hole⟩ := exists_literals ts
  have behind : Regular depth us := regular.of_literals
  cases bs with
  | nil =>
    by_cases empty : us = []
    · subst empty
      exact ⟨branch [slash] 1 [] none (some value) names, rfl, rfl,
        .branch (by simp) (by simp) (by simp) (by simp) (by simp),
        storesOnly_label [slash] 1 value names⟩
    · obtain ⟨tail, spelled⟩ := render_hole depth hole empty
      obtain ⟨h, grown, shaped, only⟩ := grows behind hole empty enough [slash] [] 1 [] none []
      refine ⟨branch [slash] 1 [] (some h) none [], ?_, rfl, ?_, ?_⟩
      · rw [List.map_nil, List.nil_append, relabelled_nil_right, spelled] at grown
        rw [literals, List.map_nil, List.nil_append, spelled]
        simp only [opens_openBrace, ↓reduceIte, grown]
      · refine .branch (by simp) (by simp) (by simp) (by simpa using shaped) ?_
        simpa using ⟨us, value, names, (only _ _ _).2 ⟨rfl, rfl, rfl⟩⟩
      · exact only.below_branch (by simp [eq_comm]) [slash] 1 []
  | cons b bs =>
    obtain ⟨child, own, ownNames, grown, shaped, only⟩ := grow_blank grows behind hole enough 1
    refine ⟨branch [slash] 1 [branch (b :: bs) 1 [] child own ownNames] none none [], ?_,
      rfl, ?_, ?_⟩
    · have spelled : render depth (literals (b :: bs) ++ us) =
          symbolOf b :: render depth (literals bs ++ us) := rfl
      rw [spelled] at grown ⊢
      simp only [opens_symbolOf, Bool.false_eq_true, ↓reduceIte, grown, symbolOf_byte]
      rw [addChild_ending]
    · refine .branch ?_ (by simp) (by simpa using shaped) (by simp) (by simp)
      simp [branch, label]
    · exact only.below_branch (by simp) [slash] 1 []

theorem growsHole (value : α) (names : List (List UInt8)) (fuel : Nat) :
    GrowsHole value names fuel := by
  induction fuel with
  | zero =>
    intro depth ts _ _ _ enough
    exact absurd enough (Nat.not_lt_zero _)
  | succ fuel ih =>
    intro depth ts regular hole written enough old bs weight lits own ownNames
    cases regular with
    | nil => exact absurd rfl written
    | literal b more => simpa [Token.isHole] using hole (.literal b) rfl
    | parameter lettered =>
      refine ⟨parameterNode depth 1 false none (some value) names, ?_,
        .parameter (by simp) (by simp), storesOnly_parameterNode _ _ _ _ _⟩
      rw [render, render, List.append_nil, grow_parameter _ _ _ _ _ _ _ _ _ lettered]
    | @wildcard _ name named =>
      refine ⟨wildcardNode name 1 value names, ?_, .wildcard, storesOnly_wildcardNode _ _ _ _⟩
      rw [render, render, List.append_nil, grow_wildcard _ _ _ _ _ _ _ _ _ named]
    | @component _ rest lettered more =>
      have short : (render (depth + 1) rest).length < fuel := by
        simp only [render, List.length_append, List.length_cons, Template.lettered] at enough
        omega
      obtain ⟨ending, grown, label, shaped, only⟩ := grow_ending ih more short
      refine ⟨parameterNode depth 1 false (some ending) none [], ?_,
        .parameter (by simpa using label) (by simpa using shaped), only.behind_parameter _ _ _⟩
      rw [render, render, grow_component _ _ _ _ _ _ _ _ _ lettered]
      simp only [grown]

end Node

end Waymark.Routing
