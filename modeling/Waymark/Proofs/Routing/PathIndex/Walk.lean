import Mathlib.Data.List.InsertIdx
import Waymark.Proofs.Routing.PathIndex.Growth

/-!
# The steps of an insertion

What an insertion does at a node, by the kind of the node and the token that the template goes on
with:

* `commonLength_render`: how far a label and a template go together;
* `walk_split`, `walk_ends`: a label is left early; a template ends;
* `walk_literal`, `walk_fresh`: on through a literal child, which may be new;
* `walk_newHole`, `walk_parameterNode`, `walk_wildcardNode`, `walk_parameterNode_wildcard`: on
  through a placeholder, or refused by one;
* `walk_behind`, `walk_behind_new`: on behind a parameter;
* `moveChild_branch`, `addChild_branch`: the literal child that was gone through, at its new place.
-/

namespace Waymark.Routing

open Template

/-- A label and a template go the same way, and then part. -/
theorem exists_common (bs : List UInt8) (ts : List Token) :
    ∃ common rest us, bs = common ++ rest ∧ ts = literals common ++ us ∧
      ∀ b ∈ rest.head?, us.head? ≠ some (.literal b) := by
  induction bs generalizing ts with
  | nil => exact ⟨[], [], ts, rfl, rfl, by simp⟩
  | cons b bs ih =>
    by_cases same : ts.head? = some (.literal b)
    · obtain ⟨ts, rfl⟩ := List.head?_eq_some_iff.1 same
      obtain ⟨common, rest, us, rfl, rfl, apart⟩ := ih ts
      exact ⟨b :: common, rest, us, rfl, rfl, apart⟩
    · exact ⟨[], b :: bs, ts, rfl, rfl, by simpa using same⟩

namespace Node

theorem commonLength_append (front t u : Template) :
    commonLength (front ++ t) (front ++ u) = front.length + commonLength t u := by
  induction front with
  | nil => simp
  | cons s front ih => simp [commonLength, ih, Nat.add_right_comm]

@[simp] theorem commonLength_nil (t : Template) : commonLength t [] = 0 := by
  cases t <;> rfl

theorem commonLength_label (label t : Template) :
    commonLength (label ++ t) label = label.length := by
  have same := commonLength_append label t []
  rwa [List.append_nil, commonLength_nil] at same

theorem symbolOf_ne_openBrace (b : UInt8) : symbolOf b ≠ plain openBrace := by
  intro same
  have opened := congrArg opens same
  rw [opens_symbolOf, opens_openBrace] at opened
  exact absurd opened (by decide)

/-- A template and a label have in common what their tokens and bytes have. -/
theorem commonLength_render (depth : Nat) (common : List UInt8) {rest : List UInt8}
    {us : List Token} (apart : ∀ b ∈ rest.head?, us.head? ≠ some (.literal b)) :
    commonLength (render depth (literals common ++ us)) ((common ++ rest).map symbolOf) =
      common.length := by
  have none_left : commonLength (render depth us) (rest.map symbolOf) = 0 := by
    cases rest with
    | nil => simp
    | cons b rest =>
      cases us with
      | nil => rfl
      | cons u us =>
        by_cases hole : u.isHole = true
        · have starts : StartsWithHole (u :: us) := by simpa [StartsWithHole] using hole
          obtain ⟨more, spelled⟩ := render_hole depth starts (by simp)
          simp [spelled, commonLength, (symbolOf_ne_openBrace b).symm]
        · obtain ⟨a, rfl⟩ : ∃ a, u = .literal a := by
            cases u with
            | literal a => exact ⟨a, rfl⟩
            | parameter | wildcard name => exact absurd rfl hole
          have differ : symbolOf a ≠ symbolOf b := fun same =>
            apart b rfl (congrArg (fun c => some (Token.literal c)) (symbolOf_injective same))
          simp [render, commonLength, differ]
  rw [render_literals, List.map_append, commonLength_append, none_left, List.length_map,
    Nat.add_zero]

variable {α : Type}

section
variable (route : Template) (value : α) (names : List (List UInt8)) (fuel : Nat)

/-- An insertion splits a label that its template leaves early. -/
theorem walk_split {n : Node α} {t : Template} (short : commonLength t n.label < n.label.length) :
    walk route value names (fuel + 1) n t =
      walk route value names fuel (n.splitAt (commonLength t n.label)) t := by
  rw [walk, if_pos short]

/-- An insertion ends at the node whose label is left of its template. -/
theorem walk_ends (n : Node α) :
    walk route value names (fuel + 1) n n.label =
      match n.value with
      | some _ => (n, some (conflictAt route n.label n))
      | none => (n.store value names, none) := by
  have same : commonLength n.label n.label = n.label.length := by
    simpa using commonLength_label n.label []
  cases held : n.value <;> simp only [walk, same, Nat.lt_irrefl, ↓reduceIte, held]

variable (bs : List UInt8) (weight : Nat) (lits : List (Node α)) (own : Option α)
  (ownNames : List (List UInt8))

theorem walk_literal (hole : Option (Node α)) {b : UInt8} {i : Nat} {c : Node α}
    (found : lits.findIdx? (fun c => c.firstByte == b) = some i) (child : lits[i]? = some c)
    (t : Template) :
    walk route value names (fuel + 1) (branch bs weight lits hole own ownNames)
        (bs.map symbolOf ++ symbolOf b :: t) =
      ((branch bs weight lits hole own ownNames).moveChild i
          ((branch bs weight lits hole own ownNames).placeOf i c.heavier)
          (walk route value names fuel c.heavier (symbolOf b :: t)).1,
        (walk route value names fuel c.heavier (symbolOf b :: t)).2) := by
  have next : (branch bs weight lits hole own ownNames).literalChild? (symbolOf b :: t) =
      some (i, c) := by
    have inside : (lits ++ hole.toList)[i]? = some c := by
      rw [List.getElem?_append_left (List.getElem?_eq_some_iff.1 child).1, child]
    simp [literalChild?, branch, firstBytes, children, List.findIdx?_map, Function.comp_def,
      found, inside]
  have label : (branch bs weight lits hole own ownNames).label = bs.map symbolOf := rfl
  have kind : (branch bs weight lits hole own ownNames).kind = .literal := rfl
  rw [walk, label, commonLength_label]
  simp [kind, next]

theorem walk_fresh (hole : Option (Node α)) {b : UInt8} (absent : ∀ c ∈ lits, c.firstByte ≠ b)
    (t : Template) :
    walk route value names (fuel + 1) (branch bs weight lits hole own ownNames)
        (bs.map symbolOf ++ symbolOf b :: t) =
      (let n := (branch bs weight lits hole own ownNames).withFirstByte b
       let grown := grow value names (t.length + 2) (branch [] 1 [] none none []) (symbolOf b :: t)
       ((n.addChild blank).moveChild lits.length
         (n.placeOf lits.length (branch [] 1 [] none none []))
          grown.1, grown.2.map .template)) := by
  have next : (branch bs weight lits hole own ownNames).literalChild? (symbolOf b :: t) = none := by
    have none_found : lits.findIdx? (fun c => c.firstByte == b) = none := by
      simpa [List.findIdx?_eq_none_iff] using absent
    simp [literalChild?, branch, firstBytes, List.findIdx?_map, Function.comp_def, none_found]
  have label : (branch bs weight lits hole own ownNames).label = bs.map symbolOf := rfl
  have kind : (branch bs weight lits hole own ownNames).kind = .literal := rfl
  have bytes : ((branch bs weight lits hole own ownNames).withFirstByte b).firstBytes.length - 1 =
      lits.length := by
    simp [branch, withFirstByte, firstBytes]
  have empty : (blank : Node α).heavier = branch [] 1 [] none none [] := rfl
  rw [walk, label, commonLength_label]
  simp [kind, next, bytes, empty]

theorem walk_newHole (t : Template) :
    walk route value names (fuel + 1) (branch bs weight lits none own ownNames)
        (bs.map symbolOf ++ plain openBrace :: t) =
      (let grown := grow value names (t.length + 2) (branch bs weight lits none own ownNames)
        (plain openBrace :: t)
       (grown.1, grown.2.map .template)) := by
  have next : (branch bs weight lits none own ownNames).literalChild? (plain openBrace :: t) =
      none := by
    simp [literalChild?, opens_openBrace]
  have label : (branch bs weight lits none own ownNames).label = bs.map symbolOf := rfl
  have kind : (branch bs weight lits none own ownNames).kind = .literal := rfl
  have wild : (branch bs weight lits none own ownNames).hasWild = false := rfl
  rw [walk, label, commonLength_label]
  simp [kind, next, wild, opens_openBrace]

/-- Where a placeholder stands already, an insertion is refused by it or goes on behind it. -/
theorem walk_hole (h : Node α) (t : Template) :
    walk route value names (fuel + 1) (branch bs weight lits (some h) own ownNames)
        (bs.map symbolOf ++ plain openBrace :: t) =
      (let t := plain openBrace :: t
       let start := t.take h.label.length
       let refusal : Option InsertError :=
        if start.length = h.label.length && start.map Symbol.byte ≠ h.label.map Symbol.byte then
          some (conflictAt route t h.heavier)
        else if h.kind = .wildcard then some (conflictAt route t h.heavier)
        else none
       refusal.elim
        (branch bs weight lits (some (walk route value names fuel h.heavier t).1) own ownNames,
          (walk route value names fuel h.heavier t).2)
        fun e => (branch bs weight lits (some h.heavier) own ownNames, some e)) := by
  have next : (branch bs weight lits (some h) own ownNames).literalChild? (plain openBrace :: t) =
      none := by
    simp [literalChild?, opens_openBrace]
  have label : (branch bs weight lits (some h) own ownNames).label = bs.map symbolOf := rfl
  have kind : (branch bs weight lits (some h) own ownNames).kind = .literal := rfl
  have wild : (branch bs weight lits (some h) own ownNames).hasWild = true := rfl
  have children : (branch bs weight lits (some h) own ownNames).children = lits ++ [h] := rfl
  have again (c : Node α) :
      (branch bs weight lits (some h) own ownNames).withChildren (lits ++ [c]) =
    branch bs weight lits (some c) own ownNames := rfl
  have heavyLabel : h.heavier.label = h.label := rfl
  have heavyKind : h.heavier.kind = h.kind := rfl
  rw [walk, label, commonLength_label]
  simp [kind, next, wild, opens_openBrace, children, again, heavyLabel, heavyKind]
  split
  · next e refused => rw [refused]; rfl
  · next accepted => rw [accepted]; rfl

theorem walk_wildcardNode (name : List UInt8) (weight' : Nat) (v : α) (ns : List (List UInt8))
    (t : Template) : ∃ e,
    walk route value names (fuel + 1)
        (branch bs weight lits (some (wildcardNode name weight' v ns)) own ownNames)
        (bs.map symbolOf ++ plain openBrace :: t) =
      (branch bs weight lits (some (wildcardNode name weight' v ns).heavier) own ownNames,
        some e) := by
  have kind : (wildcardNode name weight' v ns).kind = .wildcard := rfl
  rw [walk_hole]
  simp [kind]

variable (depth weight' : Nat) (suffixed : Bool) (child : Option (Node α)) (v : Option α)
  (ns : List (List UInt8))

theorem walk_parameterNode_wildcard {name : List UInt8} (named : IsPlaceholderName name) :
    ∃ e, walk route value names (fuel + 1)
        (branch bs weight lits (some (parameterNode depth weight' suffixed child v ns))
          own ownNames)
        (bs.map symbolOf ++ starred name) =
      (branch bs weight lits (some (parameterNode depth weight' suffixed child v ns).heavier)
        own ownNames,
        some e) := by
  obtain ⟨b, name, rfl⟩ := List.exists_cons_of_ne_nil named.1
  have label : (parameterNode depth weight' suffixed child v ns).label =
    [plain openBrace, plain (letterAt depth), plain closeBrace] := rfl
  have other : b ≠ closeBrace := fun same => named.2.1 (by simp [same])
  rw [starred, braced, walk_hole]
  simp [label, other]

theorem walk_parameterNode (t : Template) :
    walk route value names (fuel + 1)
        (branch bs weight lits (some (parameterNode depth weight' suffixed child v ns))
          own ownNames)
        (bs.map symbolOf ++ (lettered (letterAt depth) ++ t)) =
      (let h := parameterNode depth (weight' + 1) suffixed child v ns
       let t := lettered (letterAt depth) ++ t
       (branch bs weight lits (some (walk route value names fuel h t).1) own ownNames,
          (walk route value names fuel h t).2)) := by
  have label : (parameterNode depth weight' suffixed child v ns).label =
      lettered (letterAt depth) := rfl
  have kind : (parameterNode depth weight' suffixed child v ns).kind ≠ .wildcard := by
    simp [parameterNode, Node.kind]
  have opened : lettered (letterAt depth) ++ t =
    plain openBrace :: plain (letterAt depth) :: plain closeBrace :: t := rfl
  have heavy : (parameterNode depth weight' suffixed child v ns).heavier =
    parameterNode depth (weight' + 1) suffixed child v ns := rfl
  rw [opened, walk_hole]
  simp [label, kind, lettered, heavy]

/-- An insertion behind a parameter goes on at the node of the next component. -/
theorem walk_behind {c : Node α} (ends : c.label = [plain slash]) (t : Template) :
    walk route value names (fuel + 1) (parameterNode depth weight suffixed (some c) v ns)
        (lettered (letterAt depth) ++ symbolOf slash :: t) =
      (parameterNode depth weight suffixed
          (some (walk route value names fuel c.heavier (symbolOf slash :: t)).1) v ns,
        (walk route value names fuel c.heavier (symbolOf slash :: t)).2) := by
  have label : (parameterNode depth weight suffixed (some c) v ns).label =
      lettered (letterAt depth) := rfl
  have kind : (parameterNode depth weight suffixed (some c) v ns).kind = .placeholder suffixed :=
    rfl
  have children : (parameterNode depth weight suffixed (some c) v ns).children = [c] := rfl
  have suffix : throughSlash (symbolOf slash :: t) = [plain slash] := by
    simp [throughSlash, symbolOf_slash]
  have again (d : Node α) : (parameterNode depth weight suffixed (some c) v ns).withChildren [d] =
    parameterNode depth weight suffixed (some d) v ns := rfl
  rw [walk, label, commonLength_label]
  simp [kind, children, suffix, ends, again]

/-- An insertion behind a parameter at which templates ended so far makes the node of the next
component. -/
theorem walk_behind_new (t : Template) :
    walk route value names (fuel + 2) (parameterNode depth weight suffixed none v ns)
        (lettered (letterAt depth) ++ symbolOf slash :: t) =
      (let next := walk route value names (fuel + 1) (branch [slash] 1 [] none none [])
        (symbolOf slash :: t)
       (parameterNode depth weight true (some next.1) v ns, next.2)) := by
  have label : (parameterNode depth weight suffixed none v ns).label = lettered (letterAt depth) :=
    rfl
  have kind : (parameterNode depth weight suffixed none v ns).kind = .placeholder suffixed := rfl
  have children : (parameterNode depth weight suffixed none v ns).children = [] := rfl
  have suffix : throughSlash (symbolOf slash :: t) = [symbolOf slash] := by simp [throughSlash]
  have noPlaceholder : holdsPlaceholder [symbolOf slash] = false := by decide
  have again (d : Node α) : ((parameterNode depth weight suffixed none v ns).addSuffix d).withKind
    (.placeholder true) = parameterNode depth weight true (some d) v ns := rfl
  have start : (labelled .literal [symbolOf slash] : Node α) = branch [slash] 1 [] none none [] :=
    rfl
  rw [walk, label, commonLength_label]
  cases t with
  | nil =>
    have ends := walk_ends route value names fuel (branch [slash] 1 [] none none [] : Node α)
    have label : (branch [slash] 1 [] none none [] : Node α).label = [symbolOf slash] := rfl
    have empty : (branch [slash] 1 [] none none [] : Node α).value = none := rfl
    rw [label, empty] at ends
    simp [kind, children, suffix, noPlaceholder, again, start, ends]
  | cons s t => simp [kind, children, suffix, noPlaceholder, again, start]

end

theorem moveChild_eq {n c : Node α} (lits : List (Node α)) {others rest : List (Node α)}
    {i place : Nat} (children : n.children = lits ++ rest) (moved : lits.eraseIdx i = others)
    (byte : n.firstBytes[i]? = some c.firstByte)
    (bytes : n.firstBytes.eraseIdx i = others.map firstByte) (inside : i < lits.length)
    (front : place ≤ i) :
    n.moveChild i place c =
      mk n.label n.weight n.hasWild ((others.take place ++ c :: others.drop place).map firstByte)
        n.kind
        ((others.take place ++ c :: others.drop place) ++ rest) n.value n.names := by
  have long : place ≤ others.length := by
    rw [← moved, List.length_eraseIdx_of_lt inside]
    omega
  rw [moveChild, byte, children, List.eraseIdx_append_of_lt_length inside, moved,
    List.take_append_of_le_length long, List.drop_append_of_le_length long]
  simp [bytes, List.map_take, List.map_drop]

theorem moveChild_branch {bs : List UInt8} {weight : Nat} {lits : List (Node α)}
    {hole : Option (Node α)} {own : Option α} {ownNames : List (List UInt8)} {i place : Nat}
    {c c' : Node α} (child : lits[i]? = some c) (first : c'.firstByte = c.firstByte)
    (front : place ≤ i) :
    (branch bs weight lits hole own ownNames).moveChild i place c' =
      branch bs weight ((lits.eraseIdx i).take place ++ c' :: (lits.eraseIdx i).drop place) hole own
        ownNames := by
  have inside : i < lits.length := (List.getElem?_eq_some_iff.1 child).1
  rw [moveChild_eq lits rfl rfl (by simp [branch, firstBytes, child, first])
    (by simp [branch, firstBytes, List.eraseIdx_map]) inside front]
  rfl

theorem addChild_branch {bs : List UInt8} {weight : Nat} {lits : List (Node α)}
    {hole : Option (Node α)} {own : Option α} {ownNames : List (List UInt8)} {place : Nat}
    {c : Node α} {b : UInt8} (first : c.firstByte = b) (front : place ≤ lits.length) :
    ((((branch bs weight lits hole own ownNames).withFirstByte b).addChild blank).moveChild
      lits.length
        place c) =
      branch bs weight (lits.take place ++ c :: lits.drop place) hole own ownNames := by
  let n : Node α := mk (bs.map symbolOf) weight hole.isSome (lits.map firstByte ++ [b]) .literal
    ((lits ++ [blank]) ++ hole.toList) own ownNames
  have added : ((branch bs weight lits hole own ownNames).withFirstByte b).addChild blank = n := by
    cases hole <;>
      simp [n, branch, withFirstByte, addChild, withChildren, label, Node.weight, firstBytes, kind,
        Node.value, Node.names, hasWild, Node.children]
  have short : lits.length = (lits.map firstByte).length := (List.length_map _).symm
  have moved : (lits ++ [blank]).eraseIdx lits.length = lits := by
    rw [List.eraseIdx_append_of_length_le (Nat.le_refl _)]
    simp
  have bytes : n.firstBytes.eraseIdx lits.length = lits.map firstByte := by
    change (lits.map firstByte ++ [b]).eraseIdx lits.length = lits.map firstByte
    rw [short, List.eraseIdx_append_of_length_le (Nat.le_refl _)]
    simp
  have byte : n.firstBytes[lits.length]? = some c.firstByte := by simp [n, firstBytes, first]
  have children : n.children = (lits ++ [blank]) ++ hole.toList := rfl
  rw [added, moveChild_eq (lits ++ [blank]) children moved byte bytes (by simp) front]
  rfl

end Node

end Waymark.Routing
