import Mathlib.Data.List.Perm.Basic
import Waymark.Proofs.Routing.PathIndex.Walk

/-!
# What an insertion stores

An insertion walks down the tree until its template parts from what is there. It is refused exactly
when the template cannot stand next to a stored one; otherwise the tree stores the template and
everything that it stored before:

* `Meets`: a stored template that the new one cannot stand next to;
* `Gains`: a tree stores one template more;
* `Outcome`: what an insertion below a node may come to;
* `walk_outcome`: an insertion comes to that, from every node on;
* `insert_outcome`: the same for patterns, from the root.
-/

namespace Waymark.Routing.Node

open Template

variable {α : Type}

/-- A stored template that another one cannot stand next to. -/
def Meets (n : Node α) (ts : List Token) : Prop := ∃ us w ms, n.Stores us w ms ∧ Clash us ts

/-- The second tree stores what the first one does and one template more. -/
def Gains (n n' : Node α) (ts : List Token) (value : α) (names : List (List UInt8)) : Prop :=
  ∀ us w ms, n'.Stores us w ms ↔ n.Stores us w ms ∨ us = ts ∧ w = value ∧ ms = names

theorem meets_iff (n : Node α) (us : List Token) :
    n.Meets (n.own ++ us) ↔ (n.value.isSome ∧ us = []) ∨ ∃ c ∈ n.children, c.Meets us := by
  constructor
  · rintro ⟨ts, w, ms, stored, clash⟩
    obtain ⟨ends, -, rfl⟩ | ⟨c, child, below, rfl, inside⟩ := (stores_iff _ _ _ _).1 stored
    · have empty := (clash_append n.own [] us).1 (by rwa [List.append_nil])
      exact .inl ⟨by rw [ends]; rfl, clash_nil_left.1 empty⟩
    · exact .inr ⟨c, child, below, w, ms, inside, (clash_append _ _ _).1 clash⟩
  · rintro (⟨ends, rfl⟩ | ⟨c, child, ts, w, ms, stored, clash⟩)
    · obtain ⟨w, ends⟩ := Option.isSome_iff_exists.1 ends
      exact ⟨n.own, w, n.names, .here ends, by simp⟩
    · exact ⟨_, w, ms, .deeper child stored, (clash_append _ _ _).2 clash⟩

section
variable {n c c' : Node α} {others : List (Node α)} {ts : List Token} {value : α}
  {names : List (List UInt8)}

/-- A node gains what one of its children does. -/
theorem Gains.replace (gains : c.Gains c' ts value names) (n n' : Node α) (own : n'.own = n.own)
    (ends : n'.value = n.value) (named : n'.names = n.names) (old : n.children.Perm (c :: others))
    (new : n'.children.Perm (c' :: others)) : n.Gains n' (n.own ++ ts) value names := by
  intro us w ms
  rw [stores_iff, stores_iff n, own, ends, named]
  simp only [new.mem_iff, old.mem_iff, List.mem_cons, or_and_right, exists_or, exists_eq_left]
  constructor
  · rintro (here | ⟨below, rfl, stored⟩ | other)
    · exact .inl (.inl here)
    · obtain stored | ⟨rfl, added⟩ := (gains below w ms).1 stored
      · exact .inl (.inr (.inl ⟨below, rfl, stored⟩))
      · exact .inr ⟨rfl, added⟩
    · exact .inl (.inr (.inr other))
  · rintro ((here | ⟨below, rfl, stored⟩ | other) | ⟨rfl, added⟩)
    · exact .inl here
    · exact .inr (.inl ⟨below, rfl, (gains below w ms).2 (.inl stored)⟩)
    · exact .inr (.inr other)
    · exact .inr (.inl ⟨ts, rfl, (gains ts w ms).2 (.inr ⟨rfl, added⟩)⟩)

/-- A node gains what a new child stores. -/
theorem StoresOnly.extend (only : c.StoresOnly ts value names) (n n' : Node α)
    (own : n'.own = n.own) (ends : n'.value = n.value) (named : n'.names = n.names)
    (new : n'.children.Perm (c :: n.children)) : n.Gains n' (n.own ++ ts) value names := by
  intro us w ms
  rw [stores_iff, stores_iff n, own, ends, named]
  simp only [new.mem_iff, List.mem_cons, or_and_right, exists_or, exists_eq_left]
  constructor
  · rintro (here | ⟨below, rfl, stored⟩ | other)
    · exact .inl (.inl here)
    · obtain ⟨rfl, added⟩ := (only below w ms).1 stored
      exact .inr ⟨rfl, added⟩
    · exact .inl (.inr other)
  · rintro ((here | other) | ⟨rfl, added⟩)
    · exact .inl here
    · exact .inr (.inr other)
    · exact .inr (.inl ⟨ts, rfl, (only ts w ms).2 ⟨rfl, added⟩⟩)

/-- A node without a value gains the template that ends there. -/
theorem gains_store (ends : n.value = none) : n.Gains (n.store value names) n.own value names := by
  intro us w ms
  have own : (n.store value names).own = n.own := rfl
  have children : (n.store value names).children = n.children := rfl
  rw [stores_iff, stores_iff n, own, children, ends]
  constructor
  · rintro (⟨same, rfl, rfl⟩ | below)
    · exact .inr ⟨rfl, (Option.some.inj same).symm, rfl⟩
    · exact .inl (.inr below)
  · rintro ((⟨absent, _⟩ | below) | ⟨rfl, rfl, rfl⟩)
    · simp at absent
    · exact .inr below
    · exact .inl ⟨rfl, rfl, rfl⟩

end

/-- A tree has taken a template in. -/
structure Extends (role : Role) (depth : Nat) (n n' : Node α) (ts : List Token) (value : α)
    (names : List (List UInt8)) : Prop where
  alone : ¬ n.Meets ts
  shaped : Shaped role depth n'
  gains : n.Gains n' ts value names
  label : n'.label = n.label.take (commonLength (render depth ts) n.label)

/-- What an insertion below a node may come to. -/
def Outcome (role : Role) (depth : Nat) (n : Node α) (ts : List Token) (value : α)
    (names : List (List UInt8)) : Node α × Option InsertError → Prop
  | (n', none) => Extends role depth n n' ts value names
  | (_, some _) => n.Meets ts

/-- An outcome depends only on what is stored, and on what is left of the label. -/
theorem Outcome.of_stores {role : Role} {depth : Nat} {n m : Node α} {ts : List Token} {value : α}
    {names : List (List UInt8)} {result : Node α × Option InsertError}
    (same : ∀ us w ms, n.Stores us w ms ↔ m.Stores us w ms)
    (label : n.label.take (commonLength (render depth ts) n.label) =
      m.label.take (commonLength (render depth ts) m.label))
    (outcome : Outcome role depth n ts value names result) :
    Outcome role depth m ts value names result := by
  obtain ⟨n', _ | e⟩ := result
  · obtain ⟨alone, shaped, gains, kept⟩ := outcome
    have alone' : ¬ m.Meets ts := by simpa only [Meets, same] using alone
    have gains' : m.Gains n' ts value names := by simpa only [Gains, same] using gains
    exact ⟨alone', shaped, gains', kept.trans label⟩
  · have meets : n.Meets ts := outcome
    have meets' : m.Meets ts := by simpa only [Meets, same] using meets
    exact meets'

theorem stores_heavier (n : Node α) (us : List Token) (w : α) (ms : List (List UInt8)) :
    n.heavier.Stores us w ms ↔ n.Stores us w ms := by
  rw [stores_iff, stores_iff n]
  rfl

theorem shaped_heavier {role : Role} {depth : Nat} {n : Node α} (shaped : Shaped role depth n) :
    Shaped role depth n.heavier := by
  cases shaped with
  | branch written apart below last alive => exact .branch written apart below last alive
  | parameter ends below => exact .parameter ends below
  | wildcard => exact .wildcard

theorem meets_literal {depth : Nat} {c : Node α} (shaped : Shaped .branch depth c)
    (written : c.label ≠ []) {us : List Token} (meets : c.Meets us) :
    us.head? = some (.literal c.firstByte) := by
  obtain ⟨ts, w, ms, stored, clash⟩ := meets
  obtain ⟨more, rfl⟩ := stores_first shaped written stored
  cases us with
  | nil => exact absurd (clash_nil_right.1 clash) (by simp)
  | cons u us =>
    by_cases hole : u.isHole = true
    · have differ : (Token.literal c.firstByte).isHole ≠ u.isHole := by
        rw [hole]
        exact Bool.false_ne_true
      exact absurd clash (not_clash_of_isHole _ _ differ)
    · cases u with
      | literal a =>
        by_cases same : c.firstByte = a
        · rw [same]
          rfl
        · exact absurd clash (not_clash_literal _ _ same)
      | parameter | wildcard name => exact absurd rfl hole

theorem meets_hole {depth : Nat} {h : Node α} (shaped : Shaped .hole depth h) {us : List Token}
    (meets : h.Meets us) : ∃ u ∈ us.head?, u.isHole = true := by
  obtain ⟨ts, w, ms, stored, clash⟩ := meets
  obtain ⟨hole, more, rfl, isHole⟩ := stores_hole shaped stored
  cases us with
  | nil => exact absurd (clash_nil_right.1 clash) (by simp)
  | cons u us =>
    refine ⟨u, rfl, ?_⟩
    by_contra literal
    exact not_clash_of_isHole _ _ (by simp [isHole, literal]) clash

/-- What hangs below a branch. -/
structure Hanging (depth : Nat) (lits : List (Node α)) (hole : Option (Node α)) : Prop where
  written : ∀ c ∈ lits, c.label ≠ []
  apart : (lits.map firstByte).Nodup
  below : ∀ c ∈ lits, Shaped .branch depth c
  last : ∀ h ∈ hole, Shaped .hole depth h
  alive : ∀ h ∈ hole, ∃ ts v ns, h.Stores ts v ns

theorem hanging_nil (depth : Nat) : Hanging depth ([] : List (Node α)) none :=
  ⟨by simp, by simp, by simp, by simp, by simp⟩

theorem exists_branch {depth : Nat} {n : Node α} (shaped : Shaped .branch depth n) :
    ∃ bs weight lits hole own ownNames, n = branch bs weight lits hole own ownNames ∧
      Hanging depth lits hole := by
  cases shaped with
  | branch written apart below last alive =>
    exact ⟨_, _, _, _, _, _, rfl, ⟨written, apart, below, last, alive⟩⟩

section
variable {depth weight : Nat} {bs : List UInt8} {lits lits' others : List (Node α)}
  {hole : Option (Node α)} {own : Option α} {ownNames : List (List UInt8)}
      {us : List Token} {value : α}
  {names : List (List UInt8)} {route : Template} {fuel : Nat} {c c' h : Node α}

theorem Hanging.shaped (hanging : Hanging depth lits hole) (bs : List UInt8) (weight : Nat)
    (own : Option α) (ownNames : List (List UInt8)) :
    Shaped .branch depth (branch bs weight lits hole own ownNames) :=
  .branch hanging.written hanging.apart hanging.below hanging.last hanging.alive

theorem Hanging.replace (hanging : Hanging depth lits hole) (old : lits.Perm (c :: others))
    (new : lits'.Perm (c' :: others)) (written : c'.label ≠ []) (first : c'.firstByte = c.firstByte)
    (shaped : Shaped .branch depth c') : Hanging depth lits' hole := by
  have inOld : ∀ d ∈ others, d ∈ lits := fun d hd => old.mem_iff.2 (List.mem_cons_of_mem c hd)
  have apart := (old.map firstByte).nodup_iff.1 hanging.apart
  constructor
  · intro d hd
    obtain rfl | hd := List.mem_cons.1 (new.mem_iff.1 hd)
    · exact written
    · exact hanging.written d (inOld d hd)
  · rw [(new.map firstByte).nodup_iff, List.map_cons, first]
    exact apart
  · intro d hd
    obtain rfl | hd := List.mem_cons.1 (new.mem_iff.1 hd)
    · exact shaped
    · exact hanging.below d (inOld d hd)
  · exact hanging.last
  · exact hanging.alive

theorem Hanging.extend (hanging : Hanging depth lits hole) (new : lits'.Perm (c :: lits))
    (written : c.label ≠ []) (fresh : ∀ d ∈ lits, d.firstByte ≠ c.firstByte)
    (shaped : Shaped .branch depth c) : Hanging depth lits' hole := by
  constructor
  · intro d hd
    obtain rfl | hd := List.mem_cons.1 (new.mem_iff.1 hd)
    · exact written
    · exact hanging.written d hd
  · rw [(new.map firstByte).nodup_iff, List.map_cons, List.nodup_cons]
    exact ⟨by simpa using fresh, hanging.apart⟩
  · intro d hd
    obtain rfl | hd := List.mem_cons.1 (new.mem_iff.1 hd)
    · exact shaped
    · exact hanging.below d hd
  · exact hanging.last
  · exact hanging.alive

theorem Hanging.withHole (hanging : Hanging depth lits hole) (shaped : Shaped .hole depth h)
    (alive : ∃ ts v ns, h.Stores ts v ns) : Hanging depth lits (some h) :=
  ⟨hanging.written, hanging.apart, hanging.below, by simpa using shaped, by simpa using alive⟩

theorem Hanging.meets_child (hanging : Hanging depth lits hole) (child : c ∈ lits)
    (meets : c.Meets us) : us.head? = some (.literal c.firstByte) :=
  meets_literal (hanging.below c child) (hanging.written c child) meets

theorem Hanging.meets_last (hanging : Hanging depth lits hole) (child : h ∈ hole)
    (meets : h.Meets us) : ∃ u ∈ us.head?, u.isHole = true :=
  meets_hole (hanging.last h child) meets

theorem meets_branch :
    (branch bs weight lits hole own ownNames).Meets (literals bs ++ us) ↔
      (own.isSome ∧ us = []) ∨ ∃ c, (c ∈ lits ∨ c ∈ hole) ∧ c.Meets us := by
  have spelled := own_branch bs weight lits hole own ownNames
  rw [← spelled, meets_iff]
  simp [branch, Node.value, Node.children]

/-- The label of a branch that was passed stays. -/
theorem label_passed : (branch bs weight lits hole own ownNames).label.take
    (commonLength (render depth (literals bs ++ us))
      (branch bs weight lits hole own ownNames).label) = bs.map symbolOf := by
  have passed : (branch bs weight lits hole own ownNames).label = bs.map symbolOf := rfl
  rw [passed, render_literals, commonLength_label, List.take_length]

/-- An insertion that ends at a branch. -/
theorem outcome_ends (hanging : Hanging depth lits hole) :
    Outcome .branch depth (branch bs weight lits hole own ownNames) (literals bs ++ []) value names
      (walk route value names (fuel + 1) (branch bs weight lits hole own ownNames)
        (bs.map symbolOf)) := by
  have label : (branch bs weight lits hole own ownNames).label = bs.map symbolOf := rfl
  have ends := walk_ends route value names fuel (branch bs weight lits hole own ownNames)
  rw [label] at ends
  rw [ends]
  cases own with
  | some v => exact meets_branch.2 (.inl ⟨rfl, rfl⟩)
  | none =>
    have gains : (branch bs weight lits hole none ownNames).Gains _ _ value names := gains_store rfl
    rw [own_branch, ← List.append_nil (literals bs)] at gains
    refine ⟨?_, hanging.shaped bs weight (some value) names, gains, label_passed.symm⟩
    intro meets
    obtain ⟨absent, _⟩ | ⟨c, child | child, meets⟩ := meets_branch.1 meets
    · simp at absent
    · simpa using hanging.meets_child child meets
    · simpa using hanging.meets_last child meets

theorem gains_literal (gains : c.Gains c' us value names) (old : lits.Perm (c :: others))
    (new : lits'.Perm (c' :: others)) :
    (branch bs weight lits hole own ownNames).Gains (branch bs weight lits' hole own ownNames)
      (literals bs ++ us) value names := by
  have spelled (ls : List (Node α)) := own_branch bs weight ls hole own ownNames
  have replaced := gains.replace (branch bs weight lits hole own ownNames)
    (branch bs weight lits' hole own ownNames) (by rw [spelled, spelled]) rfl rfl
    (old.append_right hole.toList) (new.append_right hole.toList)
  rwa [spelled] at replaced

theorem gains_fresh (only : c.StoresOnly us value names) (new : lits'.Perm (c :: lits)) :
    (branch bs weight lits hole own ownNames).Gains (branch bs weight lits' hole own ownNames)
      (literals bs ++ us) value names := by
  have spelled (ls : List (Node α)) := own_branch bs weight ls hole own ownNames
  have extended := only.extend (branch bs weight lits hole own ownNames)
    (branch bs weight lits' hole own ownNames) (by rw [spelled, spelled]) rfl rfl
    (new.append_right hole.toList)
  rwa [spelled] at extended

theorem placeOf_le (n : Node α) (i : Nat) (c : Node α) : n.placeOf i c ≤ i := Nat.sub_le _ _

theorem perm_insertion (c : Node α) (place : Nat) (others : List (Node α)) :
    (others.take place ++ c :: others.drop place).Perm (c :: others) := by
  have middle : (others.take place ++ c :: others.drop place).Perm
      (c :: (others.take place ++ others.drop place)) := List.perm_middle
  rwa [List.take_append_drop] at middle

/-- What is left of a label keeps its first byte when the template goes on with it. -/
theorem label_kept {b : UInt8} (shaped : Shaped .branch depth c) (written : c.label ≠ [])
    (first : c.firstByte = b) {t : Template}
    (label : c'.label = c.label.take (commonLength (symbolOf b :: t) c.label)) :
    c'.label ≠ [] ∧ c'.firstByte = c.firstByte := by
  obtain ⟨bs, weight, lits, hole, own, ownNames, rfl, -⟩ := exists_branch shaped
  cases bs with
  | nil => exact absurd rfl written
  | cons b' bs =>
    obtain rfl : b' = b := first
    have spelled : (branch (b' :: bs) weight lits hole own ownNames).label =
      symbolOf b' :: bs.map symbolOf := rfl
    rw [spelled, commonLength, if_pos rfl, List.take_succ_cons] at label
    refine ⟨by simp [label], ?_⟩
    rw [firstByte, label]
    rfl

/-- An insertion that goes on through a literal child. -/
theorem outcome_literal (hanging : Hanging depth lits hole) {b : UInt8} {i : Nat}
    (found : lits.findIdx? (fun c => c.firstByte == b) = some i) (child : lits[i]? = some c)
    (outcome : Outcome .branch depth c (.literal b :: us) value names
      (walk route value names fuel c.heavier (render depth (.literal b :: us)))) :
    Outcome .branch depth (branch bs weight lits hole own ownNames) (literals bs
      ++ .literal b :: us)
      value names (walk route value names (fuel + 1) (branch bs weight lits hole own ownNames)
        (bs.map symbolOf ++ render depth (.literal b :: us))) := by
  have mem : c ∈ lits := List.mem_of_getElem? child
  have first : c.firstByte = b := by
    obtain ⟨inside, same, -⟩ := List.findIdx?_eq_some_iff_getElem.1 found
    rw [List.getElem?_eq_getElem inside, Option.some.injEq] at child
    simpa [child] using same
  rw [render] at outcome ⊢
  rw [walk_literal _ _ _ _ _ _ _ _ _ _ found child]
  generalize walk route value names fuel c.heavier (symbolOf b :: render depth us) =
    result at outcome ⊢
  obtain ⟨c', _ | e⟩ := result
  · obtain ⟨alone, shaped, gains, label⟩ := outcome
    obtain ⟨written, kept⟩ := label_kept (hanging.below c mem) (hanging.written c mem) first label
    have old : lits.Perm (c :: lits.eraseIdx i) := by
      obtain ⟨inside, rfl⟩ := List.getElem?_eq_some_iff.1 child
      exact (List.getElem_cons_eraseIdx_perm inside).symm
    have new := perm_insertion c' ((branch bs weight lits hole own ownNames).placeOf i c.heavier)
      (lits.eraseIdx i)
    rw [moveChild_branch child kept (placeOf_le _ _ _)]
    refine ⟨?_, (hanging.replace old new written kept shaped).shaped _ _ _ _,
      gains_literal gains old new, label_passed.symm⟩
    intro meets
    obtain ⟨_, absent⟩ | ⟨d, other | other, meets⟩ := meets_branch.1 meets
    · simp at absent
    · have same : b = d.firstByte := by simpa using hanging.meets_child other meets
      obtain rfl : c = d :=
        List.inj_on_of_nodup_map hanging.apart mem other (first.trans same)
      exact alone meets
    · simpa [Token.isHole] using hanging.meets_last other meets
  · exact meets_branch.2 (.inr ⟨c, .inl mem, outcome⟩)

/-- An insertion for which a literal child is made. -/
theorem outcome_fresh (hanging : Hanging depth lits hole) {b : UInt8}
    (regular : Regular depth (.literal b :: us)) (absent : ∀ c ∈ lits, c.firstByte ≠ b) :
    Outcome .branch depth (branch bs weight lits hole own ownNames) (literals bs
      ++ .literal b :: us)
      value names (walk route value names (fuel + 1) (branch bs weight lits hole own ownNames)
        (bs.map symbolOf ++ render depth (.literal b :: us))) := by
  obtain ⟨cs, vs, rfl, hole'⟩ := exists_literals us
  have spelled : Token.literal b :: (literals cs ++ vs) = literals (b :: cs) ++ vs := rfl
  have written : render depth (.literal b :: (literals cs ++ vs)) =
    symbolOf b :: render depth (literals cs ++ vs) := rfl
  have behind : Regular depth vs := Regular.of_literals (by rwa [spelled] at regular)
  have enough : (render depth (literals (b :: cs) ++ vs)).length <
      (render depth (literals cs ++ vs)).length + 2 := by
    rw [← spelled, written, List.length_cons]
    omega
  obtain ⟨child, own', ownNames', grown, shaped, only⟩ :=
    grow_blank (growsHole value names _) behind hole' enough 1
  rw [← spelled, written] at grown
  rw [written, walk_fresh _ _ _ _ _ _ _ _ _ _ absent, grown]
  have new := perm_insertion (branch (b :: cs) 1 [] child own' ownNames')
    (((branch bs weight lits hole own ownNames).withFirstByte b).placeOf lits.length
      (branch [] 1 [] none none [])) lits
  simp only [Option.map_none]
  rw [addChild_branch (b := b) rfl (placeOf_le _ _ _)]
  refine ⟨?_, (hanging.extend new (by simp [branch, label]) absent shaped).shaped _ _ _ _,
    gains_fresh only new, label_passed.symm⟩
  intro meets
  obtain ⟨_, empty⟩ | ⟨d, other | other, meets⟩ := meets_branch.1 meets
  · simp at empty
  · have same : b = d.firstByte := by simpa using hanging.meets_child other meets
    exact absent d other same.symm
  · simpa [Token.isHole] using hanging.meets_last other meets

theorem gains_hole {h h' : Node α} (gains : h.Gains h' us value names) :
    (branch bs weight lits (some h) own ownNames).Gains
      (branch bs weight lits (some h') own ownNames) (literals bs ++ us) value names := by
  have spelled (g : Node α) := own_branch bs weight lits (some g) own ownNames
  have last (g : Node α) : (lits ++ [g]).Perm (g :: lits) := List.perm_append_comm
  have replaced := gains.replace (branch bs weight lits (some h) own ownNames)
    (branch bs weight lits (some h') own ownNames) (by rw [spelled, spelled]) rfl rfl (last h)
    (last h')
  rwa [spelled] at replaced

theorem Gains.alive {n n' : Node α} {ts : List Token} (gains : n.Gains n' ts value names) :
    ∃ us v ns, n'.Stores us v ns := ⟨ts, value, names, (gains _ _ _).2 (.inr ⟨rfl, rfl, rfl⟩)⟩

/-- An insertion that goes on behind a parameter. -/
theorem outcome_behind {weight' : Nat} {suffixed : Bool} {next : Option (Node α)} {v : Option α}
    {ns : List (List UInt8)}
    (hanging : Hanging depth lits (some (parameterNode depth weight' suffixed next v ns)))
    (outcome : Outcome .hole depth (parameterNode depth weight' suffixed next v ns)
      (.parameter :: us)
      value names (walk route value names fuel
        (parameterNode depth (weight' + 1) suffixed next v ns) (render depth (.parameter :: us)))) :
    Outcome .branch depth
      (branch bs weight lits (some (parameterNode depth weight' suffixed next v ns)) own ownNames)
      (literals bs ++ .parameter :: us) value names
      (walk route value names (fuel + 1)
        (branch bs weight lits (some (parameterNode depth weight' suffixed next v ns)) own ownNames)
        (bs.map symbolOf ++ render depth (.parameter :: us))) := by
  rw [render] at outcome ⊢
  rw [walk_parameterNode]
  simp only
  generalize walk route value names fuel (parameterNode depth (weight' + 1) suffixed next v ns)
    (lettered (letterAt depth) ++ render (depth + 1) us) = result at outcome ⊢
  obtain ⟨h', _ | e⟩ := result
  · obtain ⟨alone, shaped, gains, -⟩ := outcome
    refine ⟨?_, (hanging.withHole shaped gains.alive).shaped _ _ _ _, gains_hole gains,
      label_passed.symm⟩
    intro meets
    obtain ⟨_, empty⟩ | ⟨d, other | other, meets⟩ := meets_branch.1 meets
    · simp at empty
    · simpa using hanging.meets_child other meets
    · obtain rfl : parameterNode depth weight' suffixed next v ns = d := by simpa using other
      exact alone meets
  · exact meets_branch.2 (.inr ⟨_, .inr rfl, outcome⟩)

/-- An insertion for which a placeholder child is made. -/
theorem outcome_newHole (hanging : Hanging depth lits none) (regular : Regular depth us)
    (startsWithHole : StartsWithHole us) (written : us ≠ []) :
    Outcome .branch depth (branch bs weight lits none own ownNames) (literals bs ++ us) value names
      (walk route value names (fuel + 1) (branch bs weight lits none own ownNames)
        (bs.map symbolOf ++ render depth us)) := by
  obtain ⟨more, spelled⟩ := render_hole depth startsWithHole written
  obtain ⟨h, grown, shaped, only⟩ := growsHole value names (more.length + 2) regular startsWithHole
    written (by rw [spelled, List.length_cons]; omega) bs [] weight lits own ownNames
  rw [List.map_nil, List.nil_append, relabelled_nil_right, spelled] at grown
  rw [spelled, walk_newHole, grown]
  have gains : (branch bs weight lits none own ownNames).Gains
      (branch bs weight lits (some h) own ownNames) (literals bs ++ us) value names := by
    have own_eq (g : Option (Node α)) := own_branch bs weight lits g own ownNames
    have new : (lits ++ [h]).Perm (h :: (lits ++ [])) := by
      rw [List.append_nil]
      exact List.perm_append_comm
    have extended := only.extend (branch bs weight lits none own ownNames)
      (branch bs weight lits (some h) own ownNames) (by rw [own_eq, own_eq]) rfl rfl new
    rwa [own_eq] at extended
  have alive : ∃ ts v ns, h.Stores ts v ns := ⟨us, value, names, (only _ _ _).2 ⟨rfl, rfl, rfl⟩⟩
  refine ⟨?_, (hanging.withHole shaped alive).shaped _ _ _ _, gains, label_passed.symm⟩
  intro meets
  obtain ⟨_, empty⟩ | ⟨d, other | other, meets⟩ := meets_branch.1 meets
  · exact written empty
  · have literal := startsWithHole _ (hanging.meets_child other meets)
    exact absurd literal Bool.false_ne_true
  · simp at other

/-- Where a wildcard stands, an insertion of a placeholder is refused. -/
theorem outcome_besideWildcard {name : List UInt8} {weight' : Nat} {v : α} {ns : List (List UInt8)}
    (regular : Regular depth us) (startsWithHole : StartsWithHole us) (written : us ≠ []) :
    Outcome .branch depth
      (branch bs weight lits (some (wildcardNode name weight' v ns)) own ownNames)
      (literals bs ++ us) value names
      (walk route value names (fuel + 1)
        (branch bs weight lits (some (wildcardNode name weight' v ns)) own ownNames)
        (bs.map symbolOf ++ render depth us)) := by
  have stored : (wildcardNode name weight' v ns).Stores [.wildcard name] v ns :=
    (stores_wildcardNode _ _ _ _).2 ⟨rfl, rfl, rfl⟩
  have clash : Clash [.wildcard name] us := by
    obtain ⟨u, us, rfl⟩ := List.exists_cons_of_ne_nil written
    by_cases same : Token.wildcard name = u
    · subst same
      cases regular with
      | wildcard => exact clash_self _
    · exact clash_holes rfl (startsWithHole u rfl) same _ _
  obtain ⟨more, spelled⟩ := render_hole depth startsWithHole written
  obtain ⟨e, refused⟩ :=
    walk_wildcardNode route value names fuel bs weight lits own ownNames name weight' v ns more
  rw [spelled, refused]
  exact meets_branch.2 (.inr ⟨_, .inr rfl, _, _, _, stored, clash⟩)

/-- Where a parameter stands, an insertion of a wildcard is refused. -/
theorem outcome_besideParameter {name : List UInt8} {weight' : Nat} {suffixed : Bool}
    {next : Option (Node α)} {v : Option α} {ns : List (List UInt8)}
    (hanging : Hanging depth lits (some (parameterNode depth weight' suffixed next v ns)))
    (named : IsPlaceholderName name) :
    Outcome .branch depth
      (branch bs weight lits (some (parameterNode depth weight' suffixed next v ns)) own ownNames)
      (literals bs ++ [.wildcard name]) value names
      (walk route value names (fuel + 1)
        (branch bs weight lits (some (parameterNode depth weight' suffixed next v ns)) own ownNames)
        (bs.map symbolOf ++ render depth [.wildcard name])) := by
  obtain ⟨ts, w, ms, stored⟩ := hanging.alive _ rfl
  have clash : Clash ts [.wildcard name] := by
    obtain ⟨_, _, rfl⟩ | ⟨_, _, below, rfl, _⟩ := (stores_parameterNode _ _ _ _ _ _).1 stored
    · exact clash_holes rfl rfl (by simp) _ _
    · exact clash_holes rfl rfl (by simp) _ _
  obtain ⟨e, refused⟩ := walk_parameterNode_wildcard route value names fuel bs weight lits own
    ownNames depth weight' suffixed next v ns named
  rw [render, render, List.append_nil, refused]
  exact meets_branch.2 (.inr ⟨_, .inr rfl, _, _, _, stored, clash⟩)

/-- An insertion at a branch whose label its template goes through. -/
theorem outcome_branch (hanging : Hanging depth lits hole) (regular : Regular depth us)
    (literal : ∀ c ∈ lits, us.head? = some (.literal c.firstByte) →
      Outcome .branch depth c us value names
        (walk route value names fuel c.heavier (render depth us)))
    (parameter : ∀ h ∈ hole, us.head? = some .parameter → h.kind ≠ .wildcard →
      Outcome .hole depth h us value names
        (walk route value names fuel h.heavier (render depth us))) :
    Outcome .branch depth (branch bs weight lits hole own ownNames) (literals bs ++ us) value names
      (walk route value names (fuel + 1) (branch bs weight lits hole own ownNames)
        (bs.map symbolOf ++ render depth us)) := by
  cases us with
  | nil =>
    have ends : Outcome .branch depth (branch bs weight lits hole own ownNames) _ value names
      (walk route value names (fuel + 1) _ _) := outcome_ends hanging
    rwa [← List.append_nil (bs.map symbolOf)] at ends
  | cons u us =>
    by_cases isHole : u.isHole = true
    · have startsWithHole : StartsWithHole (u :: us) := by simpa [StartsWithHole] using isHole
      cases hole with
      | none => exact outcome_newHole hanging regular startsWithHole (by simp)
      | some h =>
        cases hanging.last h rfl with
        | wildcard => exact outcome_besideWildcard regular startsWithHole (by simp)
        | parameter =>
          cases u with
          | literal b => exact absurd isHole Bool.false_ne_true
          | parameter =>
            exact outcome_behind hanging (parameter _ rfl rfl (by simp [parameterNode, kind]))
          | wildcard name =>
            cases regular with
            | wildcard named => exact outcome_besideParameter hanging named
    · obtain ⟨b, rfl⟩ : ∃ b, u = .literal b := by
        cases u with
        | literal b => exact ⟨b, rfl⟩
        | parameter | wildcard name => exact absurd rfl isHole
      cases found : lits.findIdx? (fun c => c.firstByte == b) with
      | none =>
        have absent : ∀ c ∈ lits, c.firstByte ≠ b := by
          simpa [List.findIdx?_eq_none_iff] using found
        exact outcome_fresh hanging regular absent
      | some i =>
        obtain ⟨inside, same, -⟩ := List.findIdx?_eq_some_iff_getElem.1 found
        have first : lits[i].firstByte = b := by simpa using same
        have child : lits[i]? = some lits[i] := List.getElem?_eq_getElem inside
        exact outcome_literal hanging found child
          (literal lits[i] (List.getElem_mem inside) (by rw [first]; rfl))

theorem label_parameterNode {weight : Nat} {suffixed : Bool} {next : Option (Node α)} {v : Option α}
    {ns : List (List UInt8)} : (parameterNode depth weight suffixed next v ns).label.take
      (commonLength (render depth (.parameter :: us))
        (parameterNode depth weight suffixed next v ns).label) = lettered (letterAt depth) := by
  have passed : (parameterNode depth weight suffixed next v ns).label = lettered (letterAt depth) :=
    rfl
  rw [passed, render, commonLength_label, List.take_length]

theorem meets_parameterNode {weight : Nat} {suffixed : Bool} {next : Option (Node α)} {v : Option α}
    {ns : List (List UInt8)} :
    (parameterNode depth weight suffixed next v ns).Meets (.parameter :: us) ↔
      (v.isSome ∧ us = []) ∨ ∃ c ∈ next, c.Meets us := by
  have spelled := own_parameterNode depth weight suffixed next v ns
  have iff := meets_iff (parameterNode depth weight suffixed next v ns) us
  rw [spelled] at iff
  simpa [parameterNode, Node.value, Node.children] using iff

/-- An insertion that ends with a parameter. -/
theorem outcome_parameter_ends {weight : Nat} {suffixed : Bool} {next : Option (Node α)}
    {v : Option α} {ns : List (List UInt8)} (ends : ∀ c ∈ next, c.label = [plain slash])
    (below : ∀ c ∈ next, Shaped .branch (depth + 1) c) :
    Outcome .hole depth (parameterNode depth weight suffixed next v ns) [.parameter] value names
      (walk route value names (fuel + 1) (parameterNode depth weight suffixed next v ns)
        (render depth [.parameter])) := by
  have label : (parameterNode depth weight suffixed next v ns).label = lettered (letterAt depth) :=
    rfl
  have last := walk_ends route value names fuel (parameterNode depth weight suffixed next v ns)
  rw [label] at last
  rw [render, render, List.append_nil, last]
  cases v with
  | some w => exact meets_parameterNode.2 (.inl ⟨rfl, rfl⟩)
  | none =>
    have gains : (parameterNode depth weight suffixed next none ns).Gains _ _ value names :=
      gains_store rfl
    refine ⟨?_, .parameter ends below, gains, label_parameterNode.symm⟩
    intro meets
    obtain ⟨absent, _⟩ | ⟨c, child, meets⟩ := meets_parameterNode.1 meets
    · simp at absent
    · have written : c.label ≠ [] := by simp [ends c child]
      simpa using meets_literal (below c child) written meets

/-- An insertion that goes on at the node behind a parameter. -/
theorem outcome_component {weight : Nat} {suffixed : Bool} {v : Option α} {ns : List (List UInt8)}
    (ends : c.label = [plain slash])
    (outcome : Outcome .branch (depth + 1) c (.literal slash :: us) value names
      (walk route value names fuel c.heavier (render (depth + 1) (.literal slash :: us)))) :
    Outcome .hole depth (parameterNode depth weight suffixed (some c) v ns)
      (.parameter :: .literal slash :: us) value names
      (walk route value names (fuel + 1) (parameterNode depth weight suffixed (some c) v ns)
        (render depth (.parameter :: .literal slash :: us))) := by
  rw [render] at outcome
  rw [render, render, walk_behind _ _ _ _ _ _ _ _ _ ends]
  generalize walk route value names fuel c.heavier (symbolOf slash :: render (depth + 1) us) =
    result
    at outcome ⊢
  obtain ⟨c', _ | e⟩ := result
  · obtain ⟨alone, shaped, gains, label⟩ := outcome
    have kept : c'.label = [plain slash] := by
      rw [label, ends, render, commonLength, if_pos symbolOf_slash, commonLength_nil]
      rfl
    have gains' : (parameterNode depth weight suffixed (some c) v ns).Gains
        (parameterNode depth weight suffixed (some c') v ns)
          (.parameter :: .literal slash :: us) value
        names := by
      have perm (d : Node α) : [d].Perm (d :: []) := List.Perm.refl _
      exact gains.replace _ _ rfl rfl rfl (perm c) (perm c')
    refine ⟨?_, .parameter (by simpa using kept) (by simpa using shaped), gains',
      label_parameterNode.symm⟩
    intro meets
    obtain ⟨_, empty⟩ | ⟨d, child, meets⟩ := meets_parameterNode.1 meets
    · simp at empty
    · obtain rfl : c = d := by simpa using child
      exact alone meets
  · exact meets_parameterNode.2 (.inr ⟨c, rfl, outcome⟩)

variable (value names route fuel) in
/-- A branch with nothing but the slash of a component, before its template goes on. -/
theorem extends_slash (regular : Regular depth us) :
    ∃ c, walk route value names (fuel + 1) (branch [slash] 1 [] none none [])
        (symbolOf slash :: render depth us) = (c, none) ∧ c.label = [plain slash] ∧
      Shaped .branch depth c ∧ c.StoresOnly (.literal slash :: us) value names := by
  have empty : ∀ ts w ms, ¬ (branch [slash] 1 [] none none [] : Node α).Stores ts w ms := by
    intro ts w ms
    rw [stores_branch]
    simp
  have outcome : Outcome .branch depth (branch [slash] 1 [] none none []) (literals [slash]
      ++ us) value
      names (walk route value names (fuel + 1) (branch [slash] 1 [] none none [])
        ([slash].map symbolOf ++ render depth us)) :=
    outcome_branch (hanging_nil depth) regular (by simp) (by simp)
  have spelled : [slash].map symbolOf ++ render depth us = symbolOf slash :: render depth us := rfl
  rw [spelled] at outcome
  generalize walk route value names (fuel + 1) (branch [slash] 1 [] none none [])
    (symbolOf slash :: render depth us) = result at outcome ⊢
  obtain ⟨c, _ | e⟩ := result
  · obtain ⟨-, shaped, gains, label⟩ := outcome
    refine ⟨c, rfl, label.trans label_passed, shaped, ?_⟩
    intro ts w ms
    rw [gains ts w ms, or_iff_right (empty ts w ms)]
    rfl
  · obtain ⟨ts, w, ms, stored, -⟩ := outcome
    exact absurd stored (empty ts w ms)

/-- An insertion for which the node behind a parameter is made. -/
theorem outcome_newComponent {weight : Nat} {suffixed : Bool} {v : Option α}
    {ns : List (List UInt8)} (regular : Regular (depth + 1) us) :
    Outcome .hole depth (parameterNode depth weight suffixed none v ns)
      (.parameter :: .literal slash :: us) value names
      (walk route value names (fuel + 2) (parameterNode depth weight suffixed none v ns)
        (render depth (.parameter :: .literal slash :: us))) := by
  obtain ⟨c, next, ends, shaped, only⟩ := extends_slash value names route fuel regular
  rw [render, render, walk_behind_new, next]
  have gains : (parameterNode depth weight suffixed none v ns).Gains
      (parameterNode depth weight true (some c) v ns) (.parameter :: .literal slash :: us)
        value names :=
    only.extend _ _ rfl rfl rfl (List.Perm.refl _)
  refine ⟨?_, .parameter (by simpa using ends) (by simpa using shaped), gains,
    label_parameterNode.symm⟩
  intro meets
  obtain ⟨_, absent⟩ | ⟨d, child, _⟩ := meets_parameterNode.1 meets
  · simp at absent
  · simp at child

end

theorem size_le_of_mem {c : Node α} {cs : List (Node α)} (child : c ∈ cs) :
    c.size ≤ sizeOfAll cs := by
  induction cs with
  | nil => simp at child
  | cons d cs ih =>
    rw [sizeOfAll]
    obtain rfl | child := List.mem_cons.1 child
    · exact Nat.le_add_right _ _
    · exact Nat.le_trans (ih child) (Nat.le_add_left _ _)

theorem size_lt_of_child {n c : Node α} (child : c ∈ n.children) : c.size < n.size := by
  cases n with
  | mk label weight hasWild firstBytes kind cs value names =>
    have small : c.size ≤ sizeOfAll cs := size_le_of_mem child
    rw [size]
    omega

theorem one_le_size (n : Node α) : 1 ≤ n.size := by
  cases n
  rw [size]
  omega

theorem splitAt_branch (common : List UInt8) (b : UInt8) (lower : List UInt8) (weight : Nat)
    (lits : List (Node α)) (hole : Option (Node α)) (own : Option α)
    (ownNames : List (List UInt8)) :
    (branch (common ++ b :: lower) weight lits hole own ownNames).splitAt common.length =
      branch common weight [branch (b :: lower) (weight - 1) lits hole own ownNames]
        none none [] := by
  have label : (branch (common ++ b :: lower) weight lits hole own ownNames).label =
      common.map symbolOf ++ (b :: lower).map symbolOf := List.map_append
  rw [splitAt, label, List.take_left' (List.length_map _), List.drop_left' (List.length_map _)]
  rfl

/-- A split label stores what it stored in one piece. -/
theorem stores_split (common : List UInt8) (b : UInt8) (lower : List UInt8) (weight weight' : Nat)
    (lits : List (Node α)) (hole : Option (Node α)) (own : Option α) (ownNames : List (List UInt8))
    (us : List Token) (w : α) (ms : List (List UInt8)) :
    (branch common weight [branch (b :: lower) weight' lits hole own ownNames] none none []).Stores
        us w ms ↔
      (branch (common ++ b :: lower) weight lits hole own ownNames).Stores us w ms := by
  rw [stores_branch, stores_branch]
  constructor
  · rintro (⟨absent, _⟩ | ⟨c, child, below, rfl, stored⟩)
    · simp at absent
    · obtain rfl : c = branch (b :: lower) weight' lits hole own ownNames := by simpa using child
      obtain ⟨ends, named, rfl⟩ | ⟨d, child, below, rfl, inside⟩ :=
        (stores_branch _ _ _ _ _ _).1 stored
      · exact .inl ⟨ends, named, by simp⟩
      · exact .inr ⟨d, child, below, by simp, inside⟩
  · have first : branch (b :: lower) weight' lits hole own ownNames ∈
        [branch (b :: lower) weight' lits hole own ownNames] := List.mem_singleton_self _
    rintro (⟨ends, named, rfl⟩ | ⟨d, child, below, rfl, stored⟩)
    · refine .inr ⟨_, .inl first, literals (b :: lower), by simp, ?_⟩
      exact (stores_branch _ _ _ _ _ _).2 (.inl ⟨ends, named, rfl⟩)
    · refine .inr ⟨_, .inl first, literals (b :: lower) ++ below, by simp, ?_⟩
      exact (stores_branch _ _ _ _ _ _).2 (.inr ⟨d, child, below, rfl, stored⟩)

/-- An insertion that splits a label. -/
theorem outcome_split {depth weight : Nat} {common : List UInt8} {b : UInt8} {lower : List UInt8}
    {lits : List (Node α)} {hole : Option (Node α)} {own : Option α} {ownNames : List (List UInt8)}
    {us : List Token} {route : Template} {value : α} {names : List (List UInt8)} {fuel : Nat}
    (hanging : Hanging depth lits hole) (regular : Regular depth us)
    (parts : ∀ c ∈ (b :: lower).head?, us.head? ≠ some (.literal c)) :
    Outcome .branch depth (branch (common ++ b :: lower) weight lits hole own ownNames)
      (literals common ++ us) value names
      (walk route value names (fuel + 2)
        (branch (common ++ b :: lower) weight lits hole own ownNames)
        (render depth (literals common ++ us))) := by
  let lowerNode := branch (b :: lower) (weight - 1) lits hole own ownNames
  have label : (branch (common ++ b :: lower) weight lits hole own ownNames).label =
    (common ++ b :: lower).map symbolOf := rfl
  have length := commonLength_render depth common parts
  have short : commonLength (render depth (literals common ++ us))
      (branch (common ++ b :: lower) weight lits hole own ownNames).label <
        (branch (common ++ b :: lower) weight lits hole own ownNames).label.length := by
    rw [label, length]
    simp
  have split : Hanging depth [lowerNode] none := by
    refine ⟨?_, by simp, by simpa using hanging.shaped _ _ _ _, by simp, by simp⟩
    simp [lowerNode, branch, Node.label]
  have apart : ∀ c ∈ [lowerNode], us.head? = some (.literal c.firstByte) →
      Outcome .branch depth c us value names
        (walk route value names fuel c.heavier (render depth us)) := by
    intro c child goesOn
    obtain rfl := List.mem_singleton.1 child
    exact absurd goesOn (parts b rfl)
  have outcome : Outcome .branch depth (branch common weight [lowerNode] none none [])
      (literals common ++ us)
      value names (walk route value names (fuel + 1) (branch common weight [lowerNode] none none [])
        (common.map symbolOf ++ render depth us)) :=
    outcome_branch split regular apart (by simp)
  rw [walk_split _ _ _ _ short, label, length, splitAt_branch, render_literals]
  refine outcome.of_stores (stores_split common b lower weight _ lits hole own ownNames) ?_
  rw [label_passed, label, length, List.map_append, List.take_left' (List.length_map _)]

/-- An insertion from a node on comes to what it should. At a placeholder child, templates arrive
with the placeholder still ahead. -/
theorem walk_outcome (route : Template) (value : α) (names : List (List UInt8)) (fuel : Nat) :
    ∀ {role : Role} {depth : Nat} {n : Node α}, Shaped role depth n → ∀ {ts : List Token},
      Regular depth ts → (role = .hole → ts.head? = some .parameter ∧ n.kind ≠ .wildcard) →
      n.size < fuel →
      Outcome role depth n ts value names (walk route value names fuel n (render depth ts)) := by
  induction fuel with
  | zero =>
    intro role depth n _ ts _ _ enough
    exact absurd enough (Nat.not_lt_zero _)
  | succ fuel ih =>
    intro role depth n shaped ts regular enters enough
    have again {role : Role} {depth : Nat} {c : Node α} (child : c ∈ n.children)
        (shaped : Shaped role depth c) {us : List Token} (regular : Regular depth us)
        (enters : role = .hole → us.head? = some .parameter ∧ c.kind ≠ .wildcard) :
        Outcome role depth c us value names
          (walk route value names fuel c.heavier (render depth us)) := by
      have small : c.heavier.size < fuel := by
        have same : c.heavier.size = c.size := by
          cases c
          rfl
        have smaller := size_lt_of_child child
        omega
      exact .of_stores (stores_heavier c) rfl (ih (shaped_heavier shaped) regular enters small)
    cases shaped with
    | @branch _ weight bs lits hole own ownNames written apart below last alive =>
      have hanging : Hanging depth lits hole := ⟨written, apart, below, last, alive⟩
      obtain ⟨common, rest, us, rfl, rfl, parts⟩ := exists_common bs ts
      have regularU : Regular depth us := regular.of_literals
      cases rest with
      | nil =>
        rw [List.append_nil] at *
        rw [render_literals]
        refine outcome_branch hanging regularU ?_ ?_
        · intro c child _
          exact again (List.mem_append_left _ child) (below c child) regularU (by simp)
        · intro h child parameter kind
          exact again (List.mem_append_right _ (by simpa using child)) (last h child) regularU
            (fun _ => ⟨parameter, kind⟩)
      | cons b lower =>
        obtain ⟨fuel, rfl⟩ := Nat.exists_eq_add_one.2
          (Nat.lt_of_lt_of_le (one_le_size _) (Nat.le_of_lt_succ enough))
        exact outcome_split hanging regularU parts
    | wildcard => exact absurd rfl (enters rfl).2
    | @parameter _ weight suffixed next v ns ends below =>
      obtain ⟨us, rfl⟩ := List.head?_eq_some_iff.1 (enters rfl).1
      cases regular with
      | parameter _ => exact outcome_parameter_ends ends below
      | component _ more =>
        cases next with
        | none =>
          obtain ⟨fuel, rfl⟩ := Nat.exists_eq_add_one.2
            (Nat.lt_of_lt_of_le (one_le_size _) (Nat.le_of_lt_succ enough))
          exact outcome_newComponent more
        | some c =>
          exact outcome_component (ends c rfl)
            (again (by simp [parameterNode,
              children]) (below c rfl) (.literal slash more) (by simp))

/-- A tree of templates that begin with a slash. -/
def Rooted (n : Node α) : Prop :=
  Shaped .branch 0 n ∧ (n = blank ∨ n.label.head? = some (plain slash))

theorem rooted_blank : Rooted (blank : Node α) := ⟨(hanging_nil 0).shaped [] 0 none [], .inl rfl⟩

theorem not_stores_blank (ts : List Token) (w : α) (ms : List (List UInt8)) :
    ¬ (blank : Node α).Stores ts w ms := by
  rw [stores_iff]
  simp [blank, Node.value, children]

/-- What comes of the insertion of a pattern. -/
def InsertOutcome (n : Node α) (ts : List Token) (value : α) (names : List (List UInt8)) :
    Node α × Option InsertError → Prop
  | (n', none) => ¬ n.Meets ts ∧ Rooted n' ∧ n.Gains n' ts value names
  | (_, some _) => n.Meets ts

theorem insert_outcome {n : Node α} (rooted : Rooted n) {pattern : String} {ts : List Token}
    {names : List (List UInt8)}
    (normal : normalize (ofPattern pattern) = .ok (render 0 ts, names)) (regular : Regular 0 ts)
    (starts : ts.head? = some (.literal slash)) (value : α) :
    InsertOutcome n ts value names (n.insert pattern value) := by
  obtain ⟨ts, rfl⟩ := List.head?_eq_some_iff.1 starts
  rw [insert, normal]
  obtain ⟨shaped, rfl | head⟩ := rooted
  · obtain ⟨bs, us, rfl, hole⟩ := exists_literals ts
    have spelled : Token.literal slash :: (literals bs ++ us) = literals (slash :: bs) ++ us := rfl
    rw [spelled] at regular ⊢
    obtain ⟨child, own, ownNames, grown, shaped', only⟩ :=
      grow_blank (growsHole value names _) regular.of_literals hole (Nat.lt_succ_self _) 1
    have empty : ((blank : Node α).heavier.label.isEmpty &&
        (blank : Node α).heavier.children.isEmpty) =
      true := rfl
    have start : (blank : Node α).heavier = branch [] 1 [] none none [] := rfl
    simp only [empty, ↓reduceIte]
    rw [start, grown]
    refine ⟨?_, ⟨shaped', .inr rfl⟩, ?_⟩
    · rintro ⟨vs, w, ms, stored, -⟩
      exact not_stores_blank vs w ms stored
    · intro vs w ms
      rw [only vs w ms, or_iff_right (not_stores_blank vs w ms)]
  · obtain ⟨more, label⟩ := List.head?_eq_some_iff.1 head
    have written : (n.heavier.label.isEmpty && n.heavier.children.isEmpty) = false := by
      have same : n.heavier.label = n.label := rfl
      rw [same, label]
      rfl
    have outcome := walk_outcome (render 0 (.literal slash :: ts)) value names
      (2 * n.heavier.size + (render 0 (.literal slash :: ts)).length + 2)
        (shaped_heavier shaped) regular
      (by simp) (by omega)
    have outcome := outcome.of_stores (m := n) (stores_heavier n) rfl
    simp only [written, Bool.false_eq_true, ↓reduceIte]
    generalize walk (render 0 (.literal slash :: ts)) value names
      (2 * n.heavier.size + (render 0 (.literal slash :: ts)).length + 2) n.heavier
      (render 0 (.literal slash :: ts)) = result at outcome ⊢
    obtain ⟨n', _ | e⟩ := result
    · obtain ⟨alone, shaped', gains, kept⟩ := outcome
      refine ⟨alone, ⟨shaped', .inr ?_⟩, gains⟩
      rw [kept, label, render, commonLength, if_pos symbolOf_slash]
      rfl
    · exact outcome

end Waymark.Routing.Node
