import Waymark.Proofs.Routing.PathIndex.Insert

/-!
# Refused insertions

A refused insertion has gone some way down the tree before it met a stored template: the nodes on
its way are heavier, and a child may stand in front of lighter ones. The tree still stores what it
stored before:

* `Kept`: a tree that stores what another one does, under the same label;
* `meets_below`: a template that meets another one goes through the whole label above it;
* `kept_branch`, `walk_refused`: a refused insertion keeps the tree, from every node on;
* `insert_refused`: the same for patterns, from the root;
* `Shaped.unique`: a tree stores one value for each template.
-/

namespace Waymark.Routing.Node

open Template

variable {α : Type}

/-- The second tree stores what the first one does, under the same label. -/
structure Kept (role : Role) (depth : Nat) (n n' : Node α) : Prop where
  shaped : Shaped role depth n'
  stores : ∀ us w ms, n'.Stores us w ms ↔ n.Stores us w ms
  label : n'.label = n.label

theorem Shaped.kept {role : Role} {depth : Nat} {n : Node α} (shaped : Shaped role depth n) :
    Kept role depth n n := ⟨shaped, fun _ _ _ => Iff.rfl, rfl⟩

theorem Shaped.kept_heavier {role : Role} {depth : Nat} {n : Node α}
    (shaped : Shaped role depth n) :
    Kept role depth n n.heavier := ⟨shaped_heavier shaped, stores_heavier n, rfl⟩

theorem Outcome.meets {role : Role} {depth : Nat} {n : Node α} {ts : List Token} {value : α}
    {names : List (List UInt8)} {result : Node α × Option InsertError}
    (outcome : Outcome role depth n ts value names result) (refused : result.2.isSome) :
    n.Meets ts := by
  obtain ⟨n', _ | e⟩ := result
  · simp at refused
  · exact outcome

section
variable {depth weight : Nat} {bs : List UInt8} {lits others : List (Node α)}
  {hole : Option (Node α)} {own : Option α} {ownNames : List (List UInt8)} {us : List Token}
  {value : α} {names : List (List UInt8)} {route : Template} {fuel : Nat} {c c' h h' : Node α}

/-- A node stores the same when one of its children does. -/
theorem stores_replace (same : ∀ us w ms, c'.Stores us w ms ↔ c.Stores us w ms) {n n' : Node α}
    (spelled : n'.own = n.own) (ends : n'.value = n.value) (named : n'.names = n.names)
    (old : n.children.Perm (c :: others)) (new : n'.children.Perm (c' :: others)) (us : List Token)
    (w : α) (ms : List (List UInt8)) : n'.Stores us w ms ↔ n.Stores us w ms := by
  rw [stores_iff, stores_iff n, spelled, ends, named]
  simp only [new.mem_iff, old.mem_iff, List.mem_cons, or_and_right, exists_or, exists_eq_left, same]

theorem Kept.literal (hanging : Hanging depth lits hole) {i place : Nat} (child : lits[i]? = some c)
    (kept : Kept .branch depth c c') (front : place ≤ i) :
    Kept .branch depth (branch bs weight lits hole own ownNames)
      ((branch bs weight lits hole own ownNames).moveChild i place c') := by
  have first : c'.firstByte = c.firstByte := by rw [firstByte, firstByte, kept.label]
  have written : c'.label ≠ [] := by
    rw [kept.label]
    exact hanging.written c (List.mem_of_getElem? child)
  have old : lits.Perm (c :: lits.eraseIdx i) := by
    obtain ⟨inside, rfl⟩ := List.getElem?_eq_some_iff.1 child
    exact (List.getElem_cons_eraseIdx_perm inside).symm
  have new := perm_insertion c' place (lits.eraseIdx i)
  rw [moveChild_branch child first front]
  constructor
  · exact (hanging.replace old new written first kept.shaped).shaped bs weight own ownNames
  · refine stores_replace kept.stores ?_ rfl rfl (old.append_right hole.toList)
      (new.append_right hole.toList)
    rw [own_branch, own_branch]
  · rfl

theorem Kept.last (hanging : Hanging depth lits (some h)) (kept : Kept .hole depth h h') :
    Kept .branch depth (branch bs weight lits (some h) own ownNames)
      (branch bs weight lits (some h') own ownNames) := by
  have moved (g : Node α) : (lits ++ [g]).Perm (g :: lits) := List.perm_append_comm
  obtain ⟨ts, v, ns, alive⟩ := hanging.alive h rfl
  constructor
  · exact (hanging.withHole kept.shaped ⟨ts, v, ns, (kept.stores ts v ns).2 alive⟩).shaped
      bs weight own
      ownNames
  · refine stores_replace kept.stores ?_ rfl rfl (moved h) (moved h')
    rw [own_branch, own_branch]
  · rfl

theorem Kept.behind {suffixed : Bool} {v : Option α} {ns : List (List UInt8)}
    (ends : c.label = [plain slash]) (kept : Kept .branch (depth + 1) c c') :
    Kept .hole depth (parameterNode depth weight suffixed (some c) v ns)
      (parameterNode depth weight suffixed (some c') v ns) := by
  have ends' : c'.label = [plain slash] := kept.label.trans ends
  constructor
  · exact .parameter (by simpa using ends') (by simpa using kept.shaped)
  · exact stores_replace kept.stores rfl rfl rfl (List.Perm.refl [c]) (List.Perm.refl [c'])
  · rfl

/-- A template that meets a stored one goes through the whole label above it. -/
theorem meets_below {common : List UInt8} {b : UInt8} {lower : List UInt8}
    (hanging : Hanging depth lits hole)
    (meets : (branch (common ++ b :: lower) weight lits hole own ownNames).Meets
      (literals common ++ us)) :
    us.head? = some (.literal b) := by
  obtain ⟨ts, w, ms, stored, clash⟩ := meets
  have split := (stores_split common b lower weight weight lits hole own ownNames ts w ms).2 stored
  obtain ⟨absent, -⟩ | ⟨c, child, below⟩ := meets_branch.1 ⟨ts, w, ms, split, clash⟩
  · simp at absent
  · obtain rfl : c = branch (b :: lower) weight lits hole own ownNames := by simpa using child
    exact meets_literal (hanging.shaped (b :: lower) weight own ownNames)
      (by simp [branch, label]) below

/-- A refused insertion that ends at a branch. -/
theorem kept_ends (hanging : Hanging depth lits hole)
    (refused : (walk route value names (fuel + 1) (branch bs weight lits hole own ownNames)
      (bs.map symbolOf)).2.isSome) :
    Kept .branch depth (branch bs weight lits hole own ownNames)
      (walk route value names (fuel + 1) (branch bs weight lits hole own ownNames)
        (bs.map symbolOf)).1 := by
  have spelled : (branch bs weight lits hole own ownNames).label = bs.map symbolOf := rfl
  have ends := walk_ends route value names fuel (branch bs weight lits hole own ownNames)
  rw [spelled] at ends
  rw [ends] at refused ⊢
  cases own with
  | some v => exact (hanging.shaped bs weight (some v) ownNames).kept
  | none => exact absurd refused Bool.false_ne_true

/-- A refused insertion at a branch whose label its template goes through. -/
theorem kept_branch (hanging : Hanging depth lits hole) (regular : Regular depth us)
    (meets : (branch bs weight lits hole own ownNames).Meets (literals bs ++ us))
    (literal : ∀ c ∈ lits, (walk route value names fuel c.heavier (render depth us)).2.isSome →
      Kept .branch depth c (walk route value names fuel c.heavier (render depth us)).1)
    (parameter : ∀ h ∈ hole, us.head? = some .parameter → h.kind ≠ .wildcard →
      (walk route value names fuel h.heavier (render depth us)).2.isSome →
      Kept .hole depth h (walk route value names fuel h.heavier (render depth us)).1)
    (refused : (walk route value names (fuel + 1) (branch bs weight lits hole own ownNames)
      (bs.map symbolOf ++ render depth us)).2.isSome) :
    Kept .branch depth (branch bs weight lits hole own ownNames)
      (walk route value names (fuel + 1) (branch bs weight lits hole own ownNames)
        (bs.map symbolOf ++ render depth us)).1 := by
  cases us with
  | nil =>
    rw [render, List.append_nil] at refused ⊢
    exact kept_ends hanging refused
  | cons u us =>
    obtain ⟨-, empty⟩ | ⟨d, child, below⟩ := meets_branch.1 meets
    · simp at empty
    cases u with
    | literal b =>
      -- What the template meets stands below the literal child that it goes on with.
      obtain child | child := child
      · have first : d.firstByte = b := by simpa using (hanging.meets_child child below).symm
        cases found : lits.findIdx? (fun c => c.firstByte == b) with
        | none =>
          have absent : ∀ c ∈ lits, c.firstByte ≠ b := by
            simpa [List.findIdx?_eq_none_iff] using found
          exact absurd first (absent d child)
        | some i =>
          obtain ⟨inside, -, -⟩ := List.findIdx?_eq_some_iff_getElem.1 found
          have there : lits[i]? = some lits[i] := List.getElem?_eq_getElem inside
          have goesOn := literal lits[i] (List.getElem_mem inside)
          rw [render] at refused goesOn ⊢
          rw [walk_literal _ _ _ _ _ _ _ _ _ _ found there] at refused ⊢
          exact (goesOn refused).literal hanging there (placeOf_le _ _ _)
      · simpa [Token.isHole] using hanging.meets_last child below
    | parameter =>
      obtain child | child := child
      · simpa using hanging.meets_child child below
      · obtain rfl : hole = some d := child
        cases hanging.last d rfl with
        | wildcard =>
          rw [render, lettered, List.cons_append] at refused ⊢
          obtain ⟨e, same⟩ := walk_wildcardNode route value names fuel bs _ lits own
            ownNames _ _ _ _ _
          rw [same]
          exact Kept.last hanging (Shaped.kept_heavier .wildcard)
        | parameter =>
          have goesOn := parameter _ rfl rfl (by simp [parameterNode, kind])
          rw [render] at refused goesOn ⊢
          rw [walk_parameterNode] at refused ⊢
          exact Kept.last hanging (goesOn refused)
    | wildcard name =>
      obtain child | child := child
      · simpa using hanging.meets_child child below
      · obtain rfl : hole = some d := child
        cases regular with
        | wildcard named =>
          rw [render, render, List.append_nil] at refused ⊢
          cases hanging.last d rfl with
          | wildcard =>
            rw [starred, braced] at refused ⊢
            obtain ⟨e, same⟩ := walk_wildcardNode route value names fuel bs _ lits own
              ownNames _ _ _ _ _
            rw [same]
            exact Kept.last hanging (Shaped.kept_heavier .wildcard)
          | parameter ends behind =>
            obtain ⟨e, same⟩ := walk_parameterNode_wildcard route value names fuel bs _ lits
              own ownNames
              _ _ _ _ _ _ named
            rw [same]
            exact Kept.last hanging (Shaped.kept_heavier (.parameter ends behind))

/-- A refused insertion that ends with a parameter. -/
theorem kept_parameter_ends {suffixed : Bool} {next : Option (Node α)} {v : Option α}
    {ns : List (List UInt8)}
    (shaped : Shaped .hole depth (parameterNode depth weight suffixed next v ns))
    (refused : (walk route value names (fuel + 1) (parameterNode depth weight suffixed next v ns)
      (render depth [.parameter])).2.isSome) :
    Kept .hole depth (parameterNode depth weight suffixed next v ns)
      (walk route value names (fuel + 1) (parameterNode depth weight suffixed next v ns)
        (render depth [.parameter])).1 := by
  have spelled : (parameterNode depth weight suffixed next v ns).label =
      lettered (letterAt depth) := rfl
  have last := walk_ends route value names fuel (parameterNode depth weight suffixed next v ns)
  rw [spelled] at last
  rw [render, render, List.append_nil, last] at refused ⊢
  cases v with
  | some w => exact shaped.kept
  | none => exact absurd refused Bool.false_ne_true

end

/-- A refused insertion keeps the tree, from every node on. -/
theorem walk_refused (route : Template) (value : α) (names : List (List UInt8)) (fuel : Nat) :
    ∀ {role : Role} {depth : Nat} {n : Node α}, Shaped role depth n → ∀ {ts : List Token},
      Regular depth ts → (role = .hole → ts.head? = some .parameter ∧ n.kind ≠ .wildcard) →
      n.size < fuel → (walk route value names fuel n (render depth ts)).2.isSome →
      Kept role depth n (walk route value names fuel n (render depth ts)).1 := by
  induction fuel with
  | zero =>
    intro role depth n _ ts _ _ enough
    exact absurd enough (Nat.not_lt_zero _)
  | succ fuel ih =>
    intro role depth n shaped ts regular enters enough refused
    have meets := (walk_outcome route value names (fuel + 1) shaped regular enters enough).meets
      refused
    have again {role : Role} {depth : Nat} {c : Node α} (child : c ∈ n.children)
        (shaped : Shaped role depth c) {us : List Token} (regular : Regular depth us)
        (enters : role = .hole → us.head? = some .parameter ∧ c.kind ≠ .wildcard)
        (refused : (walk route value names fuel c.heavier (render depth us)).2.isSome) :
        Kept role depth c (walk route value names fuel c.heavier (render depth us)).1 := by
      have small : c.heavier.size < fuel := by
        have same : c.heavier.size = c.size := by
          cases c
          rfl
        have smaller := size_lt_of_child child
        omega
      obtain ⟨shaped', stores, label⟩ := ih (shaped_heavier shaped) regular enters small refused
      exact ⟨shaped', fun us w ms => (stores us w ms).trans (stores_heavier c us w ms), label⟩
    cases shaped with
    | @branch _ weight bs lits hole own ownNames written apart below last alive =>
      have hanging : Hanging depth lits hole := ⟨written, apart, below, last, alive⟩
      obtain ⟨common, rest, us, rfl, rfl, parts⟩ := exists_common bs ts
      have regularU : Regular depth us := regular.of_literals
      cases rest with
      | nil =>
        rw [List.append_nil] at *
        rw [render_literals] at refused ⊢
        refine kept_branch hanging regularU meets ?_ ?_ refused
        · intro c child
          exact again (List.mem_append_left _ child) (below c child) regularU (by simp)
        · intro h child parameter kind
          exact again (List.mem_append_right _ (by simpa using child)) (last h child) regularU
            (fun _ => ⟨parameter, kind⟩)
      | cons b lower => exact absurd (meets_below hanging meets) (parts b rfl)
    | wildcard => exact absurd rfl (enters rfl).2
    | @parameter _ weight suffixed next v ns ends below =>
      obtain ⟨us, rfl⟩ := List.head?_eq_some_iff.1 (enters rfl).1
      cases regular with
      | parameter _ => exact kept_parameter_ends (.parameter ends below) refused
      | component _ more =>
        obtain ⟨-, empty⟩ | ⟨c, child, -⟩ := meets_parameterNode.1 meets
        · simp at empty
        · obtain rfl : next = some c := child
          have goesOn := again (by simp [parameterNode, children]) (below c rfl)
            (.literal slash more) (by simp)
          rw [render, render] at refused ⊢
          rw [render] at goesOn
          rw [walk_behind _ _ _ _ _ _ _ _ _ (ends c rfl)] at refused ⊢
          exact (goesOn refused).behind (ends c rfl)

/-- A refused insertion of a pattern keeps what is stored. -/
theorem insert_refused {n : Node α} (rooted : Rooted n) {pattern : String} {ts : List Token}
    {names : List (List UInt8)}
    (normal : normalize (ofPattern pattern) = .ok (render 0 ts, names)) (regular : Regular 0 ts)
    (starts : ts.head? = some (.literal slash)) {value : α}
    (refused : (n.insert pattern value).2.isSome) :
    Rooted (n.insert pattern value).1 ∧
      ∀ us w ms, (n.insert pattern value).1.Stores us w ms ↔ n.Stores us w ms := by
  have meets : n.Meets ts := by
    have outcome := insert_outcome rooted normal regular starts value
    generalize n.insert pattern value = result at outcome refused
    obtain ⟨n', _ | e⟩ := result
    · simp at refused
    · exact outcome
  obtain ⟨shaped, rfl | head⟩ := rooted
  · obtain ⟨us, w, ms, stored, -⟩ := meets
    exact absurd stored (not_stores_blank us w ms)
  · obtain ⟨more, spelled⟩ := List.head?_eq_some_iff.1 head
    have written : (n.heavier.label.isEmpty && n.heavier.children.isEmpty) = false := by
      have same : n.heavier.label = n.label := rfl
      rw [same, spelled]
      rfl
    rw [insert, normal] at refused ⊢
    simp only [written, Bool.false_eq_true, ↓reduceIte] at refused ⊢
    obtain ⟨shaped', stores, label⟩ :=
      walk_refused (render 0 ts) value names _ (shaped_heavier shaped) regular
      (by simp) (by omega) refused
    constructor
    · exact ⟨shaped', .inr (by rw [label]; exact head)⟩
    · exact fun us w ms => (stores us w ms).trans (stores_heavier n us w ms)

/-- A template with too many parameters leaves the tree alone. -/
theorem insert_abnormal {n : Node α} {pattern : String} {e : TemplateError}
    (abnormal : normalize (ofPattern pattern) = .error e) (value : α) :
    n.insert pattern value = (n, some (.template e)) := by
  rw [insert, abnormal]

/-- Below a label nothing is stored for the empty template. -/
theorem Shaped.not_stores_nil {role : Role} {depth : Nat} {n : Node α}
    (shaped : Shaped role depth n)
    (written : role = .branch → n.label ≠ []) {v : α} {ns : List (List UInt8)} :
    ¬ n.Stores [] v ns := by
  intro stored
  cases shaped with
  | @branch _ weight bs =>
    have spelt : literals bs ≠ [] := by
      intro nothing
      obtain rfl : bs = [] := by simpa [literals] using nothing
      exact written rfl rfl
    rw [stores_branch] at stored
    obtain ⟨-, -, ends⟩ | ⟨c, -, us, passes, -⟩ := stored
    · exact spelt ends.symm
    · exact spelt (List.append_eq_nil_iff.1 passes.symm).1
  | parameter =>
    rw [stores_parameterNode] at stored
    obtain ⟨-, -, spelled⟩ | ⟨c, -, us, spelled, -⟩ := stored
    · cases spelled
    · cases spelled
  | wildcard =>
    rw [stores_wildcardNode] at stored
    cases stored.2.2

/-- A tree stores one value for each template. -/
theorem Shaped.unique {role : Role} {depth : Nat} {n : Node α} (shaped : Shaped role depth n)
    {ts : List Token} {w w' : α} {ms ms' : List (List UInt8)} (one : n.Stores ts w ms)
    (other : n.Stores ts w' ms') : w = w' ∧ ms = ms' := by
  induction shaped generalizing ts with
  | @branch depth weight bs lits hole value names written apart below last alive belowUnique
    lastUnique =>
    have hanging : Hanging depth lits hole := ⟨written, apart, below, last, alive⟩
    have nonempty {c : Node α} {v : α} {ns : List (List UInt8)} (child : c ∈ lits ∨ c ∈ hole) :
        ¬ c.Stores [] v ns := by
      obtain child | child := child
      · exact (below c child).not_stores_nil fun _ => written c child
      · exact (last c child).not_stores_nil (by simp)
    rw [stores_branch] at one other
    obtain ⟨ends, named, rfl⟩ | ⟨c, child, us, rfl, stored⟩ := one
    · obtain ⟨ends', named', -⟩ | ⟨c, child, us, spelled, stored⟩ := other
      · exact ⟨Option.some.inj (ends.symm.trans ends'), named.symm.trans named'⟩
      · obtain rfl : us = [] := by simpa using spelled
        exact absurd stored (nonempty child)
    · obtain ⟨-, -, spelled⟩ | ⟨c', child', us', spelled, stored'⟩ := other
      · obtain rfl : us = [] := by simpa using spelled
        exact absurd stored (nonempty child)
      · obtain rfl : us = us' := List.append_cancel_left spelled
        have meets : c.Meets us := ⟨us, w, ms, stored, clash_self us⟩
        have meets' : c'.Meets us := ⟨us, w', ms', stored', clash_self us⟩
        obtain child | child := child
        · have head := hanging.meets_child child meets
          obtain child' | child' := child'
          · have same : c.firstByte = c'.firstByte := by
              simpa using head.symm.trans (hanging.meets_child child' meets')
            obtain rfl : c = c' := List.inj_on_of_nodup_map apart child child' same
            exact belowUnique c child stored stored'
          · simpa [head, Token.isHole] using hanging.meets_last child' meets'
        · obtain child' | child' := child'
          · have head := hanging.meets_child child' meets'
            simpa [head, Token.isHole] using hanging.meets_last child meets
          · obtain rfl : c = c' := Option.mem_unique child child'
            exact lastUnique c child stored stored'
  | @parameter depth weight suffixed next value names ends below belowUnique =>
    have nonempty {c : Node α} {v : α} {ns : List (List UInt8)} (child : c ∈ next) :
        ¬ c.Stores [] v ns := by
      apply (below c child).not_stores_nil
      simp [ends c child]
    rw [stores_parameterNode] at one other
    obtain ⟨own, named, rfl⟩ | ⟨c, child, us, rfl, stored⟩ := one
    · obtain ⟨own', named', -⟩ | ⟨c, child, us, spelled, stored⟩ := other
      · exact ⟨Option.some.inj (own.symm.trans own'), named.symm.trans named'⟩
      · obtain rfl : us = [] := by simpa using spelled
        exact absurd stored (nonempty child)
    · obtain ⟨-, -, spelled⟩ | ⟨c', child', us', spelled, stored'⟩ := other
      · obtain rfl : us = [] := by simpa using spelled
        exact absurd stored (nonempty child)
      · obtain rfl : us = us' := by simpa using spelled
        obtain rfl : c = c' := Option.mem_unique child child'
        exact belowUnique c child stored stored'
  | wildcard =>
    obtain ⟨rfl, rfl, -⟩ := (stores_wildcardNode _ _ _ _).1 one
    obtain ⟨rfl, rfl, -⟩ := (stores_wildcardNode _ _ _ _).1 other
    exact ⟨rfl, rfl⟩

end Waymark.Routing.Node
