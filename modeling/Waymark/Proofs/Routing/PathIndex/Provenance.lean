import Waymark.Proofs.Routing.PathIndex.Insert
import Waymark.Routing.PathIndex.Search

/-!
# Where a found value comes from

Whatever a pattern looks like, what a search finds was stored by an insertion that was not refused:

* `Has`: a value is stored somewhere in a tree;
* `Brings`: a tree has nothing but what another one has and, unless that was refused, one value
  more;
* `grow_brings`, `walk_brings`, `insert_brings`: growing, walking and inserting bring at most their
  value;
* `has_of_search`: what is found is there.
-/

namespace Waymark.Routing.Node

variable {α : Type}

/-- A value is stored somewhere in a tree. -/
def Has (n : Node α) (v : α) : Prop := ∃ ts names, n.Stores ts v names

theorem has_iff {n : Node α} {v : α} : n.Has v ↔ n.value = some v ∨ ∃ c ∈ n.children, c.Has v := by
  constructor
  · rintro ⟨ts, names, stored⟩
    obtain ⟨ends, -, -⟩ | ⟨c, child, below, -, inside⟩ := (stores_iff _ _ _ _).1 stored
    · exact .inl ends
    · exact .inr ⟨c, child, below, names, inside⟩
  · rintro (ends | ⟨c, child, ts, names, stored⟩)
    · exact ⟨n.own, n.names, .here ends⟩
    · exact ⟨n.own ++ ts, names, .deeper child stored⟩

theorem not_has_blank (v : α) : ¬ (blank : Node α).Has v := by
  rw [has_iff]
  simp [blank, Node.value, children]

theorem not_has_labelled (kind : NodeKind) (label : Template) (v : α) :
    ¬ (labelled kind label : Node α).Has v := by
  rw [has_iff]
  simp [labelled, Node.value, children]

/-- Where a node has no value of its own but that of another one, nor other children than those and
one more, it has what these have. -/
theorem Has.of_children {n n' c : Node α} {v : α} (has : n'.Has v) (ends : n'.value = n.value)
    (below : ∀ d ∈ n'.children, d = c ∨ d ∈ n.children) : n.Has v ∨ c.Has v := by
  rw [has_iff] at has
  obtain own | ⟨d, child, inside⟩ := has
  · exact .inl (has_iff.2 (.inl (ends.symm.trans own)))
  · obtain rfl | old := below d child
    · exact .inr inside
    · exact .inl (has_iff.2 (.inr ⟨d, old, inside⟩))

section
variable {n c : Node α} {v : α}

theorem Has.of_child (child : c ∈ n.children) (has : c.Has v) : n.Has v :=
  has_iff.2 (.inr ⟨c, child, has⟩)

theorem has_heavier : n.heavier.Has v ↔ n.Has v := by
  rw [has_iff, has_iff]
  exact Iff.rfl

theorem has_withLabel {label : Template} : (n.withLabel label).Has v ↔ n.Has v := by
  rw [has_iff, has_iff]
  exact Iff.rfl

theorem has_withWild : n.withWild.Has v ↔ n.Has v := by
  rw [has_iff, has_iff]
  exact Iff.rfl

theorem has_withKind {kind : NodeKind} : (n.withKind kind).Has v ↔ n.Has v := by
  rw [has_iff, has_iff]
  exact Iff.rfl

theorem has_withFirstByte {b : UInt8} : (n.withFirstByte b).Has v ↔ n.Has v := by
  rw [has_iff, has_iff]
  exact Iff.rfl

theorem has_foldl_withFirstByte (bs : List UInt8) : (bs.foldl withFirstByte n).Has v ↔ n.Has v := by
  induction bs generalizing n with
  | nil => exact Iff.rfl
  | cons b bs ih => rw [List.foldl_cons, ih, has_withFirstByte]

theorem Has.of_store {w : α} {names : List (List UInt8)} (has : (n.store w names).Has v) :
    n.Has v ∨ v = w := by
  obtain own | ⟨c, child, inside⟩ := has_iff.1 has
  · exact .inr (Option.some.inj own).symm
  · exact .inl (inside.of_child child)

theorem Has.of_withChildren {cs : List (Node α)} (has : (n.withChildren cs).Has v)
    (below : ∀ d ∈ cs, d = c ∨ d ∈ n.children) : n.Has v ∨ c.Has v :=
  has.of_children rfl below

theorem Has.of_addChild (has : (n.addChild c).Has v) : n.Has v ∨ c.Has v := by
  rw [addChild] at has
  split at has
  · refine has.of_withChildren fun d child => ?_
    rw [List.mem_append, List.mem_cons] at child
    obtain front | rfl | last := child
    · exact .inr (List.dropLast_subset _ front)
    · exact .inl rfl
    · exact .inr (List.mem_of_getLast? (Option.mem_toList.1 last))
  · refine has.of_withChildren fun d child => ?_
    rw [List.mem_append, List.mem_singleton] at child
    exact child.symm

theorem Has.of_addSuffix (has : (n.addSuffix c).Has v) : n.Has v ∨ c.Has v := by
  refine has.of_withChildren fun d child => ?_
  rw [List.mem_append, List.mem_cons] at child
  obtain front | rfl | behind := child
  · exact .inr (List.mem_of_mem_take front)
  · exact .inl rfl
  · exact .inr (List.mem_of_mem_drop behind)

theorem Has.of_moveChild {i place : Nat} (has : (n.moveChild i place c).Has v) :
    n.Has v ∨ c.Has v := by
  refine has.of_children rfl fun d child => ?_
  have spelled : (n.moveChild i place c).children =
    (n.children.eraseIdx i).take place ++ c :: (n.children.eraseIdx i).drop place := rfl
  rw [spelled, List.mem_append, List.mem_cons] at child
  obtain front | rfl | behind := child
  · exact .inr (List.mem_of_mem_eraseIdx (List.mem_of_mem_take front))
  · exact .inl rfl
  · exact .inr (List.mem_of_mem_eraseIdx (List.mem_of_mem_drop behind))

theorem Has.of_splitAt {common : Nat} (has : (n.splitAt common).Has v) : n.Has v := by
  obtain absent | ⟨d, child, inside⟩ := has_iff.1 has
  · cases absent
  · obtain rfl := List.mem_singleton.1 child
    obtain own | ⟨c, below, deeper⟩ := has_iff.1 inside
    · exact has_iff.2 (.inl own)
    · exact deeper.of_child below

end

/-- The second tree has nothing but what the first one has and, unless that was refused, one
value. -/
def Brings {ε : Type} (n : Node α) (result : Node α × Option ε) (value : α) : Prop :=
  ∀ v, result.1.Has v → n.Has v ∨ (result.2 = none ∧ v = value)

section
variable {ε : Type} {n n' c : Node α} {value : α} {names : List (List UInt8)} {refused : Option ε}

theorem Brings.of_same (same : ∀ v, n'.Has v → n.Has v) : n.Brings (n', refused) value :=
  fun v has => .inl (same v has)

theorem Brings.ite {p : Prop} [Decidable p] {yes no : Node α × Option ε}
    (taken : n.Brings yes value)
    (left : n.Brings no value) : n.Brings (if p then yes else no) value := by
  split
  · exact taken
  · exact left

theorem brings_store : n.Brings (ε := ε) (n.store value names, none) value := by
  intro v has
  obtain old | new := has.of_store
  · exact .inl old
  · exact .inr ⟨rfl, new⟩

/-- A node brings what one of its children does. -/
theorem Brings.above (brings : c.Brings (n', refused) value) {m : Node α}
    (child : ∀ v, c.Has v → n.Has v)
    (above : ∀ v, m.Has v → n.Has v ∨ n'.Has v) : n.Brings (m, refused) value := by
  intro v has
  obtain old | new := above v has
  · exact .inl old
  · obtain old | added := brings v new
    · exact .inl (child v old)
    · exact .inr added

/-- A node brings what a new child does. -/
theorem Brings.beside (brings : c.Brings (n', refused) value) {m : Node α} (empty : ∀ v, ¬ c.Has v)
    (above : ∀ v, m.Has v → n.Has v ∨ n'.Has v) : n.Brings (m, refused) value :=
  brings.above (fun v has => absurd has (empty v)) above

theorem Brings.map {δ : Type} {result : Node α × Option ε} (brings : n.Brings result value)
    (f : ε → δ) :
    n.Brings (result.1, result.2.map f) value := by
  intro v has
  obtain old | ⟨taken, new⟩ := brings v has
  · exact .inl old
  · exact .inr ⟨by rw [taken, Option.map_none], new⟩

end

/-- Growing a template brings its value, unless that is refused. -/
theorem grow_brings (value : α) (names : List (List UInt8)) (fuel : Nat) (n : Node α)
    (t : Template) :
    n.Brings (grow value names fuel n t) value := by
  induction fuel generalizing n t with
  | zero => exact .of_same fun v has => has
  | succ fuel ih =>
    rw [grow]
    split
    · exact .of_same fun v has => has
    · exact fun v has => by
        obtain old | new := has.of_store
        · exact .inl (has_withLabel.1 old)
        · exact .inr ⟨rfl, new⟩
    · next p placeholder =>
      have relabelled (v : α) (has : (if p.before.isEmpty then n else n.withLabel p.before).Has v) :
          n.Has v := by
        split at has
        · exact has
        · exact has_withLabel.1 has
      simp only
      generalize (if p.before.isEmpty then n else n.withLabel p.before) = m at relabelled ⊢
      -- What hangs below the new placeholder, and the node it hangs from.
      have hung {h h' : Node α} {refused : Option TemplateError} (empty : ∀ v, ¬ h.Has v)
          (brings : h.Brings (h', refused) value) : n.Brings ((m.addChild h').withWild,
            refused) value := by
        refine brings.beside empty fun v has => ?_
        obtain old | new := (has_withWild.1 has).of_addChild
        · exact .inl (relabelled v old)
        · exact .inr new
      split
      · split
        · exact hung (not_has_labelled .wildcard p.itself) brings_store
        · exact .of_same fun v has => has
      · split
        · exact .of_same relabelled
        · split
          · exact hung (not_has_labelled _ p.itself) brings_store
          · have behind {c c' : Node α} {refused : Option TemplateError} (empty : ∀ v, ¬ c.Has v)
                (brings : c.Brings (c', refused) value) {kind : NodeKind} :
                (labelled kind p.itself).Brings ((labelled kind p.itself).addSuffix c',
                  refused) value :=
              brings.beside empty fun v has => has.of_addSuffix
            refine hung ?_ (behind (not_has_labelled .literal (throughSlash p.after)) ?_)
            · exact not_has_labelled _ p.itself
            split
            · exact brings_store
            · split
              · exact ih _ _
              · refine (ih (labelled .literal []) _).beside (not_has_labelled _ _) ?_
                intro v has
                simp only at has
                obtain old | new := has.of_addChild
                · exact .inl (has_withFirstByte.1 old)
                · exact .inr new

theorem mem_of_literalChild? {n c : Node α} {t : Template} {i : Nat}
    (found : n.literalChild? t = some (i, c)) : c ∈ n.children := by
  rw [literalChild?.eq_def] at found
  split at found
  · cases found
  · split at found
    · cases found
    · split at found
      · cases found
      · obtain ⟨d, there, same⟩ := Option.map_eq_some_iff.1 found
        obtain ⟨rfl, rfl⟩ := Prod.mk.inj same
        exact List.mem_of_getElem? there

/-- Walking down a template brings its value, unless that is refused. -/
theorem walk_brings (route : Template) (value : α) (names : List (List UInt8)) (fuel : Nat)
    (n : Node α) (t : Template) : n.Brings (walk route value names fuel n t) value := by
  induction fuel generalizing n t with
  | zero => exact .of_same fun v has => has
  | succ fuel ih =>
    have kept {refused : Option InsertError} : n.Brings (n, refused) value :=
      .of_same fun v has => has
    -- A child that the walk goes on at is one of the children, one insertion heavier.
    have within {c : Node α} (child : c ∈ n.children) (v : α) (has : c.heavier.Has v) : n.Has v :=
      (has_heavier.1 has).of_child child
    rw [walk]
    refine Brings.ite ?_ (Brings.ite ?_ ?_)
    · intro v has
      obtain old | added := ih _ _ v has
      · exact .inl old.of_splitAt
      · exact .inr added
    · split
      · exact kept
      · exact brings_store
    simp only
    generalize t.drop (commonLength t n.label) = t
    split
    · split
      · split
        · exact kept
        · next child there =>
          refine (ih child.heavier t).above (within (List.mem_of_getElem? there)) fun v has => ?_
          exact Has.of_withChildren has fun d hd => (List.mem_or_eq_of_mem_set hd).symm
      · refine Brings.ite kept ?_
        have next : (labelled .literal (throughSlash t) : Node α).Brings
            (if (throughSlash t).length = t.length then
              ((labelled .literal (throughSlash t)).store value names, none)
            else walk route value names fuel (labelled .literal (throughSlash t)) t) value :=
          Brings.ite brings_store (ih _ _)
        refine next.beside (not_has_labelled _ _) fun v has => ?_
        exact (has_withKind.1 has).of_addSuffix
    · split
      · next i child found =>
        refine (ih child.heavier t).above (within (mem_of_literalChild? found)) fun v has => ?_
        exact Has.of_moveChild has
      · refine Brings.ite ?_ (Brings.ite ?_ ?_)
        · have grown := (grow_brings value names (t.length + 1) (blank : Node α).heavier t).map
            InsertError.template
          refine grown.beside (fun v has => not_has_blank v (has_heavier.1 has)) fun v has => ?_
          obtain old | new := Has.of_moveChild has
          · obtain old | none := old.of_addChild
            · exact .inl ((has_foldl_withFirstByte _).1 old)
            · exact absurd none (not_has_blank v)
          · exact .inr new
        · split
          · exact kept
          · next child last =>
            have back {c : Node α} {v : α}
                (has : (n.withChildren (n.children.dropLast ++ [c])).Has v) :
                n.Has v ∨ c.Has v := by
              refine has.of_withChildren fun d hd => ?_
              rw [List.mem_append, List.mem_singleton] at hd
              exact hd.symm.imp_right fun front => List.dropLast_subset _ front
            have inside := within (List.mem_of_getLast? last)
            split
            · exact .of_same fun v has => (back has).elim id (inside v)
            · exact (ih child.heavier t).above inside fun v has => back has
        · exact (grow_brings value names _ n t).map _

/-- An insertion brings its value, unless it is refused. -/
theorem insert_brings (n : Node α) (pattern : String) (value : α) :
    n.Brings (n.insert pattern value) value := by
  have lighter {result : Node α × Option InsertError} (brings : n.heavier.Brings result value) :
      n.Brings result value := fun v has => (brings v has).imp_left has_heavier.1
  rw [insert]
  split
  · exact .of_same fun v has => has
  · simp only
    split
    · exact lighter ((grow_brings value _ _ n.heavier _).map _)
    · exact lighter (walk_brings _ value _ _ n.heavier _)

section
variable {captured : List (List UInt8)} {path : List UInt8} {found : Found α}

theorem exists_of_searchLiteral {firsts : List UInt8} {cs : List (Node α)} {next : UInt8}
    (reached : searchLiteral firsts cs captured next path = some found) :
    ∃ c ∈ cs, c.search captured path = some found := by
  induction firsts generalizing cs with
  | nil => simp [searchLiteral] at reached
  | cons first firsts ih =>
    cases cs with
    | nil => simp [searchLiteral] at reached
    | cons c cs =>
      rw [searchLiteral] at reached
      split at reached
      · exact ⟨c, by simp, reached⟩
      · obtain ⟨d, child, answer⟩ := ih reached
        exact ⟨d, List.mem_cons_of_mem c child, answer⟩

theorem exists_of_searchWild {cs : List (Node α)}
    (reached : searchWild cs captured path = some found) :
    ∃ c ∈ cs, c.capture captured path = some found := by
  induction cs with
  | nil => simp [searchWild] at reached
  | cons c cs ih =>
    cases cs with
    | nil =>
      rw [searchWild] at reached
      exact ⟨c, by simp, reached⟩
    | cons d cs =>
      rw [searchWild] at reached
      · obtain ⟨e, child, answer⟩ := ih reached
        exact ⟨e, List.mem_cons_of_mem c child, answer⟩
      · simp

theorem exists_of_searchOnly {cs : List (Node α)}
    (reached : searchOnly cs captured path = some found) :
    ∃ c ∈ cs, c.search captured path = some found := by
  match cs with
  | [] => simp [searchOnly] at reached
  | [c] =>
    rw [searchOnly] at reached
    exact ⟨c, by simp, reached⟩
  | _ :: _ :: _ => simp [searchOnly] at reached

theorem exists_of_searchSuffix {cs : List (Node α)} {piece : List UInt8}
    (reached : searchSuffix cs captured piece path = some (some found)) :
    ∃ c ∈ cs, ∃ taken rest, c.search taken rest = some found := by
  induction cs with
  | nil => simp [searchSuffix] at reached
  | cons c cs ih =>
    rw [searchSuffix] at reached
    split at reached
    · exact ⟨c, by simp, _, _, Option.some.inj reached⟩
    · obtain ⟨d, child, answer⟩ := ih reached
      exact ⟨d, List.mem_cons_of_mem c child, answer⟩

end

/-- A node has what its own value is found as. -/
theorem has_of_own {n : Node α} {found : Found α} {captures : List (List UInt8 × List UInt8)}
    (own : (n.value.map fun v => (⟨v, captures⟩ : Found α)) = some found) : n.Has found.value := by
  obtain ⟨v, ends, rfl⟩ := Option.map_eq_some_iff.1 own
  exact has_iff.2 (.inl ends)

/-- What is found from a node on is there. -/
theorem has_of_found (size : Nat) : ∀ n : Node α, n.size ≤ size →
    ∀ captured path found, n.search captured path = some found ∨
    n.capture captured path = some found →
      n.Has found.value := by
  induction size with
  | zero => exact fun n small => absurd (one_le_size n) (by omega)
  | succ size ih =>
    intro n small captured path found reached
    have below {c : Node α} (child : c ∈ n.children) {taken : List (List UInt8)} {rest : List UInt8}
        (answer : c.search taken rest = some found ∨ c.capture taken rest = some found) :
        n.Has found.value := by
      have smaller := size_lt_of_child child
      exact (ih c (by omega) taken rest found answer).of_child child
    obtain ⟨label, weight, hasWild, firstBytes, kind, cs, value, names⟩ := n
    obtain reached | reached := reached
    · rw [search] at reached
      split at reached
      · cases reached
      · exact has_of_own reached
      · split at reached
        · next literal =>
          obtain ⟨c, child, answer⟩ := exists_of_searchLiteral (literal.trans reached)
          exact below child (.inl answer)
        · split at reached
          · obtain ⟨c, child, answer⟩ := exists_of_searchWild reached
            exact below child (.inr answer)
          · cases reached
    · cases kind with
      | literal => simp [capture] at reached
      | wildcard =>
        rw [capture] at reached
        exact has_of_own reached
      | placeholder suffixed =>
        cases suffixed with
        | false =>
          rw [capture] at reached
          split at reached
          · cases reached
          · exact has_of_own reached
          · obtain ⟨c, child, answer⟩ := exists_of_searchOnly reached
            exact below child (.inl answer)
        | true =>
          rw [capture] at reached
          split at reached
          · cases reached
          · simp only at reached
            split at reached
            · next suffix =>
              obtain ⟨c, child, taken, rest, answer⟩ :=
                exists_of_searchSuffix (suffix.trans (congrArg some reached))
              exact below child (.inl answer)
            · split at reached
              · exact has_of_own reached
              · cases reached

/-- What a search finds is there. -/
theorem has_of_search {n : Node α} {captured : List (List UInt8)} {path : List UInt8}
    {found : Found α} (reached : n.search captured path = some found) : n.Has found.value :=
  has_of_found n.size n (Nat.le_refl _) captured path found (.inl reached)

end Waymark.Routing.Node
