import Waymark.Proofs.Disk.Paths

/-!
# Paths below other paths

What is left of a path below another one is read from the bytes. It is what the components of both
say:

* `nextName_eq_some`, `exists_nextName`: the first part of some bytes is their first name;
* `names_of_withoutPrefix`: what is left of a path below another has the other names;
* `components_of_withoutPrefix`: and the other components;
* `exists_withoutPrefix`: a path lies below those whose components its own begin with.
-/

namespace Waymark.Disk.Path

theorem nextName_eq_some {bytes behind : List UInt8} {c : Component}
    (h : nextName bytes = some (c, behind)) :
    ∃ n, c = Component.ofName n ∧ namesIn bytes = n :: namesIn behind := by
  have whole := namesIn_eq (trimFront bytes)
  unfold nextName at h
  dsimp only at h
  rw [componentOf_eq] at h
  split at h
  · next found =>
    obtain ⟨rfl, rfl⟩ := Prod.mk.inj (Option.some.inj h)
    split at found
    · next counted =>
      refine ⟨_, (Option.some.inj found).symm, ?_⟩
      rw [← namesIn_trimFront, whole, if_pos counted, List.singleton_append]
    · cases found
  · cases h

theorem behindNames_eq_some {cs : List Component} {bytes behind : List UInt8}
    (h : behindNames cs bytes = some behind) :
    ∃ ns : List Name, cs = ns.map Component.ofName ∧ namesIn bytes = ns ++ namesIn behind := by
  induction cs generalizing bytes with
  | nil =>
    cases h
    exact ⟨[], rfl, rfl⟩
  | cons c rest ih =>
    unfold behindNames at h
    split at h
    · next found more next =>
      split at h
      · next same =>
        obtain ⟨n, rfl, first⟩ := nextName_eq_some next
        obtain ⟨ns, rfl, others⟩ := ih h
        exact ⟨n :: ns, by rw [← same, List.map_cons], by rw [first, others, List.cons_append]⟩
      · cases h
    · cases h

theorem ofName_ne (n : Name) : Component.ofName n ≠ .root ∧ Component.ofName n ≠ .current := by
  unfold Component.ofName
  split <;> simp

theorem isAbsolute_iff (p : Path) : p.isAbsolute = true ↔ p.front = [.root] := by
  unfold front
  cases p.isAbsolute with
  | true => simp
  | false => by_cases self : (pieces p.bytes).head? = some selfName <;> simp [self]

/-- What stands for the first place of a path is no name, and all names are behind it. -/
theorem behindFront_eq (p : Path) :
    (p.front = [] ∧ p.behindFront = none) ∨
      ∃ c, p.front = [c] ∧ p.behindFront = some (c, p.bytes.drop 1) ∧
      (∀ n, Component.ofName n ≠ c) ∧
        namesIn (p.bytes.drop 1) = p.names := by
  have known := p.components_eq
  have whole := namesIn_eq p.bytes
  unfold behindFront
  rw [known]
  unfold front
  split
  · next absolute =>
    obtain ⟨rest, written⟩ := List.head?_eq_some_iff.1 (of_decide_eq_true absolute)
    refine .inr ⟨_, rfl, rfl, fun n => (ofName_ne n).1, ?_⟩
    rw [names, written, namesIn_cons_separator]
    rfl
  · split
    · next self =>
      refine .inr ⟨_, rfl, rfl, fun n => (ofName_ne n).2, ?_⟩
      have first : p.bytes.takeWhile (· ≠ separator) = selfName := by
        obtain ⟨-, one⟩ | ⟨rest, -, more⟩ := pieces_eq p.bytes
        · simpa [one] using self
        · simpa [more] using self
      have behind : p.bytes.drop 1 = p.bytes.dropWhile (· ≠ separator) := by
        conv_lhs => rw [← List.takeWhile_append_dropWhile (p := (· ≠ separator)) (l := p.bytes),
          first]
        rfl
      rw [names, whole, first, behind]
      rfl
    · refine .inl ⟨rfl, ?_⟩
      cases p.names with
      | nil => rfl
      | cons n rest =>
        rw [List.map_cons, List.nil_append, List.head?_cons]
        unfold Component.ofName
        by_cases up : n = upName
        · rw [if_pos up]
        · rw [if_neg up]

/-- What is left of a path below another has the names behind those of the other, which begins in
the same way. -/
theorem front_names_of_withoutPrefix {p base q : Path} (named : base.names ≠ [])
    (h : p.withoutPrefix? base = some q) : p.front = base.front ∧
    p.names = base.names ++ q.names := by
  have left (bytes : List UInt8) : names ⟨trimBack (trimFront bytes)⟩ = namesIn bytes := by
    rw [names, namesIn_trimBack, namesIn_trimFront]
  have inj : Function.Injective (List.map Component.ofName) := Component.ofName_injective.list_map
  unfold withoutPrefix? at h
  rw [components_eq base] at h
  obtain ⟨noneB, -⟩ | ⟨b, someB, -, other, -⟩ := behindFront_eq base
  · obtain ⟨n, rest, whole⟩ := List.exists_cons_of_ne_nil named
    rw [noneB, whole, List.nil_append, List.map_cons] at h
    obtain ⟨bytes, found, rfl⟩ := Option.map_eq_some_iff.1 h
    obtain ⟨noneP, behind⟩ | ⟨c, -, behind, other, -⟩ := behindFront_eq p
    · rw [behind] at found
      obtain ⟨ns, same, names⟩ := behindNames_eq_some found
      rw [← List.map_cons, ← whole] at same
      exact ⟨noneP.trans noneB.symm, by rw [left, inj same]; exact names⟩
    · simp [behind, Ne.symm (other n)] at found
  · rw [someB, List.singleton_append] at h
    obtain ⟨bytes, found, rfl⟩ := Option.map_eq_some_iff.1 h
    obtain ⟨-, behind⟩ | ⟨c, someP, behind, -, names⟩ := behindFront_eq p
    · rw [behind] at found
      obtain ⟨ns, same, -⟩ := behindNames_eq_some found
      cases ns with
      | nil => cases same
      | cons n ns => exact absurd (List.cons.inj same).1.symm (other n)
    · simp only [behind] at found
      split at found
      · next same =>
        obtain ⟨ns, others, behindNames⟩ := behindNames_eq_some found
        exact ⟨by rw [someP, someB, same], by rw [left, ← names, inj others]; exact behindNames⟩
      · cases found

theorem names_of_withoutPrefix {p base q : Path} (named : base.names ≠ [])
    (h : p.withoutPrefix? base = some q) :
    p.names = base.names ++ q.names ∧ p.isAbsolute = base.isAbsolute := by
  obtain ⟨front, names⟩ := front_names_of_withoutPrefix named h
  refine ⟨names, ?_⟩
  rw [Bool.eq_iff_iff, isAbsolute_iff, isAbsolute_iff, front]

/-- Bytes without separators and single dots at the front begin with a piece that counts. -/
theorem counts_trimFront (bytes : List UInt8) : trimFront bytes = [] ∨
    counts ((trimFront bytes).takeWhile (· ≠ separator)) = true := by
  induction bytes with
  | nil => exact .inl rfl
  | cons b rest ih =>
    unfold trimFront
    split
    · exact ih
    · next other =>
      split
      · exact ih
      · next more =>
        right
        rw [List.takeWhile_cons_of_pos (by simpa using other), counts, Bool.and_eq_true,
          decide_eq_true_eq, decide_eq_true_eq]
        refine ⟨List.cons_ne_nil _ _, fun self => more ?_⟩
        obtain ⟨rfl, alone⟩ := List.cons_eq_cons.1 self
        rw [Bool.and_eq_true, Bool.or_eq_true, decide_eq_true_eq, decide_eq_true_eq,
          decide_eq_true_eq]
        refine ⟨rfl, ?_⟩
        cases rest with
        | nil => exact .inl rfl
        | cons c rest =>
          right
          by_contra apart
          rw [List.head?_cons, Option.some.injEq] at apart
          simp [apart] at alone

/-- The first name of some bytes is their first part. -/
theorem exists_nextName {bytes : List UInt8} {n : Name} {more : List Name}
    (h : namesIn bytes = n :: more) :
    ∃ behind, nextName bytes = some (Component.ofName n, behind) ∧ namesIn behind = more := by
  rw [← namesIn_trimFront] at h
  obtain blank | counted := counts_trimFront bytes
  · rw [blank, namesIn_nil] at h
    cases h
  · rw [namesIn_eq, if_pos counted, List.singleton_append] at h
    obtain ⟨rfl, rfl⟩ := List.cons_eq_cons.1 h
    refine ⟨_, ?_, rfl⟩
    unfold nextName
    simp only [componentOf_eq, if_pos counted]

/-- The first names of some bytes are their first parts. -/
theorem exists_behindNames {bytes : List UInt8} {ns more : List Name}
    (h : namesIn bytes = ns ++ more) :
    ∃ behind, behindNames (ns.map Component.ofName) bytes = some behind ∧
    namesIn behind = more := by
  induction ns generalizing bytes with
  | nil => exact ⟨bytes, rfl, h⟩
  | cons n ns ih =>
    obtain ⟨behind, next, others⟩ := exists_nextName h
    obtain ⟨last, found, left⟩ := ih others
    refine ⟨last, ?_, left⟩
    rw [List.map_cons, behindNames, next]
    simpa using found

/-- Bytes that are trimmed on both sides begin with a name, if with anything. -/
theorem front_trimmed (bytes : List UInt8) : (Path.mk (trimBack (trimFront bytes))).front = [] := by
  obtain blank | counted := counts_trimFront bytes
  · rw [blank]
    rfl
  · have within := trimBack_isPrefix (trimFront bytes)
    have named := namesIn_trimBack (trimFront bytes)
    generalize trimFront bytes = t at *
    generalize trimBack t = u at *
    rw [namesIn_eq t, if_pos counted, List.singleton_append] at named
    have written : u ≠ [] := by
      rintro rfl
      cases named
    have relative : (Path.mk u).isAbsolute ≠ true := by
      rw [isAbsolute_of_isPrefix within written]
      intro absolute
      obtain ⟨rest, rfl⟩ := List.head?_eq_some_iff.1 (of_decide_eq_true absolute)
      exact absurd counted (by simp [counts])
    have proper : (pieces u).head? ≠ some selfName := by
      intro self
      have whole := List.takeWhile_append_dropWhile (p := (· ≠ separator)) (l := u)
      obtain ⟨last, one⟩ | ⟨rest, behind, more⟩ := pieces_eq u
      · -- a single dot alone is no name
        rw [one, List.head?_cons, Option.some.injEq] at self
        rw [self, last] at whole
        rw [← whole] at named
        cases named
      · -- a single dot before a separator would stand at the front of `t`
        rw [more, List.head?_cons, Option.some.injEq] at self
        rw [self, behind] at whole
        obtain ⟨beyond, rfl⟩ := within
        rw [← whole] at counted
        exact absurd counted (by simp [counts, selfName, separator])
    rw [front, if_neg relative, if_neg proper]

/-- What is left of a path below another has the components behind those of the other. -/
theorem components_of_withoutPrefix {p base q : Path} (named : base.names ≠ [])
    (h : p.withoutPrefix? base = some q) : p.components = base.components ++ q.components := by
  obtain ⟨begins, names⟩ := front_names_of_withoutPrefix named h
  have bare : q.front = [] := by
    unfold withoutPrefix? at h
    split at h
    · next blank =>
      rw [components_eq, List.append_eq_nil_iff, List.map_eq_nil_iff] at blank
      exact absurd blank.2 named
    · obtain ⟨bytes, -, rfl⟩ := Option.map_eq_some_iff.1 h
      exact front_trimmed bytes
  rw [components_eq, components_eq base, components_eq q, begins, names, bare, List.map_append,
    List.nil_append, List.append_assoc]

/-- A path whose components begin with those of another lies below that. -/
theorem exists_withoutPrefix {p base : Path} (named : base.names ≠ [])
    (h : base.components <+: p.components) : ∃ q, p.withoutPrefix? base = some q := by
  obtain ⟨n, rest, whole⟩ := List.exists_cons_of_ne_nil named
  unfold withoutPrefix?
  rw [components_eq base, components_eq p] at h
  rw [components_eq base]
  obtain ⟨noneB, -⟩ | ⟨b, someB, -, other, -⟩ := behindFront_eq base
  · obtain ⟨noneP, behind⟩ | ⟨c, someP, -, other, -⟩ := behindFront_eq p
    · rw [noneB, noneP, List.nil_append, List.nil_append,
        List.prefix_map_iff_of_injective Component.ofName_injective] at h
      obtain ⟨more, names⟩ := h
      obtain ⟨last, found, -⟩ := exists_behindNames names.symm
      rw [whole, List.map_cons] at found
      rw [noneB, behind, whole, List.nil_append, List.map_cons]
      exact ⟨_, congrArg (Option.map _) found⟩
    · rw [noneB, someP, whole, List.nil_append, List.map_cons, List.singleton_append,
        List.cons_prefix_cons] at h
      exact absurd h.1 (other n)
  · obtain ⟨noneP, -⟩ | ⟨c, someP, behind, -, inner⟩ := behindFront_eq p
    · rw [someB, noneP, List.nil_append, List.singleton_append] at h
      cases names : p.names with
      | nil => simp [names] at h
      | cons m ms =>
        rw [names, List.map_cons, List.cons_prefix_cons] at h
        exact absurd h.1.symm (other m)
    · rw [someB, someP, List.singleton_append, List.singleton_append, List.cons_prefix_cons,
        List.prefix_map_iff_of_injective Component.ofName_injective] at h
      obtain ⟨rfl, more, names⟩ := h
      obtain ⟨last, found, -⟩ := exists_behindNames (inner.trans names.symm)
      rw [someB, behind, List.singleton_append]
      dsimp only
      rw [if_pos rfl, found]
      exact ⟨_, rfl⟩

end Waymark.Disk.Path
