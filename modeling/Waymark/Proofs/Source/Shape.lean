import Waymark.Source.Grammar.Ahead

/-!
# Shapes of trees

What the grammar asks of trees is told by their shapes alone, that is without the places at which
they stand. Two rows of trees are compared up to a horizon: behind it nothing stands in either row,
or both go on with a tree that few tests look past.

* `Shape`, `shapes`, `Tree.Like`: trees without their places;
* `exists_like`: rows of one shape, tree by tree;
* `Horizon.Reads`: tests that come out alike for rows of one shape.
-/

namespace Waymark.Source

/-- A tree without its place. -/
inductive Shape where
  | word (name : String)
  | mark (symbol : Char) (joint : Bool)
  | literal (value : Literal)
  | group (delimiter : Delimiter) (content : List Shape)

/-- Trees without their places. -/
def shapes : List Tree → List Shape
  | [] => []
  | .word n _ :: rest => .word n :: shapes rest
  | .mark c joint _ :: rest => .mark c joint :: shapes rest
  | .literal value _ :: rest => .literal value :: shapes rest
  | .group d _ _ content :: rest => .group d (shapes content) :: shapes rest

/-- Two trees of one shape. -/
inductive Tree.Like : Tree → Tree → Prop
  | word (n : String) (s s' : Span) : Tree.Like (.word n s) (.word n s')
  | mark (c : Char) (joint : Bool) (s s' : Span) : Tree.Like (.mark c joint s) (.mark c joint s')
  | literal (value : Literal) (s s' : Span) : Tree.Like (.literal value s) (.literal value s')
  | group (d : Delimiter) (s s' : Span) (c c' : Position) {content content' : List Tree}
    (inside : shapes content = shapes content') :
    Tree.Like (.group d s c content) (.group d s' c' content')

theorem shapes_append (ts us : List Tree) : shapes (ts ++ us) = shapes ts ++ shapes us := by
  fun_induction shapes ts with
  | case1 => rfl
  | case2 n s rest ih => rw [List.cons_append, shapes, ih, List.cons_append]
  | case3 c joint s rest ih => rw [List.cons_append, shapes, ih, List.cons_append]
  | case4 value s rest ih => rw [List.cons_append, shapes, ih, List.cons_append]
  | case5 d s c content rest _ ih => rw [List.cons_append, shapes, ih, List.cons_append]

theorem shapes_eq_nil {ts : List Tree} (h : shapes [] = shapes ts) : ts = [] := by
  cases ts with
  | nil => rfl
  | cons t rest => cases t <;> simp [shapes] at h

theorem exists_like {t : Tree} {ts us : List Tree} (h : shapes (t :: ts) = shapes us) :
    ∃ u rest, us = u :: rest ∧ t.Like u ∧ shapes ts = shapes rest := by
  cases us with
  | nil => cases t <;> simp [shapes] at h
  | cons u rest =>
    refine ⟨u, rest, rfl, ?_⟩
    cases t <;> cases u <;> simp only [shapes, List.cons.injEq, reduceCtorEq, false_and,
      Shape.word.injEq, Shape.mark.injEq, Shape.literal.injEq, Shape.group.injEq] at h
    · obtain ⟨rfl, rest⟩ := h
      exact ⟨.word _ _ _, rest⟩
    · obtain ⟨⟨rfl, rfl⟩, rest⟩ := h
      exact ⟨.mark _ _ _ _, rest⟩
    · obtain ⟨rfl, rest⟩ := h
      exact ⟨.literal _ _ _, rest⟩
    · obtain ⟨⟨rfl, inside⟩, rest⟩ := h
      exact ⟨.group _ _ _ _ _ inside, rest⟩

theorem length_shapes (ts : List Tree) : (shapes ts).length = ts.length := by
  fun_induction shapes ts <;> simp [*]

theorem length_congr {ts us : List Tree} (h : shapes ts = shapes us) : ts.length = us.length := by
  rw [← length_shapes ts, ← length_shapes us, h]

theorem tokenCount_append (ts us : List Tree) :
    tokenCount (ts ++ us) = tokenCount ts + tokenCount us := by
  fun_induction tokenCount ts with
  | case1 => rw [List.nil_append, Nat.zero_add]
  | case2 d s c content rest _ ih => rw [List.cons_append, tokenCount, ih, ← Nat.add_assoc]
  | case3 t rest other ih => rw [List.cons_append, tokenCount, ih, Nat.add_assoc]; exact other

theorem tokenCount_congr {ts us : List Tree} (h : shapes ts = shapes us) :
    tokenCount ts = tokenCount us := by
  fun_induction tokenCount ts generalizing us with
  | case1 => rw [shapes_eq_nil h, tokenCount]
  | case2 d s c content rest inner outer =>
    obtain ⟨u, more, rfl, like, same⟩ := exists_like h
    cases like with
    | group d s s' c c' inside => rw [tokenCount, inner inside, outer same]
  | case3 t rest other ih =>
    obtain ⟨u, more, rfl, like, same⟩ := exists_like h
    cases like with
    | group => exact absurd rfl (other _ _ _ _)
    | word | mark | literal => rw [tokenCount, ih same]; simp

/-- What two rows of trees go on with behind the part in which they are compared: nothing at all, or
a pair of braces, a certain word or a semicolon each and then whatever there is. -/
inductive Stops : List Tree → List Tree → Prop
  | nothing : Stops [] []
  | braces {s s' : Span} {c c' : Position} {content content' rest rest' : List Tree} :
    Stops (.group .brace s c content :: rest) (.group .brace s' c' content' :: rest')
  | word (n : String) {s s' : Span} {rest rest' : List Tree} :
      Stops (.word n s :: rest) (.word n s' :: rest')
  | semicolon {joint joint' : Bool} {s s' : Span} {rest rest' : List Tree} :
    Stops (.mark ';' joint s :: rest) (.mark ';' joint' s' :: rest')

theorem Stops.symm {l r : List Tree} (stops : Stops l r) : Stops r l := by
  cases stops <;> constructor

/-- How two rows of trees go on. -/
structure Horizon where
  left : List Tree
  right : List Tree
  stops : Stops left right

/-- The rows change sides. -/
def Horizon.symm (h : Horizon) : Horizon := ⟨h.right, h.left, h.stops.symm⟩

/-- Nothing follows. -/
def Horizon.closed : Horizon := ⟨[], [], .nothing⟩

/-- Nothing follows, or pairs of braces, past which no test looks. -/
class Horizon.Plain (h : Horizon) : Prop where
  cases : h.left = [] ∧ h.right = [] ∨ ∃ s s' c c' content content' rest rest',
    h.left = .group .brace s c content :: rest ∧ h.right = .group .brace s' c' content' :: rest'

instance Horizon.plain_closed : Horizon.closed.Plain := ⟨.inl ⟨rfl, rfl⟩⟩

/-- A test comes out alike for rows of one shape, whatever stands behind their horizon. -/
class Horizon.Reads (h : Horizon) (test : Test) : Prop where
  same : ∀ {ts us : List Tree}, shapes ts = shapes us → test (ts ++ h.left) = test (us ++ h.right)

/-- What a test finds at the horizon, and what it finds before it. -/
theorem Horizon.reads_of_cases {h : Horizon} {test : Test}
    (nothing : ∀ {l r}, Stops l r → test l = test r)
    (first : ∀ {t u ts us}, t.Like u → shapes ts = shapes us →
      test (t :: (ts ++ h.left)) = test (u :: (us ++ h.right))) : h.Reads test where
  same {ts us} same := by
    cases ts with
    | nil =>
      rw [shapes_eq_nil same]
      exact nothing h.stops
    | cons t rest =>
      obtain ⟨u, more, rfl, like, same⟩ := exists_like same
      exact first like same

/-- Where nothing follows, a test comes out alike for rows of one shape. -/
theorem test_congr (test : Test) [is : Horizon.closed.Reads test] {ts us : List Tree}
    (same : shapes ts = shapes us) :
    test ts = test us := by
  simpa only [Horizon.closed, List.append_nil] using is.same same

namespace Ahead

variable {h : Horizon} {test other : Test}

instance reads_word (n : String) : h.Reads (word n) := by
  apply Horizon.reads_of_cases
  · rintro l r (_ | _ | _ | _) <;> rfl
  · rintro t u ts us (_ | _ | _ | _) - <;> rfl

instance reads_anyWord : h.Reads anyWord := by
  apply Horizon.reads_of_cases
  · rintro l r (_ | _ | _ | _) <;> rfl
  · rintro t u ts us (_ | _ | _ | _) - <;> rfl

instance reads_identifier : h.Reads identifier := by
  apply Horizon.reads_of_cases
  · rintro l r (_ | _ | _ | _) <;> rfl
  · rintro t u ts us (_ | _ | _ | _) - <;> rfl

instance reads_group (d : Delimiter) : h.Reads (group d) := by
  apply Horizon.reads_of_cases
  · rintro l r (_ | _ | _ | _) <;> rfl
  · rintro t u ts us (_ | _ | _ | _) - <;> rfl

instance reads_textLiteral : h.Reads textLiteral := by
  apply Horizon.reads_of_cases
  · rintro l r (_ | _ | _ | _) <;> rfl
  · rintro t u ts us (_ | _ | ⟨_ | _ | _ | _⟩ | _) - <;> rfl

instance reads_nothing : h.Reads nothing := by
  apply Horizon.reads_of_cases
  · rintro l r (_ | _ | _ | _) <;> rfl
  · rintro t u ts us (_ | _ | _ | _) - <;> rfl

instance reads_isEmpty : h.Reads List.isEmpty := reads_nothing

theorem reads_marksOf {cs : List Char} (plain : h.Plain ∨ ';' ∉ cs) : h.Reads (marksOf cs) := by
  induction cs with
  | nil => exact ⟨fun _ => rfl⟩
  | cons c more ih =>
    have further := ih (plain.imp_right fun none' among => none' (List.mem_cons_of_mem c among))
    refine ⟨fun {ts us} same => ?_⟩
    cases ts with
    | nil =>
      rw [shapes_eq_nil same]
      obtain ⟨left, right, stops⟩ := h
      cases stops with
      | nothing | braces | word => cases more <;> rfl
      | semicolon =>
        obtain ⟨plain⟩ | other := plain
        · obtain ⟨nothing, -⟩ | ⟨_, _, _, _, _, _, _, _, braces, -⟩ := plain
          · cases nothing
          · cases braces
        · have apart : c ≠ ';' := fun same => other (by simp [same])
          cases more <;> simp [marksOf, apart]
    | cons t rest =>
      obtain ⟨u, rest', rfl, like, behind⟩ := exists_like same
      have next := further.same behind
      cases like with
      | word | literal | group => cases more <;> rfl
      | mark => cases more <;> first | rfl | simp only [List.cons_append, marksOf, next]

instance reads_marks [plain : h.Plain] (text : String) : h.Reads (marks text) :=
  reads_marksOf (.inl plain)

instance reads_hash : h.Reads (marks "#") := reads_marksOf (.inr (by decide))
instance reads_colons : h.Reads (marks "::") := reads_marksOf (.inr (by decide))
instance reads_star : h.Reads (marks "*") := reads_marksOf (.inr (by decide))

theorem lifetime_mark (c : Char) (joint : Bool) (s : Span) (ts : List Tree) :
    lifetime (.mark c joint s :: ts) = (c = '\x27' && joint && anyWord ts) := by
  by_cases quote : c = '\x27' ∧ joint = true
  · obtain ⟨rfl, rfl⟩ := quote
    match ts with
    | [] | .word _ _ :: _ | .mark _ _ _ :: _ | .literal _ _ :: _ | .group _ _ _ _ :: _ => rfl
  · unfold lifetime
    split
    · next same =>
      cases same
      exact absurd ⟨rfl, rfl⟩ quote
    · have none' : (decide (c = '\x27') && joint) = false := by simpa using quote
      rw [none', Bool.false_and]

instance reads_lifetime : h.Reads lifetime := by
  apply Horizon.reads_of_cases
  · rintro l r (_ | _ | _ | _) <;> rfl
  · rintro t u ts us (_ | _ | _ | _) same
    · rfl
    · rw [lifetime_mark, lifetime_mark, (reads_anyWord (h := h)).same same]
    · rfl
    · rfl

/-- A number comes next. -/
def number : Test
  | .literal value _ :: _ => value.isNumber
  | _ => false

instance reads_number : h.Reads number := by
  apply Horizon.reads_of_cases
  · rintro l r (_ | _ | _ | _) <;> rfl
  · rintro t u ts us (_ | _ | _ | _) - <;> rfl

theorem literal_mark (c : Char) (joint : Bool) (s : Span) (ts : List Tree) :
    literal (.mark c joint s :: ts) = (c = '-' && number ts) := by
  by_cases minus : c = '-'
  · subst minus
    match ts with
    | [] | .word _ _ :: _ | .mark _ _ _ :: _ | .literal _ _ :: _ | .group _ _ _ _ :: _ => rfl
  · unfold literal
    split
    · next same => cases same
    · next same => cases same
    · next same =>
      cases same
      exact absurd rfl minus
    · rw [decide_eq_false minus, Bool.false_and]

instance reads_literal : h.Reads literal := by
  apply Horizon.reads_of_cases
  · rintro l r (_ | _ | _ | _) <;> rfl
  · rintro t u ts us (_ | _ | _ | _) same
    · rfl
    · rw [literal_mark, literal_mark, (reads_number (h := h)).same same]
    · rfl
    · rfl

instance reads_anyOf_nil : h.Reads (anyOf []) := ⟨fun _ => rfl⟩

instance reads_anyOf_cons {tests : List Test} [first : h.Reads test]
    [rest : h.Reads (anyOf tests)] :
    h.Reads (anyOf (test :: tests)) where
  same same := by
    have behind := rest.same same
    unfold anyOf at behind ⊢
    rw [List.any_cons, List.any_cons, first.same same, behind]

instance reads_allOf_nil : h.Reads (allOf []) := ⟨fun _ => rfl⟩

instance reads_allOf_cons {tests : List Test} [first : h.Reads test]
    [rest : h.Reads (allOf tests)] :
    h.Reads (allOf (test :: tests)) where
  same same := by
    have behind := rest.same same
    unfold allOf at behind ⊢
    rw [List.all_cons, List.all_cons, first.same same, behind]

instance reads_isNot [is : h.Reads test] : h.Reads (isNot test) where
  same same := by rw [isNot, isNot, is.same same]

instance reads_words (names : List String) : h.Reads (words names) := by
  unfold words
  induction names with
  | nil => exact reads_anyOf_nil
  | cons n rest ih => exact reads_anyOf_cons

instance reads_only [h.Plain] (text : String) (longer : List String) :
    h.Reads (only text longer) where
  same same := by
    have others (l : String) := (reads_marks (h := h) l).same same
    simp only [only, (reads_marks (h := h) text).same same, others]

instance reads_pathWord : h.Reads pathWord := inferInstanceAs (h.Reads (anyOf _))

instance reads_constant (b : Bool) : h.Reads fun _ => b := ⟨fun _ => rfl⟩

instance reads_and [first : h.Reads test] [next : h.Reads other] :
    h.Reads fun trees => test trees && other trees where
  same same := by rw [first.same same, next.same same]

instance reads_or [first : h.Reads test] [next : h.Reads other] :
    h.Reads fun trees => test trees || other trees where
  same same := by rw [first.same same, next.same same]

instance reads_not [is : h.Reads test] : h.Reads fun trees => !test trees where
  same same := by rw [is.same same]

/-! ## Tests of later trees -/

theorem skip_cons (t : Tree) (ts : List Tree) :
    skip (t :: ts) = if lifetime (t :: ts) then ts.tail else ts := by
  match t, ts with
  | .word _ _, _ | .literal _ _, _ | .group _ _ _ _, _ => rfl
  | .mark c joint s, [] | .mark c joint s, .mark _ _ _ :: _ | .mark c joint s, .literal _ _ :: _
  | .mark c joint s, .group _ _ _ _ :: _ =>
    rw [lifetime_mark]
    simp [skip, anyWord]
  | .mark c joint s, .word _ _ :: rest =>
    rw [lifetime_mark]
    by_cases quote : c = '\x27' ∧ joint = true
    · obtain ⟨rfl, rfl⟩ := quote
      rfl
    · have none' : (decide (c = '\x27') && joint) = false := by simpa using quote
      rw [none', Bool.false_and]
      unfold skip
      split
      · next same =>
        cases same
        exact absurd ⟨rfl, rfl⟩ quote
      · next same =>
        cases same
        rfl
      · next same => cases same

theorem second_cons (test : Test) (t : Tree) (ts : List Tree) :
    second test (t :: ts) = test (skip (t :: ts)) := rfl

theorem shapes_tail {ts us : List Tree} (same : shapes ts = shapes us) :
    shapes ts.tail = shapes us.tail := by
  cases ts with
  | nil => rw [shapes_eq_nil same]
  | cons t rest =>
    obtain ⟨u, more, rfl, -, same⟩ := exists_like same
    exact same

theorem shapes_drop {ts us : List Tree} (same : shapes ts = shapes us) (k : Nat) :
    shapes (ts.drop k) = shapes (us.drop k) := by
  induction k generalizing ts us with
  | zero => exact same
  | succ k ih =>
    rw [← List.drop_tail, ← List.drop_tail]
    exact ih (shapes_tail same)

instance reads_second [is : Horizon.closed.Reads test] : Horizon.closed.Reads (second test) where
  same {ts us} same := by
    cases ts with
    | nil =>
      rw [shapes_eq_nil same]
      rfl
    | cons t rest =>
      have marked := (reads_lifetime (h := .closed)).same same
      obtain ⟨u, more, rfl, -, same⟩ := exists_like same
      rw [Horizon.closed, List.append_nil, List.append_nil] at marked ⊢
      rw [second_cons, second_cons, skip_cons, skip_cons, marked]
      have behind := is.same same
      have further := is.same (shapes_tail same)
      simp only [Horizon.closed, List.append_nil] at behind further
      split
      · exact further
      · exact behind

instance reads_third [Horizon.closed.Reads test] : Horizon.closed.Reads (third test) :=
  inferInstanceAs (Horizon.closed.Reads (second (second test)))

/-- Behind a test that finds two trees the third one can be asked for. -/
theorem reads_behind {guard : Test} [is : h.Reads guard]
    (behind : ∀ {ts us}, shapes ts = shapes us → guard (ts ++ h.left) = true →
      test (ts ++ h.left) = test (us ++ h.right)) : h.Reads (allOf [guard, test]) where
  same {ts us} same := by
    have first := is.same same
    cases found : guard (ts ++ h.left) with
    | false =>
      rw [found] at first
      simp [allOf, found, ← first]
    | true =>
      rw [found] at first
      simp [allOf, found, ← first, behind same found]

/-- The trees behind two colons. -/
theorem exists_colons {ts : List Tree} (found : marks "::" (ts ++ h.left) = true) :
    ∃ s joint s' rest, ts = .mark ':' true s :: .mark ':' joint s' :: rest := by
  obtain ⟨l, r, stops⟩ := h
  change marksOf [':', ':'] (ts ++ l) = true at found
  match ts, found with
  | .mark c joint s :: .mark c' joint' s' :: rest, found =>
    simp only [List.cons_append, marksOf, Bool.and_eq_true, decide_eq_true_eq] at found
    obtain ⟨⟨rfl, rfl⟩, rfl⟩ := found
    exact ⟨s, joint', s', rest, rfl⟩
  | [], found => cases stops <;> cases found
  | [.mark c joint s], found => cases stops <;> simp [marksOf] at found
  | .mark c joint s :: .word _ _ :: _, found => simp [marksOf] at found
  | .mark c joint s :: .literal _ _ :: _, found => simp [marksOf] at found
  | .mark c joint s :: .group _ _ _ _ :: _, found => simp [marksOf] at found

theorem third_behindColons [is : h.Reads test] {ts us : List Tree} (same : shapes ts = shapes us)
    (found : marks "::" (ts ++ h.left) = true) :
    third test (ts ++ h.left) = third test (us ++ h.right) := by
  obtain ⟨s, joint, s', rest, rfl⟩ := exists_colons found
  obtain ⟨_, _, rfl, ⟨⟩, next⟩ := exists_like same
  obtain ⟨_, _, rfl, ⟨⟩, behind⟩ := exists_like next
  exact is.same behind

/-- The trees behind a lifetime. -/
theorem exists_lifetime [plain : h.Plain] {ts : List Tree}
    (found : lifetime (ts ++ h.left) = true) :
    ∃ s n s' rest, ts = .mark '\x27' true s :: .word n s' :: rest := by
  have start := plain.cases
  obtain ⟨l, r, stops⟩ := h
  match ts, found with
  | .mark c joint s :: .word n s' :: rest, found =>
    rw [List.cons_append, lifetime_mark] at found
    simp only [Bool.and_eq_true, decide_eq_true_eq] at found
    obtain ⟨⟨rfl, rfl⟩, -⟩ := found
    exact ⟨s, n, s', rest, rfl⟩
  | [], found => cases stops <;> cases found
  | [.mark c joint s], found =>
    rw [List.cons_append, lifetime_mark] at found
    cases stops <;> simp [anyWord] at found start
  | .mark c joint s :: .mark _ _ _ :: _, found => simp [lifetime_mark, anyWord] at found
  | .mark c joint s :: .literal _ _ :: _, found => simp [lifetime_mark, anyWord] at found
  | .mark c joint s :: .group _ _ _ _ :: _, found => simp [lifetime_mark, anyWord] at found

theorem second_behindLifetime [h.Plain] [is : h.Reads test] {ts us : List Tree}
    (same : shapes ts = shapes us)
    (found : lifetime (ts ++ h.left) = true) :
    second test (ts ++ h.left) = second test (us ++ h.right) := by
  obtain ⟨s, n, s', rest, rfl⟩ := exists_lifetime found
  obtain ⟨_, _, rfl, ⟨⟩, next⟩ := exists_like same
  obtain ⟨_, _, rfl, ⟨⟩, behind⟩ := exists_like next
  exact is.same behind

instance reads_thirdBehindColons [h.Reads test] : h.Reads (allOf [marks "::", third test]) :=
  reads_behind fun same found => third_behindColons same found

instance reads_colonsAndThird [h.Reads test] :
    h.Reads fun trees => marks "::" trees && third test trees where
  same same := by
    have both := (inferInstance : h.Reads (allOf [marks "::", third test])).same same
    simpa only [allOf, List.all_cons, List.all_nil, Bool.and_true] using both

instance reads_notThirdBehindColons [h.Reads test] :
    h.Reads (allOf [marks "::", isNot (third test)]) :=
  reads_behind fun same found => congrArg (! ·) (third_behindColons same found)

instance reads_secondBehindLifetime [h.Plain] [h.Reads test] :
    h.Reads (allOf [lifetime, second test]) :=
  reads_behind fun same found => second_behindLifetime same found

instance reads_notSecondBehindLifetime [h.Plain] [h.Reads test] :
    h.Reads (allOf [lifetime, isNot (second test)]) :=
  reads_behind fun same found => congrArg (! ·) (second_behindLifetime same found)

end Ahead

end Waymark.Source
