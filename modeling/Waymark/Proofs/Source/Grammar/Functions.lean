import Waymark.Proofs.Source.Grammar.Expressions

/-!
# Generics and functions of one shape
-/

namespace Waymark.Source.Grammar

open Ahead Waymark.Source.Parser

variable {g g' : Grammar} {n w : Nat} {h : Horizon}

/-! ## Visibilities -/

theorem carries_visibilityPlace : Carries h w Eq visibilityPlace visibilityPlace := by
  refine .bind (.within (R := Eq) .paren fun _ _ => .ifSees ?_ ?_) fun _ _ _ => .pure rfl
  · refine .bind .anyName fun _ _ _ => ?_
    refine .bindSame .atEnd fun _ => ?_
    refine .ite (fun _ => .fail) fun _ => ?_
    exact .pure rfl
  · exact .bind (.keyword "in") fun _ _ _ => carries_plainPath

/-- Parentheses do not stand at a horizon. -/
theorem visibilityPlace_before {i j : Input} {us : List Tree} (here : i.trees = us ++ h.left)
    (run : visibilityPlace.run i = .ok ((), j)) : h.left.length ≤ j.trees.length := by
  obtain ⟨⟨_, span, closing⟩, k, inside, last⟩ := run_bind run
  obtain ⟨-, rfl⟩ := run_pure last
  obtain ⟨content, _, there, -⟩ := run_within inside
  rw [here] at there
  cases us with
  | nil =>
    obtain ⟨left, right, stops⟩ := h
    cases stops <;> cases there
  | cons t more =>
    have behind : more ++ h.left = j.trees := (List.cons.inj there).2
    rw [← behind, List.length_append]
    exact Nat.le_add_left _ _

theorem carries_visibility :
    Carries h w (fun v v' => isInherited v = isInherited v') visibility visibility := by
  refine .ifSees (.bind (.keyword "pub") fun start start' _ =>
    .bindAhead fun ts us same => ?_) (.pure rfl)
  have tried : Carries h w (Option.Rel Eq) (attempt visibilityPlace) (attempt visibilityPlace) :=
    .attemptBefore carries_visibilityPlace carries_visibilityPlace fun here run =>
      visibilityPlace_before (h := h.symm) here run
  have everywhere : Carries h w (fun v v' =>
      isInherited v = isInherited v') (pure (.everywhere start))
      (pure (.everywhere start')) := .pure rfl
  cases ts with
  | nil =>
    rw [shapes_eq_nil same]
    obtain ⟨left, right, stops⟩ := h
    cases stops <;> exact everywhere
  | cons t rest =>
    obtain ⟨u, more, rfl, like, -⟩ := exists_like same
    cases like with
    | word | mark | literal => exact everywhere
    | group d _ _ _ _ inside =>
      cases d with
      | bracket | brace => exact everywhere
      | paren =>
        dsimp only [List.cons_append]
        rw [test_congr (word "in") inside]
        refine .ite (fun _ => .bind carries_visibilityPlace fun _ _ _ => .pure rfl) fun _ => ?_
        refine .bind tried ?_
        rintro _ _ (_ | _) <;> exact .pure rfl

/-! ## Generics -/

section
variable [h.Plain]

theorem carries_boundsUpTo (known : Known n g g') (room : 3 * w + 1 ≤ n) (stop : Test)
    [h.Reads stop] :
    Carries h w Eq (g.boundsUpTo stop) (g'.boundsUpTo stop) :=
  .loop (R := Eq) rfl fun _ _ _ =>
    .ifSees (.pure (.inr rfl)) (.bind (known.bound (by omega) false true) fun _ _ _ =>
    .ifMarks "+" (fun _ _ => .pure (.inl rfl)) (.pure (.inr rfl)))

theorem carries_boundsUntil (known : Known n g g') (room : 3 * w + 1 ≤ n) (stop : Test)
    [h.Reads stop] :
    Carries h w Eq (g.boundsUntil stop) (g'.boundsUntil stop) :=
  .bind (.separated .plus (known.bound (by omega) false true)) fun _ _ _ => .pure rfl

theorem carries_lifetimesUpTo (stop : Test) [h.Reads stop] :
    Carries h w Eq (lifetimesUpTo stop) (lifetimesUpTo stop) :=
  .loop (R := Eq) rfl fun _ _ _ => .ifSees (.pure (.inr rfl)) (.bind .lifetime fun _ _ _ =>
    .ifMarks "+" (fun _ _ => .pure (.inl rfl)) (.pure (.inr rfl)))

theorem carries_lifetimeParameter : Carries h w Eq lifetimeParameter lifetimeParameter :=
  .bind .lifetime fun _ _ _ => .ifMarks ":" (fun _ _ => carries_lifetimesUpTo _) (.pure rfl)

theorem carries_typeParameter (known : Known n g g') (room : 3 * w ≤ n) :
    Carries h w Eq g.typeParameter g'.typeParameter := by
  refine .behind .name fun v fewer _ _ _ => ?_
  refine have definition : Carries h v Eq _ _ := ?_
    .bindSame (.optionalMarks ":") fun _ =>
      .ite (fun _ => .bind (carries_boundsUpTo known (by omega) _) fun _ _ _ => definition) fun _ =>
        definition
  exact .ifMarks "=" (fun _ _ => .bind (known.ty (by omega) true) fun _ _ _ =>
    .pure rfl) (.pure rfl)

theorem carries_constantParameter (known : Known n g g') (room : 3 * w ≤ n) :
    Carries h w Eq g.constantParameter g'.constantParameter := by
  refine .behind (.keyword "const") fun v fewer _ _ _ => ?_
  refine .bind .name fun _ _ _ => ?_
  refine .bind (.marks ":") fun _ _ _ => ?_
  refine .bind (known.ty (by omega) true) fun _ _ _ => .ifMarks "=" (fun _ _ => ?_) (.pure rfl)
  exact carries_constantArgument known (by omega)

theorem carries_genericParameter (known : Known n g g') (room : 3 * w ≤ n) :
    Carries h w Eq g.genericParameter g'.genericParameter := by
  refine .bind (carries_outerAttributes known room) fun _ _ _ => ?_
  refine .ifSees carries_lifetimeParameter ?_
  refine .ifSees (carries_typeParameter known room)
    (.ifSees (carries_constantParameter known room) ?_)
  exact .bind (.keyword "_") fun _ _ _ => .pure rfl

theorem carries_generics (known : Known n g g') (room : 3 * w ≤ n) :
    Carries h w Eq g.generics g'.generics :=
  .ifSees (.bindSame (.same (carries_angled fun _ _ => carries_genericParameter known (by omega)))
    fun _ => .pure rfl)
    (.pure rfl)

instance reads_seesWhereEnd : h.Reads seesWhereEnd := inferInstanceAs (h.Reads (anyOf _))

theorem carries_wherePredicate (known : Known n g g') (room : 3 * w + 2 ≤ n) :
    Carries h w Eq g.wherePredicate g'.wherePredicate := by
  refine .ifSees ?_ ?_
  · exact .bind .lifetime fun _ _ _ => .bind (.marks ":") fun _ _ _ => carries_lifetimesUpTo _
  · refine .bind (.optionalSame (carries_forLifetimes known (by omega))) fun _ _ _ => ?_
    refine .bind (known.ty (by omega) true) fun _ _ _ => .bind (.marks ":") fun _ _ _ => ?_
    exact carries_boundsUpTo known (by omega) _

theorem carries_whereClause (known : Known n g g') (room : 3 * w ≤ n) :
    Carries h w Eq g.whereClause g'.whereClause := by
  refine .ifWord "where" (fun v fewer => .loop (R := Eq) rfl fun _ _ _ =>
    .ifSees (.pure (.inr rfl)) ?_) (.pure rfl)
  refine .bind (carries_wherePredicate known (by omega)) fun _ _ _ => ?_
  exact .ifMarks "," (fun _ _ => .pure (.inl rfl)) (.pure (.inr rfl))

end

/-! ## Functions -/

theorem carries_receiver (known : Known n g g') (room : 3 * w ≤ n) :
    Carries .closed w Loose g.receiver g'.receiver := by
  refine .ifMarks "&" (fun _ _ => ?_) ?_
  · refine .bind (.optionalSame .lifetime) fun _ _ _ => ?_
    refine .bind (.optionalWord "mut") fun _ _ _ => ?_
    refine .keyword "self"
  · refine .bind (.optionalWord "mut") fun _ _ _ => .bind (.keyword "self") fun _ _ _ => ?_
    refine .ifMarks ":" (fun _ _ => ?_) (.pure trivial)
    exact .bind (known.ty (by omega) true) fun _ _ _ => .pure trivial

/-- Two parameters that are there or are not, each with or without a receiver's word. -/
def SameParameter (a a' : Option Parameter × Option Position) : Prop :=
  a.1 = a'.1 ∧ a.2.isSome = a'.2.isSome

theorem carries_parameter (known : Known n g g') (back : Known n g' g) (room : 3 * w + 2 ≤ n) :
    Carries .closed w SameParameter g.parameter g'.parameter := by
  refine .bind (.attempt (carries_receiver known (by omega)) (carries_receiver back (by omega))) ?_
  rintro _ _ (_ | _)
  · exact .pure ⟨rfl, rfl⟩
  refine .ifSees (.bindSame (known.ty (by omega) true) fun _ => .pure ⟨rfl, rfl⟩) ?_
  refine .bind (known.pattern (by omega)) fun _ _ _ => .bind (.marks ":") fun _ _ _ => ?_
  refine .bindSame (.optionalMarks "...") fun _ => .ite (fun _ => .pure ⟨rfl, rfl⟩) fun _ => ?_
  exact .bindSame (known.ty (by omega) true) fun _ => .pure ⟨rfl, rfl⟩

theorem carries_parameters (known : Known n g g') (back : Known n g' g) (room : 3 * w + 2 ≤ n) :
    Carries .closed w Eq g.parameters g'.parameters := by
  refine .loopToEnd (R := Eq) rfl ?_
  rintro found _ rfl
  refine .ifSees (.pure (.inr rfl)) (.bind (carries_outerAttributes known (by omega))
    fun _ _ _ => ?_)
  have last : Carries .closed w (Sum.LiftRel Eq Eq)
      (pure (.inr found.reverse) : Parser (List Parameter ⊕ List Parameter))
      (pure (.inr found.reverse)) := .pure (.inr rfl)
  refine .bindSame (.optionalMarks "...") fun _ => .ite (fun _ => ?_) fun _ => ?_
  · exact .bindSame .atEnd fun _ => .ite (fun _ => .bind .comma fun _ _ _ => last) fun _ => last
  refine .bind (carries_parameter known back room) ?_
  rintro ⟨parameter, receiver⟩ ⟨_, receiver'⟩ ⟨rfl, given⟩
  cases parameter with
  | none =>
    exact .bindSame .atEnd fun _ => .ite (fun _ => .bind .comma fun _ _ _ => last) fun _ => last
  | some parameter =>
    have next : Carries .closed w (Sum.LiftRel Eq Eq)
        (do
          if ← atEnd then pure (.inr (parameter :: found).reverse)
          else comma; pure (.inl (parameter :: found)))
        (do
          if ← atEnd then pure (.inr (parameter :: found).reverse)
          else comma; pure (.inl (parameter :: found))) :=
      .ifSees (.pure (.inr rfl)) (.bind .comma fun _ _ _ => .pure (.inl rfl))
    cases receiver with
    | none =>
      cases receiver' with
      | none => exact next
      | some => cases given
    | some =>
      cases receiver' with
      | none => cases given
      | some => exact .ite (fun _ => .failAtThen _) fun _ => next

end Waymark.Source.Grammar
