import Waymark.Proofs.Source.Grammar.Types

/-!
# Patterns and operators of one shape
-/

namespace Waymark.Source.Grammar

open Ahead Waymark.Source.Parser

variable {g g' : Grammar} {n w : Nat}

theorem carries_rangeDots (three : Bool) :
    Carries .closed w (fun a a' => a.1 = a'.1) (rangeDots three) (rangeDots three) := by
  refine .bind .place fun _ _ _ => .ifSees ?_ (.ifSees (.ite (fun _ => ?_) fun _ => .fail) ?_)
  · exact .bind (.marks "..=") fun _ _ _ => .pure rfl
  · exact .bind (.marks "...") fun _ _ _ => .pure rfl
  · exact .bind (.marks "..") fun _ _ _ => .pure rfl

instance eats_rangeDots (three : Bool) : Eats (rangeDots three) := by
  unfold rangeDots
  infer_instance

instance reads_seesAlternative : Horizon.closed.Reads seesAlternative :=
  inferInstanceAs (Horizon.closed.Reads (only _ _))

instance reads_seesPatternEnd : Horizon.closed.Reads seesPatternEnd :=
  inferInstanceAs (Horizon.closed.Reads (anyOf _))

theorem carries_alternatives (known : Known n g g') (room : 3 * w + 1 ≤ n) :
    Carries .closed w SameKind g.alternatives g'.alternatives := by
  refine .bindSame (.optionalMarks "|") fun leading => ?_
  refine .bind (known.pattern (by omega)) fun first first' same => ?_
  refine .bind (.many (R := SameKind) (.bind (.marks "|") fun _ _ _ => known.pattern (by omega)))
    fun more more' others => ?_
  have alone : more.isEmpty = more'.isEmpty := by cases others <;> rfl
  refine .pure ?_
  rw [alone]
  split
  · exact .other
  · exact same

theorem carries_rangeBound (known : Known n g g') (room : 3 * w ≤ n) :
    Carries .closed w Eq g.rangeBound g'.rangeBound := by
  refine .ifSees (.pure rfl) (.ifSees ?_ (.ifSees ?_ (.ifWord "const" (fun _ _ => ?_) .fail)))
  · exact .bind .literal fun _ _ _ => .pure rfl
  · refine .bind (carries_outerAttributes known room) fun _ _ _ => ?_
    exact .bind (carries_qualifiedPath known room true) fun _ _ _ => .pure rfl
  · exact .bind (carries_attributedBlock known (by omega)) fun _ _ _ => .pure rfl

theorem carries_rangeFrom (known : Known n g g') (room : 3 * w ≤ n) :
    Carries .closed w SameKind g.rangeFrom g'.rangeFrom := by
  refine .bind (carries_rangeDots true) ?_
  rintro ⟨isClosed, dots⟩ ⟨_, dots'⟩ rfl
  refine .bindSame (carries_rangeBound known room) fun _ => .ite (fun _ => .pure .other) fun _ => ?_
  exact .ite (fun _ => .fail) fun _ => .pure (.openRange _ _)

theorem carries_rangeUpTo (known : Known n g g') (room : 3 * w ≤ n) :
    Carries .closed w SameKind g.rangeUpTo g'.rangeUpTo := by
  refine .bind (carries_rangeDots false) ?_
  rintro ⟨isClosed, dots⟩ ⟨_, dots'⟩ rfl
  refine .bindSame (carries_rangeBound known room) fun _ => ?_
  refine .ite (fun _ => .pure (.openRange _ _)) fun _ => ?_
  exact .ite (fun _ => .fail) fun _ => .pure .rest

theorem carries_literalPattern (known : Known n g g') (room : 3 * w ≤ n) :
    Carries .closed w SameKind g.literalPattern g'.literalPattern :=
  .bindSame (carries_rangeBound known room) fun _ =>
    .ite (fun _ => .ifSees (carries_rangeFrom known room) (.pure .other)) fun _ => .fail

theorem carries_member : Carries .closed w Eq member member :=
  .satisfying fun like found => by
    cases like with
    | word m s s' => exact ⟨_, found, rfl⟩
    | literal value s s' =>
      cases value with
      | whole index => cases index <;> exact ⟨_, found, rfl⟩
      | text | fraction | other => cases found
    | mark | group => cases found

theorem carries_fieldPattern (known : Known n g g') (room : 3 * w + 1 ≤ n) :
    Carries .closed w Eq g.fieldPattern g'.fieldPattern := by
  unfold fieldPattern
  dsimp only
  refine .bindSame (.optionalWord "box") fun boxed => ?_
  refine .bindSame (.optionalWord "ref") fun byRef => ?_
  refine .bindSame (.optionalWord "mut") fun isMutable => .ite (fun _ => ?_) fun _ => ?_
  · refine .bindSame carries_member fun isNamed => ?_
    refine .bindSame (.sees _) fun _ => ?_
    refine .ite (fun _ => ?_) fun _ => .pure rfl
    refine .bind (.marks ":") fun _ _ _ => ?_
    refine .bind (carries_alternatives known room) fun _ _ _ => ?_
    exact .pure rfl
  · refine .bind .name fun _ _ _ => .bindSame (.pure rfl) fun _ => .bindSame (.sees _) fun _ => ?_
    refine .ite (fun _ => ?_) fun _ => .pure rfl
    refine .bind (.marks ":") fun _ _ _ => ?_
    refine .bind (carries_alternatives known room) fun _ _ _ => ?_
    exact .pure rfl

theorem carries_fieldPatterns (known : Known n g g') (room : 3 * w + 1 ≤ n) :
    Carries .closed w Eq g.fieldPatterns g'.fieldPatterns := by
  refine .loopToEnd (R := Eq) rfl fun _ _ _ => .ifSees (.pure (.inr rfl)) ?_
  refine .bind (carries_outerAttributes known (by omega)) fun _ _ _ => ?_
  refine .ifMarks ".." (fun _ _ => .pure (.inr rfl)) ?_
  refine .bind (carries_fieldPattern known room) fun _ _ _ => .ifSees (.pure (.inr rfl)) ?_
  exact .bind .comma fun _ _ _ => .pure (.inl rfl)

theorem carries_pathPattern (known : Known n g g') (room : 3 * w ≤ n) :
    Carries .closed w SameKind g.pathPattern g'.pathPattern := by
  refine .bindSame (carries_qualifiedPath known room true) fun ⟨isQualified, path⟩ => ?_
  refine .bindSame (.sees _) fun _ => ?_
  refine .ite (fun _ => .bind carries_macroRest fun _ _ _ => .pure .other) fun _ => ?_
  refine .ifSees ?_ (.ifSees ?_ ?_)
  · refine .bind (.within (R := Eq) .brace fun _ _ => carries_fieldPatterns known (by omega))
      fun _ _ _ => ?_
    exact .pure .other
  · refine .bind (.within .paren fun _ _ => .listed (carries_alternatives known (by omega)))
      fun _ _ _ => ?_
    refine .pure .other
  · exact .ifSees (carries_rangeFrom known room) (.pure .other)

theorem carries_namePattern (known : Known n g g') (room : 3 * w ≤ n) :
    Carries .closed w SameKind g.namePattern g'.namePattern := by
  refine .bind (.optionalWord "ref") fun _ _ _ => .bind (.optionalWord "mut") fun _ _ _ => ?_
  refine .joinSees .anyName .name (.ifMarks "@" (fun _ _ => ?_) (.pure .other))
  exact .bind (known.pattern (by omega)) fun _ _ _ => .pure .other

theorem carries_sliceElement (known : Known n g g') (room : 3 * w + 1 ≤ n) :
    Carries .closed w Eq g.sliceElement g'.sliceElement := by
  refine .bind (carries_alternatives known room) ?_
  rintro _ _ (_ | ⟨dots, dots'⟩ | _)
  · exact .pure rfl
  · exact .failAt dots
  · exact .pure rfl

theorem carries_pattern (known : Known n g g') (room : 3 * w ≤ n) :
    Carries .closed w SameKind g.patternRule g'.patternRule := by
  refine .ifSees (carries_pathPattern known room) (.ifWord "_" (fun _ _ => .pure .other) ?_)
  refine .ifWord "box" (fun _ _ => ?_) (.ifSees (carries_literalPattern known room) ?_)
  · exact .bind (known.pattern (by omega)) fun _ _ _ => .pure .other
  refine .ifSees (carries_namePattern known room)
    (.ifMarks "&" (fun _ _ => ?_) (.ifSees ?_ (.ifSees ?_ ?_)))
  · refine .bind (.optionalWord "mut") fun _ _ _ => ?_
    refine .bind (known.pattern (by omega)) fun _ _ _ => ?_
    exact .pure .other
  · refine .bind (.within .paren fun _ _ => .listed (carries_alternatives known (by omega)))
      fun _ _ _ => ?_
    exact .pure .other
  · refine .bind (.within .bracket fun _ _ => .listed (carries_sliceElement known (by omega)))
      fun _ _ _ => ?_
    exact .pure .other
  · exact .ifSees (carries_rangeUpTo known room) .fail

/-! ## Operators -/

theorem nextOperator_congr {ts us : List Tree} (same : shapes ts = shapes us) :
    nextOperator ts = nextOperator us := by
  unfold nextOperator
  congr 1
  funext operator
  exact test_congr (Ahead.marks operator.1) same

instance reads_seesAssignment : Horizon.closed.Reads seesAssignment :=
  inferInstanceAs (Horizon.closed.Reads (only _ _))

theorem nextPrecedence_congr {ts us : List Tree} (same : shapes ts = shapes us) :
    nextPrecedence ts = nextPrecedence us := by
  rw [nextPrecedence, nextPrecedence, nextOperator_congr same, test_congr seesAssignment same,
    test_congr (Ahead.marks "..") same, test_congr (word "as") same]

instance reads_seesRangeEnd (record : Bool) : Horizon.closed.Reads (seesRangeEnd record) := by
  unfold seesRangeEnd
  infer_instance

theorem carries_rangeExpression (known : Known n g g') (room : 3 * w ≤ n) (record : Bool) :
    Carries .closed w Eq (g.rangeExpression record) (g'.rangeExpression record) := by
  refine .behind (carries_rangeDots false) ?_
  rintro v fewer ⟨isClosed, dots⟩ ⟨_, dots'⟩ rfl
  refine .bindSame (.sees _) fun _ => .ite (fun _ => .pure rfl) fun _ => ?_
  exact .bindSame (known.rightSide (by omega) record .range) fun _ => .pure rfl

theorem carries_castEnd : Carries .closed w Eq castEnd castEnd := .ifSees .fail (.pure rfl)

/-- The right side of an operator uses the rules for operands and operators on no more tokens. -/
theorem carries_rightSide (known : Known n g g') (room : 3 * w + 1 ≤ n) (record : Bool)
    (base : Precedence) :
    Carries .closed w Eq (g.rightSideRule record base) (g'.rightSideRule record base) := by
  refine .bindSame (known.operand (by omega) record) fun start => .loopToEnd (R := Eq) rfl ?_
  rintro right _ rfl
  refine .bind .ahead fun ts us same => ?_
  rw [nextPrecedence_congr same]
  refine .ite (fun _ => ?_) fun _ => .pure (.inr rfl)
  refine .bind .ahead fun before before' long => ?_
  refine .bindSame (known.operators (by omega) record _ right) fun right => ?_
  refine .bind .ahead fun after after' short => ?_
  rw [length_congr long, length_congr short]
  exact .ite (fun _ => .pure (.inl rfl)) fun _ => .pure (.inr rfl)

theorem carries_operators (known : Known n g g') (room : 3 * w ≤ n) (record : Bool)
    (base : Precedence) (left : Expr) :
    Carries .closed w Eq (g.operatorsRule record base left)
      (g'.operatorsRule record base left) := by
  refine .loopToEnd (R := Eq) rfl ?_
  rintro left _ rfl
  refine .ite (fun _ => .pure (.inr rfl)) fun _ => .bind .ahead fun ts us same => ?_
  rw [nextOperator_congr same]
  cases nextOperator us with
  | some operator =>
    refine .ite (fun _ => .pure (.inr rfl)) fun _ => .ite (fun _ => .failThen) fun _ => ?_
    refine .behind (.marks _) fun v fewer _ _ _ => ?_
    exact .bindSame (known.rightSide (by omega) record _) fun _ => .pure (.inl rfl)
  | none =>
    refine .bindSame (.sees _) fun _ => ?_
    refine .ite (fun _ => ?_) fun _ => .bindSame (.sees _) fun _ => .ite (fun _ => ?_) fun _ => ?_
    · refine .behind (.marks "=") fun v fewer _ _ _ => ?_
      exact .bindSame (known.rightSide (by omega) record .assign) fun _ => .pure (.inl rfl)
    · exact .bindSame (carries_rangeExpression known room record) fun _ => .pure (.inl rfl)
    · refine .ifSees (.behind (.keyword "as") fun v fewer _ _ _ => ?_) (.pure (.inr rfl))
      refine .bindSame (known.ty (by omega) false) fun _ => ?_
      refine .bind carries_castEnd fun _ _ _ => ?_
      exact .pure (.inl rfl)

end Waymark.Source.Grammar
