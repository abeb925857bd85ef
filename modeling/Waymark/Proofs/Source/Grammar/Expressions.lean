import Waymark.Proofs.Source.Grammar.Patterns

/-!
# Expressions and statements of one shape
-/

namespace Waymark.Source.Grammar

open Ahead Waymark.Source.Parser

variable {g g' : Grammar} {n w : Nat}

instance reads_seesExpression : Horizon.closed.Reads seesExpression :=
  inferInstanceAs (Horizon.closed.Reads (anyOf _))

theorem carries_optionalExpression (known : Known n g g') (room : 3 * w + 2 ≤ n) :
    Carries .closed w Eq g.optionalExpression g'.optionalExpression := by
  refine .bindSame (.optionalSame (known.expression (by omega) true)) fun value => ?_
  cases value with
  | some e => exact .pure rfl
  | none => exact .pure rfl

theorem carries_argumentList (known : Known n g g') (room : 3 * w ≤ n) (d : Delimiter) :
    Carries .closed w Eq (g.argumentList d) (g'.argumentList d) :=
  .bind (.within d fun _ _ => .listed (known.expression (by omega) true)) fun _ _ _ => .pure rfl

theorem carries_memberName (known : Known n g g') (room : 3 * w ≤ n) :
    Carries .closed w Eq g.memberName g'.memberName := by
  refine .ifWord "await" (fun _ _ => .pure rfl) ?_
  refine .bindSame carries_member fun isNamed => ?_
  refine .bindSame (.sees _) fun _ => ?_
  refine .ite (fun _ => ?_) fun _ => ?_
  · refine .bind (.marks "::") fun _ _ _ => ?_
    refine .bind (carries_angled (R := Eq) fun _ _ => ?_) fun _ _ _ => ?_
    · exact carries_genericArgument known (by omega)
    · exact carries_argumentList known room .paren
  · refine .bindSame (.sees _) fun _ => .ite (fun _ => ?_) fun _ => .pure rfl
    exact carries_argumentList known room .paren

theorem carries_memberAccess (known : Known n g g') (room : 3 * w ≤ n) :
    Carries .closed w Eq g.memberAccess g'.memberAccess := by
  refine .bind (.marks ".") fun _ _ _ => .bind .ahead fun ts us same => ?_
  have name : Carries .closed w Eq g.memberName g'.memberName := carries_memberName known room
  cases ts with
  | nil =>
    rw [shapes_eq_nil same]
    exact name
  | cons t rest =>
    obtain ⟨u, more, rfl, like, -⟩ := exists_like same
    cases like with
    | word | mark | group => exact name
    | literal value =>
      cases value with
      | text | whole | other => exact name
      | fraction indices endsInPoint =>
        refine .ite (fun _ => .failThen) fun _ => .bind (.skipTrees 1) fun _ _ _ => ?_
        exact .ite (fun _ => name) fun _ => .pure rfl

theorem carries_trailers (known : Known n g g') (room : 3 * w ≤ n) (start : Expr) :
    Carries .closed w Eq (g.trailers start) (g'.trailers start) := by
  refine .loopToEnd (R := Eq) rfl ?_
  rintro e _ rfl
  refine .ifSees ?_ (.bindSame (.sees _) fun _ => .ite (fun _ => ?_) fun _ => .ifSees ?_ ?_)
  · exact .bind (carries_argumentList known room .paren) fun _ _ _ => .pure (.inl rfl)
  · exact .bind (carries_memberAccess known room) fun _ _ _ => .pure (.inl rfl)
  · refine .bind (.within .bracket fun _ _ => known.expression (by omega) true) fun _ _ _ => ?_
    exact .pure (.inl rfl)
  · refine .bindSame (.sees _) fun _ => .ite (fun _ => ?_) fun _ => .pure (.inr rfl)
    exact .bind (.marks "?") fun _ _ _ => .pure (.inl rfl)

theorem carries_recordField (known : Known n g g') (room : 3 * w + 2 ≤ n) :
    Carries .closed w Eq g.recordField g'.recordField := by
  refine .bind (carries_outerAttributes known (by omega)) fun _ _ _ => ?_
  refine .bindSame carries_member fun isNamed => ?_
  refine .bindSame (.sees _) fun _ => .ite (fun _ => ?_) fun _ => .pure rfl
  refine .bind (.marks ":") fun _ _ _ => ?_
  refine .bind (known.expression (by omega) true) fun _ _ _ => ?_
  exact .pure rfl

theorem carries_recordFields (known : Known n g g') (room : 3 * w + 2 ≤ n) :
    Carries .closed w Eq g.recordFields g'.recordFields := by
  refine .loopToEnd (R := Eq) rfl fun _ _ _ => .ifSees (.pure (.inr rfl)) ?_
  refine .bindSame (.optionalMarks "..") fun _ => .ite (fun _ => ?_) fun _ => ?_
  · refine .bindSame .atEnd fun _ => .ite (fun _ => ?_) fun _ => .pure (.inr rfl)
    exact .bind (known.expression (by omega) true) fun _ _ _ => .pure (.inr rfl)
  · refine .bind (carries_recordField known room) fun _ _ _ => .ifSees (.pure (.inr rfl)) ?_
    exact .bind .comma fun _ _ _ => .pure (.inl rfl)

theorem carries_pathExpression (known : Known n g g') (room : 3 * w ≤ n) (record : Bool) :
    Carries .closed w Eq (g.pathExpression record) (g'.pathExpression record) := by
  refine .bindSame (carries_qualifiedPath known room true) fun ⟨isQualified, path⟩ => ?_
  refine .bindSame (.sees _) fun _ => ?_
  refine .ite (fun _ => .bindSame carries_macroRest fun _ => .pure rfl) fun _ => ?_
  refine .bindSame (.sees _) fun _ => ?_
  refine .ite (fun _ => ?_) fun _ => .pure rfl
  refine .bind (.within (R := Eq) .brace fun _ _ => carries_recordFields known (by omega))
    fun _ _ _ => ?_
  exact .pure rfl

theorem carries_arrayContent (known : Known n g g') (room : 3 * w + 2 ≤ n) :
    Carries .closed w Eq g.arrayContent g'.arrayContent := by
  refine .ifSees (.pure rfl) (.bind (known.expression (by omega) true) fun _ _ _ =>
    .ifSees (.pure rfl) ?_)
  refine .bindSame (.optionalMarks ",") fun _ => .ite (fun _ => ?_) fun _ => ?_
  · exact .bind (.listed (known.expression (by omega) true)) fun _ _ _ => .pure rfl
  · refine .bind (.marks ";") fun _ _ _ => ?_
    refine .bind (known.expression (by omega) true) fun _ _ _ => ?_
    exact .pure rfl

theorem carries_tupleContent (known : Known n g g') (room : 3 * w + 2 ≤ n) :
    Carries .closed w Eq g.tupleContent g'.tupleContent :=
  .bind (.listed (known.expression (by omega) true)) fun _ _ _ => .pure rfl

theorem carries_closureParameter (known : Known n g g') (room : 3 * w + 2 ≤ n) :
    Carries .closed w Eq g.closureParameter g'.closureParameter := by
  refine .bind (carries_outerAttributes known (by omega)) fun _ _ _ => ?_
  refine .bind (known.pattern (by omega)) fun _ _ _ => ?_
  refine .bindSame (.optionalMarks ":") fun _ => .ite (fun _ => ?_) fun _ => .pure rfl
  exact .bind (known.ty (by omega) true) fun _ _ _ => .pure rfl

theorem carries_closure (known : Known n g g') (room : 3 * w ≤ n) (record : Bool) :
    Carries .closed w Eq (g.closure record) (g'.closure record) := by
  refine .bind (.optionalSame (carries_forLifetimes known room)) fun _ _ _ => ?_
  refine .bind (.optionalWord "const") fun _ _ _ => ?_
  refine .bind (.optionalWord "static") fun _ _ _ => .bind (.optionalWord "async") fun _ _ _ => ?_
  refine .bind (.optionalWord "move") fun _ _ _ => .behind (.marks "|") fun v fewer _ _ _ => ?_
  refine .bind (.separated .comma (carries_closureParameter known (by omega))) fun _ _ _ => ?_
  refine .bind (.marks "|") fun _ _ _ => .ifMarks "->" (fun _ _ => ?_) ?_
  · refine .bind (known.ty (by omega) true) fun _ _ _ => ?_
    exact .bind (carries_block known (by omega)) fun _ _ _ => .pure rfl
  · exact .bindSame (known.expression (by omega) record) fun _ => .pure rfl

theorem carries_condition (known : Known n g g') (room : 3 * w ≤ n) :
    Carries .closed w Eq g.condition g'.condition := by
  refine .loopToEnd (R := Eq) rfl fun _ _ _ => .behind (.keyword "if") fun v fewer _ _ _ => ?_
  refine .bind (known.expression (by omega) false) fun _ _ _ => ?_
  refine .bind (carries_block known (by omega)) fun _ _ _ => ?_
  refine .ifWord "else" (fun _ _ =>
    .ifSees (.pure (.inl rfl)) (.ifSees ?_ .fail)) (.pure (.inr rfl))
  exact .bind (carries_block known (by omega)) fun _ _ _ => .pure (.inr rfl)

theorem carries_arm (known : Known n g g') (room : 3 * w + 2 ≤ n) :
    Carries .closed w Eq g.arm g'.arm := by
  refine .bind (carries_outerAttributes known (by omega)) fun _ _ _ => ?_
  refine .bind (carries_alternatives known (by omega)) fun _ _ _ => ?_
  refine have body : Carries .closed w Eq _ _ := ?_
    .bindSame (.optionalWord "if") fun _ =>
      .ite (fun _ => .bind (known.expression (by omega) true) fun _ _ _ => body) fun _ => body
  refine .bind (.marks "=>") fun _ _ _ => ?_
  refine .bindSame (known.statementExpression (by omega)) fun body => ?_
  refine .bindSame .atEnd fun _ => .ite (fun _ => ?_) fun _ => .comma
  exact .bind (.optionalMarks ",") fun _ _ _ => .pure rfl

theorem carries_matching (known : Known n g g') (room : 3 * w ≤ n) :
    Carries .closed w Eq g.matching g'.matching := by
  refine .behind (.keyword "match") fun v fewer _ _ _ => ?_
  refine .bind (known.expression (by omega) false) fun _ _ _ => ?_
  refine .bind (carries_bracedItems (R := Eq) known (by omega)
    fun _ _ => carries_arm known (by omega)) fun _ _ _ => ?_
  exact .pure rfl

theorem carries_loopOrBlock (known : Known n g g') (room : 3 * w ≤ n) :
    Carries .closed w Eq g.loopOrBlock g'.loopOrBlock := by
  have block {v : Nat} (fewer : v ≤ w) :
      Carries .closed v Eq (do let _ ← g.attributedBlock; return closedByBlock)
      (do let _ ← g'.attributedBlock; return closedByBlock) :=
    .bind (carries_attributedBlock known (by omega)) fun _ _ _ => .pure rfl
  refine .ifWord "while" (fun v fewer => ?_) (.ifWord "for" (fun v fewer => ?_) ?_)
  · exact .bind (known.expression (by omega) false) fun _ _ _ => block (by omega)
  · refine .bind (carries_alternatives known (by omega)) fun _ _ _ => ?_
    refine .bind (.keyword "in") fun _ _ _ => ?_
    exact .bind (known.expression (by omega) false) fun _ _ _ => block (by omega)
  · exact .ifWord "loop" (fun v fewer => block (by omega)) (.ifSees (block (Nat.le_refl w)) .fail)

theorem carries_labelled (known : Known n g g') (room : 3 * w ≤ n) :
    Carries .closed w Eq g.labelled g'.labelled :=
  .bind .lifetime fun _ _ _ => .bind (.marks ":") fun _ _ _ => carries_loopOrBlock known room

theorem carries_breaking (known : Known n g g') (room : 3 * w ≤ n) (record : Bool) :
    Carries .closed w Eq (g.breaking record) (g'.breaking record) := by
  refine .behind (.keyword "break") fun v fewer _ _ _ => .bind .place fun start _ _ => .ifSees ?_ ?_
  · exact .bind (known.expression (by omega) true) fun _ _ _ => .failAt _
  · refine .bind (.optionalSame .lifetime) fun _ _ _ => .ifSees ?_ (.pure rfl)
    exact .bindSame (known.expression (by omega) true) fun _ => .pure rfl

theorem carries_letting (known : Known n g g') (room : 3 * w ≤ n) (record : Bool) :
    Carries .closed w Eq (g.letting record) (g'.letting record) := by
  refine .behind (.keyword "let") fun v fewer _ _ _ => ?_
  refine .bind (carries_alternatives known (by omega)) fun _ _ _ => ?_
  refine .bind (.marks "=") fun _ _ _ => .bindSame (known.operand (by omega) record) fun left => ?_
  exact .bindSame (known.operators (by omega) record .compare left) fun _ => .pure rfl

instance reads_seesClosure : Horizon.closed.Reads seesClosure :=
  inferInstanceAs (Horizon.closed.Reads (anyOf _))

instance reads_seesAsyncBlock : Horizon.closed.Reads seesAsyncBlock :=
  inferInstanceAs (Horizon.closed.Reads (allOf _))

instance reads_seesPathExpression : Horizon.closed.Reads seesPathExpression :=
  inferInstanceAs (Horizon.closed.Reads (anyOf _))

theorem carries_atom (known : Known n g g') (room : 3 * w ≤ n) (record : Bool) :
    Carries .closed w Eq (g.atom record) (g'.atom record) := by
  refine .ifSees (.bind .literal fun _ _ _ => .pure rfl) (.ifSees ?_ (.ifSees ?_ ?_))
  · refine .bind (.keyword "async") fun _ _ _ => .bind (.optionalWord "move") fun _ _ _ => ?_
    exact .bind (carries_block known room) fun _ _ _ => .pure rfl
  · refine .bind (.keyword "try") fun _ _ _ => ?_
    refine .bind (carries_block known room) fun _ _ _ => ?_
    exact .pure rfl
  refine .ifSees (carries_closure known room record)
    (.ifSees ?_ (.ifSees (carries_pathExpression known room record) ?_))
  · refine .bind (.keyword "builtin") fun _ _ _ => ?_
    refine .bind (.marks "#") fun _ _ _ => ?_
    refine .bind .name fun _ _ _ => ?_
    exact .bind (.opaqueGroup .paren) fun _ _ _ => .pure rfl
  refine .ifSees ?_ (.ifSees (carries_breaking known room record)
    (.ifWord "continue" (fun _ _ => ?_) ?_))
  · refine .bind (.within .paren fun _ _ => carries_tupleContent known (by omega)) fun _ _ _ => ?_
    exact .pure rfl
  · exact .bind (.optionalSame .lifetime) fun _ _ _ => .pure rfl
  refine .ifWord "return" (fun _ _ =>
    carries_optionalExpression known (by omega)) (.ifWord "become" (fun _ _ => ?_) ?_)
  · exact .bindSame (known.expression (by omega) true) fun _ => .pure rfl
  refine .ifSees ?_ (.ifSees (carries_letting known room record)
    (.ifSees (carries_condition known room) ?_))
  · refine .bind (.within .bracket fun _ _ => carries_arrayContent known (by omega)) fun _ _ _ => ?_
    exact .pure rfl
  refine .ifSees (carries_loopOrBlock known room) (.ifSees (carries_matching known room) ?_)
  refine .ifWord "yield" (fun _ _ => carries_optionalExpression known (by omega)) (.ifSees ?_ ?_)
  · refine .bind .anyName fun _ _ _ => ?_
    refine .bind (carries_attributedBlock known room) fun _ _ _ => ?_
    exact .pure rfl
  refine .ifSees (carries_loopOrBlock known room)
    (.ifSees (carries_rangeExpression known room record) ?_)
  exact .ifWord "_" (fun _ _ => .pure rfl) (.ifSees (carries_labelled known room) .fail)

theorem carries_trailed (known : Known n g g') (room : 3 * w ≤ n) (record attributed : Bool) :
    Carries .closed w Eq (g.trailed record attributed) (g'.trailed record attributed) := by
  refine .bind .place fun _ _ _ => .bindSame (carries_atom known room record) fun start => ?_
  refine .bindSame (carries_trailers known room start) fun _ => ?_
  refine .ite (fun _ => .failAt _) fun _ => ?_
  exact .pure rfl

theorem carries_operand (known : Known n g g') (room : 3 * w ≤ n) (record : Bool) :
    Carries .closed w Eq (g.operandRule record) (g'.operandRule record) := by
  refine .bind (carries_outerAttributes known room) fun attributes attributes' same => ?_
  have none' : attributes.isEmpty = attributes'.isEmpty := by cases same <;> rfl
  rw [none']
  refine .ifSees (.behind (.marks "&") fun v fewer _ _ _ => ?_)
    (.ifSees ?_ (carries_trailed known room record _))
  · refine have operand : Carries .closed v Eq _ _ :=
      .bindSame (known.operand (by omega) record) fun _ => .pure rfl
      .ifSees (.bind (.keyword "raw") fun _ _ _ => .bind .anyName fun _ _ _ => operand)
        (.bind (.optionalWord "mut") fun _ _ _ => operand)
  · refine .behind (.skipTrees 1) fun v fewer _ _ _ => ?_
    exact .bindSame (known.operand (by omega) record) fun _ => .pure rfl

/-- The rule for expressions uses those for operands and operators on no more tokens. -/
theorem carries_expression (known : Known n g g') (room : 3 * w + 1 ≤ n) (record : Bool) :
    Carries .closed w Eq (g.expressionRule record) (g'.expressionRule record) :=
  .bindSame (known.operand (by omega) record) fun left =>
    known.operators (by omega) record .jump left

theorem carries_statementStart (known : Known n g g') (room : 3 * w + 1 ≤ n) :
    Carries .closed w Eq g.statementStart g'.statementStart := by
  refine .ifSees (carries_condition known (by omega))
    (.ifSees (carries_loopOrBlock known (by omega)) ?_)
  refine .ifSees (carries_loopOrBlock known (by omega))
    (.ifSees (carries_matching known (by omega)) ?_)
  refine .ifSees (carries_atom known (by omega) true)
    (.ifSees (carries_loopOrBlock known (by omega)) ?_)
  exact .ifSees (carries_labelled known (by omega)) (known.operand (by omega) true)

theorem carries_statementExpression (known : Known n g g') (room : 3 * w + 1 ≤ n) :
    Carries .closed w Eq g.statementExpressionRule g'.statementExpressionRule := by
  refine .bind (carries_outerAttributes known (by omega)) fun _ _ _ => ?_
  refine .bindSame (carries_statementStart known room) fun e => ?_
  refine .ite (fun _ => known.operators (by omega) true .jump e) fun _ => .ifSees ?_ (.pure rfl)
  exact .bindSame (carries_trailers known (by omega) e) fun e =>
    known.operators (by omega) true .jump e

/-! ## Statements -/

theorem carries_binding (known : Known n g g') (room : 3 * w ≤ n) :
    Carries .closed w Eq g.binding g'.binding := by
  refine .behind (.keyword "let") fun v fewer _ _ _ => ?_
  refine .bind (known.pattern (by omega)) fun _ _ _ => ?_
  refine have value : Carries .closed v Eq _ _ := ?_
    .bindSame (.optionalMarks ":") fun _ =>
      .ite (fun _ => .bind (known.ty (by omega) true) fun _ _ _ => value) fun _ => value
  refine .bindSame (.optionalMarks "=") fun _ => .ite (fun _ => ?_) fun _ => carries_semicolon
  refine .bindSame (known.expression (by omega) true) fun _ => ?_
  refine .ite (fun _ => ?_) fun _ => carries_semicolon
  refine .bindSame (.optionalWord "else") fun _ => .ite (fun _ => ?_) fun _ => carries_semicolon
  exact .bind (carries_block known (by omega)) fun _ _ _ => carries_semicolon

instance reads_seesItem : Horizon.closed.Reads seesItem :=
  inferInstanceAs (Horizon.closed.Reads (anyOf _))

theorem carries_macroStart : Carries .closed w Eq macroStart macroStart := by
  have path {w : Nat} :
      Carries .closed w (fun ts us => shapes ts = shapes us) (lookahead (do plainPath; ahead))
      (lookahead (do plainPath; ahead)) :=
    .lookahead (.bind carries_plainPath fun _ _ _ => .ahead)
  refine .bind (.attempt path (path.mono fun _ _ => Eq.symm)) ?_
  rintro _ _ (⟨same⟩ | _)
  · dsimp only
    rw [test_congr (Ahead.marks "!") same,
      test_congr (second (anyOf [identifier, word "try"])) same,
      test_congr (second (group .brace)) same,
      test_congr (third (anyOf [only "." [".."], Ahead.marks "?"])) same]
    exact .ite (fun _ => .pure rfl) fun _ => .ite (fun _ => .pure rfl) fun _ =>
      .ite (fun _ => .pure rfl) fun _ => .pure rfl
  · exact .pure rfl

theorem carries_statement (known : Known n g g') (room : 3 * w + 2 ≤ n) :
    Carries .closed w Eq g.statement g'.statement := by
  have outer : Carries .closed w (List.Forall₂ Loose) g.outerAttributes g'.outerAttributes :=
    carries_outerAttributes known (by omega)
  have start : Carries .closed w (fun a a' => a.1 = a'.1 ∧ shapes a.2 = shapes a'.2)
      (lookahead (do let _ ← g.outerAttributes; return (← macroStart, ← ahead)))
      (lookahead (do let _ ← g'.outerAttributes; return (← macroStart, ← ahead))) :=
    .lookahead (.bind outer fun _ _ _ => .bind carries_macroStart fun _ _ first =>
      .bind .ahead fun _ _ same =>
      .pure ⟨first, same⟩)
  refine .bind start ?_
  rintro ⟨kind, ts⟩ ⟨_, us⟩ ⟨rfl, same⟩
  cases kind with
  | statement =>
    refine .bind outer fun _ _ _ => ?_
    refine .bind carries_plainPath fun _ _ _ => ?_
    refine .bind carries_macroRest fun _ _ _ => ?_
    exact .bind (.optionalMarks ";") fun _ _ _ => .pure rfl
  | item | none =>
    dsimp only
    rw [test_congr (word "let") same]
    try rw [test_congr seesItem same]
    refine .ite (fun _ => ?_) fun _ => .ite (fun _ => ?_) fun _ => ?_
    · exact .bind outer fun _ _ _ => .bind (carries_binding known (by omega)) fun _ _ _ => .pure rfl
    · exact .bind (known.item (by omega)) fun _ _ _ => .pure rfl
    · refine .bind outer fun _ _ _ => .bindSame (known.statementExpression (by omega)) fun _ => ?_
      exact .ifMarks ";" (fun _ _ => .pure rfl) (.pure rfl)

/-- The rule for statements uses those for items and expressions on no more tokens. -/
theorem carries_statements (known : Known n g g') (room : 3 * w + 2 ≤ n) :
    Carries .closed w Eq g.statementsRule g'.statementsRule := by
  refine .loopToEnd (R := Eq) rfl fun _ _ _ => ?_
  refine .bind (.many (.marks ";")) fun _ _ _ => ?_
  refine .ifSees (.pure (.inr rfl)) ?_
  refine .bindSame (carries_statement known room) fun _ => .ifSees (.pure (.inr rfl)) ?_
  exact .ite (fun _ => .failThen) fun _ => .pure (.inl rfl)

end Waymark.Source.Grammar
