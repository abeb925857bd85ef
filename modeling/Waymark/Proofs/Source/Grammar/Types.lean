import Waymark.Proofs.Source.Grammar.Known

/-!
# Types and paths of one shape

The rules for types, bounds and paths read alike before any horizon.
-/

namespace Waymark.Source.Grammar

open Ahead Waymark.Source.Parser

variable {g g' : Grammar} {n w : Nat} {h : Horizon} {α : Type} {R : α → α → Prop} {p p' : Parser α}

theorem carries_capturedName : Carries h w Eq capturedName capturedName :=
  .ifSees .lifetime (.ifSees (.bind .anyName fun _ _ _ => .pure rfl) .fail)

theorem carries_abi : Carries h w Eq abi abi :=
  .bind (.keyword "extern") fun _ _ _ => .ifSees (.skipTrees 1) (.pure rfl)

theorem carries_sliceType (known : Known n g g') (room : 3 * w ≤ n) :
    Carries h w Eq g.sliceType g'.sliceType := by
  refine .bind (.within (R := Eq) .bracket fun _ _ => ?_) fun _ _ _ => .pure rfl
  refine .bind (known.ty (by omega) true) fun _ _ _ => .ifMarks ";" (fun _ _ => ?_) (.pure rfl)
  exact .bind (known.expression (by omega) true) fun _ _ _ => .pure rfl

variable [h.Plain]

theorem carries_angled (item : ∀ v < w, Carries h v R p p') :
    Carries h w (List.Forall₂ R) (angled p) (angled p') :=
  .behind (.marks "<") fun v fewer _ _ _ =>
    .bind (.separated .comma (item v fewer)) fun _ _ related =>
    .bind (.marks ">") fun _ _ _ => .pure related.1

theorem carries_forLifetimes (known : Known n g g') (room : 3 * w ≤ n) :
    Carries h w Eq g.forLifetimes g'.forLifetimes := by
  refine .bind (.keyword "for") fun _ _ _ => ?_
  refine .bind (carries_angled (R := Eq) fun _ _ => ?_) fun _ _ _ => .pure rfl
  exact .bind (carries_outerAttributes known (by omega)) fun _ _ _ => .lifetime

theorem carries_output (known : Known n g g') (room : 3 * w ≤ n) (plus : Bool) :
    Carries h w Eq (g.output plus) (g'.output plus) :=
  .ifMarks "->" (fun _ _ => .bindSame (known.ty (by omega) plus) fun _ => .pure rfl) (.pure rfl)

theorem carries_callArguments (known : Known n g g') (room : 3 * w ≤ n) :
    Carries h w Eq g.callArguments g'.callArguments :=
  .bind (.within .paren fun _ _ => .listed (known.ty (by omega) true)) fun _ _ _ =>
    carries_output known room false

theorem carries_constantArgument (known : Known n g g') (room : 3 * w ≤ n) :
    Carries h w Eq g.constantArgument g'.constantArgument :=
  .ifSees .literal (.ifSees (.bind .name fun _ _ _ => .pure rfl)
    (.ifSees (.bind (carries_attributedBlock known room) fun _ _ _ => .pure rfl) .fail))

theorem carries_constraintBounds (known : Known n g g') (room : 3 * w + 1 ≤ n) :
    Carries h w Eq g.constraintBounds g'.constraintBounds :=
  .loop (R := Eq) rfl fun _ _ _ =>
    .ifSees (.pure (.inr rfl)) (.bind (known.bound (by omega) false true) fun _ _ _ =>
    .ifMarks "+" (fun _ _ => .pure (.inl rfl)) (.pure (.inr rfl)))

theorem carries_genericArgument (known : Known n g g') (room : 3 * w + 2 ≤ n) :
    Carries h w Eq g.genericArgument g'.genericArgument := by
  refine .ifSees (.bind .lifetime fun _ _ _ => .pure rfl) (.ifSees ?_ ?_)
  · exact .bind (carries_constantArgument known (by omega)) fun _ _ _ => .pure rfl
  refine .bindSame (known.ty (by omega) true) fun argument => .ite (fun _ => ?_) fun _ => .pure rfl
  refine .ifMarks "=" (fun v _ => .ifSees ?_ ?_) (.ifMarks ":" (fun v _ => ?_) (.pure rfl))
  · exact .bind (carries_constantArgument known (by omega)) fun _ _ _ => .pure rfl
  · exact .bind (known.ty (by omega) true) fun _ _ _ => .pure rfl
  · exact .bind (carries_constraintBounds known (by omega)) fun _ _ _ => .pure rfl

theorem carries_pathSegment (known : Known n g g') (room : 3 * w ≤ n) (inExpression : Bool) :
    Carries h w Eq (g.pathSegment inExpression) (g'.pathSegment inExpression) := by
  unfold pathSegment
  dsimp only
  refine .ifSees (.bind .anyName fun _ _ same => .pure (by rw [same])) ?_
  refine .joinSeesOf .anyName .name fun segment segment' same => .ifSees ?_ (.pure (by rw [same]))
  refine .bind (.optionalMarks "::") fun _ _ _ => ?_
  refine .bindSame (.same (carries_angled fun v fewer => ?_)) fun _ => ?_
  · exact carries_genericArgument known (by omega)
  · exact .pure (by rw [same])

theorem carries_pathRest (known : Known n g g') (room : 3 * w ≤ n) (inExpression : Bool) :
    Carries h w Eq (g.pathRest inExpression) (g'.pathRest inExpression) :=
  .same (.many (.bind (.marks "::") fun _ _ _ => carries_pathSegment known room inExpression))

theorem carries_path (known : Known n g g') (room : 3 * w ≤ n) (inExpression : Bool) :
    Carries h w Eq (g.path inExpression) (g'.path inExpression) :=
  .bindSame (.optionalMarks "::") fun _ =>
    .bindSame (carries_pathSegment known room inExpression) fun _ =>
    .bindSame (carries_pathRest known room inExpression) fun _ => .pure rfl

theorem carries_qualifiedPath (known : Known n g g') (room : 3 * w ≤ n) (inExpression : Bool) :
    Carries h w Eq (g.qualifiedPath inExpression) (g'.qualifiedPath inExpression) := by
  refine .ifSees ?_ (.bindSame (carries_path known room inExpression) fun _ => .pure rfl)
  refine .behind (.marks "<") fun v fewer _ _ _ => .bind (known.ty (by omega) true) fun _ _ _ => ?_
  refine have tail : Carries h v Eq _ _ := ?_
    .bindSame (.optionalWord "as") fun _ =>
      .ite (fun _ => .bind (carries_path known (by omega) false) fun _ _ _ => tail) fun _ => tail
  refine .bind (.marks ">") fun _ _ _ => .bind (.marks "::") fun _ _ _ => ?_
  refine .bindSame (carries_pathSegment known (by omega) inExpression) fun _ => ?_
  exact .bindSame (.same (.many (.bind (.marks "::") fun _ _ _ =>
    carries_pathSegment known (by omega) inExpression))) fun _ => .pure rfl

instance reads_seesCall : h.Reads seesCall := inferInstanceAs (h.Reads (anyOf _))

instance reads_seesBound : h.Reads seesBound := inferInstanceAs (h.Reads (anyOf _))

theorem carries_interfaceBound (known : Known n g g') (room : 3 * w ≤ n) (const : Bool) :
    Carries h w Eq (g.interfaceBound const) (g'.interfaceBound const) := by
  unfold interfaceBound
  dsimp only
  refine .bindSame (.optionalSame (carries_forLifetimes known room)) fun given => ?_
  refine .bind .place fun mark mark' _ => ?_
  refine have named : Carries h w Eq _ _ := ?_
    have relaxed : Carries h w Eq _ _ := .bindSame (.optionalMarks "?") fun _ =>
      .ite (fun _ => .ite (fun _ => ?_) fun _ => named) fun _ => named
    have allowed : Carries h w Eq _ _ := .ite (fun _ => .failAtThen mark) fun _ => relaxed
    .ifSees (.bind (.within .bracket fun _ _ => .keyword "const") fun _ _ _ => allowed)
      (.bindSame (.optionalWord "const") fun _ => .ite (fun _ => allowed) fun _ => relaxed)
  · refine .bindSame (carries_path known room false) fun _ => ?_
    refine .ite (fun _ => .ifSees ?_ (.pure rfl)) fun _ => .pure rfl
    refine .bind (.optionalMarks "::") fun _ _ _ => ?_
    refine .bindSame (carries_callArguments known room) fun _ => ?_
    exact .pure rfl
  · exact .bind (.optionalSame (carries_forLifetimes known room)) fun _ _ _ => named

theorem carries_bound (known : Known n g g') (room : 3 * w ≤ n) (captures const : Bool) :
    Carries h w Eq (g.boundRule captures const) (g'.boundRule captures const) := by
  refine .ifSees (.bind .lifetime fun _ _ _ => .pure rfl) (.ifSees ?_ (.ifSees ?_ ?_))
  · refine .bind (.keyword "use") fun _ _ _ => ?_
    exact .bind (carries_angled fun _ _ => carries_capturedName) fun _ _ _ =>
      .ite (fun _ => .pure rfl) fun _ => .failAt _
  · refine .bind (.within .paren fun _ _ => carries_interfaceBound known (by omega) const)
      fun _ _ same => ?_
    exact .pure same
  · exact carries_interfaceBound known room const

theorem carries_sum (known : Known n g g') (room : 3 * w + 1 ≤ n) (plus captures const : Bool) :
    Carries h w Eq (g.sum plus captures const) (g'.sum plus captures const) := by
  refine .loop (R := Eq) rfl ?_
  rintro found _ rfl
  refine .bindSame (known.bound (by omega) captures const) fun _ => ?_
  refine .ite (fun _ => .pure (.inr rfl)) fun _ => ?_
  exact .ifMarks "+" (fun _ _ => .ifSees (.pure (.inl rfl)) (.pure (.inr rfl))) (.pure (.inr rfl))

theorem carries_objectBounds (known : Known n g g') (room : 3 * w + 1 ≤ n) (start start' : Position)
    (plus : Bool) :
    Carries h w Eq (g.objectBounds start plus) (g'.objectBounds start' plus) :=
  .bindSame (carries_sum known room plus false false) fun _ =>
    .ite (fun _ => .pure rfl) fun _ => .failAt _

theorem carries_bareObject (known : Known n g g') (room : 3 * w + 1 ≤ n) :
    Carries h w Eq g.bareObject g'.bareObject :=
  .bind .place fun _ _ _ => .bindSame (carries_objectBounds known room _ _ true) fun _ => .pure rfl

theorem carries_moreBounds (known : Known n g g') (room : 3 * w ≤ n) :
    Carries h w Eq g.moreBounds g'.moreBounds := by
  refine .same (.many (.behind .plus fun v fewer _ _ _ => ?_))
  exact known.bound (by omega) true true

theorem carries_sumFrom (known : Known n g g') (room : 3 * w ≤ n) (first : Bound) :
    Carries h w Eq (g.sumFrom first) (g'.sumFrom first) :=
  .bindSame (carries_moreBounds known room) fun _ => .pure rfl

theorem carries_parenContent (known : Known n g g') (room : 3 * w + 2 ≤ n) :
    Carries .closed w Eq g.parenContent g'.parenContent := by
  refine .ifSees (.pure rfl) (.ifSees ?_ (.ifSees ?_ ?_))
  · exact .bindSame (carries_bareObject known (by omega)) fun _ => .pure rfl
  · exact .bindSame (carries_interfaceBound known (by omega) false) fun _ => .pure rfl
  refine .bindSame (known.ty (by omega) true) fun _ => .ifSees ?_ (.pure rfl)
  refine .bind .comma fun _ _ _ => ?_
  refine .bindSame (.same (.listed (known.ty (by omega) true))) fun _ => ?_
  exact .pure rfl

theorem carries_parenType (known : Known n g g') (room : 3 * w ≤ n) (plus : Bool) :
    Carries h w Eq (g.parenType plus) (g'.parenType plus) := by
  refine .bind (.within (R := Eq) .paren fun _ _ => carries_parenContent known (by omega)) ?_
  rintro ⟨content, place⟩ ⟨_, place'⟩ rfl
  cases content with
  | finished type => exact .pure rfl
  | relaxed bound => exact carries_sumFrom known room bound
  | single type =>
    refine .bindSame (.sees _) fun _ => .ite (fun _ => ?_) fun _ => .pure rfl
    cases asBound type with
    | some bound => exact carries_sumFrom known room bound
    | none => exact .pure rfl

theorem carries_functionTypeParameter (known : Known n g g') (room : 3 * w + 2 ≤ n) (self : Bool) :
    Carries .closed w Eq (g.functionTypeParameter self) (g'.functionTypeParameter self) := by
  refine .bind (carries_outerAttributes known (by omega)) fun _ _ _ => ?_
  refine .bindSame (.sees _) fun isMutable => ?_
  refine have rest : Carries .closed w Eq _ _ := ?_
    .ite (fun _ => .bind (.keyword "mut") fun _ _ _ => rest) fun _ => rest
  refine .bindSame (.sees _) fun isSelf => .bindSame (.sees _) fun isNamed => ?_
  refine have type : Carries .closed w Eq _ _ := ?_
    .ite (fun _ => .bind .anyName fun _ _ _ => .bind (.marks ":") fun _ _ _ => type) fun _ => type
  refine .ifSees ?_ (.ite (fun _ => ?_) fun _ => ?_)
  · exact .bind (.keyword "mut") fun _ _ _ => .bind (.keyword "self") fun _ _ _ => .pure rfl
  · exact .bind (.keyword "self") fun _ _ _ => .pure rfl
  · exact .bind (known.ty (by omega) true) fun _ _ _ => .pure rfl

instance reads_seesParameterName : Horizon.closed.Reads seesParameterName :=
  inferInstanceAs (Horizon.closed.Reads (allOf _))

theorem carries_functionTypeParameters (known : Known n g g') (room : 3 * w + 2 ≤ n) :
    Carries .closed w Eq g.functionTypeParameters g'.functionTypeParameters := by
  refine .loopToEnd (R := Eq) rfl ?_
  rintro first _ rfl
  refine .ifSees (.pure (.inr rfl)) (.bind (carries_outerAttributes known (by omega)) fun _ _ _ =>
    .ifSees ?_ ?_)
  · refine have dots : Carries .closed w (Sum.LiftRel Eq Eq) _ _ := ?_
      .ifSees (.bind .anyName fun _ _ _ => .bind (.marks ":") fun _ _ _ => dots) dots
    exact .bind (.marks "...") fun _ _ _ => .bind (.optionalMarks ",") fun _ _ _ => .pure (.inr rfl)
  · refine .bind (carries_functionTypeParameter known room first) fun _ _ _ => ?_
    refine .ifSees (.pure (.inr rfl)) ?_
    exact .bind .comma fun _ _ _ => .pure (.inl rfl)

theorem carries_functionType (known : Known n g g') (room : 3 * w ≤ n) :
    Carries h w Eq g.functionType g'.functionType := by
  refine .bind (.optionalSame (carries_forLifetimes known room)) fun _ _ _ => ?_
  refine .bind (.optionalWord "unsafe") fun _ _ _ => ?_
  refine .bind (.optionalSame carries_abi) fun _ _ _ => .bind (.keyword "fn") fun _ _ _ => ?_
  refine .bind (.within (R := Eq) .paren fun _ _ => carries_functionTypeParameters known (by omega))
    fun _ _ _ => ?_
  exact .bindSame (carries_output known room false) fun _ => .pure rfl

theorem carries_macroRest : Carries h w Eq macroRest macroRest :=
  .bind (.marks "!") fun _ _ _ => .anyGroup

theorem carries_pathType (known : Known n g g') (room : 3 * w ≤ n) (plus given : Bool) :
    Carries h w Eq (g.pathType plus given) (g'.pathType plus given) := by
  refine .bindSame (carries_qualifiedPath known room false) fun ⟨isQualified, path⟩ => ?_
  refine .ite (fun _ => .pure rfl) fun _ => ?_
  refine .bindSame (.sees _) fun _ => ?_
  refine .ite (fun _ => ?_) fun _ => ?_
  · exact .bindSame carries_macroRest fun _ => .pure rfl
  refine .bindSame (.sees _) fun _ => ?_
  refine .ite (fun _ => .ite (fun _ => .pure rfl) fun _ => ?_) fun _ => .pure rfl
  refine .loop (R := Eq) rfl ?_
  rintro bounds _ rfl
  refine .ifMarks "+" (fun _ _ => .ifSees ?_ (.pure (.inr rfl))) (.pure (.inr rfl))
  exact .bindSame (known.bound (by omega) true true) fun _ => .pure (.inl rfl)

instance reads_seesPath : h.Reads seesPath := inferInstanceAs (h.Reads (anyOf _))

/-- The rule for types uses that for bounds on no more tokens. -/
theorem carries_ty (known : Known n g g') (room : 3 * w + 1 ≤ n) (plus : Bool) :
    Carries h w Eq (g.typeRule plus) (g'.typeRule plus) := by
  refine .bindSame (.optionalSame (carries_forLifetimes known (by omega))) fun given => ?_
  refine .bindSame (.sees _) fun _ => ?_
  refine .ite (fun _ => .fail) fun _ => .ifSees (carries_parenType known (by omega) plus) ?_
  refine .ifSees (carries_functionType known (by omega))
    (.ifSees (carries_pathType known (by omega) plus _) ?_)
  refine .ifSees ?_ (.ifSees (carries_sliceType known (by omega)) ?_)
  · refine .bind (.keyword "dyn") fun _ _ _ => .bind (.optionalMarks "*") fun _ _ _ => ?_
    exact .bindSame (carries_objectBounds known room _ _ plus) fun _ => .pure rfl
  refine .ifMarks "*" (fun _ _ => .ifSees ?_ .fail) (.ifMarks "&" (fun _ _ => ?_) ?_)
  · exact .bind .anyName fun _ _ _ => .bindSame (known.ty (by omega) false) fun _ => .pure rfl
  · refine .bind (.optionalSame .lifetime) fun _ _ _ => .bindSame (.optionalWord "mut") fun _ => ?_
    exact .bindSame (known.ty (by omega) false) fun _ => .pure rfl
  refine .ifSees ?_ (.ifSees ?_
    (.ifWord "_" (fun _ _ => .pure rfl) (.ifSees (carries_bareObject known room) .fail)))
  · exact .bind (.marks "!") fun _ _ _ => .pure rfl
  · refine .bind (.keyword "impl") fun _ _ _ => ?_
    refine .bindSame (carries_sum known room plus true true) fun _ => ?_
    exact .ite (fun _ => .pure rfl) fun _ => .failAt _

end Waymark.Source.Grammar
