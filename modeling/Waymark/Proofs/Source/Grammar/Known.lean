import Waymark.Proofs.Source.Carrying

/-!
# Two grammars of different depth

What the rules of two grammars find alike, and which of it their next step keeps: a rule that uses
others on no more tokens than it was given comes behind them.

* `Known`: the rules of two grammars carry, on so many tokens and as far as a rank;
* `carries_outerAttributes`, `carries_attributedBlock`: what all kinds of rules are made of.
-/

namespace Waymark.Source.Grammar

open Ahead Waymark.Source.Parser

/-- Patterns of one kind. -/
inductive SameKind : Pattern → Pattern → Prop
  | rest : SameKind .rest .rest
  | openRange (dots dots' : Position) : SameKind (.openRange dots) (.openRange dots')
  | other : SameKind .other .other

/-- What one grammar reads of trees another reads of trees of the same shape, as long as the tokens
are few: on so many tokens the rules of rank 0 come before those of rank 1, and the rule for
statements comes last. -/
structure Known (n : Nat) (g g' : Grammar) : Prop where
  bound {h : Horizon} [h.Plain] {w : Nat} (room : 3 * w < n) (captures const : Bool) :
      Carries h w Eq (g.bound captures const) (g'.bound captures const)
  operand {w : Nat} (room : 3 * w < n) (record : Bool) :
      Carries .closed w Eq (g.operand record) (g'.operand record)
  operators {w : Nat} (room : 3 * w < n) (record : Bool) (base : Precedence) (left : Expr) :
    Carries .closed w Eq (g.operators record base left) (g'.operators record base left)
  pattern {w : Nat} (room : 3 * w < n) : Carries .closed w SameKind g.pattern g'.pattern
  importTree {h : Horizon} {w : Nat} (room : 3 * w < n) (root : Bool) :
    Carries h w Eq (g.importTree root) (g'.importTree root)
  item {w : Nat} (room : 3 * w < n) : Carries .closed w Loose g.item g'.item
  ty {h : Horizon} [h.Plain] {w : Nat} (room : 3 * w + 1 < n) (plus : Bool) :
      Carries h w Eq (g.ty plus) (g'.ty plus)
  expression {w : Nat} (room : 3 * w + 1 < n) (record : Bool) :
    Carries .closed w Eq (g.expression record) (g'.expression record)
  rightSide {w : Nat} (room : 3 * w + 1 < n) (record : Bool) (base : Precedence) :
    Carries .closed w Eq (g.rightSide record base) (g'.rightSide record base)
  statementExpression {w : Nat} (room : 3 * w + 1 < n) :
      Carries .closed w Eq g.statementExpression g'.statementExpression
  statements {w : Nat} (room : 3 * w + 2 < n) : Carries .closed w Eq g.statements g'.statements

variable {g g' : Grammar} {n w : Nat} {h : Horizon} {α : Type} {R : α → α → Prop} {p p' : Parser α}

theorem carries_plainPath : Carries h w Eq plainPath plainPath := by
  refine .bindSame (.optionalMarks "::") fun _ => .ifSees ?_ (.bind .name fun _ _ _ => .pure rfl)
  refine .loop (R := Eq) rfl fun _ _ _ => .bind .anyName fun _ _ _ => ?_
  exact .ifMarks "::" (fun _ _ => .ifSees (.pure (.inl rfl)) .fail) (.pure (.inr rfl))

theorem carries_semicolon : Carries .closed w Eq (do let _ ← Parser.marks ";"; pure ())
    (do let _ ← Parser.marks ";"; pure ()) :=
  .bind (.marks ";") fun _ _ _ => .pure rfl

theorem carries_attributeContent (known : Known n g g') (room : 3 * w + 2 ≤ n) :
    Carries .closed w Eq g.attributeContent g'.attributeContent := by
  have literal {w : Nat} :
      Carries .closed w Eq (do Parser.literal; if ← atEnd then pure () else fail)
      (do Parser.literal; if ← atEnd then pure () else fail) :=
    .bind .literal fun _ _ _ => .ifSees (.pure rfl) .fail
  unfold attributeContent
  dsimp only
  refine .joinSees (.keyword "unsafe") carries_plainPath ?_
  refine .ifSees (.bind .anyGroup fun _ _ _ => .pure rfl) (.ifSees ?_ (.pure rfl))
  refine .bind (.marks "=") fun _ _ _ => ?_
  refine .bind (.attempt literal (literal.mono fun _ _ => Eq.symm)) ?_
  rintro _ _ (_ | _)
  · exact .pure rfl
  · exact .ifSees .fail (.bind (known.expression (by omega) true) fun _ _ _ => .pure rfl)

theorem carries_outerAttribute (known : Known n g g') (room : 3 * w ≤ n) :
    Carries h w Loose g.outerAttribute g'.outerAttribute :=
  .bind (.marks "#") fun _ _ _ =>
    .bind (.within .bracket fun _ _ => carries_attributeContent known (by omega)) fun _ _ _ =>
      .pure trivial

theorem carries_innerAttribute (known : Known n g g') (room : 3 * w ≤ n) :
    Carries .closed w Loose g.innerAttribute g'.innerAttribute :=
  .bind (.marks "#") fun _ _ _ => .bind (.marks "!") fun _ _ _ =>
    .bind (.within .bracket fun _ _ => carries_attributeContent known (by omega)) fun _ _ _ =>
      .pure trivial

instance eats_outerAttribute : Eats g.outerAttribute := by
  unfold outerAttribute
  infer_instance

instance eats_innerAttribute : Eats g.innerAttribute := by
  unfold innerAttribute
  infer_instance

theorem carries_outerAttributes (known : Known n g g') (room : 3 * w ≤ n) :
    Carries h w (List.Forall₂ Loose) g.outerAttributes g'.outerAttributes :=
  .many (carries_outerAttribute known room)

theorem carries_innerAttributes (known : Known n g g') (room : 3 * w ≤ n) :
    Carries .closed w (List.Forall₂ Loose) g.innerAttributes g'.innerAttributes :=
  .many (carries_innerAttribute known room)

theorem carries_block (known : Known n g g') (room : 3 * w ≤ n) :
    Carries h w Loose g.block g'.block :=
  .bind (.within .brace fun _ _ => known.statements (by omega)) fun _ _ _ => .pure trivial

theorem carries_attributedBlock (known : Known n g g') (room : 3 * w ≤ n) :
    Carries h w Loose g.attributedBlock g'.attributedBlock := by
  refine .bind (.within (R := List.Forall₂ Loose) .brace fun _ _ => ?_) fun _ _ _ => .pure trivial
  exact .bind (carries_innerAttributes known (by omega)) fun _ _ related =>
    .bind (known.statements (by omega)) fun _ _ _ => .pure related

theorem carries_bracedItems (known : Known n g g') (room : 3 * w ≤ n)
    (item : ∀ v < w, Carries .closed v R p p') :
    Carries h w Eq (g.bracedItems p) (g'.bracedItems p') := by
  refine .bind (.within (R := List.Forall₂ R) .brace fun v fewer => ?_) fun _ _ _ => .pure rfl
  exact .bind (carries_innerAttributes known (by omega)) fun _ _ _ => .manyToEnd (item v fewer)

end Waymark.Source.Grammar
