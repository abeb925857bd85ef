import Waymark.Proofs.Source.Grammar.Items

/-!
# How deep a grammar has to be

The rules of a grammar find on trees what those of any deeper grammar find on trees of the same
shape, as long as the tokens are few for its depth. A file is read to as many levels as its tokens
ask for.

* `known_atDepth`: grammars of two depths agree on few tokens;
* `carries_file`: a file of one shape with another one.
-/

namespace Waymark.Source.Grammar

open Waymark.Source.Parser

variable {g g' : Grammar} {n w d d' : Nat}

theorem known_step (known : Known n g g') (back : Known n g' g) : Known (n + 1) g.step g'.step where
  bound room := carries_bound known (by omega)
  operand room := carries_operand known (by omega)
  operators room := carries_operators known (by omega)
  pattern room := carries_pattern known (by omega)
  importTree room := carries_importTree known (by omega)
  item room := carries_item known back (by omega)
  ty room := carries_ty known (by omega)
  expression room := carries_expression known (by omega)
  rightSide room := carries_rightSide known (by omega)
  statementExpression room := carries_statementExpression known (by omega)
  statements room := carries_statements known (by omega)

/-- Grammars of two depths agree on as few tokens as both are deep for. -/
theorem known_atDepth (deep : n ≤ d) (deep' : n ≤ d') : Known n (atDepth d) (atDepth d') := by
  induction n generalizing d d' with
  | zero => constructor <;> (intros; omega)
  | succ n ih =>
    obtain ⟨d, rfl⟩ : ∃ k, d = k + 1 := ⟨d - 1, by omega⟩
    obtain ⟨d', rfl⟩ : ∃ k, d' = k + 1 := ⟨d' - 1, by omega⟩
    exact known_step (ih (by omega) (by omega)) (ih (by omega) (by omega))

/-- What is read of a file is read of any other of the same shape, to any depth that suffices. -/
theorem carries_file (deep : 3 * w + 1 ≤ d) (deep' : 3 * w + 1 ≤ d') :
    Carries .closed w (List.Forall₂ Loose) (atDepth d).file (atDepth d').file := by
  have known := known_atDepth deep deep'
  refine .bind (carries_innerAttributes known (by omega)) fun _ _ _ => ?_
  exact .manyToEnd (known.item (by omega))

end Waymark.Source.Grammar
