import Waymark.Proofs.Source.Grammar.Depth
import Waymark.Proofs.Source.ItemRuns

/-!
# Items whatever follows them

A function ends with its body and an import with its semicolon. So the trees of either are read as
an item whatever trees follow them, and a function under any other name.

* `IsItem`: trees that are read as an item, whatever follows them;
* `FunctionRun.isItem`, `ImportRun.isItem`: the trees of functions and imports are.
-/

namespace Waymark.Source

open Waymark.Source.Parser

/-- Just these trees are left, and none is left over from before. -/
structure Input.Has (i : Input) (trees : List Tree) : Prop where
  trees : i.trees = trees
  leftover : i.leftover = none

/-- Trees that are read as an item, whatever follows them. -/
def IsItem (trees : List Tree) : Prop :=
  ∀ d : Nat, 3 * tokenCount trees + 1 ≤ d →
    ∀ (rest : List Tree) (i : Input), i.Has (trees ++ rest) →
    ∃ item j, (Grammar.atDepth d).item.run i = .ok (item, j) ∧ j.Has rest

variable {h : Horizon} {w : Nat}

theorem Horizon.Alike.has {j j' : Input} (alike : h.Alike w j j') (here : j.Has h.left) :
    j'.Has h.right := by
  obtain ⟨ts, us, left, right, same, -⟩ := alike.trees
  rw [here.trees] at left
  have nothing : ts = [] := List.append_left_eq_self.1 left.symm
  rw [nothing] at same
  rw [shapes_eq_nil same] at right
  exact ⟨right, alike.leftover.1 here.leftover⟩

theorem Horizon.alike_of_has {i i' : Input} {ts us : List Tree} (here : i.Has (ts ++ h.left))
    (there : i'.Has (us ++ h.right)) (same : shapes ts = shapes us) (small : tokenCount ts ≤ w) :
    h.Alike w i i' :=
  ⟨⟨ts, us, here.trees, there.trees, same, small⟩, by rw [here.leftover, there.leftover]⟩

namespace Parser

variable {α : Type} {R : α → α → Prop} {p p' : Parser α}

/-- What was read up to the horizon is read up to it on the other row. -/
theorem Carries.has (carries : Carries h w R p p') {i i' j : Input} {a : α} (alike : h.Alike w i i')
    (run : p.run i = .ok (a, j)) (left : j.Has h.left) :
    ∃ a' j', p'.run i' = .ok (a', j') ∧ R a a' ∧ j'.Has h.right := by
  obtain ⟨a', j', run', related, alike'⟩ := carries alike run (Nat.le_of_eq (by rw [left.trees]))
  exact ⟨a', j', run', related, alike'.has left⟩

/-- What stands between delimiters is read alike whatever follows them. -/
theorem Carries.enclosed (carries : Carries .closed w R p p') {d : Delimiter} {span : Span}
    {closing : Position} {content rest rest' : List Tree} {i i' j : Input} {a : α × Span × Position}
    (run : (Parser.within d p).run i = .ok (a, j))
    (here : i.trees = .group d span closing content :: rest)
    (done : j.leftover = none) (small : tokenCount content ≤ w)
    (there : i'.Has (.group d span closing content :: rest')) :
    ∃ a' j', (Parser.within d p').run i' = .ok (a', j') ∧ j'.Has rest' := by
  have clean : i.leftover = none := (Parser.within d p).leftover_none run done
  unfold Parser.within at run
  simp only [here, if_true, clean] at run
  split at run
  · cases run
  · next b k found =>
    cases run
    simp only [Option.orElse_eq_orElse, Option.orElse_eq_or, Option.or_eq_none_iff,
      Option.map_eq_none_iff, List.head?_eq_none_iff] at done
    have same : Horizon.closed.Alike w ⟨content, closing, none⟩ ⟨content, closing, none⟩ :=
      Horizon.alike_of_has ⟨(List.append_nil _).symm, rfl⟩ ⟨(List.append_nil _).symm, rfl⟩ rfl small
    obtain ⟨b', k', found', -, nothing⟩ := carries.has same found ⟨done.2, done.1⟩
    refine ⟨(b', span, closing), ⟨rest', i'.scope, none⟩, ?_, rfl, rfl⟩
    unfold Parser.within
    simp only [there.trees, there.leftover, if_true, found', nothing.trees, nothing.leftover,
      Horizon.closed, List.head?_nil, Option.map_none, Option.orElse_eq_orElse, Option.orElse_eq_or,
      Option.or_none]

theorem run_keyword_ok {n : String} {span : Span} {rest : List Tree} {i : Input}
    (has : i.Has (.word n span :: rest)) :
    ∃ j, (keyword n).run i = .ok (span.start, j) ∧ j.Has rest := by
  refine ⟨{ i with trees := rest }, ?_, rfl, has.leftover⟩
  simp only [keyword, Parser.satisfying, has.trees, if_true]

theorem run_name_ok {n : String} (free : keywords.contains n = false) {span : Span}
    {rest : List Tree} {i : Input}
    (has : i.Has (.word n span :: rest)) : ∃ j, name.run i = .ok ((n, span), j) ∧ j.Has rest := by
  refine ⟨{ i with trees := rest }, ?_, rfl, has.leftover⟩
  simp only [name, Parser.satisfying, has.trees, free, Bool.false_eq_true, if_false]

theorem run_lookahead_ok {p : Parser α} {i j : Input} {a : α} (clean : i.leftover = none)
    (run : p.run i = .ok (a, j)) : (lookahead p).run i = .ok (a, i) := by
  have same : { i with leftover := none } = i := by rw [← clean]
  unfold lookahead
  dsimp only
  rw [same, run]

end Parser

namespace Grammar

open Ahead

variable {g g' : Grammar} {n : Nat}

theorem carries_qualifiers : Carries h w Eq qualifiers qualifiers :=
  .bind (.optionalWord "const") fun _ _ _ => .bindSame (.optionalWord "async") fun _ =>
    .bind (.optionalWord "unsafe") fun _ _ _ => .bind (.optionalSame carries_abi) fun _ _ _ =>
      .pure rfl

theorem carries_shape [h.Plain] (known : Known n g g') (back : Known n g' g) (room : 3 * w ≤ n) :
    Carries h w Eq g.shape g'.shape :=
  .bindSame (carries_generics known room) fun _ =>
    .bind (.within (R := Eq) .paren fun _ _ => carries_parameters known back (by omega))
      fun _ _ same =>
      .bindSame (carries_output known room true) fun _ =>
        .bind (carries_whereClause known room) fun _ _ _ => .pure (by rw [same])

/-- Attributes and a visibility are read alike on two rows, and the same kind of item comes behind
them. -/
theorem opening_carries (known : Known n g g') (room : 3 * w ≤ n) {i i' j l : Input}
    {outer : List Position} {v : Visibility} (attributes : g.outerAttributes.run i = .ok (outer, j))
    (visible : visibility.run j = .ok (v, l)) (alike : h.Alike w i i')
    (far : h.left.length ≤ l.trees.length)
    (off : ∀ n, n ≠ "fn" → word n h.left = false) (bare : textLiteral h.left = false) :
    ∃ outer' j' v' l', g'.outerAttributes.run i' = .ok (outer', j') ∧
    visibility.run j' = .ok (v', l') ∧
      h.Alike w l l' ∧ seesFunction l.trees = seesFunction l'.trees ∧
      word "use" l.trees = word "use" l'.trees := by
  have longer := (visibility.rest_suffix visible).length_le
  obtain ⟨outer', j', run, -, alike₁⟩ :=
    carries_outerAttributes known room alike attributes (Nat.le_trans far longer)
  obtain ⟨v', l', run', -, alike₂⟩ := carries_visibility alike₁ visible far
  obtain ⟨ts, us, left, right, same, -⟩ := alike₂.trees
  have rows : Rows h l.trees l'.trees := ⟨ts, us, left, right, same⟩
  refine ⟨outer', j', v', l', run, run', alike₂, ?_, rows.test (word "use")⟩
  rw [seesFunction, seesFunction, rows.test (word "fn"), rows.seesSignature false off bare]

section
variable {i j l : Input} {outer : List Position} {v : Visibility}

theorem run_itemRule_function (attributes : g.outerAttributes.run i = .ok (outer, j))
    (visible : visibility.run j = .ok (v, l)) (clean : j.leftover = none)
    (chosen : seesFunction l.trees = true) :
    g.itemRule.run i = (g.functionItem outer).run j := by
  have looked : (lookahead (do return (← visibility, ← ahead))).run j = .ok ((v, l.trees), j) :=
    run_lookahead_ok clean (run_bind_ok visible)
  refine (run_bind_ok attributes).trans ((run_bind_ok looked).trans ?_)
  dsimp only
  rw [seesFunction] at chosen
  rw [if_pos chosen]

theorem run_itemRule_import (attributes : g.outerAttributes.run i = .ok (outer, j))
    (visible : visibility.run j = .ok (v, l)) (clean : j.leftover = none)
    (other : seesFunction l.trees = false)
    (chosen : word "use" l.trees = true) : g.itemRule.run i = (g.importItem outer).run j := by
  have looked : (lookahead (do return (← visibility, ← ahead))).run j = .ok ((v, l.trees), j) :=
    run_lookahead_ok clean (run_bind_ok visible)
  refine (run_bind_ok attributes).trans ((run_bind_ok looked).trans ?_)
  dsimp only
  rw [seesFunction] at other
  rw [if_neg (by rw [other]; decide), if_pos chosen]

end

/-! ## Functions -/

/-- A body is read alike whatever follows it. -/
theorem body_carries (known : Known n g g') {span : Span} {closing : Position}
    {content rest rest' : List Tree}
    {i i' j : Input} {inner : List Position} {stop : Position}
    (room : 3 * tokenCount content + 3 ≤ n)
    (body : g.attributedBlock.run i = .ok ((inner, stop), j))
    (here : i.trees = .group .brace span closing content :: rest) (done : j.leftover = none)
    (there : i'.Has (.group .brace span closing content :: rest')) :
    ∃ inner' stop' j', g'.attributedBlock.run i' = .ok ((inner', stop'), j') ∧ j'.Has rest' := by
  obtain ⟨a, j, inside, last⟩ := run_bind body
  obtain ⟨-, rfl⟩ := run_pure last
  have carries : Carries .closed (tokenCount content) (List.Forall₂ Loose)
      (do let attributes ← g.innerAttributes; g.statements; return attributes)
      (do let attributes ← g'.innerAttributes; g'.statements; return attributes) :=
    .bind (carries_innerAttributes known (by omega)) fun _ _ related =>
      .bind (known.statements (by omega)) fun _ _ _ => .pure related
  obtain ⟨⟨inner', span', closing'⟩, j', inside', has⟩ :=
    carries.enclosed inside here done (Nat.le_refl _) there
  exact ⟨inner', span'.stop, j', run_bind_ok inside', has⟩

namespace FunctionTrees

variable (t : FunctionTrees) (n : String) (s : Span)

theorem tokenCount_under :
    tokenCount (t.under n s) =
      tokenCount t.front + tokenCount t.middle + tokenCount t.content + 3 := by
  simp only [under, fromName, block, tokenCount_append, tokenCount]
  omega

end FunctionTrees

/-- A function is read step by step. -/
theorem run_functionItem_ok {g : Grammar} {i j₂ j₃ j₄ j₅ j₆ k : Input} {outer inner : List Position}
    {v : Visibility}
    {isAsync : Bool} {start stop : Position} {n : String} {span : Span}
    {a : Nat × List Parameter × Option Ty}
    {t : FunctionTrees} {rest : List Tree} (visible : visibility.run i = .ok (v, j₂))
    (qualified : qualifiers.run j₂ = .ok (isAsync, j₃))
    (keyword : (keyword "fn").run j₃ = .ok (start, j₄))
    (named : name.run j₄ = .ok ((n, span), j₅)) (shaped : g.shape.run j₅ = .ok (a, j₆))
    (braced : j₆.trees = t.block :: rest)
    (body : g.attributedBlock.run j₆ = .ok ((inner, stop), k)) :
    ∃ item, (g.functionItem outer).run i = .ok (item, k) := by
  obtain ⟨count, parameters, output⟩ := a
  have head : (g.signature false).run j₂ =
      .ok ((⟨isAsync, start, n, span, count, parameters, output⟩, false), j₆) := by
    rw [signature_eq]
    exact (run_bind_ok qualified).trans
      ((run_bind_ok keyword).trans ((run_bind_ok named).trans (run_bind_ok shaped)))
  have bodied : (optionalMarks ";").run j₆ = .ok (false, j₆) :=
    run_bind_ok (run_optional_of_not (by rw [braced]; rfl))
  refine ⟨.function ⟨outer ++ inner, v, ⟨isAsync, start, n, span, count, parameters, output⟩, stop⟩,
    ?_⟩
  refine (run_bind_ok visible).trans ((run_bind_ok head).trans ((run_bind_ok bodied).trans ?_))
  exact run_bind_ok body

/-- The trees of a function from its own beginning to the end of its body. -/
theorem FunctionRun.trees {t : FunctionTrees} {f : FunctionItem} {i k : Input}
    (run : FunctionRun g t i f k) : i.trees = t.under f.signature.name f.signature.nameSpan
      ++ k.trees := by
  obtain ⟨_, _, -, -, -, -, front, -, place, named, -, middle, braced, -, -, -, -⟩ := run
  rw [front, place.1, run_name named, middle, braced]
  simp [FunctionTrees.under, FunctionTrees.fromName]

/-- What is read of a function is read of its trees under any name that is no keyword. -/
theorem FunctionRun.carries {t : FunctionTrees} {f : FunctionItem} {i k : Input}
    (run : FunctionRun g t i f k)
    (done : k.leftover = none) (known : Known n g g') (back : Known n g' g) {name : String}
    {span : Span}
    (room : 3 * tokenCount (t.under name span) ≤ n) (free : keywords.contains name = false)
    {rest : List Tree} {i' : Input} (has : i'.Has (t.under name span ++ rest)) :
    ∃ item k', g'.itemRule.run i' = .ok (item, k') ∧ k'.Has rest := by
  obtain ⟨outer, inner, attributes, visible, chosen, qualified, front, keyword, place, named,
    shaped, middle, braced, body, -, -, -⟩ := run
  rename_i j₁ j₂ j₃ j₄ j₅ j₆
  rw [t.tokenCount_under] at room
  -- nothing was left over at any step
  have clean₆ : j₆.leftover = none := Parser.leftover_none _ body done
  have clean₅ : j₅.leftover = none := Parser.leftover_none _ shaped clean₆
  have clean₃ : j₃.leftover = none :=
    Parser.leftover_none _ keyword (Parser.leftover_none _ named clean₅)
  have clean₁ : j₁.leftover = none :=
    Parser.leftover_none _ visible (Parser.leftover_none _ qualified clean₃)
  have clean : i.leftover = none := Parser.leftover_none _ attributes clean₁
  -- up to the keyword
  let h : Horizon := ⟨.word "fn" t.keyword :: j₄.trees,
    .word "fn" t.keyword :: (t.fromName name span ++ rest), .word "fn"⟩
  have here : i.Has (t.front ++ h.left) := ⟨by rw [front, place.1], clean⟩
  have there : i'.Has (t.front ++ h.right) :=
    ⟨by rw [has.trees]; simp [h, FunctionTrees.under], has.leftover⟩
  have alike : h.Alike (tokenCount t.front) i i' :=
    Horizon.alike_of_has here there rfl (Nat.le_refl _)
  have left : j₃.Has h.left := ⟨place.1, clean₃⟩
  have longer := (qualifiers.rest_suffix qualified).length_le
  rw [left.trees] at longer
  have off : ∀ m, m ≠ "fn" → word m h.left = false := fun m other => decide_eq_false (Ne.symm other)
  obtain ⟨outer', j₁', v', j₂', attributes', visible', alike', chosen', -⟩ :=
    opening_carries known (by omega) attributes visible alike longer off rfl
  obtain ⟨_, j₃', qualified', rfl, left'⟩ := carries_qualifiers.has alike' qualified left
  have clean' : j₁'.leftover = none :=
    Parser.leftover_none _ visible' (Parser.leftover_none _ qualified' left'.leftover)
  -- the keyword and the new name
  obtain ⟨j₄', keyword', behind⟩ := run_keyword_ok left'
  obtain ⟨j₅', named', behind'⟩ := run_name_ok free behind
  -- up to the body
  let h' : Horizon := ⟨t.block :: k.trees, t.block :: rest, .braces⟩
  have plain : h'.Plain := ⟨.inr ⟨_, _, _, _, _, _, _, _, rfl, rfl⟩⟩
  have here' : j₅.Has (t.middle ++ h'.left) := ⟨by rw [middle, braced], clean₅⟩
  have there' : j₅'.Has (t.middle ++ h'.right) :=
    ⟨by rw [behind'.trees]; simp [h'], behind'.leftover⟩
  have alike'' : h'.Alike (tokenCount t.middle) j₅ j₅' :=
    Horizon.alike_of_has here' there' rfl (Nat.le_refl _)
  have shapes' : Carries h' (tokenCount t.middle) Eq g.shape g'.shape :=
    carries_shape known back (by omega)
  obtain ⟨a, j₆', shaped', -, left''⟩ := shapes'.has alike'' shaped ⟨braced, clean₆⟩
  -- the body
  obtain ⟨inner', stop', k', body', last⟩ := body_carries known (by omega) body braced done left''
  obtain ⟨item, run'⟩ :=
    run_functionItem_ok visible' qualified' keyword' named' shaped' left''.trees body'
  refine ⟨item, k', ?_, last⟩
  rw [run_itemRule_function attributes' visible' clean' (chosen'.symm.trans (chosen clean₁)), run']

/-- Under any name that is no keyword the trees of a function are an item. -/
theorem FunctionRun.isItem {d : Nat} {t : FunctionTrees} {f : FunctionItem} {i k : Input}
    (run : FunctionRun (atDepth d) t i f k) (deep : 3 * tokenCount i.trees ≤ d)
    (done : k.leftover = none)
    {name : String} (free : keywords.contains name = false) (span : Span) :
    IsItem (t.under name span) := by
  intro d' deep' rest i' has
  obtain ⟨e, rfl⟩ : ∃ e, d' = e + 1 := ⟨d' - 1, by omega⟩
  have fits : tokenCount (t.under name span) ≤ tokenCount i.trees := by
    rw [run.trees, tokenCount_append, t.tokenCount_under, t.tokenCount_under]
    omega
  have known : Known (3 * tokenCount (t.under name span)) (atDepth d) (atDepth e) :=
    known_atDepth (by omega) (by omega)
  have back : Known (3 * tokenCount (t.under name span)) (atDepth e) (atDepth d) :=
    known_atDepth (by omega) (by omega)
  exact run.carries done known back (Nat.le_refl _) free has

/-! ## Imports -/

/-- An import is read step by step. -/
theorem run_importItem_ok {i j₂ j₃ j₄ j₅ k : Input} {outer : List Position} {v : Visibility}
    {start : Position}
    {fromRoot plain : Bool} {span : Span} (visible : visibility.run i = .ok (v, j₂))
    (keyword : (keyword "use").run j₂ = .ok (start, j₃))
    (colons : (optionalMarks "::").run j₃ = .ok (fromRoot, j₄))
    (names : (g.importTree (!fromRoot)).run j₄ = .ok (plain, j₅))
    (semicolon : (Parser.marks ";").run j₅ = .ok (span, k)) :
    ∃ item, (g.importItem outer).run i = .ok (item, k) := by
  refine ⟨if plain then .import ⟨outer, v, start, span.stop⟩ else .other, ?_⟩
  refine (run_bind_ok visible).trans ((run_bind_ok keyword).trans ((run_bind_ok colons).trans ?_))
  exact (run_bind_ok names).trans ((run_bind_ok semicolon).trans rfl)

theorem run_semicolon_ok {joint : Bool} {span : Span} {rest : List Tree} {i : Input}
    (has : i.Has (.mark ';' joint span :: rest)) : ∃ j, (Parser.marks ";").run i = .ok (span, j) ∧
    j.Has rest := by
  obtain ⟨trees, scope, leftover⟩ := i
  obtain rfl : trees = _ := has.trees
  exact ⟨⟨rest, scope, leftover⟩, rfl, rfl, has.leftover⟩

/-- What is read of an import is read of its trees whatever follows them. -/
theorem ImportRun.carries {front : List Tree} {joint joint' : Bool} {span span' : Span}
    {m : ImportItem}
    {i k : Input} (run : ImportRun g front joint span i m k) (done : k.leftover = none)
    (known : Known n g g') (room : 3 * tokenCount front + 3 ≤ n) {rest : List Tree} {i' : Input}
    (has : i'.Has (front ++ .mark ';' joint' span' :: rest)) :
    ∃ item k', g'.itemRule.run i' = .ok (item, k') ∧ k'.Has rest := by
  obtain ⟨attributes, visible, other, keyword, colons, names, before, semicolon, ended, -⟩ := run
  rename_i j₁ j₂ j₃ j₄ j₅ fromRoot
  -- nothing was left over at any step
  have clean₅ : j₅.leftover = none := Parser.leftover_none _ semicolon done
  have clean₄ : j₄.leftover = none := Parser.leftover_none _ names clean₅
  have clean₂ : j₂.leftover = none :=
    Parser.leftover_none _ keyword (Parser.leftover_none _ colons clean₄)
  have clean₁ : j₁.leftover = none := Parser.leftover_none _ visible clean₂
  have clean : i.leftover = none := Parser.leftover_none _ attributes clean₁
  -- up to the semicolon
  let h : Horizon := ⟨.mark ';' joint span :: k.trees, .mark ';' joint' span' :: rest, .semicolon⟩
  have here : i.Has (front ++ h.left) := ⟨by rw [before, ended], clean⟩
  have alike : h.Alike (tokenCount front) i i' := Horizon.alike_of_has here has rfl (Nat.le_refl _)
  have left : j₅.Has h.left := ⟨ended, clean₅⟩
  have far₄ := ((g.importTree (!fromRoot)).rest_suffix names).length_le
  rw [left.trees] at far₄
  have far₃ := Nat.le_trans far₄ ((optionalMarks "::").rest_suffix colons).length_le
  have far₂ := Nat.le_trans far₃ (Parser.rest_suffix _ keyword).length_le
  obtain ⟨outer', j₁', v', j₂', attributes', visible', alike₂, chosen, use⟩ :=
    opening_carries known (by omega) attributes visible alike far₂ (fun _ _ => rfl) rfl
  obtain ⟨start', j₃', keyword', -, alike₃⟩ := Carries.keyword "use" alike₂ keyword far₃
  obtain ⟨_, j₄', colons', rfl, alike₄⟩ := Carries.optionalMarks "::" alike₃ colons far₄
  have tree : Carries h (tokenCount front) Eq (g.importTree (!fromRoot))
      (g'.importTree (!fromRoot)) :=
    known.importTree (by omega) _
  obtain ⟨_, j₅', names', rfl, left'⟩ := tree.has alike₄ names left
  obtain ⟨k', semicolon', last⟩ := run_semicolon_ok left'
  have clean₂' : j₂'.leftover = none := alike₂.leftover.1 clean₂
  have isImport : word "use" j₂.trees = true := by
    obtain ⟨span, here, -⟩ := run_keyword keyword
    rw [here]
    rfl
  obtain ⟨item, run'⟩ := run_importItem_ok visible' keyword' colons' names' semicolon'
  refine ⟨item, k', ?_, last⟩
  rw [run_itemRule_import attributes' visible' (Parser.leftover_none _ visible' clean₂')
    (chosen.symm.trans (other clean₁)) (use.symm.trans isImport), run']

/-- The trees of an import are an item. -/
theorem ImportRun.isItem {d : Nat} {front : List Tree} {joint joint' : Bool} {span span' : Span}
    {m : ImportItem}
    {i k : Input} (run : ImportRun (atDepth d) front joint span i m k)
    (deep : 3 * tokenCount i.trees ≤ d)
    (done : k.leftover = none) : IsItem (front ++ [.mark ';' joint' span']) := by
  intro d' deep' rest i' has
  obtain ⟨e, rfl⟩ : ∃ e, d' = e + 1 := ⟨d' - 1, by omega⟩
  have fits : tokenCount front + 1 ≤ tokenCount i.trees := by
    obtain ⟨-, -, -, -, -, -, before, -, ended, -⟩ := run
    rw [before, ended, tokenCount_append]
    have semicolon := tokenCount_cons (.mark ';' joint span) k.trees
    omega
  have size : tokenCount (front ++ [Tree.mark ';' joint' span']) = tokenCount front + 1 := by
    simp only [tokenCount_append, tokenCount]
  have known : Known (3 * (tokenCount front + 1)) (atDepth d) (atDepth e) :=
    known_atDepth (by omega) (by omega)
  rw [List.append_assoc, List.singleton_append] at has
  exact run.carries done known (Nat.le_refl _) has

end Grammar

end Waymark.Source
