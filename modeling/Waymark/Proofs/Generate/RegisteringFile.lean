import Waymark.Proofs.Generate.RegisteringItems
import Waymark.Proofs.Generate.Registering

/-!
# Which registering files are files
-/

namespace Waymark.Generate

open Waymark.Source Waymark.Source.Grammar
open Waymark.Source.Parser
open Bare (joint)

variable {g : Grammar} {p : Position}

/-- The body of the registering function is a block, if its statements are read to their end. -/
theorem run_registeringBlock {sts : List Statement}
    (statements : g.statements.run ⟨sts.flatMap Statement.trees, .origin, none⟩ =
      .ok ((), ⟨[], .origin, none⟩)) :
    (attributedBlock g).run ⟨[Bare.group .brace (sts.flatMap Statement.trees)], p, none⟩ =
      .ok (([], .origin), ⟨[], p, none⟩) := by
  have attributes : (innerAttributes g).run ⟨sts.flatMap Statement.trees, .origin, none⟩ =
      .ok ([], ⟨sts.flatMap Statement.trees, .origin, none⟩) := by
    refine Finds.many (.nil ?_)
    cases sts with
    | nil => rfl
    | cons st more =>
      obtain ⟨name, behind, start⟩ := st.trees_eq
      rw [List.flatMap_cons, start]
      rfl
  have content : (do
      let attributes ← innerAttributes g
      g.statements
      return attributes).run ⟨sts.flatMap Statement.trees, .origin, none⟩ =
        .ok ([], ⟨[], .origin, none⟩) := by
    refine (run_bind_ok attributes).trans ?_
    exact (run_bind_ok statements).trans rfl
  have inside : (within .brace (do
      let attributes ← innerAttributes g
      g.statements
      return attributes)).run ⟨[Bare.group .brace (sts.flatMap Statement.trees)], p, none⟩ =
        .ok (([], Bare.span, .origin), ⟨[], p, none⟩) := by
    simp only [within, Bare.group, if_true]
    rw [content]
    rfl
  exact (run_bind_ok inside).trans rfl

/-- The registering function is an item. -/
theorem run_functionItem {sts : List Statement} (free : ∀ st ∈ sts, ∀ f ∈ st.functions, IsFree f) :
    ∃ item, g.step.step.step.step.step.step.step.step.item.run
      ⟨functionItemTrees (sts.flatMap Statement.trees), p, none⟩ = .ok (item, ⟨[], p, none⟩) := by
  let inner := g.step.step.step.step.step.step.step
  let trees := functionItemTrees (sts.flatMap Statement.trees)
  have block := run_registeringBlock (g := inner) (p := p) (run_statements (p := .origin) free)
  have attributes : (outerAttributes inner).run ⟨trees, p, none⟩ =
      .ok ([.origin], ⟨trees.drop 2, p, none⟩) := rfl
  have front : (lookahead (do return (← visibility, ← ahead))).run ⟨trees.drop 2, p, none⟩ =
      .ok ((.everywhere .origin, trees.drop 3), ⟨trees.drop 2, p, none⟩) := rfl
  obtain ⟨head, signed⟩ : ∃ head, (signature inner false).run ⟨trees.drop 3, p, none⟩ =
      .ok (head, ⟨[Bare.group .brace (sts.flatMap Statement.trees)], p, none⟩) := ⟨_, rfl⟩
  let function : Item := .function ⟨[.origin] ++ [], .everywhere .origin, head.1, .origin⟩
  have item : (functionItem inner [.origin]).run ⟨trees.drop 2, p, none⟩ =
      .ok (function, ⟨[], p, none⟩) := by
    refine (run_bind_ok rfl).trans ?_
    refine (run_bind_ok signed).trans ?_
    refine (run_bind_ok rfl).trans ?_
    exact (run_bind_ok block).trans rfl
  refine ⟨function, (run_bind_ok attributes).trans ?_⟩
  exact (run_bind_ok front).trans item

/-- An import can go through the word. -/
def Importable (name : String) : Bool :=
  !keywords.contains name || ["self", "super", "crate", "try"].contains name

theorem sees_importable (name : String) (rest : List Tree) :
    Ahead.anyOf [Ahead.identifier, Ahead.words ["self", "super", "crate", "try"]]
      (Bare.word name :: rest) = Importable name := by
  simp [Ahead.anyOf, Ahead.words, Ahead.identifier, Ahead.word, Bare.word, Importable]

/-- An import that goes no further than one word, or goes on behind it. -/
theorem run_importTree_word {name : String} (importable : Importable name = true)
    (admitsRoot : Bool) (rest : List Tree) :
    (g.step.importTree admitsRoot).run ⟨Bare.word name :: Bare.mark ';' :: rest, p, none⟩ =
        .ok (true, ⟨Bare.mark ';' :: rest, p, none⟩) := by
  refine (run_bind_ok rfl).trans ?_
  rw [sees_importable, importable]
  rfl

theorem run_importTree_colons {name : String} (importable : Importable name = true)
    (admitsRoot : Bool) (rest : List Tree) :
    (g.step.importTree admitsRoot).run
        ⟨Bare.word name :: joint ':' :: Bare.mark ':' :: rest, p, none⟩ =
      (g.importTree false >>= fun _ => pure true).run ⟨rest, p, none⟩ := by
  refine (run_bind_ok rfl).trans ?_
  rw [sees_importable, importable]
  refine (run_bind_ok rfl).trans ?_
  exact (run_bind_ok rfl).trans rfl

/-- Names joined by double colons can be imported if an import can go through each of them. -/
theorem run_importTree {names : List String} (some' : names ≠ []) {d : Nat}
    (deep : names.length ≤ d) (admitsRoot : Bool) (rest : List Tree) :
    if names.all Importable then
      ((atDepth d).importTree admitsRoot).run ⟨pathTrees names ++ Bare.mark ';' :: rest, p, none⟩ =
        .ok (true, ⟨Bare.mark ';' :: rest, p, none⟩)
    else ∃ e, ((atDepth d).importTree admitsRoot).run
        ⟨pathTrees names ++ Bare.mark ';' :: rest, p, none⟩ = .error e := by
  induction names generalizing d admitsRoot with
  | nil => exact absurd rfl some'
  | cons first more ih =>
    obtain ⟨d, rfl⟩ : ∃ l, d = l + 1 := ⟨d - 1, by simp at deep; omega⟩
    obtain ⟨behind, start⟩ : ∃ behind, pathTrees (first :: more) = Bare.word first :: behind := by
      cases more <;> exact ⟨_, rfl⟩
    have asked := sees_importable first (behind ++ Bare.mark ';' :: rest)
    cases importable : Importable first with
    | false =>
      rw [List.all_cons, importable, Bool.false_and, if_neg Bool.false_ne_true, start]
      refine ⟨.origin, (run_bind_ok rfl).trans ?_⟩
      rw [List.cons_append, asked, importable]
      rfl
    | true =>
      rw [List.all_cons, importable, Bool.true_and]
      cases more with
      | nil => exact (if_pos rfl).mpr (run_importTree_word importable admitsRoot rest)
      | cons next others =>
        have behind := ih (by simp) (d := d) (by simp at deep ⊢; omega) false
        simp only [pathTrees, List.cons_append]
        have first' := run_importTree_colons (g := atDepth d) (p := p) importable admitsRoot
          (pathTrees (next :: others) ++ Bare.mark ';' :: rest)
        by_cases all : (next :: others).all Importable = true
        · rw [if_pos all] at behind ⊢
          exact first'.trans (run_bind_ok behind)
        · rw [if_neg all] at behind ⊢
          obtain ⟨e, failed⟩ := behind
          exact ⟨e, first'.trans (run_bind_error failed)⟩

theorem pathTrees_eq {names : List String} (some' : names ≠ []) :
    ∃ name behind, pathTrees names = Bare.word name :: behind := by
  cases names with
  | nil => exact absurd rfl some'
  | cons first more => cases more <;> exact ⟨_, _, rfl⟩

/-- The import of a path is an item if an import can go through each of its names. -/
theorem run_pathImport {names : List String} (some' : names ≠ []) {d : Nat}
    (deep : names.length ≤ d) (rest : List Tree) :
    if names.all Importable then
      ∃ item, (atDepth (d + 1)).item.run
        ⟨Bare.word "use" :: (pathTrees names ++ Bare.mark ';' :: rest), p, none⟩ =
        .ok (item, ⟨rest, p, none⟩)
    else ∃ e, (atDepth (d + 1)).item.run
      ⟨Bare.word "use" :: (pathTrees names ++ Bare.mark ';' :: rest), p, none⟩ = .error e := by
  have names' := run_importTree (p := p) some' deep true rest
  obtain ⟨name, behind, start⟩ := pathTrees_eq some'
  rw [start] at names' ⊢
  let trees := Bare.word "use" :: (Bare.word name :: behind ++ Bare.mark ';' :: rest)
  have attributes : (outerAttributes (atDepth d)).run ⟨trees, p, none⟩ =
      .ok ([], ⟨trees, p, none⟩) := rfl
  have visible : (lookahead (do return (← visibility, ← ahead))).run ⟨trees, p, none⟩ =
      .ok ((.inherited, trees), ⟨trees, p, none⟩) := rfl
  have goesOn : (importItem (atDepth d) []).run ⟨trees, p, none⟩ =
      ((atDepth d).importTree true >>= fun plain => do
      let stop := (← Parser.marks ";").stop
      return if plain then Item.import ⟨[], .inherited, .origin, stop⟩ else .other).run
        ⟨Bare.word name :: behind ++ Bare.mark ';' :: rest, p, none⟩ := by
    refine (run_bind_ok rfl).trans ?_
    refine (run_bind_ok rfl).trans ?_
    exact (run_bind_ok rfl).trans rfl
  have front : (itemRule (atDepth d)).run ⟨trees, p, none⟩ = _ :=
    (run_bind_ok attributes).trans ((run_bind_ok visible).trans goesOn)
  change if _ then ∃ item, (itemRule (atDepth d)).run _ = _
    else ∃ e, (itemRule (atDepth d)).run _ = _
  rw [front]
  by_cases all : names.all Importable = true
  · rw [if_pos all] at names' ⊢
    exact ⟨_, (run_bind_ok names').trans rfl⟩
  · rw [if_neg all] at names' ⊢
    obtain ⟨e, failed⟩ := names'
    exact ⟨e, run_bind_error failed⟩

/-- A registering file is a file of the language if an import can go through each name of its
path. -/
theorem accepted_fileTrees {path : List String} (some' : path ≠ []) {body : List Statement}
    (free : ∀ st ∈ body, ∀ f ∈ st.functions, IsFree f) :
    Accepted (fileTrees path body) ↔ path.all Importable = true := by
  let trees := fileTrees path body
  let d := 3 * tokenCount trees + path.length
  let behind := functionItemTrees (body.flatMap Statement.trees)
  have deep : 3 * tokenCount trees + 1 ≤ d + 9 := by omega
  have opened : (atDepth (d + 9)).innerAttributes.run ⟨trees, .origin, none⟩ =
      .ok ([.origin], ⟨trees.drop 3, .origin, none⟩) := rfl
  have first : ∃ item, (atDepth (d + 9)).item.run ⟨trees.drop 3, .origin, none⟩ =
      .ok (item, ⟨Bare.word "use" :: (pathTrees path ++ Bare.mark ';' :: behind), .origin, none⟩) :=
    ⟨_, rfl⟩
  obtain ⟨item, first⟩ := first
  have second := run_pathImport (p := .origin) some' (show path.length ≤ d + 8 by omega) behind
  obtain ⟨item₃, third⟩ := run_functionItem (g := atDepth (d + 1)) (p := .origin) free
  rw [accepted_iff deep]
  by_cases all : path.all Importable = true
  · rw [if_pos all] at second
    obtain ⟨item₂, second⟩ := second
    have last : Finds (Ahead.isNot Ahead.nothing) (atDepth (d + 9)).item ⟨behind, .origin, none⟩
        [item₃] ⟨[], .origin, none⟩ := .next rfl third (Nat.zero_lt_succ _) (.nil rfl)
    have items : Finds (Ahead.isNot Ahead.nothing) (atDepth (d + 9)).item
        ⟨trees.drop 3, .origin, none⟩ [item, item₂, item₃] ⟨[], .origin, none⟩ := by
      refine .next rfl first ?_ (.next rfl second ?_ last)
      · simp [trees, fileTrees, frontTrees, behind]
      · simp
        omega
    exact iff_of_true ⟨_, complete_eq_ok.2 ⟨_, (run_bind_ok opened).trans items.many, rfl, rfl⟩⟩ all
  · rw [if_neg all] at second
    obtain ⟨e, second⟩ := second
    refine iff_of_false ?_ all
    rintro ⟨items, done⟩
    obtain ⟨j, run, -⟩ := complete_eq_ok.1 done
    have failed : (atDepth (d + 9)).file.run ⟨trees, .origin, none⟩ = .error e :=
      (run_bind_ok opened).trans (run_many_error rfl first rfl second)
    cases failed.symm.trans run

end Waymark.Generate
