import Waymark.Proofs.Generate.Blocks
import Waymark.Proofs.Generate.RegisteringTrees
import Waymark.Proofs.Source.Acceptance
import Waymark.Proofs.Source.Repeating

/-!
# The registering file as a file of the language
-/

namespace Waymark.Generate

open Waymark.Source Waymark.Source.Grammar
open Waymark.Source.Parser
open Bare (joint)

variable {g : Grammar} {p : Position}

/-- A word that is no keyword. -/
def IsFree (name : String) : Prop := keywords.contains name = false

theorem IsFree.ne {f k : String} (free : IsFree f) (key : keywords.contains k = true) : f ≠ k := by
  rintro rfl
  rw [free] at key
  cases key

theorem run_pathSegment {f : String} (free : IsFree f) :
    (g.pathSegment true).run ⟨[Bare.word f], p, none⟩ = .ok ((f, .none), ⟨[], p, none⟩) := by
  have away (names : List String) (keys : ∀ k ∈ names, keywords.contains k = true) :
      Ahead.words names [Bare.word f] = false := by
    simp only [Ahead.words, Ahead.anyOf, List.any_map, List.any_eq_false]
    exact fun k hk => by simpa [Ahead.word, Bare.word] using free.ne (keys k hk)
  have other := away ["super", "self", "crate", "try"] (by decide)
  have other' : Ahead.word "Self" [Bare.word f] =
      false := by simpa [Ahead.words, Ahead.anyOf] using away ["Self"] (by decide)
  refine (run_bind_ok rfl).trans ?_
  rw [other]
  refine (run_bind_ok rfl).trans ?_
  rw [other']
  have named : name.run ⟨[Bare.word f], p, none⟩ = .ok ((f, Bare.span), ⟨[], p, none⟩) := by
    unfold IsFree at free
    simp only [name, Parser.satisfying, Bare.word, free]
    rfl
  exact (run_bind_ok named).trans rfl

theorem run_functionPath {f : String} (free : IsFree f) :
    (g.path true).run ⟨functionTrees f, p, none⟩ =
      .ok (⟨false, [("handlers", .none), (f, .none)]⟩, ⟨[], p, none⟩) := by
  have rest : (g.pathRest true).run ⟨(functionTrees f).tail, p, none⟩ =
      .ok ([(f, .none)], ⟨[], p, none⟩) := by
    refine Finds.many (.next rfl ((run_bind_ok rfl).trans (run_pathSegment free)) ?_ (.nil rfl))
    simp [functionTrees]
  refine (run_bind_ok rfl).trans ?_
  refine (run_bind_ok rfl).trans ?_
  exact (run_bind_ok rest).trans rfl

theorem run_functionOperand {f : String} (free : IsFree f) :
    (g.operandRule true).run ⟨functionTrees f, p, none⟩ = .ok (plainExpr, ⟨[], p, none⟩) := by
  have path : (g.qualifiedPath true).run ⟨functionTrees f, p, none⟩ =
      .ok ((false, ⟨false, [("handlers", .none), (f, .none)]⟩), ⟨[], p, none⟩) := by
    refine (run_bind_ok rfl).trans ?_
    exact (run_bind_ok (run_functionPath free)).trans rfl
  have atom : (g.atom true).run ⟨functionTrees f, p, none⟩ = .ok (plainExpr, ⟨[], p, none⟩) :=
    (run_bind_ok path).trans rfl
  exact (run_bind_ok atom).trans rfl

/-- The functions that a call names are words that are no keywords. -/
def Call.NamesFree : Call → Prop
  | file _ | scope _ | catchAll _ | optional _ | priority _ => True
  | loader f | layout f => IsFree f

/-- An argument is an expression. -/
theorem run_argument {c : Call} (free : c.NamesFree) :
    (g.step.step.expression true).run ⟨c.argumentTrees, p, none⟩ = .ok
    (plainExpr, ⟨[], p, none⟩) := by
  have operand : (g.operandRule true).run ⟨c.argumentTrees, p, none⟩ =
      .ok (plainExpr, ⟨[], p, none⟩) := by
    cases c with
    | loader f | layout f => exact run_functionOperand (show IsFree _ from free)
    | optional flag => cases flag <;> rfl
    | file | scope | catchAll | priority => rfl
  exact (run_bind_ok operand).trans rfl

/-- A method that is called on something. -/
theorem run_memberAccess {method : String} (free : IsFree method) {arguments : List Tree}
    {found : List Expr}
    (inside : (listed (g.expression true)).run ⟨arguments, .origin, none⟩ =
      .ok (found, ⟨[], .origin, none⟩))
    (rest : List Tree) :
    g.memberAccess.run
        ⟨Bare.mark '.' :: Bare.word method :: Bare.group .paren arguments :: rest, p, none⟩ =
      .ok ((), ⟨rest, p, none⟩) := by
  have await : (optionalWord "await").run ⟨Bare.word method :: Bare.group .paren arguments :: rest,
      p, none⟩ =
      .ok (false, ⟨Bare.word method :: Bare.group .paren arguments :: rest, p, none⟩) := by
    refine (run_bind_ok (run_optional_of_not ?_)).trans rfl
    simpa [Ahead.word, Bare.word] using free.ne (k := "await") (by decide)
  have named : member.run ⟨Bare.word method :: Bare.group .paren arguments :: rest, p, none⟩ =
      .ok (true, ⟨Bare.group .paren arguments :: rest, p, none⟩) := by
    unfold IsFree at free
    simp only [member, Parser.satisfying, Bare.word, free]
    rfl
  have enclosed : (within .paren (listed (g.expression true))).run
      ⟨Bare.group .paren arguments :: rest, p, none⟩ =
      .ok ((found, Bare.span, .origin), ⟨rest, p, none⟩) := by
    simp only [within, Bare.group, if_true, inside]
    rfl
  refine (run_bind_ok rfl).trans ((run_bind_ok rfl).trans ?_)
  refine (run_bind_ok await).trans
    ((run_bind_ok named).trans ((run_bind_ok rfl).trans ((run_bind_ok rfl).trans ?_)))
  exact (run_bind_ok enclosed).trans rfl

theorem run_call {c : Call} (free : c.NamesFree) (rest : List Tree) :
    g.step.step.memberAccess.run ⟨c.trees ++ rest, p, none⟩ = .ok ((), ⟨rest, p, none⟩) := by
  have method : IsFree c.name := by cases c <;> rfl
  have some' : c.argumentTrees ≠ [] := by cases c <;> simp [Call.argumentTrees, functionTrees]
  exact run_memberAccess method (Lists.last some' (run_argument free) rfl).listed rest

/-- Calls in a row follow an operand, up to a comma. -/
theorem run_calls {cs : List Call} (free : ∀ c ∈ cs, c.NamesFree) :
    (g.step.step.trailers plainExpr).run ⟨cs.flatMap Call.trees ++ [Bare.mark ','], p, none⟩ =
      .ok (plainExpr, ⟨[Bare.mark ','], p, none⟩) := by
  induction cs with
  | nil => exact run_loop_stop rfl
  | cons c more ih =>
    have called := run_call (g := g) (p := p) (free c List.mem_cons_self) (more.flatMap Call.trees
      ++ [Bare.mark ','])
    rw [List.flatMap_cons, List.append_assoc]
    refine run_loop_next (c := plainExpr) ?_ ?_ (ih fun d hd => free d (List.mem_cons_of_mem _ hd))
    · show (g.step.step.memberAccess >>= fun _ => pure (Sum.inl plainExpr)).run
        ⟨c.trees ++ (more.flatMap Call.trees ++ [Bare.mark ',']), p, none⟩ = _
      exact (run_bind_ok called).trans rfl
    · simp [Call.trees]

/-- A call of `new` on which calls follow is an expression. -/
theorem run_built {type : String} (known : type = "Route" ∨ type = "Page") {arguments : List Tree}
    {found : List Expr}
    (inside : (listed (g.step.step.expression true)).run ⟨arguments, .origin, none⟩ =
      .ok (found, ⟨[], .origin, none⟩))
    {cs : List Call} (free : ∀ c ∈ cs, c.NamesFree) :
    (listed (g.step.step.step.step.expression true)).run
      ⟨[Bare.word type, joint ':', Bare.mark ':', Bare.word "new", Bare.group .paren arguments]
        ++ cs.flatMap Call.trees
        ++ [Bare.mark ','], p, none⟩ = .ok ([plainExpr], ⟨[], p, none⟩) := by
  have enclosed (rest : List Tree) : (within .paren (listed (g.step.step.expression true))).run
      ⟨Bare.group .paren arguments :: rest, p, none⟩ =
        .ok ((found, Bare.span, .origin), ⟨rest, p, none⟩) := by
    simp only [within, Bare.group, if_true, inside]
    rfl
  have trailers : (g.step.step.trailers plainExpr).run
      ⟨Bare.group .paren arguments :: (cs.flatMap Call.trees ++ [Bare.mark ',']), p, none⟩ =
        .ok (plainExpr, ⟨[Bare.mark ','], p, none⟩) := by
    refine run_loop_next (c := plainExpr) ?_ (Nat.lt_succ_self _) (run_calls free)
    refine (run_bind_ok rfl).trans ?_
    exact (run_bind_ok (run_bind_ok (enclosed _))).trans rfl
  have operand : (g.step.step.operandRule true).run
      ⟨[Bare.word type, joint ':', Bare.mark ':', Bare.word "new", Bare.group .paren arguments]
        ++ cs.flatMap Call.trees
        ++ [Bare.mark ','], p, none⟩ = .ok (plainExpr, ⟨[Bare.mark ','], p, none⟩) := by
    obtain rfl | rfl := known
    · show (g.step.step.trailers plainExpr >>= pure).run
        ⟨Bare.group .paren arguments :: (cs.flatMap Call.trees ++ [Bare.mark ',']), p, none⟩ = _
      exact (run_bind_ok trailers).trans rfl
    · show (g.step.step.trailers plainExpr >>= pure).run
        ⟨Bare.group .paren arguments :: (cs.flatMap Call.trees ++ [Bare.mark ',']), p, none⟩ = _
      exact (run_bind_ok trailers).trans rfl
  have expression := (run_bind_ok (f := g.step.step.step.operators true .jump) operand).trans rfl
  exact (Lists.next expression rfl (.nil rfl)).listed

/-- A method that is called on the tree is a statement. -/
theorem run_callTrees {method : String} (free : IsFree method) {arguments : List Tree}
    {found : List Expr}
    (inside : (listed (g.expression true)).run ⟨arguments, .origin, none⟩ =
      .ok (found, ⟨[], .origin, none⟩))
    (rest : List Tree) :
    g.step.step.statement.run ⟨callTrees method arguments ++ rest, p, none⟩ =
      .ok (false, ⟨rest, p, none⟩) := by
  let behind : List Tree :=
    Bare.mark '.' :: Bare.word method :: Bare.group .paren arguments :: Bare.mark ';' :: rest
  have access := run_memberAccess (p := p) free inside (Bare.mark ';' :: rest)
  have trailers : (g.trailers plainExpr).run ⟨behind, p, none⟩ =
      .ok (plainExpr, ⟨Bare.mark ';' :: rest, p, none⟩) := by
    refine run_loop_next (c := plainExpr) (j := ⟨Bare.mark ';' :: rest, p, none⟩) ?_ ?_
      (run_loop_stop rfl)
    · show (g.memberAccess >>= fun _ => pure (Sum.inl plainExpr)).run ⟨behind, p, none⟩ = _
      exact (run_bind_ok access).trans rfl
    · simp [behind]
  have operand : (g.operandRule true).run ⟨Bare.word "tree" :: behind, p, none⟩ =
      .ok (plainExpr, ⟨Bare.mark ';' :: rest, p, none⟩) := by
    show (g.trailers plainExpr >>= pure).run ⟨behind, p, none⟩ = _
    exact (run_bind_ok trailers).trans rfl
  have expression : g.step.statementExpressionRule.run ⟨Bare.word "tree" :: behind, p, none⟩ =
      .ok (plainExpr, ⟨Bare.mark ';' :: rest, p, none⟩) := by
    refine (run_bind_ok rfl).trans ?_
    exact (run_bind_ok operand).trans rfl
  show (g.step.statementExpressionRule >>= fun e => do
    if ← optionalMarks ";" then return false
    return e.needsSemicolon).run ⟨Bare.word "tree" :: behind, p, none⟩ = _
  exact (run_bind_ok expression).trans rfl

theorem RouteCall.namesFree_calls (c : RouteCall) : ∀ call ∈ c.calls, call.NamesFree := by
  intro call among
  simp only [calls, List.mem_append, List.mem_map, List.mem_singleton] at among
  obtain (((⟨f, -, rfl⟩ | rfl) | ⟨n, -, rfl⟩) | flag) | rfl := among
  any_goals trivial
  split at flag
  · rw [List.mem_singleton.1 flag]
    trivial
  · cases flag

theorem PageCall.namesFree_calls {c : PageCall}
    (free : ∀ f ∈ c.loader.toList ++ c.layouts, IsFree f) :
    ∀ call ∈ c.calls, call.NamesFree := by
  intro call among
  simp only [calls, List.mem_append, List.mem_map, List.mem_singleton] at among
  obtain ((((⟨f, -, rfl⟩ | rfl) | ⟨n, -, rfl⟩) | flag) | ⟨f, hf, rfl⟩) | ⟨f, hf, rfl⟩ := among
  any_goals trivial
  · split at flag
    · rw [List.mem_singleton.1 flag]
      trivial
    · cases flag
  · exact free f (List.mem_append_left _ hf)
  · exact free f (List.mem_append_right _ hf)

/-- The name of a function is an expression. -/
theorem run_functionTrees {f : String} (free : IsFree f) :
    (g.step.step.expression true).run ⟨functionTrees f, p, none⟩ = .ok (plainExpr, ⟨[], p, none⟩) :=
  run_argument (c := .loader f) free

/-- The name of a function stands last in a list of expressions. -/
theorem lists_functionTrees {f : String} (free : IsFree f) :
    Lists (g.step.step.expression true) ⟨functionTrees f, p, none⟩ [plainExpr] ⟨[], p, none⟩ :=
  .last (by simp [functionTrees]) (run_functionTrees free) rfl

/-- A statement is one of the language if the functions that it names are words that are no
keywords. -/
theorem run_statement {st : Statement} (free : ∀ f ∈ st.functions, IsFree f) (rest : List Tree) :
    g.step.step.step.step.step.step.statement.run ⟨st.trees ++ rest, p, none⟩ =
      .ok (false, ⟨rest, p, none⟩) := by
  cases st with
  | route c =>
    have named : IsFree c.function := free _ (by simp [Statement.functions])
    have inside : (listed (g.step.step.expression true)).run
        ⟨[Bare.word "Method", joint ':', Bare.mark ':', Bare.word c.method.variantName,
          Bare.mark ',', Bare.text, Bare.mark ','] ++ functionTrees c.function, .origin, none⟩ =
          .ok ([plainExpr, plainExpr, plainExpr], ⟨[], .origin, none⟩) := by
      let behind := Bare.mark ',' :: Bare.text :: Bare.mark ',' :: functionTrees c.function
      refine (Lists.next (j := ⟨behind, .origin, none⟩) ?_ rfl ?_).listed
      · cases c.method <;> rfl
      · exact .next rfl rfl (lists_functionTrees named)
    have built := run_built (p := .origin) (.inl rfl) inside c.namesFree_calls
    rw [Statement.trees, RouteCall.constructedTrees]
    exact run_callTrees (g := g.step.step.step.step) (show IsFree "add_route" from rfl) built rest
  | page c =>
    have named : IsFree c.function := free _ (by simp [Statement.functions])
    have calls := PageCall.namesFree_calls fun f hf => free f (List.mem_cons_of_mem _ hf)
    have inside : (listed (g.step.step.expression true)).run 
        ⟨[Bare.text, Bare.mark ','] ++ functionTrees c.function, .origin, none⟩ =
          .ok ([plainExpr, plainExpr], ⟨[], .origin, none⟩) :=
      (Lists.next rfl rfl (lists_functionTrees named)).listed
    have built := run_built (p := .origin) (.inr rfl) inside calls
    rw [Statement.trees, PageCall.constructedTrees]
    exact run_callTrees (g := g.step.step.step.step) (show IsFree "add_page" from rfl) built rest
  | middleware pattern scope f =>
    have named : IsFree f := free f (by simp [Statement.functions])
    have inside : (listed (g.step.step.step.step.expression true)).run
        ⟨[Bare.text, Bare.mark ',', Bare.text, Bare.mark ','] ++ functionTrees f,
          .origin, none⟩ =
          .ok ([plainExpr, plainExpr, plainExpr], ⟨[], .origin, none⟩) :=
      (Lists.next rfl rfl (.next rfl rfl (lists_functionTrees named))).listed
    rw [Statement.trees]
    exact run_callTrees (g := g.step.step.step.step)
      (show IsFree "add_middleware" from rfl) inside rest
  | proxy f =>
    have named : IsFree f := free f (by simp [Statement.functions])
    have inside : (listed (g.step.step.step.step.expression true)).run
        ⟨functionTrees f, .origin, none⟩ = .ok ([plainExpr], ⟨[], .origin, none⟩) :=
      (lists_functionTrees named).listed
    rw [Statement.trees]
    exact run_callTrees (g := g.step.step.step.step) (show IsFree "set_proxy" from rfl) inside rest
  | idle => rfl

/-- A statement begins with a word. -/
theorem Statement.trees_eq (st : Statement) : ∃ name more, st.trees = Bare.word name :: more := by
  cases st <;> exact ⟨_, _, rfl⟩

/-- The statements of a body are read to its end. -/
theorem run_statements {sts : List Statement} (free : ∀ st ∈ sts, ∀ f ∈ st.functions, IsFree f) :
    g.step.step.step.step.step.step.step.statements.run ⟨sts.flatMap Statement.trees, p, none⟩ =
      .ok ((), ⟨[], p, none⟩) := by
  induction sts with
  | nil => exact run_loop_stop rfl
  | cons st more ih =>
    have first := run_statement (g := g) (p := p) (free st List.mem_cons_self)
      (more.flatMap Statement.trees)
    have rest := ih fun other h => free other (List.mem_cons_of_mem _ h)
    obtain ⟨name, behind, start⟩ := st.trees_eq
    rw [List.flatMap_cons]
    -- the last statement ends the loop, and any other is followed by the next
    cases more with
    | nil =>
      rw [start] at first ⊢
      exact run_loop_stop ((run_bind_ok rfl).trans
        ((run_bind_ok rfl).trans ((run_bind_ok first).trans rfl)))
    | cons next others =>
      obtain ⟨name', behind', start'⟩ := next.trees_eq
      rw [List.flatMap_cons, start'] at first rest ⊢
      rw [start] at first ⊢
      refine run_loop_next
        ((run_bind_ok rfl).trans ((run_bind_ok rfl).trans ((run_bind_ok first).trans rfl))) ?_ rest
      simp only [List.cons_append, List.length_cons, List.length_append]
      omega

end Waymark.Generate
