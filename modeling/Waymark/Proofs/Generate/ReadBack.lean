import Waymark.Proofs.Generate.Reading
import Waymark.Proofs.Source.Parts

/-!
# Statements read back

A statement is written down as parts, and the tokens of its parts are read as that statement again.
This goes by layers, each a lemma about what stands before any rest:

* `call_body`, `allCalls_lines`: the calls of a chain, with their arguments;
* `route_parts`, `page_parts`: what a chain makes;
* `statement_parts`, `statements_parts`: the statements of a body;
* `file_parts`: the whole file.
-/

namespace Waymark.Generate

open Waymark.Http (Method)
open Waymark.Source.Lexer

/-- The name of an emitted function in parts. -/
def functionParts (name : String) : List Part :=
  [.word "handlers", .mark ':', .mark ':', .word name]

/-- Blanks at the front of a line. -/
def indent (n : Nat) : List Part := List.replicate n (.blank ' ')

namespace Call

/-- The name of a call. -/
def name : Call → String
  | file _ => "file"
  | scope _ => "scope"
  | catchAll _ => "catch_all_param"
  | optional _ => "optional_catch_all"
  | priority _ => "priority"
  | loader _ => "loader"
  | layout _ => "layout"

/-- The argument of a call in parts. -/
def argument : Call → List Part
  | file s | scope s | catchAll s => [.text s]
  | optional flag => [.word (if flag then "true" else "false")]
  | priority value => [.number value]
  | loader f | layout f => functionParts f

/-- A call in parts, behind its point. -/
def body (c : Call) : List Part :=
  .word c.name :: .opening .paren :: (c.argument ++ [.closing .paren])

/-- A call in parts, on a line of its own. -/
def parts (c : Call) : List Part := indent 12 ++ .mark '.' :: c.body

end Call

/-- The calls that make a route from one without calls. -/
def RouteCall.calls (c : RouteCall) : List Call :=
  c.file.toList.map Call.file ++ [Call.scope c.scope] ++ c.catchAll.toList.map Call.catchAll
    ++ (if c.optional then [Call.optional true] else []) ++ [Call.priority c.priority.toNat]

/-- The calls that make a page from one without calls. -/
def PageCall.calls (c : PageCall) : List Call :=
  c.file.toList.map Call.file ++ [Call.scope c.scope] ++ c.catchAll.toList.map Call.catchAll
    ++ (if c.optional then [Call.optional true] else []) ++ c.loader.toList.map Call.loader
    ++ c.layouts.map Call.layout

theorem RouteCall.foldlM_calls (c : RouteCall) :
    c.calls.foldlM RouteCall.called? (.new c.method c.pattern c.function) = some c := by
  have small : c.priority.toNat < 256 := c.priority.toNat_lt
  obtain ⟨method, pattern, function, file, scope, catchAll, optional, priority⟩ := c
  cases file <;> cases catchAll <;> cases optional <;>
    simp [calls, RouteCall.new, called?, small]

theorem PageCall.foldlM_layouts (c : PageCall) (more : List String) :
    (more.map Call.layout).foldlM PageCall.called? c = some
    { c with layouts := c.layouts ++ more } := by
  induction more generalizing c with
  | nil => simp
  | cons f rest ih =>
    rw [List.map_cons, List.foldlM_cons]
    simp [called?, ih]

theorem PageCall.foldlM_calls (c : PageCall) :
    c.calls.foldlM PageCall.called? (.new c.pattern c.function) = some c := by
  obtain ⟨pattern, function, file, scope, catchAll, optional, loader, layouts⟩ := c
  cases file <;> cases catchAll <;> cases optional <;> cases loader <;>
    simp [calls, PageCall.new, called?, foldlM_layouts]

/-- Lines one after the other. -/
def lines : List (List Part) → List Part
  | [] => []
  | [line] => line
  | line :: next :: more => line ++ .blank '\n' :: lines (next :: more)

/-- A statement that hands over what a constructor and calls make. -/
def addParts (function : String) (constructed : List Part) (calls : List Call) : List Part :=
  indent 4 ++ [Part.word "tree", .mark '.', .word function, .opening .paren, .blank '\n']
    ++ indent 8
    ++ constructed ++ [Part.blank '\n'] ++ lines (calls.map Call.parts)
      ++ [Part.mark ',', .blank '\n']
    ++ indent 4 ++ [Part.closing .paren, .mark ';', .blank '\n']

/-- The call by which a route is made. -/
def RouteCall.constructed (c : RouteCall) : List Part :=
  [Part.word "Route", .mark ':', .mark ':', .word "new", .opening .paren, .word "Method", .mark ':',
    .mark ':', .word c.method.variantName, .mark ',', .blank ' ', .text c.pattern,
    .mark ',', .blank ' ']
    ++ functionParts c.function ++ [Part.closing .paren]

/-- The call by which a page is made. -/
def PageCall.constructed (c : PageCall) : List Part :=
  [Part.word "Page", .mark ':', .mark ':', .word "new", .opening .paren, .text c.pattern, .mark ',',
    .blank ' '] ++ functionParts c.function ++ [Part.closing .paren]

/-- A statement in parts. -/
def Statement.parts : Statement → List Part
  | route c => addParts "add_route" c.constructed c.calls
  | page c => addParts "add_page" c.constructed c.calls
  | middleware pattern scope function =>
    indent 4 ++ [.word "tree", .mark '.', .word "add_middleware", .opening .paren, .text pattern,
      .mark ',', .blank ' ', .text scope, .mark ',', .blank ' '] ++ functionParts function
      ++ [.closing .paren, .mark ';', .blank '\n']
  | proxy function =>
    indent 4 ++ [.word "tree", .mark '.', .word "set_proxy", .opening .paren]
      ++ functionParts function
      ++ [.closing .paren, .mark ';', .blank '\n']
  | idle =>
    indent 4 ++ [.word "let", .blank ' ', .word "_", .blank ' ', .mark '=', .blank ' ',
      .word "tree", .mark ';', .blank '\n']

/-- Names joined by double colons in parts. -/
def pathParts : List String → List Part
  | [] => []
  | [last] => [.word last]
  | first :: next :: more => .word first :: .mark ':' :: .mark ':' :: pathParts (next :: more)

/-- The first lines of a registering file in parts. -/
def frontParts : List Part :=
  [.comment "Code generated by trellis. DO NOT EDIT.", .blank '\n', .mark '#', .mark '!',
    .opening .bracket, .word "allow", .opening .paren, .word "unused_imports", .closing .paren,
    .closing .bracket, .blank '\n', .blank '\n', .word "use", .blank ' ',
    .word "trellis", .mark ':', .mark ':', .opening .brace, .word "Method", .mark ',', .blank ' ',
    .word "Page", .mark ',', .blank ' ', .word "Route", .mark ',', .blank ' ', .word "RouteTree",
    .closing .brace, .mark ';', .blank '\n', .blank '\n', .word "use", .blank ' ']

/-- The head of the registering function in parts. -/
def headParts : List Part :=
  [.note "Registers every discovered route, page, middleware and proxy.", .blank '\n', .word "pub",
    .blank ' ', .word "fn", .blank ' ', .word "register", .opening .paren, .word "tree", .mark ':',
    .blank ' ', .mark '&', .word "mut", .blank ' ', .word "RouteTree", .closing .paren, .blank ' ',
    .opening .brace, .blank '\n']

/-- A registering file in parts. -/
def fileParts (path : List String) (body : List Statement) : List Part :=
  frontParts ++ pathParts path ++ [Part.mark ';', .blank '\n', .blank '\n'] ++ headParts
    ++ body.flatMap Statement.parts ++ [Part.closing .brace, .blank '\n']

namespace Reader

section
variable {α β : Type}

@[simp] theorem run_bind (p : Reader α) (f : α → Reader β) (ts : List Token) :
    (p >>= f) ts = (p ts).bind fun found => f found.1 found.2 := rfl

@[simp] theorem run_pure (a : α) (ts : List Token) : (pure a : Reader α) ts = some (a, ts) := rfl

@[simp] theorem run_map (f : α → β) (p : Reader α) (ts : List Token) :
    (f <$> p) ts = (p ts).map fun found => (f found.1, found.2) := by
  cases h : p ts <;> simp [Functor.map, StateT.map, h]

end

theorem text_quoted (s : String) (rest : List Token) :
    text (.literal .text (Text.Quoted.encode s.toList) :: rest) = some (s, rest) := by
  have value := Source.Literal.valueFrom_encode s.toList []
  simp [Text.Quoted.encode, text, value]

theorem tokensOf_indent (n : Nat) (rest : List Part) :
    tokensOf (indent n ++ rest) = tokensOf rest := by
  induction n with
  | zero => rfl
  | succ n ih => exact ih

theorem function_parts (f : String) (rest : List Part) :
    function (tokensOf (functionParts f ++ rest)) = some (f, tokensOf rest) := by
  simp [functionParts, tokensOf, Part.token?, Part.marksFirst, function, word, colons, name]

/-- The reader of an argument like that of a call. -/
def argumentLike : Call → Reader Call
  | .file _ => Call.file <$> text
  | .scope _ => Call.scope <$> text
  | .catchAll _ => Call.catchAll <$> text
  | .optional _ => Call.optional <$> flag
  | .priority _ => Call.priority <$> number
  | .loader _ => Call.loader <$> function
  | .layout _ => Call.layout <$> function

theorem argumentLike_argument (c : Call) (rest : List Part) :
    argumentLike c (tokensOf (c.argument ++ rest)) = some (c, tokensOf rest) := by
  cases c with
  | file s | scope s | catchAll s =>
    have quoted := text_quoted s (tokensOf rest)
    rw [argumentLike, run_map]
    exact congrArg (Option.map _) quoted
  | optional flag => cases flag <;> rfl
  | priority value => rfl
  | loader f | layout f =>
    have named := function_parts f rest
    rw [argumentLike, run_map]
    exact congrArg (Option.map _) named

/-- The name of a call decides how its argument is read. -/
theorem call_name (c : Call) (ts : List Token) :
    call (.word c.name :: .opening .paren :: ts) =
      (argumentLike c ts).bind fun made =>
        (closing .paren made.2).bind fun more => some (made.1, more.2) := by
  cases c <;> rfl

theorem call_body (c : Call) (rest : List Part) :
    call (tokensOf (c.body ++ rest)) = some (c, tokensOf rest) := by
  have parts : tokensOf (c.body ++ rest) =
      .word c.name :: .opening .paren :: tokensOf (c.argument ++ .closing .paren :: rest) := by
    rw [Call.body, List.cons_append, List.cons_append, List.append_assoc]
    rfl
  rw [parts, call_name, argumentLike_argument]
  rfl

theorem calls_parts (fuel : Nat) (c : Call) (rest : List Part) :
    calls (fuel + 1) (tokensOf (c.parts ++ rest)) =
      (calls fuel (tokensOf rest)).map fun more => (c :: more.1, more.2) := by
  have point : tokensOf (.mark '.' :: c.body ++ rest) =
      .mark '.' false :: tokensOf (c.body ++ rest) :=
    rfl
  rw [Call.parts, List.append_assoc, tokensOf_indent, point, calls, call_body]
  rfl

theorem calls_lines {fuel : Nat} {cs : List Call} (enough : cs.length < fuel) (rest : List Part) :
    calls fuel (tokensOf (lines (cs.map Call.parts) ++ .mark ',' :: rest)) =
      some (cs, tokensOf (.mark ',' :: rest)) := by
  induction cs generalizing fuel with
  | nil =>
    obtain ⟨fuel, rfl⟩ : ∃ n, fuel = n + 1 := ⟨fuel - 1, by omega⟩
    rfl
  | cons c more ih =>
    obtain ⟨fuel, rfl⟩ : ∃ n, fuel = n + 1 := ⟨fuel - 1, by omega⟩
    have further := ih (Nat.lt_of_succ_lt_succ enough)
    cases more with
    | nil =>
      rw [List.map_singleton, lines, calls_parts]
      rw [List.map_nil, lines, List.nil_append] at further
      rw [further]
      rfl
    | cons next rest' =>
      have joined (end' : List Part) :
          lines ((c :: next :: rest').map Call.parts) ++ end' =
            c.parts ++ .blank '\n' :: (lines ((next :: rest').map Call.parts) ++ end') := by
        simp [lines]
      have skipped (end' : List Part) : tokensOf (.blank '\n' :: end') = tokensOf end' := rfl
      rw [joined, calls_parts, skipped, further]
      rfl

theorem length_tokensOf_append (front rest : List Part) :
    (tokensOf rest).length ≤ (tokensOf (front ++ rest)).length := by
  induction front with
  | nil => exact Nat.le_refl _
  | cons p more ih =>
    rw [List.cons_append, tokensOf, List.length_append]
    omega

theorem length_calls_lt (cs : List Call) (rest : List Part) :
    cs.length < (tokensOf (lines (cs.map Call.parts) ++ .mark ',' :: rest)).length := by
  have point (c : Call) (more : List Part) :
      (tokensOf more).length < (tokensOf (c.parts ++ more)).length := by
    have body := length_tokensOf_append c.body more
    have marked : tokensOf (.mark '.' :: (c.body ++ more)) =
        .mark '.' false :: tokensOf (c.body ++ more) :=
      rfl
    rw [Call.parts, List.append_assoc, tokensOf_indent, List.cons_append, marked, List.length_cons]
    omega
  induction cs with
  | nil => exact Nat.succ_pos _
  | cons c more ih =>
    cases more with
    | nil =>
      have one := point c (.mark ',' :: rest)
      rw [List.map_singleton, lines]
      exact Nat.lt_of_le_of_lt (Nat.succ_pos _) one
    | cons next others =>
      have one := point c (.blank '\n' ::
        (lines ((next :: others).map Call.parts) ++ .mark ',' :: rest))
      have skipped (end' : List Part) : tokensOf (.blank '\n' :: end') = tokensOf end' := rfl
      rw [skipped] at one
      rw [List.map_cons, List.map_cons, lines, List.append_assoc, List.cons_append]
      exact Nat.lt_of_le_of_lt (Nat.succ_le_of_lt ih) one

theorem allCalls_lines (cs : List Call) (rest : List Part) :
    allCalls (tokensOf (lines (cs.map Call.parts) ++ .mark ',' :: rest)) =
      some (cs, tokensOf rest) := by
  have read := calls_lines (length_calls_lt cs rest) rest
  simp [allCalls, bounded, read, tokensOf, Part.token?, mark]

theorem method_variant (m : Method) (rest : List Token) :
    method (.word "Method" :: .mark ':' true :: .mark ':' false :: .word m.variantName :: rest) =
      some (m, rest) := by
  cases m <;> rfl

theorem route_parts (c : RouteCall) (rest : List Part) :
    route (tokensOf (c.constructed ++ .blank '\n' ::
      (lines (c.calls.map Call.parts) ++ .mark ',' :: rest))) = some (.route c, tokensOf rest) := by
  have named := function_parts c.function
    (.closing .paren :: .blank '\n' :: (lines (c.calls.map Call.parts) ++ .mark ',' :: rest))
  have called := allCalls_lines c.calls rest
  simp only [route, RouteCall.constructed, List.cons_append, List.nil_append,
    List.append_assoc, tokensOf, Part.token?, Option.toList_some, Part.marksFirst,
    Option.toList_none, run_bind, word, ↓reduceIte, colons, opening, mark, closing, StateT.lift,
    Option.pure_def, Option.bind_eq_bind, Option.bind_some, method_variant, text_quoted, named,
      called, RouteCall.foldlM_calls, Option.map_some]

theorem page_parts (c : PageCall) (rest : List Part) :
    page (tokensOf (c.constructed ++ .blank '\n' ::
      (lines (c.calls.map Call.parts) ++ .mark ',' :: rest))) = some (.page c, tokensOf rest) := by
  have named := function_parts c.function
    (.closing .paren :: .blank '\n' :: (lines (c.calls.map Call.parts) ++ .mark ',' :: rest))
  have called := allCalls_lines c.calls rest
  simp only [page, PageCall.constructed, List.cons_append, List.nil_append,
    List.append_assoc, tokensOf, Part.token?, Option.toList_some, Part.marksFirst,
    Option.toList_none, run_bind, word, ↓reduceIte, colons, opening, mark, closing, StateT.lift,
    Option.pure_def, Option.bind_eq_bind, Option.bind_some, text_quoted, named, called,
      PageCall.foldlM_calls, Option.map_some]

/-- The method that is called on the tree decides how its arguments are read. -/
theorem statement_method {called : String} {arguments : Reader Statement}
    (known : (called, arguments) ∈ [("add_route", route), ("add_page", page),
      ("add_middleware", middleware), ("set_proxy", Statement.proxy <$> function)])
    (joint : Bool) (ts : List Token) :
    statement (.word "tree" :: .mark '.' joint :: .word called :: .opening .paren :: ts) =
      (arguments ts).bind fun made => (closing .paren made.2).bind fun more =>
        (mark ';' more.2).bind fun last => some (made.1, last.2) := by
  simp only [List.mem_cons, List.not_mem_nil, or_false, Prod.mk.injEq] at known
  obtain ⟨rfl, rfl⟩ | ⟨rfl, rfl⟩ | ⟨rfl, rfl⟩ | ⟨rfl, rfl⟩ := known <;> rfl

theorem middleware_parts (pattern scope f : String) (rest : List Part) :
    middleware (tokensOf (.text pattern :: .mark ',' :: .blank ' ' :: .text scope :: .mark ',' ::
      .blank ' ' ::
      (functionParts f ++ rest))) = some (.middleware pattern scope f, tokensOf rest) := by
  have named := function_parts f rest
  simp [tokensOf, Part.token?, middleware, mark, text_quoted, named]

/-- A statement is read back from its parts. -/
theorem statement_parts (st : Statement) (rest : List Part) :
    statement (tokensOf (st.parts ++ rest)) = some (st, tokensOf rest) := by
  cases st with
  | route c =>
    have parts : tokensOf ((Statement.route c).parts ++ rest) = .word "tree" :: .mark '.' false ::
        .word "add_route" :: .opening .paren :: tokensOf (c.constructed ++ .blank '\n' ::
          (lines (c.calls.map Call.parts) ++ .mark ',' :: .blank '\n' ::
            (indent 4 ++ .closing .paren :: .mark ';' :: .blank '\n' :: rest))) := by
      simp [Statement.parts, addParts, tokensOf_indent, tokensOf, Part.token?, Part.marksFirst]
    rw [parts, statement_method (.head _), route_parts]
    rfl
  | page c =>
    have parts : tokensOf ((Statement.page c).parts ++ rest) = .word "tree" :: .mark '.' false ::
        .word "add_page" :: .opening .paren :: tokensOf (c.constructed ++ .blank '\n' ::
          (lines (c.calls.map Call.parts) ++ .mark ',' :: .blank '\n' ::
            (indent 4 ++ .closing .paren :: .mark ';' :: .blank '\n' :: rest))) := by
      simp [Statement.parts, addParts, tokensOf_indent, tokensOf, Part.token?, Part.marksFirst]
    rw [parts, statement_method (.tail _ (.head _)), page_parts]
    rfl
  | middleware pattern scope f =>
    have read := middleware_parts pattern scope f
      (.closing .paren :: .mark ';' :: .blank '\n' :: rest)
    have parts : tokensOf ((Statement.middleware pattern scope f).parts ++ rest) =
        .word "tree" :: .mark '.' false :: .word "add_middleware" :: .opening .paren ::
          tokensOf (.text pattern :: .mark ',' :: .blank ' ' :: .text scope :: .mark ',' ::
            .blank ' ' ::
            (functionParts f ++ .closing .paren :: .mark ';' :: .blank '\n' :: rest)) := by
      simp [Statement.parts, tokensOf_indent, tokensOf, Part.token?, Part.marksFirst]
    rw [parts, statement_method (.tail _ (.tail _ (.head _))), read]
    rfl
  | proxy f =>
    have named := function_parts f (.closing .paren :: .mark ';' :: .blank '\n' :: rest)
    have parts : tokensOf ((Statement.proxy f).parts ++ rest) = .word "tree" :: .mark '.' false ::
        .word "set_proxy" :: .opening .paren ::
          tokensOf (functionParts f ++ .closing .paren :: .mark ';' :: .blank '\n' :: rest) := by
      simp [Statement.parts, tokensOf_indent, tokensOf, Part.token?, Part.marksFirst]
    rw [parts, statement_method (.tail _ (.tail _ (.tail _ (.head _)))), run_map, named]
    rfl
  | idle => rfl

theorem statement_ne_nil (st : Statement) (rest : List Part) :
    ∃ n more, tokensOf (st.parts ++ rest) = .word n :: more := by
  cases st <;> exact ⟨_, _, rfl⟩

/-- The statements of a body are read back from their parts. -/
theorem statements_parts {fuel : Nat} {sts : List Statement} (enough : sts.length < fuel)
    (rest : List Part) :
    statements fuel (tokensOf (sts.flatMap Statement.parts ++ .closing .brace :: rest)) =
      some (sts, tokensOf (.closing .brace :: rest)) := by
  induction sts generalizing fuel with
  | nil =>
    obtain ⟨fuel, rfl⟩ : ∃ n, fuel = n + 1 := ⟨fuel - 1, by omega⟩
    rfl
  | cons st more ih =>
    obtain ⟨fuel, rfl⟩ : ∃ n, fuel = n + 1 := ⟨fuel - 1, by omega⟩
    have further := ih (Nat.lt_of_succ_lt_succ enough)
    have first := statement_parts st (more.flatMap Statement.parts ++ .closing .brace :: rest)
    obtain ⟨n, others, leads⟩ :=
      statement_ne_nil st (more.flatMap Statement.parts ++ .closing .brace :: rest)
    rw [List.flatMap_cons, List.append_assoc]
    rw [leads] at first ⊢
    simp [statements, first, further]

theorem length_statements_lt (sts : List Statement) (rest : List Part) :
    sts.length < (tokensOf (sts.flatMap Statement.parts ++ .closing .brace :: rest)).length := by
  induction sts with
  | nil => exact Nat.succ_pos _
  | cons st more ih =>
    have longer (others : List Part) :
        (tokensOf others).length < (tokensOf (st.parts ++ others)).length := by
      obtain ⟨p, front, same, token⟩ : ∃ p front, st.parts = indent 4 ++ p :: front ∧
          ∀ joint, (p.token? joint).toList.length = 1 := by
        cases st <;> exact ⟨_, _, rfl, fun _ => rfl⟩
      have behind := length_tokensOf_append front others
      rw [same, List.append_assoc, tokensOf_indent, List.cons_append, tokensOf, List.length_append,
        token]
      omega
    rw [List.flatMap_cons, List.append_assoc]
    exact Nat.lt_of_le_of_lt (Nat.succ_le_of_lt ih) (longer _)

theorem tokensOf_pathParts (first next : String) (others : List String) (rest : List Part) :
    tokensOf (pathParts (first :: next :: others) ++ rest) =
      .word first :: .mark ':' true :: .mark ':' false ::
        tokensOf (pathParts (next :: others) ++ rest) := by
  cases others <;> rfl

theorem path_parts {fuel : Nat} {names : List String} (nonempty : names ≠ [])
    (enough : names.length ≤ fuel) (rest : List Part) :
    path fuel (tokensOf (pathParts names ++ .mark ';' :: rest)) =
      some (names, tokensOf (.mark ';' :: rest)) := by
  induction names generalizing fuel with
  | nil => exact absurd rfl nonempty
  | cons first more ih =>
    obtain ⟨fuel, rfl⟩ : ∃ n, fuel = n + 1 := ⟨fuel - 1, by simp at enough; omega⟩
    cases more with
    | nil => simp [pathParts, tokensOf, Part.token?, path]
    | cons next others =>
      have further := ih (by simp) (Nat.le_of_succ_le_succ enough)
      rw [tokensOf_pathParts, path, further]
      rfl

theorem length_path_le (names : List String) (rest : List Part) :
    names.length ≤ (tokensOf (pathParts names ++ rest)).length := by
  induction names with
  | nil => exact Nat.zero_le _
  | cons first more ih =>
    cases more with
    | nil => exact Nat.succ_le_succ (Nat.zero_le _)
    | cons next others =>
      rw [tokensOf_pathParts]
      simp only [List.length_cons] at ih ⊢
      omega

theorem functionsImport_parts {names : List String} (nonempty : names ≠ []) (rest : List Part) :
    functionsImport (.word "use" :: tokensOf (pathParts names ++ .mark ';' :: rest)) =
      some (names, tokensOf rest) := by
  have read := path_parts nonempty (length_path_le names (.mark ';' :: rest)) rest
  simp [functionsImport, word, bounded, read, tokensOf, Part.token?, mark]

/-- A registering file is read back from its parts. -/
theorem file_parts {names : List String} (nonempty : names ≠ []) (body : List Statement) :
    file (tokensOf (fileParts names body)) = some ((names, body), []) := by
  let closed : List Part := [.closing .brace, .blank '\n']
  let behind := [.blank '\n', .blank '\n'] ++ headParts ++ (body.flatMap Statement.parts ++ closed)
  have fronted : front (tokensOf (frontParts ++ (pathParts names ++ .mark ';' :: behind))) =
      some ((), .word "use" :: tokensOf (pathParts names ++ .mark ';' :: behind)) := rfl
  have imported := functionsImport_parts nonempty behind
  have headed : head (tokensOf behind) =
      some ((), tokensOf (body.flatMap Statement.parts ++ closed)) := rfl
  have listed : bounded statements (tokensOf (body.flatMap Statement.parts ++ closed)) =
      some (body, tokensOf closed) :=
    statements_parts (length_statements_lt body [.blank '\n']) [.blank '\n']
  have whole : fileParts names body = frontParts ++ (pathParts names ++ .mark ';' :: behind) := by
    simp [fileParts, behind, closed]
  rw [whole, file]
  simp only [run_bind, run_pure, fronted, imported, headed, listed, Option.bind_some]
  rfl

end Reader

end Waymark.Generate
