import Waymark.Proofs.Generate.Registering
import Waymark.Proofs.Source.Nesting

/-!
# The registering file in trees

The parts that a registering file is written as are put together to trees, statement by statement.
Only the shapes of these trees matter, so they are given without true places.

* `Yields`: the trees that some parts are put together to, whatever stands around them;
* `Statement.trees`, `fileTrees`: a statement and a whole file in trees;
* `yields_statement`, `yields_file`: the parts of a statement and of a file are put together to
  these trees;
* `exists_treesOf`: what the text of a plan is read as.
-/

namespace Waymark.Generate

open Waymark.Source (Delimiter Literal Tree Span Position shapes shapes_append)
open Waymark.Source.Lexer
open Reader (tokensOf_indent)

/-! ## Trees without places -/

namespace Bare

/-- A place that stands for none. -/
def span : Span := ⟨.origin, .origin⟩

/-- A word. -/
def word (name : String) : Tree := .word name span

/-- A mark in front of something other than a mark. -/
def mark (symbol : Char) : Tree := .mark symbol false span

/-- A mark in front of another one. -/
def joint (symbol : Char) : Tree := .mark symbol true span

/-- A text between double quotes. -/
def text : Tree := .literal .text span

/-- A whole number. -/
def number (value : Nat) : Tree := .literal (.whole (some value)) span

/-- A pair of delimiters. -/
def group (d : Delimiter) (content : List Tree) : Tree := .group d span .origin content

end Bare

open Bare

/-- The parts are put together to these trees, whatever stands around them. -/
def Yields (parts : List Part) (ts : List Tree) : Prop :=
  ∀ frames trees rest, gather frames trees (tokensOf (parts ++ rest)) =
    gather frames ((shapes ts).reverse ++ trees) (tokensOf rest)

namespace Yields

variable {parts more : List Part} {ts us : List Tree}

theorem nil : Yields [] [] := fun _ _ _ => by rw [shapes]; rfl

theorem append (first : Yields parts ts) (next : Yields more us) :
    Yields (parts ++ more) (ts ++ us) := by
  intro frames trees rest
  rw [List.append_assoc, first, next, shapes_append, List.reverse_append, List.append_assoc]

theorem enclosed (d : Delimiter) (inside : Yields parts ts) :
    Yields (.opening d :: (parts ++ [.closing d])) [group d ts] := by
  intro frames trees rest
  have opened : tokensOf (.opening d :: (parts ++ [.closing d]) ++ rest) =
      .opening d :: tokensOf (parts ++ (.closing d :: rest)) := by simp [tokensOf, Part.token?]
  have closed : tokensOf (.closing d :: rest) = .closing d :: tokensOf rest := rfl
  rw [opened, gather, inside, closed, gather, if_pos rfl, List.append_nil, List.reverse_reverse,
    group, shapes, shapes]
  rfl

theorem flatMap {α : Type} {f : α → List Part} {trees : α → List Tree} (items : List α)
    (each : ∀ a, Yields (f a) (trees a)) : Yields (items.flatMap f) (items.flatMap trees) := by
  induction items with
  | nil => exact nil
  | cons a rest ih => exact (each a).append ih

theorem indented (n : Nat) (first : Yields parts ts) : Yields (indent n ++ parts) ts := by
  intro frames trees rest
  rw [List.append_assoc, tokensOf_indent, first]

theorem blank (c : Char) : Yields [.blank c] [] := fun _ _ _ => by rw [shapes]; rfl

end Yields

/-! ## Statements -/

/-- The name of an emitted function. -/
def functionTrees (name : String) : List Tree := [word "handlers", joint ':', mark ':', word name]

theorem yields_functionParts (name : String) : Yields (functionParts name) (functionTrees name) :=
  fun frames trees rest => by simp [functionParts, functionTrees, word, joint, mark, shapes,
    tokensOf, Part.token?, Part.marksFirst, gather]

namespace Call

/-- The argument of a call. -/
def argumentTrees : Call → List Tree
  | file _ | scope _ | catchAll _ => [text]
  | optional flag => [word (if flag then "true" else "false")]
  | priority value => [number value]
  | loader f | layout f => functionTrees f

/-- A call with its point. -/
def trees (c : Call) : List Tree := [mark '.', word c.name, group .paren c.argumentTrees]

theorem yields_argument (c : Call) : Yields c.argument c.argumentTrees := by
  cases c with
  | loader f | layout f => exact yields_functionParts f
  | file | scope | catchAll | optional | priority =>
    intro frames trees rest
    simp [argument, argumentTrees, text, word, number, shapes, tokensOf, Part.token?, gather]

theorem yields (c : Call) : Yields c.parts c.trees := by
  have front : Yields [.mark '.', .word c.name] [mark '.', word c.name] :=
    fun frames trees rest => by
    simp [mark, word, shapes, tokensOf, Part.token?, Part.marksFirst, gather]
  exact .indented 12 (front.append (c.yields_argument.enclosed .paren))

end Call

theorem yields_lines (cs : List Call) :
    Yields (lines (cs.map Call.parts)) (cs.flatMap Call.trees) := by
  induction cs with
  | nil => exact .nil
  | cons c more ih =>
    cases more with
    | nil =>
      rw [List.flatMap_singleton]
      exact c.yields
    | cons next others => exact c.yields.append ((Yields.blank '\n').append ih)

/-- The call by which a route is made. -/
def RouteCall.constructedTrees (c : RouteCall) : List Tree :=
  [word "Route", joint ':', mark ':', word "new", group .paren ([word "Method", joint ':', mark ':',
    word c.method.variantName, mark ',', text, mark ','] ++ functionTrees c.function)]

/-- The call by which a page is made. -/
def PageCall.constructedTrees (c : PageCall) : List Tree :=
  [word "Page", joint ':', mark ':', word "new",
    group .paren ([text, mark ','] ++ functionTrees c.function)]

/-- A call of a method of the tree. -/
def callTrees (method : String) (arguments : List Tree) : List Tree :=
  [word "tree", mark '.', word method, group .paren arguments, mark ';']

namespace Statement

/-- A statement. -/
def trees : Statement → List Tree
  | route c =>
    callTrees "add_route" (c.constructedTrees ++ c.calls.flatMap Call.trees ++ [mark ','])
  | page c => callTrees "add_page" (c.constructedTrees ++ c.calls.flatMap Call.trees ++ [mark ','])
  | middleware _ _ f =>
    callTrees "add_middleware" ([text, mark ',', text, mark ','] ++ functionTrees f)
  | proxy f => callTrees "set_proxy" (functionTrees f)
  | idle => [word "let", word "_", mark '=', word "tree", mark ';']

end Statement

theorem yields_callTrees (method : String) {arguments : List Part} {ts : List Tree}
    (inside : Yields arguments ts) :
    Yields (indent 4 ++ [Part.word "tree", .mark '.', .word method]
      ++ Part.opening .paren :: (arguments ++ [Part.closing .paren])
      ++ [Part.mark ';', .blank '\n']) (callTrees method ts) := by
  have front : Yields [.word "tree", .mark '.', .word method] [word "tree", mark '.',
      word method] := fun frames trees rest => by
    simp [mark, word, shapes, tokensOf, Part.token?, Part.marksFirst, gather]
  have ending : Yields [.mark ';', .blank '\n'] [mark ';'] := fun frames trees rest => by
    simp [mark, shapes, tokensOf, Part.token?, Part.marksFirst, gather]
  exact ((front.indented 4).append (inside.enclosed .paren)).append ending

theorem yields_new (type : String) {arguments : List Part} {ts : List Tree}
    (inside : Yields arguments ts) :
    Yields ([Part.word type, .mark ':', .mark ':', .word "new"]
      ++ Part.opening .paren :: (arguments ++ [Part.closing .paren]))
      [word type, joint ':', mark ':', word "new", group .paren ts] := by
  have front : Yields [.word type, .mark ':', .mark ':', .word "new"] [word type, joint ':',
      mark ':', word "new"] :=
    fun frames trees rest => by simp [mark, joint, word, shapes, tokensOf, Part.token?,
      Part.marksFirst, gather]
  exact front.append (inside.enclosed .paren)

theorem yields_constructed_route (c : RouteCall) : Yields c.constructed c.constructedTrees := by
  have start : Yields [.word "Method", .mark ':', .mark ':', .word c.method.variantName, .mark ',',
      .blank ' ', .text c.pattern, .mark ',', .blank ' '] [word "Method", joint ':', mark ':',
        word c.method.variantName, mark ',', text, mark ','] :=
    fun frames trees rest => by simp [mark, joint, word, text, shapes, tokensOf, Part.token?,
      Part.marksFirst, gather]
  have whole := yields_new "Route" (start.append (yields_functionParts c.function))
  simpa [RouteCall.constructed, RouteCall.constructedTrees] using whole

theorem yields_constructed_page (c : PageCall) : Yields c.constructed c.constructedTrees := by
  have start : Yields [.text c.pattern, .mark ',', .blank ' '] [text, mark ','] :=
    fun frames trees rest => by simp [mark, text, shapes, tokensOf, Part.token?,
      Part.marksFirst, gather]
  have whole := yields_new "Page" (start.append (yields_functionParts c.function))
  simpa [PageCall.constructed, PageCall.constructedTrees] using whole

theorem yields_addParts (method : String) {constructed : List Part} {ts : List Tree}
    (made : Yields constructed ts)
    (cs : List Call) : Yields (addParts method constructed cs)
      (callTrees method (ts ++ cs.flatMap Call.trees ++ [mark ','])) := by
  have ending : Yields [.mark ',', .blank '\n'] [mark ','] := fun frames trees rest => by
    simp [mark, shapes, tokensOf, Part.token?, Part.marksFirst, gather]
  have inside := (((made.indented 8).append ((Yields.blank '\n').append (yields_lines cs))).append
    ending).append
    (Yields.nil.indented 4)
  have whole := yields_callTrees method ((Yields.blank '\n').append inside)
  simpa [addParts] using whole

/-- The parts of a statement are put together to its trees. -/
theorem yields_statement (st : Statement) : Yields st.parts st.trees := by
  cases st with
  | route c => exact yields_addParts "add_route" (yields_constructed_route c) c.calls
  | page c => exact yields_addParts "add_page" (yields_constructed_page c) c.calls
  | middleware pattern scope f =>
    have start : Yields [.text pattern, .mark ',', .blank ' ', .text scope, .mark ',', .blank ' ']
        [text, mark ',', text, mark ','] :=
      fun frames trees rest => by simp [mark, text, shapes, tokensOf, Part.token?,
        Part.marksFirst, gather]
    have whole := yields_callTrees "add_middleware" (start.append (yields_functionParts f))
    simpa [Statement.parts, Statement.trees] using whole
  | proxy f =>
    have whole := yields_callTrees "set_proxy" (yields_functionParts f)
    simpa [Statement.parts, Statement.trees] using whole
  | idle =>
    refine .indented 4 fun frames trees rest => ?_
    simp [Statement.trees, mark, word, shapes, tokensOf, Part.token?, Part.marksFirst, gather]

/-! ## The file -/

/-- Names joined by double colons. -/
def pathTrees : List String → List Tree
  | [] => []
  | [last] => [word last]
  | first :: next :: more => word first :: joint ':' :: mark ':' :: pathTrees (next :: more)

/-- The lint that is switched off, and the import of what the statements build on. -/
def frontTrees : List Tree :=
  [joint '#', mark '!', group .bracket [word "allow", group .paren [word "unused_imports"]],
    word "use", word "trellis", joint ':', mark ':', group .brace [word "Method", mark ',',
      word "Page", mark ',', word "Route", mark ',', word "RouteTree"], mark ';']

/-- The head of the registering function, and its body. -/
def functionItemTrees (body : List Tree) : List Tree :=
  [mark '#', group .bracket [word "doc", mark '=', text], word "pub", word "fn", word "register",
    group .paren [word "tree", mark ':', mark '&', word "mut", word "RouteTree"], group .brace body]

/-- A registering file. -/
def fileTrees (path : List String) (body : List Statement) : List Tree :=
  frontTrees ++ word "use" :: pathTrees path
    ++ mark ';' :: functionItemTrees (body.flatMap Statement.trees)

theorem yields_pathParts (names : List String) : Yields (pathParts names) (pathTrees names) := by
  induction names with
  | nil => exact .nil
  | cons first more ih =>
    cases more with
    | nil =>
      exact fun frames trees rest => by simp [pathParts, pathTrees, word, shapes, tokensOf,
        Part.token?, gather]
    | cons next others =>
      intro frames trees rest
      have front : tokensOf (pathParts (first :: next :: others) ++ rest) =
          .word first :: .mark ':' true :: .mark ':' false ::
            tokensOf (pathParts (next :: others) ++ rest) :=
        Reader.tokensOf_pathParts first next others rest
      rw [front, gather, gather, gather, ih]
      simp [pathTrees, word, joint, mark, shapes]

/-- The parts of a registering file are put together to its trees. -/
theorem yields_fileParts (path : List String) (body : List Statement) :
    Yields (fileParts path body) (fileTrees path body) := by
  have front : Yields frontParts (frontTrees ++ [word "use"]) := fun frames trees rest => by
    simp [frontParts, frontTrees, word, joint, mark, group, shapes, tokensOf, Part.token?,
      Part.marksFirst, gather]
  have gap : Yields [.mark ';', .blank '\n', .blank '\n'] [mark ';'] := fun frames trees rest => by
    simp [mark, shapes, tokensOf, Part.token?, Part.marksFirst, gather]
  have head : Yields (headParts.take 17) ((functionItemTrees []).take 6) :=
    fun frames trees rest => by
    simp [headParts, functionItemTrees, word, mark, text, group, shapes, tokensOf, Part.token?,
      Part.marksFirst, gather, noteShapes]
  have inside := ((Yields.blank '\n').append (.flatMap body yields_statement)).enclosed .brace
  have whole := ((front.append (yields_pathParts path)).append gap).append
    ((head.append inside).append (.blank '\n'))
  simpa [fileParts, fileTrees, headParts, functionItemTrees] using whole

end Waymark.Generate
