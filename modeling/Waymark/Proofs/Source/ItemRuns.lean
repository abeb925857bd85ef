import Waymark.Proofs.Source.Items
import Waymark.Source.File

/-!
# How items are read

An item is read step by step: its attributes, its visibility, its keyword, and what belongs to it.
The trees of a function are those before its keyword, its name, those between the name and the body,
and the body; the trees of an import lead up to its semicolon.

* `qualifiers`, `shape`, `signature_eq`: the head of a function before its keyword and behind its
  name;
* `FunctionRun`, `ImportRun`: how a function with a body and an import are read, and from which
  trees;
* `exists_functionRun`, `exists_importRun`: every function and every import that is kept is read so;
* `Begins`, `FunctionRun.begins`, `ImportRun.begins`: the sign with which an item begins.
-/

namespace Waymark.Source

namespace Parser

variable {α β γ : Type}

theorem eq_of_run {p q : Parser α} (same : ∀ i, p.run i = q.run i) : p = q := by
  cases p
  cases q
  simp only [mk.injEq]
  exact funext same

theorem bind_assoc (p : Parser α) (f : α → Parser β) (g : β → Parser γ) :
    p >>= f >>= g = p >>= fun a => f a >>= g := by
  apply eq_of_run
  intro i
  change (andThen (andThen p f) g).run i = (andThen p fun a => andThen (f a) g).run i
  simp only [andThen]
  cases p.run i <;> rfl

theorem pure_bind (a : α) (f : α → Parser β) : pure a >>= f = f a := rfl

theorem run_lookahead {p : Parser α} {i j : Input} {a : α} (h : (lookahead p).run i = .ok (a, j)) :
    j = i ∧ ∃ k, p.run { i with leftover := none } = .ok (a, k) := by
  unfold lookahead at h
  dsimp only at h
  split at h
  · cases h
  · next b k found =>
    cases h
    exact ⟨rfl, k, found⟩

theorem run_ahead {ts : List Tree} {i j : Input} (h : ahead.run i = .ok (ts, j)) :
    ts = i.trees := by
  cases h
  rfl

theorem run_optionalMarks_of_not {text : String} {i j : Input}
    (h : (optionalMarks text).run i = .ok (false, j)) :
    j = i := by
  obtain ⟨found, j, run, last⟩ := run_bind h
  obtain ⟨none', rfl⟩ := run_pure last
  obtain ⟨seen, k, sees, run⟩ := run_bind run
  obtain ⟨rfl, rfl⟩ := run_sees sees
  split at run
  · obtain ⟨a, l, taken, last⟩ := run_bind run
    obtain ⟨rfl, rfl⟩ := run_pure last
    cases none'
  · exact (run_pure run).2

end Parser

namespace Grammar

open Ahead Waymark.Source.Parser

/-! ## Functions -/

/-- What stands before the keyword of a function: whether it is asynchronous. -/
def qualifiers : Parser Bool := do
  let _ ← optionalWord "const"
  let isAsync ← optionalWord "async"
  let _ ← optionalWord "unsafe"
  let _ ← optional (word "extern") abi
  return isAsync

/-- What stands between the name of a function and its body. -/
def shape (g : Grammar) : Parser (Nat × List Parameter × Option Ty) := do
  let count ← g.generics
  let (found, _) ← within .paren g.parameters
  let output ← g.output true
  let _ ← g.whereClause
  return (count, found, output)

theorem signature_eq (g : Grammar) :
    g.signature false = do
      let isAsync ← qualifiers
      let start ← keyword "fn"
      let (n, span) ← name
      let (count, found, output) ← g.shape
      return (⟨isAsync, start, n, span, count, found, output⟩, false) := by
  simp only [signature, qualifiers, shape, bind_assoc, pure_bind, Bool.false_and,
    Bool.false_eq_true, if_false]

/-- A function comes next, behind its attributes and its visibility. -/
def seesFunction (trees : List Tree) : Bool := word "fn" trees || seesSignature false trees

/-- The trees of a function with a body. -/
structure FunctionTrees where
  /-- Before its keyword. -/
  front : List Tree
  keyword : Span
  /-- Between its name and its body. -/
  middle : List Tree
  body : Span
  closing : Position
  content : List Tree

namespace FunctionTrees

/-- The body as a tree. -/
def block (t : FunctionTrees) : Tree := .group .brace t.body t.closing t.content

/-- The trees from the name on, for a function with some name. -/
def fromName (t : FunctionTrees) (name : String) (span : Span) : List Tree :=
  .word name span :: (t.middle ++ [t.block])

/-- The trees of the function under some name. -/
def under (t : FunctionTrees) (name : String) (span : Span) : List Tree :=
  t.front ++ .word "fn" t.keyword :: t.fromName name span

end FunctionTrees

/-- A function with a body is read from its trees: its attributes, its visibility, what stands
before its keyword, its name, what stands before its body, and the body. -/
inductive FunctionRun (g : Grammar) (t : FunctionTrees) : Input → FunctionItem → Input → Prop
  | intro {i j₁ j₂ j₃ j₄ j₅ j₆ k : Input} {f : FunctionItem} (outer inner : List Position)
      (attributes : g.outerAttributes.run i = .ok (outer, j₁))
      (visible : visibility.run j₁ = .ok (f.visibility, j₂))
      (chosen : j₁.leftover = none → seesFunction j₂.trees = true)
      (qualified : qualifiers.run j₂ = .ok (f.signature.isAsync, j₃))
      (front : i.trees = t.front ++ j₃.trees)
      (keyword : (keyword "fn").run j₃ = .ok (f.signature.keyword, j₄))
      (place : j₃.trees = .word "fn" t.keyword :: j₄.trees ∧ f.signature.keyword = t.keyword.start)
      (named : name.run j₄ = .ok ((f.signature.name, f.signature.nameSpan), j₅))
      (shaped : g.shape.run j₅ =
        .ok ((f.signature.genericCount, f.signature.parameters, f.signature.output), j₆))
      (middle : j₅.trees = t.middle ++ j₆.trees)
      (braced : j₆.trees = t.block :: k.trees)
      (body : g.attributedBlock.run j₆ = .ok ((inner, f.stop), k))
      (stop : f.stop = t.body.stop)
      (all : f.attributes = outer ++ inner)
      (opens : ∀ p ∈ inner, Shows t.content (.attribute .inner) p) : FunctionRun g t i f k

section
variable {g : Grammar} {i j k : Input}

/-- A block with the attributes that open it. -/
theorem run_attributedBlock {inner : List Position} {stop : Position}
    (h : g.attributedBlock.run i = .ok ((inner, stop), j)) : ∃ span closing content,
      i.trees = .group .brace span closing content :: j.trees ∧ stop = span.stop ∧
      ∀ p ∈ inner, Shows content (.attribute .inner) p := by
  obtain ⟨⟨found, span, closing⟩, k, inside, last⟩ := run_bind h
  obtain ⟨same, rfl⟩ := run_pure last
  cases same
  obtain ⟨content, m, braced, within'⟩ := run_within inside
  obtain ⟨attributes, l, opened, statements⟩ := run_bind within'
  obtain ⟨_, _, _, last⟩ := run_bind statements
  obtain ⟨rfl, -⟩ := run_pure last
  obtain ⟨opening, whole, shown⟩ := shows_of_many run_innerAttribute opened
  refine ⟨span, closing, content, braced, rfl, ?_⟩
  intro p among
  dsimp only at whole
  rw [whole]
  exact (shown p among).mono (List.prefix_append _ _).isInfix

/-- Behind its attributes an item is a function, an import, or nothing that is kept. -/
theorem run_itemRule {item : Item} (h : g.itemRule.run i = .ok (item, k)) :
    ∃ attributes j v l, g.outerAttributes.run i = .ok (attributes, j) ∧
      visibility.run { j with leftover := none } = .ok (v, l) ∧
      (seesFunction l.trees = true ∧ (g.functionItem attributes).run j = .ok (item, k) ∨
        seesFunction l.trees = false ∧ word "use" l.trees = true ∧
          (g.importItem attributes).run j = .ok (item, k) ∨
        item = .other) := by
  obtain ⟨attributes, j, opened, behind⟩ := run_bind h
  obtain ⟨⟨v, trees⟩, j', looked, chosen⟩ := run_bind behind
  obtain ⟨rfl, m, run⟩ := run_lookahead looked
  obtain ⟨v', l, visible, seen⟩ := run_bind run
  obtain ⟨trees', _, ahead, last⟩ := run_bind seen
  have whole : trees' = l.trees := run_ahead ahead
  obtain ⟨rfl, rfl⟩ := Prod.mk.inj (run_pure last).1
  rw [whole] at chosen
  refine ⟨attributes, _, v, l, opened, visible, ?_⟩
  dsimp only at chosen
  by_cases isFunction : seesFunction l.trees = true
  · rw [seesFunction] at isFunction
    rw [if_pos isFunction] at chosen
    exact .inl ⟨isFunction, chosen⟩
  right
  have noFunction : seesFunction l.trees = false := Bool.eq_false_iff.2 isFunction
  rw [seesFunction] at isFunction
  rw [if_neg isFunction] at chosen
  by_cases isImport : word "use" l.trees = true
  · rw [if_pos isImport] at chosen
    exact .inl ⟨noFunction, isImport, chosen⟩
  · rw [if_neg isImport] at chosen
    obtain ⟨_, i₃, rule, rest⟩ := run_bind chosen
    exact .inr (run_pure rest).1

theorem functionItem_ne_import {attributes : List Position} {m : ImportItem} :
    (g.functionItem attributes).run i ≠ .ok (.import m, k) := by
  intro h
  obtain ⟨_, i₁, visible, h₁⟩ := run_bind h
  obtain ⟨⟨_, _⟩, i₂, head, h₂⟩ := run_bind h₁
  obtain ⟨_, i₃, bodiless, h₃⟩ := run_bind h₂
  split at h₃
  · obtain ⟨other, -⟩ := run_pure h₃
    cases other
  · obtain ⟨⟨_, _⟩, i₄, body, h₄⟩ := run_bind h₃
    obtain ⟨other, -⟩ := run_pure h₄
    cases other

theorem importItem_ne_function {attributes : List Position} {f : FunctionItem} :
    (g.importItem attributes).run i ≠ .ok (.function f, k) := by
  intro h
  obtain ⟨_, i₁, visible, h₁⟩ := run_bind h
  obtain ⟨_, i₂, keyword, h₂⟩ := run_bind h₁
  obtain ⟨_, i₃, colons, h₃⟩ := run_bind h₂
  obtain ⟨plain, i₄, names, h₄⟩ := run_bind h₃
  obtain ⟨_, i₅, ended, h₅⟩ := run_bind h₄
  obtain ⟨other, -⟩ := run_pure h₅
  cases plain <;> cases other

/-- Every function that is kept has a body and is read from its trees. -/
theorem exists_functionRun {f : FunctionItem} (h : g.itemRule.run i = .ok (.function f, k)) :
    ∃ t, FunctionRun g t i f k := by
  obtain ⟨outer, j₁, v, l, attributes, looked, ⟨isFunction, run⟩ | ⟨-, -, run⟩ | other⟩ :=
    run_itemRule h
  · obtain ⟨w, j₂, visible, h₂⟩ := run_bind run
    obtain ⟨⟨s, isSafe⟩, j₆, head, h₆⟩ := run_bind h₂
    obtain ⟨_, j₇, bodiless, h₇⟩ := run_bind h₆
    split at h₇
    · obtain ⟨none', -⟩ := run_pure h₇
      cases none'
    · next has =>
      rw [Bool.eq_false_iff.2 has] at bodiless
      obtain rfl := run_optionalMarks_of_not bodiless
      obtain ⟨⟨inner, stop⟩, j₈, body, last⟩ := run_bind h₇
      obtain ⟨same, rfl⟩ := run_pure last
      cases same
      rw [signature_eq] at head
      obtain ⟨isAsync, j₃, qualified, head⟩ := run_bind head
      obtain ⟨start, j₄, read, head⟩ := run_bind head
      obtain ⟨⟨n, nameSpan⟩, j₅, named, head⟩ := run_bind head
      obtain ⟨⟨count, parameters, output⟩, j₆, shaped, last⟩ := run_bind head
      obtain ⟨same, rfl⟩ := run_pure last
      cases same
      obtain ⟨span, here, start⟩ := run_keyword read
      obtain ⟨body', closing, content, braced, stop, opens⟩ := run_attributedBlock body
      obtain ⟨front, before⟩ := exists_taken (i := i) (j := j₃)
        ((Parser.rest_suffix _ qualified).trans
          ((Parser.rest_suffix _ visible).trans (Parser.rest_suffix _ attributes)))
      obtain ⟨middle, between⟩ := exists_taken (Parser.rest_suffix _ shaped)
      refine ⟨⟨front, span, middle, body', closing, content⟩,
        .intro outer inner attributes visible ?_ qualified before read
        ⟨here, start⟩ named shaped between braced body stop rfl opens⟩
      intro none'
      have same : { j₁ with leftover := none } = j₁ := by rw [← none']
      rw [same, visible] at looked
      cases looked
      exact isFunction
  · exact absurd run importItem_ne_function
  · cases other

/-! ## Imports -/

/-- An import is read from trees that lead up to its semicolon. -/
inductive ImportRun (g : Grammar) (front : List Tree) (joint : Bool) (span : Span) :
    Input → ImportItem → Input → Prop
  | intro {i j₁ j₂ j₃ j₄ j₅ k : Input} {m : ImportItem} {fromRoot : Bool}
      (attributes : g.outerAttributes.run i = .ok (m.attributes, j₁))
      (visible : visibility.run j₁ = .ok (m.visibility, j₂))
      (chosen : j₁.leftover = none → seesFunction j₂.trees = false)
      (keyword : (keyword "use").run j₂ = .ok (m.keyword, j₃))
      (colons : (optionalMarks "::").run j₃ = .ok (fromRoot, j₄))
      (names : (g.importTree (!fromRoot)).run j₄ = .ok (true, j₅))
      (before : i.trees = front ++ j₅.trees)
      (semicolon : (Parser.marks ";").run j₅ = .ok (span, k))
      (ended : j₅.trees = .mark ';' joint span :: k.trees)
      (stop : m.stop = span.stop) : ImportRun g front joint span i m k

/-- Every import that is kept is read so. -/
theorem exists_importRun {m : ImportItem} (h : g.itemRule.run i = .ok (.import m, k)) :
    ∃ front joint span, ImportRun g front joint span i m k := by
  obtain ⟨outer, j₁, v, l, attributes, looked, ⟨-, run⟩ | ⟨noFunction, -, run⟩ | other⟩ :=
    run_itemRule h
  · exact absurd run functionItem_ne_import
  · obtain ⟨w, j₂, visible, h₂⟩ := run_bind run
    obtain ⟨start, j₃, read, h₃⟩ := run_bind h₂
    obtain ⟨fromRoot, j₄, colons, h₄⟩ := run_bind h₃
    obtain ⟨plain, j₅, names, h₅⟩ := run_bind h₄
    obtain ⟨span, j₆, semicolon, last⟩ := run_bind h₅
    obtain ⟨same, rfl⟩ := run_pure last
    cases plain with
    | false => cases same
    | true =>
      cases same
      obtain ⟨joint, ended⟩ := run_mark (c := ';') rfl semicolon
      have begins : j₂.trees <:+ i.trees :=
        (Parser.rest_suffix _ visible).trans (Parser.rest_suffix _ attributes)
      have reads : j₄.trees <:+ j₂.trees :=
        (Parser.rest_suffix _ colons).trans (Parser.rest_suffix _ read)
      have behind : j₅.trees <:+ i.trees := (Parser.rest_suffix _ names).trans (reads.trans begins)
      obtain ⟨front, before⟩ := exists_taken behind
      refine ⟨front, joint, span,
        .intro attributes visible ?_ read colons names before semicolon ended rfl⟩
      intro none'
      have same : { j₁ with leftover := none } = j₁ := by rw [← none']
      rw [same, visible] at looked
      cases looked
      exact noFunction
  · cases other

/-! ## Signs -/

/-- Attributes and a visibility are nothing at all, or they begin with the sign of their item. -/
theorem starts_of_runs {j l : Input} {outer : List Position} {v : Visibility}
    (attributes : g.outerAttributes.run i = .ok (outer, j))
    (visible : visibility.run j = .ok (v, l)) :
    (outer = [] ∧ v.keyword? = none ∧ l = i) ∨
      ∃ part rest p, i.trees = part ++ (rest ++ l.trees) ∧
      (∀ word, (signOf outer v word).Of part p) ∧
        ∀ keyword, startOf outer v keyword = p := by
  cases repeats_of_run_many attributes with
  | nil =>
    obtain ⟨none', rfl⟩ | ⟨span, behind, shown, here, more, rest⟩ := run_visibility visible
    · exact .inl ⟨rfl, none', rfl⟩
    · refine .inr ⟨[.word "pub" span], more, span.start, by rw [here, ← rest]; rfl, ?_, ?_⟩
      · intro word
        rw [signOf, shown]
        exact .keyword "pub" span
      · intro keyword
        rw [startOf, shown]
        rfl
  | next _ found rest =>
    obtain ⟨part, behind, here, sign, first⟩ := run_outerAttribute found
    obtain ⟨more, behind⟩ := (visibility.rest_suffix visible).trans (rest.rest_suffix.trans first)
    refine .inr ⟨part, more, _, by rw [here, ← behind], fun _ => sign, fun _ => rfl⟩

/-- A function begins with its sign, unless its first attribute stands in its body. Where its
visibility has a keyword no other trees stand before the sign. -/
theorem FunctionRun.begins {t : FunctionTrees} {f : FunctionItem} (run : FunctionRun g t i f k) :
    (∃ p ∈ f.attributes.head?, Shows t.content (.attribute .inner) p) ∨
      ∃ before part rest, t.front ++ [.word "fn" t.keyword] = before ++ (part ++ rest) ∧
        (signOf f.attributes f.visibility "fn").Of part
          (startOf f.attributes f.visibility f.signature.keyword) ∧
        (f.visibility.keyword?.isSome → before = []) := by
  obtain ⟨outer, inner, attributes, visible, -, qualified, front, -, place, -, -, -, -, -, -, all,
    opens⟩ := run
  by_cases some' : outer ≠ [] ∨ inner = []
  · have same : signOf f.attributes f.visibility "fn" = signOf outer f.visibility "fn" ∧
        startOf f.attributes f.visibility f.signature.keyword =
          startOf outer f.visibility f.signature.keyword := by
      rw [all]
      cases outer with
      | nil =>
        obtain none' | rfl := some'
        · exact absurd rfl none'
        · exact ⟨rfl, rfl⟩
      | cons p more => exact ⟨rfl, rfl⟩
    obtain ⟨more, between⟩ := exists_taken (Parser.rest_suffix _ qualified)
    right
    rw [same.1, same.2]
    obtain ⟨rfl, none', rfl⟩ | ⟨part, rest, p, whole, is, at_⟩ := starts_of_runs attributes visible
    · refine ⟨t.front, [.word "fn" t.keyword], [], rfl, ?_, ?_⟩
      · rw [signOf, startOf, none', place.2]
        exact .keyword "fn" t.keyword
      · intro shown
        rw [none'] at shown
        cases shown
    · have cut : t.front = part ++ (rest ++ more) := by
        rw [front, between, ← List.append_assoc rest, ← List.append_assoc part] at whole
        exact List.append_cancel_right whole
      refine ⟨[], part, rest ++ more ++ [.word "fn" t.keyword], by rw [cut]; simp, ?_, fun _ => rfl⟩
      rw [at_]
      exact is "fn"
  · left
    have none' : outer = [] := Classical.byContradiction fun other => some' (.inl other)
    have some'' : inner ≠ [] := fun other => some' (.inr other)
    obtain ⟨p, more, rfl⟩ := List.exists_cons_of_ne_nil some''
    refine ⟨p, ?_, opens p (by simp)⟩
    rw [all, none']
    rfl

theorem FunctionRun.stops {t : FunctionTrees} {f : FunctionItem} (run : FunctionRun g t i f k) :
    f.stop = t.body.stop := by
  obtain ⟨_, _, -, -, -, -, -, -, -, -, -, -, -, -, stop, -, -⟩ := run
  exact stop

/-- Behind the name of a function comes what opens its parameters. -/
inductive Opens : List Tree → Prop
  | generics (joint : Bool) (span : Span) (rest : List Tree) : Opens (.mark '<' joint span :: rest)
  | parameters (span : Span) (closing : Position) (content rest : List Tree) :
      Opens (.group .paren span closing content :: rest)

theorem opens_of_shape {a : Nat × List Parameter × Option Ty} (run : g.shape.run i = .ok (a, j)) :
    Opens i.trees := by
  obtain ⟨count, j₁, generic, run⟩ := run_bind run
  obtain ⟨⟨found, span, closing⟩, j₂, inside, -⟩ := run_bind run
  obtain ⟨_, j₃, seen, generic⟩ := run_bind generic
  obtain ⟨rfl, rfl⟩ := run_sees seen
  split at generic
  · obtain ⟨_, _, angled, -⟩ := run_bind generic
    obtain ⟨span, _, mark, -⟩ := run_bind angled
    obtain ⟨joint, here⟩ := run_mark (c := '<') rfl mark
    rw [here]
    exact .generics joint span _
  · obtain ⟨-, rfl⟩ := run_pure generic
    obtain ⟨content, _, here, -⟩ := run_within inside
    rw [here]
    exact .parameters span closing content _

theorem FunctionRun.opens {t : FunctionTrees} {f : FunctionItem} (run : FunctionRun g t i f k) :
    Opens t.middle := by
  obtain ⟨_, _, -, -, -, -, -, -, -, -, shaped, middle, braced, -, -, -, -⟩ := run
  have opens := opens_of_shape shaped
  rw [middle, braced] at opens
  cases same : t.middle with
  | nil =>
    rw [same] at opens
    cases opens
  | cons u rest =>
    rw [same] at opens
    cases opens with
    | generics joint span => exact .generics joint span rest
    | parameters span closing content => exact .parameters span closing content rest

/-- An import begins with its sign. -/
theorem ImportRun.begins {front : List Tree} {joint : Bool} {span : Span} {m : ImportItem}
    (run : ImportRun g front joint span i m k) :
    ∃ part rest, front = part ++ rest ∧
      (signOf m.attributes m.visibility "use").Of part
      (startOf m.attributes m.visibility m.keyword) := by
  obtain ⟨attributes, visible, -, keyword, colons, names, before, -, -, -⟩ := run
  obtain ⟨word, here, place⟩ := run_keyword keyword
  obtain ⟨more, between⟩ :=
    exists_taken ((Parser.rest_suffix _ names).trans (Parser.rest_suffix _ colons))
  obtain ⟨none', hidden, rfl⟩ | ⟨part, rest, p, whole, is, at_⟩ := starts_of_runs attributes visible
  · refine ⟨[.word "use" word], more, ?_, ?_⟩
    · rw [here, between, ← List.cons_append] at before
      exact (List.append_cancel_right before).symm
    · rw [none', signOf, startOf, hidden, place]
      exact .keyword "use" word
  · refine ⟨part, rest ++ .word "use" word :: more, ?_, ?_⟩
    · rw [before, here, between, ← List.cons_append, ← List.append_assoc rest,
        ← List.append_assoc part] at whole
      exact List.append_cancel_right whole
    · rw [at_]
      exact is "use"

end

end Grammar

end Waymark.Source
