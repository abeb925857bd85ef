import Waymark.Source.Token

/-!
# Parsers of token trees

A parser takes trees from the front of its input or stops at a position.

* `Parser.rest_suffix`: what a parser leaves is an end of what it was given;
* `Parser.leftover_none`: a parser remembers what was left over before it;
* `within`: the trees between two delimiters; the first that is left over there is remembered;
* `attempt`: a parser whose failure costs nothing;
* `Parser.complete`: a parser that has to use up all trees.
-/

namespace Waymark.Source

/-- The trees that are left at one level of nesting. -/
structure Input where
  trees : List Tree
  /-- Where an unexpected end is reported: the closing delimiter of the level. -/
  scope : Position
  /-- The first tree that was left over between two delimiters passed so far. -/
  leftover : Option Position

/-- Where a failure at the front of the input is reported. -/
def Input.position (i : Input) : Position :=
  match i.trees with
  | [] => i.scope
  | t :: _ => t.span.start

/-- A function that takes trees from the front of its input. -/
structure Parser (α : Type) where
  run : Input → Except Position (α × Input)
  rest_suffix : ∀ {i a j}, run i = .ok (a, j) → j.trees <:+ i.trees
  leftover_none : ∀ {i a j}, run i = .ok (a, j) → j.leftover = none → i.leftover = none

namespace Parser

variable {α β : Type}

/-- Takes nothing. -/
def done (a : α) : Parser α where
  run i := .ok (a, i)
  rest_suffix h := by cases h; exact List.suffix_refl _
  leftover_none h none' := by cases h; exact none'

/-- One parser, and one that depends on what it found. -/
def andThen (p : Parser α) (f : α → Parser β) : Parser β where
  run i :=
    match p.run i with
    | .error e => .error e
    | .ok (a, j) => (f a).run j
  rest_suffix {i b k} h := by
    split at h
    · cases h
    · next a j hp => exact ((f a).rest_suffix h).trans (p.rest_suffix hp)
  leftover_none {i b k} h none' := by
    split at h
    · cases h
    · next a j hp => exact p.leftover_none hp ((f a).leftover_none h none')

instance : Monad Parser where
  pure := done
  bind := andThen

/-- Stops at a position. -/
def failAt (at_ : Position) : Parser α where
  run _ := .error at_
  rest_suffix h := by cases h
  leftover_none h := by cases h

/-- Stops at the next tree. -/
def fail : Parser α where
  run i := .error i.position
  rest_suffix h := by cases h
  leftover_none h := by cases h

/-- The trees to come, none of them taken. -/
def ahead : Parser (List Tree) where
  run i := .ok (i.trees, i)
  rest_suffix h := by cases h; exact List.suffix_refl _
  leftover_none h none' := by cases h; exact none'

/-- The place of the next tree, or of the end. -/
def place : Parser Position where
  run i := .ok (i.position, i)
  rest_suffix h := by cases h; exact List.suffix_refl _
  leftover_none h none' := by cases h; exact none'

/-- The next trees pass a test. -/
def sees (test : List Tree → Bool) : Parser Bool := do return test (← ahead)

/-- Nothing is left. -/
def atEnd : Parser Bool := sees List.isEmpty

/-- The next tree, whatever it is. -/
def tree : Parser Tree where
  run i :=
    match i.trees with
    | [] => .error i.position
    | t :: rest => .ok (t, { i with trees := rest })
  rest_suffix {i a j} h := by
    split at h
    · cases h
    · next t rest hi => cases h; rw [hi]; exact List.suffix_cons _ _
  leftover_none {i a j} h none' := by
    split at h
    · cases h
    · cases h; exact none'

/-- The next tree, if a function gives it a value. -/
def satisfying (value? : Tree → Option α) : Parser α where
  run i :=
    match i.trees with
    | [] => .error i.position
    | t :: rest =>
      match value? t with
      | some a => .ok (a, { i with trees := rest })
      | none => .error i.position
  rest_suffix {i a j} h := by
    split at h
    · cases h
    · next t rest hi =>
      split at h
      · cases h; rw [hi]; exact List.suffix_cons _ _
      · cases h
  leftover_none {i a j} h none' := by
    split at h
    · cases h
    · split at h
      · cases h; exact none'
      · cases h

/-- What stands between the delimiters of a group, read by a parser; a tree that the parser leaves
is remembered. Besides the result it gives the place of the closing delimiter and the whole span. -/
def within (d : Delimiter) (p : Parser α) : Parser (α × Span × Position) where
  run i :=
    match i.trees with
    | .group d' span closing content :: rest =>
      if d = d' then
        match p.run ⟨content, closing, i.leftover⟩ with
        | .error e => .error e
        | .ok (a, j) =>
          let unread := j.trees.head?.map fun t => t.span.start
          .ok ((a, span, closing), ⟨rest, i.scope, j.leftover <|> unread⟩)
      else .error i.position
    | _ => .error i.position
  rest_suffix {i a j} h := by
    dsimp only at h
    split at h
    · next d' span closing content rest hi =>
      split at h
      · split at h
        · cases h
        · cases h; rw [hi]; exact List.suffix_cons _ rest
      · cases h
    · cases h
  leftover_none {i a j} h none' := by
    dsimp only at h
    split at h
    · split at h
      · split at h
        · cases h
        · next found =>
          cases h
          simp only [Option.orElse_eq_orElse, Option.orElse_eq_or, Option.or_eq_none_iff] at none'
          have kept := p.leftover_none found none'.1
          exact kept
      · cases h
    · cases h

/-- A parser, or nothing taken where it fails. -/
def attempt (p : Parser α) : Parser (Option α) where
  run i :=
    match p.run { i with leftover := none } with
    | .error _ => .ok (none, i)
    | .ok (a, j) => .ok (some a, { j with leftover := i.leftover <|> j.leftover })
  rest_suffix {i a j} h := by
    split at h
    · cases h; exact List.suffix_refl _
    · next hp => cases h; have := p.rest_suffix hp; exact this
  leftover_none {i a j} h none' := by
    split at h
    · cases h; exact none'
    · cases h
      simp only [Option.orElse_eq_orElse, Option.orElse_eq_or, Option.or_eq_none_iff] at none'
      exact none'.1

/-- What a parser would find here; its failure is a failure, but nothing is taken. -/
def lookahead (p : Parser α) : Parser α where
  run i :=
    match p.run { i with leftover := none } with
    | .error e => .error e
    | .ok (a, _) => .ok (a, i)
  rest_suffix {i a j} h := by
    split at h
    · cases h
    · cases h; exact List.suffix_refl _
  leftover_none {i a j} h none' := by
    split at h
    · cases h
    · cases h; exact none'

/-- Repeats a step that goes on with a new state or ends, with a bound on the number of steps. -/
def loopFrom (step : α → Parser (α ⊕ β)) : Nat → α → Parser β
  | 0, _ => fail
  | n + 1, a => do
    match ← step a with
    | .inl next => loopFrom step n next
    | .inr b => return b

/-- Repeats a step until it ends. A step that goes on takes a tree, so there are no more steps than
trees and one. -/
def loop (step : α → Parser (α ⊕ β)) (start : α) : Parser β := do
  loopFrom step ((← ahead).length + 2) start

/-- As many items as a test on the trees ahead asks for. -/
def many (more : List Tree → Bool) (item : Parser α) : Parser (List α) :=
  loop (fun found => do
    if ← sees more then return .inl ((← item) :: found) else return .inr found.reverse) []

/-- An item if the trees ahead pass a test. -/
def optional (test : List Tree → Bool) (item : Parser α) : Parser (Option α) := do
  if ← sees test then return some (← item) else return none

/-- Items with a separator between neighbours and perhaps behind the last, up to where `stop` holds:
the items, and whether a separator is last. -/
def separated (stop : List Tree → Bool) (separator : Parser Unit) (item : Parser α) :
    Parser (List α × Bool) :=
  loop (fun found => do
    if ← sees stop then return .inr (found.reverse, !found.isEmpty)
    let found := (← item) :: found
    if ← sees stop then return .inr (found.reverse, false)
    separator
    return .inl found) []

/-- Reads all trees: what a parser finds, or the place of its failure, of the first tree left over
between delimiters, or of the first it leaves at the outermost level. -/
def complete (p : Parser α) (trees : List Tree) : Except Position α :=
  match p.run ⟨trees, Position.origin, none⟩ with
  | .error e => .error e
  | .ok (a, i) =>
    match i.leftover, i.trees with
    | some place, _ => .error place
    | none, t :: _ => .error t.span.start
    | none, [] => .ok a

end Parser

end Waymark.Source
