import Waymark.Source.Grammar.File

/-!
# What a parser was given

Where a parser succeeds, its steps do, one after the other, and the trees that it was given begin
with those that its steps ask for.

* `Sign`, `Shows`: the trees by which an item or an attribute is known, and where they stand;
* `signOf`: the sign with which an item begins;
* `run_bind`, `run_keyword`, `run_within`, `run_mark`: what a parser was given, step by step;
* `Repeats`, `repeats_of_run_many`: the items of a repetition, one behind the other;
* `run_outerAttribute`, `run_innerAttribute`, `run_visibility`: attributes and visibilities.
-/

namespace Waymark.Source

/-- What an attribute belongs to. -/
inductive Style where
  /-- The item behind it. -/
  | outer
  /-- The item around it. -/
  | inner
deriving DecidableEq

/-- What the beginning of an item or of an attribute is known by. -/
inductive Sign where
  | keyword (word : String)
  | attribute (style : Style)

/-- Trees that are a sign, and where they begin. -/
inductive Sign.Of : Sign → List Tree → Position → Prop
  | keyword (word : String) (span : Span) : Of (.keyword word) [.word word span] span.start
  | outer (joint : Bool) (span brackets : Span) (closing : Position) (content : List Tree) :
      Of (.attribute .outer) [.mark '#' joint span, .group .bracket brackets closing content]
        span.start
  | inner (joint joint' : Bool) (span bang : Span) :
      Of (.attribute .inner) [.mark '#' joint span, .mark '!' joint' bang] span.start

/-- A sign stands among some trees, at a position. -/
def Shows (trees : List Tree) (sign : Sign) (p : Position) : Prop :=
  ∃ part, part <:+: trees ∧ sign.Of part p

namespace Shows

variable {trees more : List Tree} {sign : Sign} {p : Position}

theorem mono (h : Shows trees sign p) (sub : trees <:+: more) : Shows more sign p := by
  obtain ⟨part, among, found⟩ := h
  exact ⟨part, among.trans sub, found⟩

end Shows

/-- What an item begins with: its first attribute, else the keyword of its visibility, else its own
keyword. -/
def signOf (attributes : List Position) (visibility : Visibility) (word : String) : Sign :=
  if attributes.isEmpty then
    if visibility.keyword?.isSome then .keyword "pub" else .keyword word
  else .attribute .outer

namespace Parser

variable {α β : Type} {i j k : Input}

theorem run_bind {p : Parser α} {f : α → Parser β} {b : β} (h : (p >>= f).run i = .ok (b, k)) :
    ∃ a j, p.run i = .ok (a, j) ∧ (f a).run j = .ok (b, k) := by
  change (andThen p f).run i = .ok (b, k) at h
  unfold andThen at h
  dsimp only at h
  split at h
  · cases h
  · next a j found => exact ⟨a, j, found, h⟩

theorem run_pure {a b : α} (h : (pure a : Parser α).run i = .ok (b, j)) : b = a ∧ j = i := by
  cases h
  exact ⟨rfl, rfl⟩

theorem run_sees {test : List Tree → Bool} {b : Bool} (h : (sees test).run i = .ok (b, j)) :
    b = test i.trees ∧ j = i := by
  cases h
  exact ⟨rfl, rfl⟩

theorem run_satisfying {value? : Tree → Option α} {a : α}
    (h : (satisfying value?).run i = .ok (a, j)) :
    ∃ t, i.trees = t :: j.trees ∧ value? t = some a := by
  unfold satisfying at h
  dsimp only at h
  split at h
  · cases h
  · next t rest here =>
    split at h
    · next found =>
      cases h
      exact ⟨t, here, found⟩
    · cases h

theorem run_keyword {name : String} {p : Position} (h : (keyword name).run i = .ok (p, j)) :
    ∃ span, i.trees = .word name span :: j.trees ∧ p = span.start := by
  obtain ⟨t, here, found⟩ := run_satisfying h
  cases t with
  | word n span =>
    dsimp only at found
    split at found
    · next same =>
      cases found
      exact ⟨span, by rw [here, same], rfl⟩
    · cases found
  | mark c joint span => cases found
  | literal value span => cases found
  | group d span closing content => cases found

theorem run_name {n : String} {span : Span} (h : name.run i = .ok ((n, span), j)) :
    i.trees = .word n span :: j.trees := by
  obtain ⟨t, here, found⟩ := run_satisfying h
  cases t with
  | word m s =>
    dsimp only at found
    split at found
    · cases found
    · cases found
      exact here
  | mark c joint span => cases found
  | literal value span => cases found
  | group d span closing content => cases found

theorem run_within {d : Delimiter} {p : Parser α} {a : α} {span : Span} {closing : Position}
    (h : (within d p).run i = .ok ((a, span, closing), j)) :
    ∃ content inside, i.trees = .group d span closing content :: j.trees ∧
      p.run ⟨content, closing, i.leftover⟩ = .ok (a, inside) := by
  unfold within at h
  dsimp only at h
  split at h
  · next d' span' closing' content rest here =>
    split at h
    · next same =>
      subst same
      split at h
      · cases h
      · next a' inside found =>
        cases h
        exact ⟨content, inside, here, found⟩
    · cases h
  · cases h

/-- A mark by itself. -/
theorem run_mark {text : String} {c : Char} {span : Span} (alone : text.toList = [c])
    (h : (marks text).run i = .ok (span, j)) :
    ∃ joint, i.trees = .mark c joint span :: j.trees := by
  obtain ⟨ahead, i₁, seen, h⟩ := run_bind h
  obtain ⟨rfl, rfl⟩ := run_sees seen
  have single : text.length - 1 = 0 := by rw [← String.length_toList, alone, List.length_singleton]
  split at h
  · next marked =>
    obtain ⟨first, i₂, taken, h⟩ := run_bind h
    obtain ⟨_, i₃, skipped, h⟩ := run_bind h
    obtain ⟨rfl, rfl⟩ := run_pure h
    rw [single] at skipped
    obtain ⟨-, rfl⟩ := run_pure skipped
    unfold tree at taken
    dsimp only at taken
    split at taken
    · cases taken
    · next t rest here =>
      cases taken
      rw [Ahead.marks, alone, here] at marked
      cases first with
      | mark d joint span =>
        obtain rfl : c = d := of_decide_eq_true marked
        exact ⟨joint, here⟩
      | word n span => cases marked
      | literal value span => cases marked
      | group d span closing content => cases marked
  · cases h

/-- Items that are asked for in a row. -/
inductive Repeats (more : List Tree → Bool) (item : Parser α) : Input → List α → Input → Prop
  | nil {i : Input} (ended : more i.trees = false) : Repeats more item i [] i
  | next {i j k : Input} {a : α} {as : List α} (asked : more i.trees = true)
      (found : item.run i = .ok (a, j)) (rest : Repeats more item j as k) :
      Repeats more item i (a :: as) k

section
variable {more : List Tree → Bool} {item : Parser α}

theorem repeats_of_run_loopFrom {n : Nat} {found all : List α}
    (h : (loopFrom (fun found => do
      if ← sees more then return .inl ((← item) :: found) else return .inr found.reverse)
        n found).run i = .ok (all, j)) :
    ∃ rest, all = found.reverse ++ rest ∧ Repeats more item i rest j := by
  induction n generalizing i found with
  | zero => cases h
  | succ n ih =>
    obtain ⟨next, i₁, stepped, goes⟩ := run_bind h
    obtain ⟨_, i₂, seen, stepped⟩ := run_bind stepped
    obtain ⟨rfl, rfl⟩ := run_sees seen
    split at stepped
    · next asked =>
      obtain ⟨a, i₃, read, stepped⟩ := run_bind stepped
      obtain ⟨rfl, rfl⟩ := run_pure stepped
      obtain ⟨rest, rfl, repeats⟩ := ih goes
      refine ⟨a :: rest, ?_, .next asked read repeats⟩
      rw [List.reverse_cons, List.append_assoc, List.singleton_append]
    · next ended =>
      obtain ⟨rfl, rfl⟩ := run_pure stepped
      obtain ⟨rfl, rfl⟩ := run_pure goes
      exact ⟨[], (List.append_nil _).symm, .nil (Bool.eq_false_iff.2 ended)⟩

/-- What a repetition finds is found item by item. -/
theorem repeats_of_run_many {all : List α} (h : (many more item).run i = .ok (all, j)) :
    Repeats more item i all j := by
  obtain ⟨_, i₁, seen, h⟩ := run_bind h
  cases seen
  obtain ⟨rest, rfl, repeats⟩ := repeats_of_run_loopFrom h
  exact repeats

namespace Repeats

variable {all : List α}

theorem rest_suffix (h : Repeats more item i all j) : j.trees <:+ i.trees := by
  induction h with
  | nil => exact List.suffix_refl _
  | next _ found _ ih => exact ih.trans (item.rest_suffix found)

theorem leftover_none (h : Repeats more item i all j) (none' : j.leftover = none) :
    i.leftover = none := by
  induction h with
  | nil => exact none'
  | next _ found _ ih => exact item.leftover_none found (ih none')

/-- Every item of a repetition was found by its parser, somewhere between beginning and end. -/
theorem mem (h : Repeats more item i all j) : ∀ a ∈ all, ∃ i' j', i'.trees <:+ i.trees ∧
    item.run i' = .ok (a, j') ∧ j.trees <:+ j'.trees ∧
    (j.leftover = none → j'.leftover = none) := by
  induction h with
  | nil => exact fun a ha => absurd ha List.not_mem_nil
  | next _ found rest ih =>
    intro a ha
    obtain rfl | later := List.mem_cons.1 ha
    · exact ⟨_, _, List.suffix_refl _, found, rest.rest_suffix, rest.leftover_none⟩
    · obtain ⟨i', j', before, read, behind⟩ := ih a later
      exact ⟨i', j', before.trans (item.rest_suffix found), read, behind⟩

end Repeats

end

end Parser

namespace Grammar

open Waymark.Source.Parser

variable {g : Grammar} {i j k : Input}

/-- What was taken between two inputs. -/
theorem exists_taken (h : j.trees <:+ i.trees) : ∃ taken, i.trees = taken ++ j.trees := by
  obtain ⟨taken, same⟩ := h
  exact ⟨taken, same.symm⟩

/-- Where every item of a repetition begins with a sign, the trees of the repetition show one for
each. -/
theorem shows_of_many {more : List Tree → Bool} {item : Parser Position} {sign : Sign}
    (first : ∀ {i j p}, item.run i = .ok (p, j) →
      ∃ part rest, i.trees = part ++ rest ∧ sign.Of part p ∧ j.trees <:+ rest)
    {found : List Position} (h : (many more item).run i = .ok (found, j)) :
    ∃ taken, i.trees = taken ++ j.trees ∧ ∀ p ∈ found, Shows taken sign p := by
  obtain ⟨taken, split⟩ := exists_taken ((many more item).rest_suffix h)
  refine ⟨taken, split, ?_⟩
  intro p hp
  obtain ⟨i', j', ⟨before, hb⟩, read, ⟨after, ha⟩, -⟩ := (repeats_of_run_many h).mem p hp
  obtain ⟨part, rest, here, is', ⟨more', hm⟩⟩ := first read
  refine ⟨part, ⟨before, more' ++ after, ?_⟩, is'⟩
  have whole : taken ++ j.trees = before ++ part ++ (more' ++ after) ++ j.trees := by
    rw [← split, ← hb, here, ← hm, ← ha]
    simp
  exact (List.append_cancel_right whole).symm

theorem run_outerAttribute {p : Position} (h : g.outerAttribute.run i = .ok (p, j)) :
    ∃ part rest, i.trees = part ++ rest ∧ (Sign.attribute .outer).Of part p ∧ j.trees <:+ rest := by
  obtain ⟨mark, i₁, marked, h⟩ := run_bind h
  obtain ⟨joint, here⟩ := run_mark (c := '#') rfl marked
  obtain ⟨⟨_, brackets, closing⟩, i₂, inside, h⟩ := run_bind h
  obtain ⟨rfl, rfl⟩ := run_pure h
  obtain ⟨content, _, bracketed, -⟩ := run_within inside
  exact ⟨_, j.trees, by rw [here, bracketed]; rfl, .outer joint mark brackets closing content,
    List.suffix_refl _⟩

theorem run_innerAttribute {p : Position} (h : g.innerAttribute.run i = .ok (p, j)) :
    ∃ part rest, i.trees = part ++ rest ∧ (Sign.attribute .inner).Of part p ∧ j.trees <:+ rest := by
  obtain ⟨mark, i₁, marked, h⟩ := run_bind h
  obtain ⟨joint, here⟩ := run_mark (c := '#') rfl marked
  obtain ⟨bang, i₂, banged, h⟩ := run_bind h
  obtain ⟨joint', there⟩ := run_mark (c := '!') rfl banged
  obtain ⟨_, i₃, inside, h⟩ := run_bind h
  obtain ⟨rfl, rfl⟩ := run_pure h
  exact ⟨_, i₂.trees, by rw [here, there]; rfl, .inner joint joint' mark bang,
    (within _ _).rest_suffix inside⟩

/-- A visibility is nothing at all, or it begins with its keyword. -/
theorem run_visibility {v : Visibility} (h : visibility.run i = .ok (v, j)) :
    (v.keyword? = none ∧ j = i) ∨ ∃ span rest, v.keyword? = some span.start ∧
      i.trees = .word "pub" span :: rest ∧ j.trees <:+ rest := by
  obtain ⟨_, i₁, seen, h⟩ := run_bind h
  obtain ⟨rfl, rfl⟩ := run_sees seen
  split at h
  · obtain ⟨start, i₂, read, h⟩ := run_bind h
    obtain ⟨span, here, rfl⟩ := run_keyword read
    obtain ⟨_, i₃, seen, h⟩ := run_bind h
    cases seen
    refine .inr ⟨span, i₂.trees, ?_⟩
    split at h
    · split at h
      · obtain ⟨_, i₄, place, h⟩ := run_bind h
        obtain ⟨rfl, rfl⟩ := run_pure h
        exact ⟨rfl, here, visibilityPlace.rest_suffix place⟩
      · obtain ⟨place, i₄, tried, h⟩ := run_bind h
        have behind := (attempt visibilityPlace).rest_suffix tried
        split at h
        · obtain ⟨rfl, rfl⟩ := run_pure h
          exact ⟨rfl, here, behind⟩
        · obtain ⟨rfl, rfl⟩ := run_pure h
          exact ⟨rfl, here, behind⟩
    · obtain ⟨rfl, rfl⟩ := run_pure h
      exact ⟨rfl, here, List.suffix_refl _⟩
  · obtain ⟨rfl, rfl⟩ := run_pure h
    exact .inl ⟨rfl, rfl⟩

end Grammar

end Waymark.Source
