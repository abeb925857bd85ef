import Waymark.Proofs.Source.Extent
import Waymark.Proofs.Source.Pieces

/-!
# Rows of trees

What is read between two spots of a text, told without the delimiters that are still open: a row of
trees, in which every pair of delimiters stands around a row of its own.

* `Spot`, `Spot.Leads`: a place in a text, and the characters from one place to another;
* `Row`: the trees between two spots;
* `row_of_lex`: the trees of a text are the row from where it is read to its end;
* `Row.split`: a row up to a tree, and the row from there on;
* `Row.head`, `Row.word`, `Row.mark`, `Row.enclosed`: where the first tree of a row stands.
-/

namespace Waymark.Source

/-- A place in a text: what lies behind it, and what lies ahead. -/
structure Spot where
  behind : List Char
  ahead : List Char

namespace Spot

/-- The text around the spot. -/
def text (s : Spot) : List Char := s.behind ++ s.ahead

/-- The position of the spot. -/
def place (s : Spot) : Position := placeAfter s.behind

/-- A cursor that stands at the spot. -/
def cursor (s : Spot) : Cursor := ⟨s.ahead, s.place⟩

/-- The spot so many characters further on. -/
def pass (s : Spot) (n : Nat) : Spot := ⟨s.behind ++ s.ahead.take n, s.ahead.drop n⟩

theorem cursor_advance (s : Spot) (n : Nat) : s.cursor.advance n = (s.pass n).cursor := by
  rw [cursor, advance_eq, cursor, place, place, pass, placeAfter_append]

theorem suffixAt_place (s : Spot) : suffixAt s.text s.place = s.ahead := suffixAt_placeAfter _ _

theorem offset_place (s : Spot) : offset s.text s.place = byteLength s.behind :=
  offset_placeAfter _ _

/-- From one spot these characters lead to another one. -/
structure Leads (s : Spot) (between : List Char) (e : Spot) : Prop where
  behind : e.behind = s.behind ++ between
  ahead : s.ahead = between ++ e.ahead

namespace Leads

variable {s m e : Spot} {first second : List Char} {n : Nat}

theorem refl (s : Spot) : s.Leads [] s := ⟨by simp, by simp⟩

theorem trans (here : s.Leads first m) (there : m.Leads second e) :
    s.Leads (first ++ second) e where
  behind := by rw [there.behind, here.behind, List.append_assoc]
  ahead := by rw [here.ahead, there.ahead, List.append_assoc]

theorem unique (one : s.Leads first e) (other : s.Leads second e) : first = second := by
  have same := one.ahead
  rw [other.ahead] at same
  exact (List.append_cancel_right same).symm

theorem pass (s : Spot) (n : Nat) : s.Leads (s.ahead.take n) (s.pass n) :=
  ⟨rfl, (List.take_append_drop n s.ahead).symm⟩

/-- Behind the next character. -/
theorem next {c : Char} (h : s.ahead.head? = some c) : s.Leads [c] (s.pass 1) := by
  obtain ⟨rest, here⟩ := List.head?_eq_some_iff.1 h
  have leads := pass s 1
  rwa [here, List.take_one, List.head?_cons, Option.toList_some] at leads

theorem text (h : s.Leads first e) : e.text = s.text := by
  rw [Spot.text, Spot.text, h.behind, h.ahead, List.append_assoc]

end Leads

end Spot

/-- Two spots with nothing but blanks and comments between them. -/
inductive Blanks : Spot → Spot → Prop
  | here (s : Spot) : Blanks s s
  | blank {s e : Spot} {n : Nat} (found : Lexer.blank s.ahead = some n)
      (more : Blanks (s.pass n) e) : Blanks s e

namespace Blanks

variable {s m e : Spot}

theorem leads (h : Blanks s e) : ∃ gap, s.Leads gap e := by
  induction h with
  | here s => exact ⟨[], .refl s⟩
  | blank _ _ ih =>
    obtain ⟨gap, leads⟩ := ih
    exact ⟨_, (Spot.Leads.pass _ _).trans leads⟩

end Blanks

/-- The trees that are read from one spot to another one. -/
inductive Row : Spot → List Tree → Spot → Prop
  | stop (s : Spot) : Row s [] s
  | blank {s e : Spot} {ts : List Tree} {n : Nat} (found : Lexer.blank s.ahead = some n)
      (more : Row (s.pass n) ts e) : Row s ts e
  | documentation {s e : Spot} {ts : List Tree} {n : Nat} {inner : Bool}
      (found : Lexer.piece s.ahead = some (.documentation n inner)) (more : Row (s.pass n) ts e) :
      Row s ((Lexer.documentationTrees ⟨s.place, (s.pass n).place⟩ inner).reverse ++ ts) e
  | leaf {s e : Spot} {ts : List Tree} {n : Nat} {make : Span → Tree}
      (found : Lexer.piece s.ahead = some (.leaf n make)) (more : Row (s.pass n) ts e) :
      Row s (make ⟨s.place, (s.pass n).place⟩ :: ts) e
  | group {s i e : Spot} {content ts : List Tree} {d : Delimiter}
      (opened : Lexer.piece s.ahead = some (.opening d)) (inside : Row (s.pass 1) content i)
      (closed : Lexer.piece i.ahead = some (.closing d)) (more : Row (i.pass 1) ts e) :
      Row s (.group d ⟨s.place, (i.pass 1).place⟩ i.place content :: ts) e

namespace Row

variable {s m i e : Spot} {ts us content : List Tree} {d : Delimiter}

theorem append (first : Row s ts m) (second : Row m us e) : Row s (ts ++ us) e := by
  induction first with
  | stop s => exact second
  | blank found _ ih => exact .blank found (ih second)
  | documentation found _ ih =>
    rw [List.append_assoc]
    exact .documentation found (ih second)
  | leaf found _ ih => exact .leaf found (ih second)
  | group opened inside closed _ _ ih => exact .group opened inside closed (ih second)

/-- A row leads from where it begins to where it ends. -/
theorem leads (row : Row s ts e) : ∃ between, s.Leads between e := by
  induction row with
  | stop s => exact ⟨[], .refl s⟩
  | blank _ _ ih =>
    obtain ⟨rest, leads⟩ := ih
    exact ⟨_, (Spot.Leads.pass _ _).trans leads⟩
  | documentation _ _ ih =>
    obtain ⟨rest, leads⟩ := ih
    exact ⟨_, (Spot.Leads.pass _ _).trans leads⟩
  | leaf _ _ ih =>
    obtain ⟨rest, leads⟩ := ih
    exact ⟨_, (Spot.Leads.pass _ _).trans leads⟩
  | group _ _ _ _ inner ih =>
    obtain ⟨content, inside⟩ := inner
    obtain ⟨rest, leads⟩ := ih
    exact ⟨_, (Spot.Leads.pass _ _).trans (inside.trans ((Spot.Leads.pass _ _).trans leads))⟩

end Row

/-! ## Reading rows -/

namespace Lexer

/-- The trees read so far with the delimiters that are still open: a row up to each delimiter, and
one from the last of them to the spot that is reached. -/
inductive Opened (base : Spot) : List Frame → List Tree → Spot → Prop
  | outermost {s : Spot} {trees : List Tree} (row : Row base trees.reverse s) :
      Opened base [] trees s
  | inside {o s : Spot} {frames : List Frame} {before trees : List Tree} {d : Delimiter}
      (around : Opened base frames before o) (opened : piece o.ahead = some (.opening d))
      (row : Row (o.pass 1) trees.reverse s) : Opened base (⟨d, o.place, before⟩ :: frames) trees s

variable {base s e : Spot} {frames : List Frame} {trees : List Tree}

theorem Opened.extend {more : List Tree} (h : Opened base frames trees s) (row : Row s more e) :
    Opened base frames (more.reverse ++ trees) e := by
  cases h with
  | outermost front =>
    refine .outermost ?_
    rw [List.reverse_append, List.reverse_reverse]
    exact front.append row
  | inside around opened front =>
    refine .inside around opened ?_
    rw [List.reverse_append, List.reverse_reverse]
    exact front.append row

/-- A piece goes on with the rows. -/
theorem step_opened {r r' : Reading} (opened : Opened base r.frames r.trees s)
    (at_ : r.cursor = s.cursor)
    (read : r.step = .ok r') : ∃ e, Opened base r'.frames r'.trees e ∧ r'.cursor = e.cursor := by
  have ahead : r.cursor.rest = s.ahead := by rw [at_, Spot.cursor]
  have next (n : Nat) : r.cursor.advance n = (s.pass n).cursor := by rw [at_, Spot.cursor_advance]
  have place : r.cursor.position = s.place := by rw [at_, Spot.cursor]
  have stop (n : Nat) :
      (r.cursor.advance n).position = (s.pass n).place := by rw [next, Spot.cursor]
  unfold Reading.step at read
  rw [ahead] at read
  split at read
  · cases read
  · next n found =>
    cases read
    cases piece_at found with
    | blank blank => exact ⟨s.pass n, opened.extend (.blank blank (.stop _)), next n⟩
  · next n inner found =>
    cases read
    refine ⟨s.pass n, ?_, next n⟩
    have more := opened.extend (.documentation found (.stop _))
    rw [List.append_nil, List.reverse_reverse] at more
    rw [place, stop]
    exact more
  · next d found =>
    cases read
    refine ⟨s.pass 1, ?_, next 1⟩
    rw [place]
    exact .inside opened found (.stop _)
  · next d found =>
    split at read
    · cases read
    · next frame more unclosed =>
      split at read
      · next same =>
        cases read
        rw [unclosed] at opened
        cases opened with
        | inside around opening row =>
          obtain rfl : _ = d := same
          refine ⟨s.pass 1, ?_, next 1⟩
          rw [place, stop]
          exact around.extend (.group opening row found (.stop _))
      · cases read
  · next n make found =>
    cases read
    refine ⟨s.pass n, ?_, next n⟩
    rw [place, stop]
    exact opened.extend (.leaf found (.stop _))

/-- What is read to the end of a text is a row. -/
theorem lexFrom_row {fuel : Nat} {r : Reading} (opened : Opened base r.frames r.trees s)
    (at_ : r.cursor = s.cursor) {ts : List Tree} (read : lexFrom fuel r = .ok ts) :
    ∃ e, Row base ts e ∧ e.ahead = [] := by
  induction fuel generalizing r s with
  | zero =>
    unfold lexFrom at read
    split at read
    · next ended closed =>
      cases read
      rw [closed] at opened
      cases opened with
      | outermost row => exact ⟨s, row, by rw [← ended, at_, Spot.cursor]⟩
    · cases read
    · cases read
  | succ fuel ih =>
    unfold lexFrom at read
    split at read
    · next ended closed =>
      cases read
      rw [closed] at opened
      cases opened with
      | outermost row => exact ⟨s, row, by rw [← ended, at_, Spot.cursor]⟩
    · cases read
    · cases stepped : r.step with
      | error p =>
        rw [stepped] at read
        cases read
      | ok next =>
        rw [stepped] at read
        obtain ⟨e, opened', at'⟩ := step_opened opened at_ stepped
        exact ih opened' at' read

/-- The trees of a text are the row from where it is read to its end. -/
theorem row_of_lex {ts : List Tree} (read : lex s.cursor = .ok ts) :
    ∃ e, Row s ts e ∧ e.ahead = [] :=
  lexFrom_row (.outermost (.stop s)) rfl read

end Lexer

/-! ## Trees of a row -/

namespace Row

variable {s m i e : Spot} {ts us content : List Tree} {t : Tree}

/-- How a row begins behind blanks: with the trees of a comment, with a leaf, or with a group. -/
inductive Head : Spot → List Tree → Spot → Prop
  | documentation {s e : Spot} {ts : List Tree} {n : Nat} {inner : Bool}
      (found : Lexer.piece s.ahead = some (.documentation n inner)) (more : Row (s.pass n) ts e) :
      Head s ((Lexer.documentationTrees ⟨s.place, (s.pass n).place⟩ inner).reverse ++ ts) e
  | leaf {s e : Spot} {ts : List Tree} {n : Nat} {make : Span → Tree}
      (found : Lexer.piece s.ahead = some (.leaf n make)) (more : Row (s.pass n) ts e) :
      Head s (make ⟨s.place, (s.pass n).place⟩ :: ts) e
  | group {s i e : Spot} {content ts : List Tree} {d : Delimiter}
      (opened : Lexer.piece s.ahead = some (.opening d)) (inside : Row (s.pass 1) content i)
      (closed : Lexer.piece i.ahead = some (.closing d)) (more : Row (i.pass 1) ts e) :
      Head s (.group d ⟨s.place, (i.pass 1).place⟩ i.place content :: ts) e

/-- A row with a tree begins with one behind blanks. -/
theorem head (row : Row s ts e) (some' : ts ≠ []) : ∃ m, Blanks s m ∧ Head m ts e := by
  induction row with
  | stop s => exact absurd rfl some'
  | blank found _ ih =>
    obtain ⟨m, blanks, head⟩ := ih some'
    exact ⟨m, .blank found blanks, head⟩
  | documentation found more _ => exact ⟨_, .here _, .documentation found more⟩
  | leaf found more _ => exact ⟨_, .here _, .leaf found more⟩
  | group opened inside closed more _ _ => exact ⟨_, .here _, .group opened inside closed more⟩

theorem Head.row (h : Head s ts e) : Row s ts e := by
  cases h with
  | documentation found more => exact .documentation found more
  | leaf found more => exact .leaf found more
  | group opened inside closed more => exact .group opened inside closed more

/-- A word stands behind blanks. -/
theorem word {name : String} {span : Span} (row : Row s (.word name span :: ts) e) :
    ∃ m n, Blanks s m ∧ Lexer.piece m.ahead = some (.leaf n (.word name)) ∧
      span = ⟨m.place, (m.pass n).place⟩ ∧ Row (m.pass n) ts e := by
  obtain ⟨m, blanks, head⟩ := row.head (by simp)
  generalize whole : Tree.word name span :: ts = all at head
  cases head with
  | @documentation _ _ _ inner found more => cases inner <;> cases whole
  | leaf found more =>
    cases Lexer.leafAt_of_piece found with
    | literal n value => cases whole
    | mark joint first => cases whole
    | word n =>
      cases whole
      exact ⟨m, _, blanks, found, rfl, more⟩
  | group opened inside closed more => cases whole

/-- A mark with which no comment begins stands behind blanks. -/
theorem mark {c : Char} {joint : Bool} {span : Span} (row : Row s (.mark c joint span :: ts) e)
    (other : c ≠ '#') :
    ∃ m, Blanks s m ∧ m.ahead.head? = some c ∧ span = ⟨m.place, (m.pass 1).place⟩ ∧
    Row (m.pass 1) ts e := by
  obtain ⟨m, blanks, head⟩ := row.head (by simp)
  generalize whole : Tree.mark c joint span :: ts = all at head
  cases head with
  | @documentation _ _ _ inner found more => cases inner <;> cases whole <;> exact absurd rfl other
  | leaf found more =>
    cases Lexer.leafAt_of_piece found with
    | literal n value => cases whole
    | mark joint first =>
      cases whole
      exact ⟨m, blanks, first, rfl, more⟩
    | word n => cases whole
  | group opened inside closed more => cases whole

/-- A pair of delimiters stands behind blanks, around a row of its own. -/
theorem enclosed {d : Delimiter} {span : Span} {closing : Position}
    (row : Row s (.group d span closing content :: ts) e) :
    ∃ m i, Blanks s m ∧ Lexer.piece m.ahead = some (.opening d) ∧ Row (m.pass 1) content i ∧
      Lexer.piece i.ahead = some (.closing d) ∧ span = ⟨m.place, (i.pass 1).place⟩ ∧
      Row (i.pass 1) ts e := by
  obtain ⟨m, blanks, head⟩ := row.head (by simp)
  generalize whole : Tree.group d span closing content :: ts = all at head
  cases head with
  | @documentation _ _ _ inner found more => cases inner <;> cases whole
  | leaf found more =>
    cases Lexer.leafAt_of_piece found with
    | literal n value => cases whole
    | mark joint first => cases whole
    | word n => cases whole
  | @group i _ _ _ _ opened inside closed more =>
    cases whole
    exact ⟨m, i, blanks, opened, inside, closed, rfl, more⟩

end Row

/-- Trees that look like no later tree of a comment. -/
def Tree.Opens : Tree → Prop
  | .mark c _ _ => c ≠ '!'
  | .group d _ _ _ => d ≠ .bracket
  | .word _ _ | .literal _ _ => True

theorem not_opens_of_mem_tail {span : Span} {inner : Bool} {t : Tree}
    (among : t ∈ (Lexer.documentationTrees span inner).reverse.tail) : ¬ t.Opens := by
  cases inner with
  | false =>
    obtain rfl := List.mem_singleton.1 among
    exact fun opens => opens rfl
  | true =>
    obtain rfl | among := List.mem_cons.1 among
    · exact fun opens => opens rfl
    · obtain rfl := List.mem_singleton.1 among
      exact fun opens => opens rfl

/-- A row up to a tree, and the row from there on. -/
theorem Row.split {s e : Spot} {ts us : List Tree} {t : Tree} (row : Row s (ts ++ t :: us) e)
    (opens : t.Opens) : ∃ m, Row s ts m ∧ Row m (t :: us) e := by
  generalize whole : ts ++ t :: us = all at row
  induction row generalizing ts with
  | stop s => exact absurd whole (by simp)
  | blank found _ ih =>
    obtain ⟨m, first, second⟩ := ih whole
    exact ⟨m, .blank found first, second⟩
  | @documentation s e vs n inner found more ih =>
    obtain ⟨inside, trees, rest⟩ | ⟨beyond, trees, rest⟩ := List.append_eq_append_iff.1 whole
    · cases inside with
      | nil =>
        obtain ⟨m, first, second⟩ := @ih [] rest
        rw [List.append_nil] at trees
        have front := Row.documentation found first
        rw [List.append_nil, trees] at front
        exact ⟨m, front, second⟩
      | cons u later =>
        cases ts with
        | nil =>
          rw [List.nil_append] at whole
          rw [whole]
          exact ⟨s, .stop s, .documentation found more⟩
        | cons a ts =>
          obtain ⟨rfl, -⟩ := List.cons.inj rest
          have among : t ∈ (Lexer.documentationTrees ⟨s.place, (s.pass n).place⟩
              inner).reverse.tail := by
            rw [trees]
            simp
          exact absurd opens (not_opens_of_mem_tail among)
    · obtain ⟨m, first, second⟩ := ih rest.symm
      rw [trees]
      exact ⟨m, .documentation found first, second⟩
  | @leaf s e vs n make found more ih =>
    cases ts with
    | nil =>
      rw [List.nil_append] at whole
      rw [whole]
      exact ⟨s, .stop s, .leaf found more⟩
    | cons a ts =>
      obtain ⟨rfl, rest⟩ := List.cons.inj whole
      obtain ⟨m, first, second⟩ := ih rest
      exact ⟨m, .leaf found first, second⟩
  | @group s i e content vs d opened inside closed more _ ih =>
    cases ts with
    | nil =>
      rw [List.nil_append] at whole
      rw [whole]
      exact ⟨s, .stop s, .group opened inside closed more⟩
    | cons a ts =>
      obtain ⟨rfl, rest⟩ := List.cons.inj whole
      obtain ⟨m, first, second⟩ := ih rest
      exact ⟨m, .group opened inside closed first, second⟩

end Waymark.Source
