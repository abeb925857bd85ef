import Waymark.Proofs.Source.Items
import Waymark.Proofs.Source.Rows

/-!
# Signs in a text

The trees by which an item or an attribute is known stand where the text begins with the sign
itself: a keyword as it is written, an attribute in the style by which the text tells what it
belongs to. That is told of a documentation comment by its marks, of any other attribute by what
comes next behind its `#`.

* `styleAt`, `Sign.At`: the style of the attribute that a text begins with, and a sign at its
  beginning;
* `Blanks.skip`: blanks between two spots are what is skipped between them;
* `Row.Head.begins`, `Row.shows`: what the text is where a sign stands among its trees.
-/

namespace Waymark.Source

/-- The style of the attribute that a text begins with. -/
def styleAt (text : List Char) : Option Style :=
  match Lexer.documentation text with
  | some (_, inner) => some (if inner then .inner else .outer)
  | none =>
    match text with
    | '#' :: rest =>
      match skipBlanks rest.length rest with
      | '!' :: _ => some .inner
      | '[' :: _ => some .outer
      | _ => none
    | _ => none

namespace Lexer

theorem documentation_hash (rest : List Char) : documentation ('#' :: rest) = none := rfl

end Lexer

/-- Blanks between two spots are what is skipped up to the second one. -/
theorem Blanks.skip {s m : Spot} (h : Blanks s m) (token : Lexer.blank m.ahead = none) {fuel : Nat}
    (enough : s.ahead.length ≤ fuel) : skipBlanks fuel s.ahead = m.ahead := by
  induction h generalizing fuel with
  | here s =>
    cases fuel with
    | zero => rfl
    | succ fuel => rw [skipBlanks, token]
  | @blank s m n found _ ih =>
    obtain ⟨taken, some'⟩ := Lexer.blank_pos found
    obtain ⟨fuel, rfl⟩ : ∃ more, fuel = more + 1 := ⟨fuel - 1, by omega⟩
    rw [skipBlanks, found]
    apply ih token
    rw [Spot.pass, List.length_drop]
    omega

theorem styleAt_documentation {text : List Char} {n : Nat} {inner : Bool}
    (found : Lexer.documentation text = some (n, inner)) :
    styleAt text = some (if inner then .inner else .outer) := by
  unfold styleAt
  rw [found]

/-- The style of a mark `#` that a bracket or an exclamation mark follows. -/
theorem styleAt_hash {s m : Spot} (hash : s.ahead.head? = some '#')
    (blanks : Blanks (s.pass 1) m) {c : Char} (next : m.ahead.head? = some c) :
    (c = '!' → styleAt s.ahead = some .inner) ∧ (c = '[' → styleAt s.ahead = some .outer) := by
  obtain ⟨rest, here⟩ := List.head?_eq_some_iff.1 hash
  obtain ⟨more, there⟩ := List.head?_eq_some_iff.1 next
  have ahead : (s.pass 1).ahead = rest := by rw [Spot.pass, here, List.drop_one, List.tail_cons]
  constructor
  · rintro rfl
    have skipped := blanks.skip (by rw [there]; rfl) (Nat.le_refl _)
    rw [ahead, there] at skipped
    unfold styleAt
    rw [here, Lexer.documentation_hash]
    simp only [skipped]
  · rintro rfl
    have skipped := blanks.skip (by rw [there]; rfl) (Nat.le_refl _)
    rw [ahead, there] at skipped
    unfold styleAt
    rw [here, Lexer.documentation_hash]
    simp only [skipped]

/-- A text begins with a sign. -/
def Sign.At (text : List Char) : Sign → Prop
  | .keyword word => word.toList <+: text
  | .attribute style => styleAt text = some style

namespace Row

variable {s m e : Spot} {ts part : List Tree} {sign : Sign} {p : Position}

/-- Where the trees of a sign come first, the text begins with the sign. -/
theorem Head.begins (head : Head m (part ++ ts) e) (is : sign.Of part p) :
    p = m.place ∧ sign.At m.ahead := by
  generalize whole : part ++ ts = all at head
  cases is with
  | keyword word span =>
    cases head with
    | @documentation _ _ _ inner found more => cases inner <;> cases whole
    | leaf found more =>
      cases Lexer.leafAt_of_piece found with
      | literal n value => cases whole
      | mark joint first => cases whole
      | word n =>
        cases whole
        refine ⟨rfl, ?_⟩
        rw [Sign.At, String.toList_ofList]
        exact List.take_prefix _ _
    | group opened inside closed more => cases whole
  | outer joint span brackets closing content =>
    cases head with
    | @documentation _ _ _ inner found more =>
      cases inner with
      | false =>
        cases whole
        exact ⟨rfl, styleAt_documentation (Lexer.documentation_of_piece found)⟩
      | true => cases whole
    | leaf found more =>
      cases Lexer.leafAt_of_piece found with
      | literal n value => cases whole
      | mark joint first =>
        cases whole
        obtain ⟨next, _, gap, bracket, -⟩ := more.enclosed
        exact ⟨rfl, (styleAt_hash first gap (Lexer.opener_of_piece bracket)).2 rfl⟩
      | word n => cases whole
    | group opened inside closed more => cases whole
  | inner joint joint' span bang =>
    cases head with
    | @documentation _ _ _ inner found more =>
      cases inner with
      | false => cases whole
      | true =>
        cases whole
        exact ⟨rfl, styleAt_documentation (Lexer.documentation_of_piece found)⟩
    | leaf found more =>
      cases Lexer.leafAt_of_piece found with
      | literal n value => cases whole
      | mark joint first =>
        cases whole
        obtain ⟨next, gap, exclamation, -⟩ := more.mark (by decide)
        exact ⟨rfl, (styleAt_hash first gap exclamation).1 rfl⟩
      | word n => cases whole
    | group opened inside closed more => cases whole

theorem exists_opens (is : sign.Of part p) : ∃ t more, part = t :: more ∧ t.Opens := by
  have unlike : '#' ≠ '!' := by decide
  cases is with
  | keyword word span => exact ⟨_, _, rfl, trivial⟩
  | outer joint span brackets closing content => exact ⟨_, _, rfl, unlike⟩
  | inner joint joint' span bang => exact ⟨_, _, rfl, unlike⟩

/-- Where the trees of a sign stand in a row, the text begins with the sign. -/
theorem exists_begins {before : List Tree} (row : Row s (before ++ (part ++ ts)) e)
    (is : sign.Of part p) : ∃ m upTo, s.Leads upTo m ∧ Row m (part ++ ts) e ∧ p = m.place ∧
      sign.At m.ahead := by
  obtain ⟨t, more, rfl, opens⟩ := exists_opens is
  obtain ⟨o, first, second⟩ := row.split opens
  obtain ⟨m, blanks, head⟩ := second.head (by simp)
  obtain ⟨place, at_⟩ := head.begins is
  obtain ⟨upTo, leads⟩ := first.leads
  obtain ⟨gap, skipped⟩ := blanks.leads
  exact ⟨m, _, leads.trans skipped, head.row, place, at_⟩

/-- Where a sign stands among the trees of a row, the text begins with the sign. -/
theorem shows (row : Row s ts e) (shown : Shows ts sign p) :
    ∃ m upTo, s.Leads upTo m ∧ p = m.place ∧ sign.At m.ahead := by
  obtain ⟨part, ⟨front, back, rfl⟩, is⟩ := shown
  rw [List.append_assoc] at row
  obtain ⟨m, upTo, leads, -, place, at_⟩ := row.exists_begins is
  exact ⟨m, upTo, leads, place, at_⟩

end Row

end Waymark.Source
