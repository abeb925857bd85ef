import Mathlib.Data.List.DropRight
import Waymark.Proofs.Source.Extent

/-!
# Offsets and positions

An offset between two characters of a text has a position, counted in lines and columns of the text
before it, and this leads back to the offset:

* `IsBoundary`: the offsets between characters, those of the ends included;
* `positionOf`: the position of an offset;
* `placeAfter_eq`: it is the place that is come to by passing over the text before the offset;
* `placeAfter_lt_append`: places behind longer fronts come later;
* `isBoundary_offset`: whatever a position is, its offset lies between characters;
* `lineStarts`, `offset_eq_lookup`: where the lines begin, and how an offset is counted from there;
* `offset_inverts`: offsets of real positions, in their order.
-/

namespace Waymark.Source

/-- An offset between two characters of a text, or at one of its ends. -/
def IsBoundary (text : List Char) (b : Nat) : Prop :=
  ∃ front back, text = front ++ back ∧ b = byteLength front

/-- The position of an offset: one more than the line ends before it, and the characters between the
last of these and the offset. -/
def positionOf (text : List Char) (b : Nat) : Position :=
  let front := takeBytes b text
  ⟨1 + front.count '\n', (front.rtakeWhile (· ≠ '\n')).length⟩

/-- The position of an offset between two characters. -/
def IsReal (text : List Char) (p : Position) : Prop :=
  ∃ b, IsBoundary text b ∧ positionOf text b = p

/-- Positions come line by line, and in a line column by column. -/
instance : LT Position where
  lt p q := p.line < q.line ∨ p.line = q.line ∧ p.column < q.column

namespace Position

variable {p q r : Position}

theorem lt_def : p < q ↔ p.line < q.line ∨ p.line = q.line ∧ p.column < q.column := Iff.rfl

theorem lt_irrefl (p : Position) : ¬ p < p := by
  rw [lt_def]
  omega

theorem lt_trans (pq : p < q) (qr : q < r) : p < r := by
  rw [lt_def] at *
  omega

theorem lt_next (p : Position) (c : Char) : p < p.next c := by
  unfold next
  split
  · exact .inl (Nat.lt_succ_self _)
  · exact .inr ⟨rfl, Nat.lt_succ_self _⟩

end Position

/-- The place behind a text, counted from its line ends. -/
theorem placeAfter_eq (front : List Char) :
    placeAfter front = ⟨1 + front.count '\n', (front.rtakeWhile (· ≠ '\n')).length⟩ := by
  induction front using List.reverseRecOn with
  | nil => rfl
  | append_singleton front c ih =>
    rw [placeAfter_append, ih, List.foldl_cons, List.foldl_nil, Position.next, List.count_append,
      List.rtakeWhile_concat]
    by_cases ends : c = '\n'
    · simp [ends, Nat.add_assoc]
    · simp [ends]

theorem positionOf_byteLength (front back : List Char) :
    positionOf (front ++ back) (byteLength front) = placeAfter front := by
  rw [positionOf, takeBytes_byteLength, placeAfter_eq]

/-- The place behind a text is before the one behind any text that it begins. -/
theorem placeAfter_lt_append (front : List Char) {more : List Char} (goesOn : more ≠ []) :
    placeAfter front < placeAfter (front ++ more) := by
  induction more using List.reverseRecOn with
  | nil => exact absurd rfl goesOn
  | append_singleton more c ih =>
    rw [← List.append_assoc, placeAfter_append (front ++ more), List.foldl_cons, List.foldl_nil]
    have last := (placeAfter (front ++ more)).lt_next c
    by_cases first : more = []
    · simpa [first] using last
    · exact Position.lt_trans (ih first) last

/-- Of two offsets between characters, the earlier one has the earlier position. -/
theorem positionOf_lt {text : List Char} {b c : Nat} (hb : IsBoundary text b)
    (hc : IsBoundary text c) (before : b < c) : positionOf text b < positionOf text c := by
  obtain ⟨front, back, rfl, rfl⟩ := hb
  obtain ⟨longer, rest, split, rfl⟩ := hc
  obtain ⟨more, rfl⟩ | ⟨less, rfl⟩ :=
    List.prefix_or_prefix_of_prefix (List.prefix_append front back)
    (split ▸ List.prefix_append longer rest)
  · have goesOn : more ≠ [] := by
      rintro rfl
      rw [List.append_nil] at before
      exact Nat.lt_irrefl _ before
    rw [positionOf_byteLength, split, positionOf_byteLength]
    exact placeAfter_lt_append front goesOn
  · rw [byteLength_append] at before
    omega

theorem positionOf_lt_iff {text : List Char} {b c : Nat} (hb : IsBoundary text b)
    (hc : IsBoundary text c) :
    positionOf text b < positionOf text c ↔ b < c := by
  refine ⟨fun earlier => ?_, positionOf_lt hb hc⟩
  obtain before | rfl | after := Nat.lt_trichotomy b c
  · exact before
  · exact absurd earlier (Position.lt_irrefl _)
  · exact absurd (Position.lt_trans earlier (positionOf_lt hc hb after)) (Position.lt_irrefl _)

/-- The position of an offset leads back to it. -/
theorem offset_positionOf {text : List Char} {b : Nat} (boundary : IsBoundary text b) :
    offset text (positionOf text b) = b := by
  obtain ⟨front, back, rfl, rfl⟩ := boundary
  rw [positionOf_byteLength, offset_placeAfter]

theorem dropLines_suffix (n : Nat) (text : List Char) : dropLines n text <:+ text := by
  induction text generalizing n with
  | nil => cases n <;> exact List.suffix_rfl
  | cons c rest ih =>
    cases n with
    | zero => exact List.suffix_rfl
    | succ n =>
      rw [dropLines]
      split
      · exact (ih n).trans (List.suffix_cons c rest)
      · exact (ih (n + 1)).trans (List.suffix_cons c rest)

theorem suffixAt_suffix (text : List Char) (p : Position) : suffixAt text p <:+ text :=
  (List.drop_suffix _ _).trans (dropLines_suffix _ _)

/-- The end of a text begins where the text before it ends. -/
theorem exists_front {text rest : List Char} (suffix : rest <:+ text) :
    ∃ front, text = front ++ rest ∧ byteLength text = byteLength front + byteLength rest := by
  obtain ⟨front, rfl⟩ := suffix
  exact ⟨front, rfl, byteLength_append front rest⟩

/-- Whatever a position is, its offset lies between two characters or at an end. -/
theorem isBoundary_offset (text : List Char) (p : Position) : IsBoundary text (offset text p) := by
  obtain ⟨front, split, whole⟩ := exists_front (suffixAt_suffix text p)
  exact ⟨front, suffixAt text p, split, by rw [offset, whole, Nat.add_sub_cancel]⟩

theorem IsBoundary.le {text : List Char} {b : Nat} (boundary : IsBoundary text b) :
    b ≤ byteLength text := by
  obtain ⟨front, back, rfl, rfl⟩ := boundary
  rw [byteLength_append]
  exact Nat.le_add_right _ _

/-- Where the lines behind the first one begin, in a text that begins at an offset. -/
def startsFrom : Nat → List Char → List Nat
  | _, [] => []
  | b, c :: rest =>
    if c = '\n' then (b + 1) :: startsFrom (b + 1) rest else startsFrom (b + c.utf8Size) rest

/-- Where the lines of a text begin. -/
def lineStarts (text : List Char) : List Nat := 0 :: startsFrom 0 text

theorem getElem?_startsFrom (b n : Nat) (text : List Char) : (startsFrom b text)[n]? =
    if n < text.count '\n' then some (b + (byteLength text - byteLength (dropLines (n + 1) text)))
      else none := by
  induction text generalizing b n with
  | nil => rfl
  | cons c rest ih =>
    by_cases ends : c = '\n'
    · subst ends
      have one : '\n'.utf8Size = 1 := by decide
      rw [startsFrom, if_pos rfl, List.count_cons_self, dropLines, if_pos rfl, byteLength, one]
      cases n with
      | zero => simp [dropLines]
      | succ n =>
        obtain ⟨front, -, whole⟩ := exists_front (dropLines_suffix (n + 1) rest)
        have sum : b + 1 + (byteLength rest - byteLength (dropLines (n + 1) rest)) =
            b + (1 + byteLength rest - byteLength (dropLines (n + 1) rest)) := by omega
        rw [List.getElem?_cons_succ, ih, sum]
        simp only [Nat.succ_lt_succ_iff]
    · obtain ⟨front, -, whole⟩ := exists_front (dropLines_suffix (n + 1) rest)
      have sum : b + c.utf8Size + (byteLength rest - byteLength (dropLines (n + 1) rest)) =
          b + (c.utf8Size + byteLength rest - byteLength (dropLines (n + 1) rest)) := by omega
      rw [startsFrom, if_neg ends, ih, List.count_cons_of_ne ends, dropLines, if_neg ends,
        byteLength, sum]

theorem dropLines_eq_nil {n : Nat} {text : List Char} (few : text.count '\n' < n) :
    dropLines n text = [] := by
  induction text generalizing n with
  | nil => cases n <;> rfl
  | cons c rest ih =>
    obtain ⟨n, rfl⟩ := Nat.exists_eq_succ_of_ne_zero (Nat.ne_of_gt (Nat.zero_lt_of_lt few))
    rw [dropLines]
    by_cases ends : c = '\n'
    · rw [if_pos ends]
      rw [ends, List.count_cons_self] at few
      exact ih (Nat.lt_of_succ_lt_succ few)
    · rw [if_neg ends]
      rw [List.count_cons_of_ne ends] at few
      exact ih few

/-- The lines of a text begin behind its line ends. -/
theorem getElem?_lineStarts (n : Nat) (text : List Char) : (lineStarts text)[n]? =
    if n ≤ text.count '\n' then some (byteLength text - byteLength (dropLines n text))
      else none := by
  cases n with
  | zero => simp [lineStarts, dropLines]
  | succ n =>
    rw [lineStarts, List.getElem?_cons_succ, getElem?_startsFrom, Nat.zero_add]
    simp only [Nat.succ_le_iff]

/-- An offset is counted in characters from where its line begins. A line that a text does not have,
and a column behind its end, stand for the end of the text. -/
theorem offset_eq_lookup (text : List Char) (p : Position) : offset text p =
    match (lineStarts text)[p.line - 1]? with
    | none => byteLength text
    | some start => start + byteLength ((dropBytes start text).take p.column) := by
  rw [getElem?_lineStarts, offset, suffixAt]
  by_cases there : p.line - 1 ≤ text.count '\n'
  · obtain ⟨front, split, whole⟩ := exists_front (dropLines_suffix (p.line - 1) text)
    have before : byteLength text - byteLength (dropLines (p.line - 1) text) =
        byteLength front := by omega
    rw [if_pos there, before]
    generalize dropLines (p.line - 1) text = line at split
    have parts : byteLength line =
        byteLength (line.take p.column) + byteLength (line.drop p.column) := by
      rw [← byteLength_append, List.take_append_drop]
    rw [split, byteLength_append, parts, ← Nat.add_assoc, Nat.add_sub_cancel]
    dsimp only
    rw [dropBytes_byteLength]
  · rw [if_neg there, dropLines_eq_nil (Nat.lt_of_not_le there), List.drop_nil]
    rfl

/-- **Positions convert back to offsets.** Where an offset lies between two characters of a text, or
at one of its ends, its position converts back to it. So real positions keep their order when they
are converted. Any position at all is converted to an offset in the text and between two characters,
counted from where its line begins. -/
theorem offset_inverts (text : List Char) :
    (∀ b, IsBoundary text b → offset text (positionOf text b) = b) ∧
    (∀ p q, IsReal text p → IsReal text q → (offset text p < offset text q ↔ p < q)) ∧
    ∀ p, offset text p ≤ byteLength text ∧ IsBoundary text (offset text p) ∧ offset text p =
      match (lineStarts text)[p.line - 1]? with
      | none => byteLength text
      | some start => start + byteLength ((dropBytes start text).take p.column) := by
  refine ⟨fun b => offset_positionOf, ?_, fun p =>
    ⟨(isBoundary_offset text p).le, isBoundary_offset text p, offset_eq_lookup text p⟩⟩
  rintro p q ⟨b, hb, rfl⟩ ⟨c, hc, rfl⟩
  rw [offset_positionOf hb, offset_positionOf hc, positionOf_lt_iff hb hc]

/-- A line of a character of two bytes with a line end of two characters, an empty line, and the
empty last line behind it. -/
def twoLineEnds : List Char := ['\u00e9', '\r', '\n', '\n']

/-- The end of the text is in its last line, which is empty. The end of the first line is before the
beginning of the second one, and a column far behind it still leads to a place between
characters. -/
theorem offset_inverts_twoLineEnds :
    IsBoundary twoLineEnds 5 ∧ positionOf twoLineEnds 5 = ⟨3, 0⟩ ∧ offset twoLineEnds ⟨3, 0⟩ = 5 ∧
      IsReal twoLineEnds ⟨1, 2⟩ ∧ IsReal twoLineEnds ⟨2, 0⟩ ∧
      offset twoLineEnds ⟨1, 2⟩ < offset twoLineEnds ⟨2, 0⟩ ∧
      IsBoundary twoLineEnds (offset twoLineEnds ⟨1, 7⟩) := by
  obtain ⟨back, ordered, within⟩ := offset_inverts twoLineEnds
  have boundary : IsBoundary twoLineEnds 5 := ⟨twoLineEnds, [], rfl, by decide⟩
  have place : positionOf twoLineEnds 5 = ⟨3, 0⟩ := by decide
  have first : IsReal twoLineEnds ⟨1, 2⟩ :=
    ⟨3, ⟨['\u00e9', '\r'], ['\n', '\n'], rfl, by decide⟩, by decide⟩
  have second : IsReal twoLineEnds ⟨2, 0⟩ :=
    ⟨4, ⟨['\u00e9', '\r', '\n'], ['\n'], rfl, by decide⟩, by decide⟩
  refine ⟨boundary, place, ?_, first, second, (ordered _ _ first second).2 (.inl (by decide)),
    (within _).2.1⟩
  rw [← place]
  exact back 5 boundary

end Waymark.Source
