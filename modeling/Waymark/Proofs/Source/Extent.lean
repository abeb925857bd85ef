import Waymark.Source.Lexer

/-!
# Places in a text

A position that was reached by passing over the front of a text gives that front back: what lies
behind it, how many bytes lie before it, and what lies between it and a later one.

* `placeAfter`: the position behind a text;
* `suffixAt_placeAfter`, `offset_placeAfter`, `between_placeAfter`: what such a position stands for;
* `takeBytes_byteLength`, `dropBytes_byteLength`: cutting a text at the end of its front.
-/

namespace Waymark.Source

/-- The position behind a text that begins at the origin. -/
def placeAfter (text : List Char) : Position := text.foldl Position.next .origin

theorem placeAfter_append (front back : List Char) :
    placeAfter (front ++ back) = back.foldl Position.next (placeAfter front) :=
  List.foldl_append

theorem byteLength_append (front back : List Char) :
    byteLength (front ++ back) = byteLength front + byteLength back := by
  induction front with
  | nil => rw [List.nil_append, byteLength, Nat.zero_add]
  | cons c rest ih => rw [List.cons_append, byteLength, byteLength, ih, Nat.add_assoc]

theorem byteLength_pos {text : List Char} (some' : text ≠ []) : 0 < byteLength text := by
  cases text with
  | nil => exact absurd rfl some'
  | cons c rest =>
    have size := c.utf8Size_pos
    rw [byteLength]
    omega

/-- Passing over characters takes them from the text and keeps the position true. -/
theorem advance_eq (n : Nat) (text : List Char) (p : Position) :
    Cursor.advance n ⟨text, p⟩ = ⟨text.drop n, (text.take n).foldl Position.next p⟩ := by
  induction n generalizing text p with
  | zero => rfl
  | succ n ih =>
    cases text with
    | nil => rfl
    | cons c rest => exact ih rest (p.next c)

/-- Lines and columns count from where the front begins. The columns of its first line go on from
those before it, those of a later line begin anew. -/
theorem lines_foldl_next (front back : List Char) (p : Position) :
    p.line ≤ (front.foldl Position.next p).line ∧
      if (front.foldl Position.next p).line = p.line then
        p.column ≤ (front.foldl Position.next p).column ∧
          (front ++ back).drop ((front.foldl Position.next p).column - p.column) = back
      else (dropLines ((front.foldl Position.next p).line - p.line) (front ++ back)).drop
        (front.foldl Position.next p).column = back := by
  induction front generalizing p with
  | nil => simp
  | cons c rest ih =>
    rw [List.foldl_cons]
    by_cases ends : c = '\n'
    · have next : p.next c = ⟨p.line + 1, 0⟩ := if_pos ends
      obtain ⟨below, behind⟩ := ih (p.next c)
      rw [next] at below behind ⊢
      generalize rest.foldl Position.next ⟨p.line + 1, 0⟩ = q at below behind ⊢
      dsimp only at below behind
      obtain ⟨n, hn⟩ : ∃ n, q.line - p.line = n + 1 := ⟨q.line - p.line - 1, by omega⟩
      have less : q.line - (p.line + 1) = n := by omega
      refine ⟨by omega, ?_⟩
      rw [if_neg (by omega), hn, List.cons_append, dropLines, if_pos ends]
      rw [less] at behind
      split at behind
      · next same =>
        have none' : n = 0 := by omega
        rw [none', dropLines]
        simpa using behind.2
      · exact behind
    · have next : p.next c = ⟨p.line, p.column + 1⟩ := if_neg ends
      obtain ⟨below, behind⟩ := ih (p.next c)
      rw [next] at below behind ⊢
      generalize rest.foldl Position.next ⟨p.line, p.column + 1⟩ = q at below behind ⊢
      dsimp only at below behind
      refine ⟨below, ?_⟩
      split at behind
      · next same =>
        obtain ⟨right, behind⟩ := behind
        obtain ⟨n, hn⟩ : ∃ n, q.column - p.column = n + 1 := ⟨q.column - p.column - 1, by omega⟩
        have less : q.column - (p.column + 1) = n := by omega
        rw [if_pos same, hn, List.cons_append, List.drop_succ_cons]
        rw [less] at behind
        exact ⟨by omega, behind⟩
      · next other =>
        obtain ⟨n, hn⟩ : ∃ n, q.line - p.line = n + 1 := ⟨q.line - p.line - 1, by omega⟩
        rw [if_neg other, hn, List.cons_append, dropLines, if_neg ends, ← hn]
        exact behind

/-- Behind the position of a front lies the back. -/
theorem suffixAt_placeAfter (front back : List Char) :
    suffixAt (front ++ back) (placeAfter front) = back := by
  obtain ⟨below, behind⟩ := lines_foldl_next front back .origin
  unfold suffixAt
  split at behind
  · next same =>
    have first : (placeAfter front).line - 1 = 0 := by
      rw [placeAfter, same]
      rfl
    rw [first, dropLines]
    exact behind.2
  · exact behind

theorem offset_placeAfter (front back : List Char) :
    offset (front ++ back) (placeAfter front) = byteLength front := by
  rw [offset, suffixAt_placeAfter, byteLength_append, Nat.add_sub_cancel]

theorem between_placeAfter (front middle back : List Char) :
    between (front ++ (middle ++ back)) (placeAfter front) (placeAfter (front ++ middle)) =
      middle := by
  have behind : suffixAt (front ++ (middle ++ back)) (placeAfter (front ++ middle)) = back := by
    rw [← List.append_assoc]
    exact suffixAt_placeAfter (front ++ middle) back
  rw [between, suffixAt_placeAfter, behind, List.length_append, Nat.add_sub_cancel, List.take_left]

theorem takeBytes_byteLength (front back : List Char) :
    takeBytes (byteLength front) (front ++ back) = front := by
  induction front with
  | nil => cases back <;> simp [takeBytes, byteLength]
  | cons c rest ih =>
    have some' : byteLength (c :: rest) ≠ 0 :=
      Nat.ne_of_gt (byteLength_pos (List.cons_ne_nil c rest))
    rw [List.cons_append, takeBytes, if_neg some', byteLength, Nat.add_sub_cancel_left, ih]

theorem dropBytes_byteLength (front back : List Char) :
    dropBytes (byteLength front) (front ++ back) = back := by
  induction front with
  | nil => cases back <;> simp [dropBytes, byteLength]
  | cons c rest ih =>
    have some' : byteLength (c :: rest) ≠ 0 :=
      Nat.ne_of_gt (byteLength_pos (List.cons_ne_nil c rest))
    rw [List.cons_append, dropBytes, if_neg some', byteLength, Nat.add_sub_cancel_left, ih]

end Waymark.Source
