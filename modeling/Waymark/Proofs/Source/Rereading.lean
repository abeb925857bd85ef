import Mathlib.Data.List.TakeWhile
import Waymark.Proofs.Source.Edges
import Waymark.Proofs.Source.Nesting
import Waymark.Proofs.Source.Rows

/-!
# Rows as tokens

Between two spots a row is read from its tokens. The same characters have the same tokens wherever
they stand, as long as what follows them begins alike with something at which every piece ends.

* `Spot.Reads`: the characters from one spot to another, and their tokens;
* `Row.reads`, `Blanks.reads`: the tokens of a row are put together to its trees, and blanks have
  none;
* `Blanks.edge`, `Blanks.lexes`: blanks before another text;
* `not_continues_of_word?`, `continues_of_word?`: a word ends where no other word begins.
-/

namespace Waymark.Source

namespace Lexer

/-- A piece takes a character. -/
theorem piece_pos {text : List Char} {p : Piece} (h : piece text = some p) :
    0 < p.length ∧ 0 < text.length := by
  cases piece_at h with
  | blank found => exact blank_pos found
  | documentation found =>
    refine ⟨documentation_pos found, ?_⟩
    cases text with
    | nil => cases h
    | cons c rest => exact Nat.succ_pos _
  | opening first | closing first =>
    obtain ⟨rest, rfl⟩ := List.head?_eq_some_iff.1 first
    exact ⟨Nat.one_pos, Nat.succ_pos _⟩
  | leaf found =>
    refine ⟨?_, ?_⟩
    · cases found with
      | literal n value some' => exact some'
      | mark => exact Nat.one_pos
      | word n found => exact word?_pos found
    · cases text with
      | nil => cases h
      | cons c rest => exact Nat.succ_pos _

/-- One piece of a text. -/
theorem lexes_next {text : List Char} {p : Piece} (found : piece text = some p) :
    Lexes (text.take p.length) (text.drop p.length) (p.token? text).toList := by
  obtain ⟨taken, some'⟩ := piece_pos found
  refine ⟨1, ?_, ?_⟩
  · rw [List.length_take]
    omega
  · rw [List.take_append_drop]
    simp [takePieces, found]

end Lexer

namespace Spot

open Lexer (Lexes Token Gathers)

/-- These characters lead from one spot to another, and there they are read as these tokens. -/
structure Reads (s : Spot) (between : List Char) (ts : List Token) (e : Spot) : Prop where
  leads : s.Leads between e
  lexes : Lexes between e.ahead ts

namespace Reads

variable {s m e : Spot} {first second : List Char} {ts us : List Token}

theorem refl (s : Spot) : s.Reads [] [] s := ⟨.refl s, .nil _⟩

theorem trans (here : s.Reads first ts m) (there : m.Reads second us e) :
    s.Reads (first ++ second) (ts ++ us) e := by
  refine ⟨here.leads.trans there.leads, ?_⟩
  have front := here.lexes
  rw [there.leads.ahead] at front
  exact front.append there.lexes

theorem piece {p : Lexer.Piece} (found : Lexer.piece s.ahead = some p) :
    s.Reads (s.ahead.take p.length) (p.token? s.ahead).toList (s.pass p.length) :=
  ⟨.pass s p.length, Lexer.lexes_next found⟩

end Reads

end Spot

theorem Blanks.trans {s m e : Spot} (first : Blanks s m) (second : Blanks m e) : Blanks s e := by
  induction first with
  | here => exact second
  | blank found _ ih => exact .blank found (ih second)

theorem Blanks.reads {s e : Spot} (h : Blanks s e) : ∃ gap, s.Reads gap [] e := by
  induction h with
  | here s => exact ⟨[], .refl s⟩
  | blank found _ ih =>
    obtain ⟨gap, reads⟩ := ih
    exact ⟨_, (Spot.Reads.piece (Lexer.piece_of_blank found)).trans reads⟩

/-- A row without trees is nothing but blanks. -/
theorem Row.blanks {s e : Spot} (row : Row s [] e) : Blanks s e := by
  generalize none' : ([] : List Tree) = ts at row
  induction row with
  | stop s => exact .here s
  | blank found _ ih => exact .blank found (ih none')
  | @documentation s e ts n inner found more ih => cases inner <;> cases none'
  | leaf => cases none'
  | group => cases none'

open Lexer (Gathers Token) in
/-- The tokens of a row are put together to its trees. -/
theorem Row.reads {s e : Spot} {ts : List Tree} (row : Row s ts e) :
    ∃ between tokens, s.Reads between tokens e ∧ Gathers tokens (shapes ts) := by
  induction row with
  | stop s => exact ⟨[], [], .refl s, by rw [shapes]; exact .nil⟩
  | blank found _ ih =>
    obtain ⟨rest, tokens, reads, gathers⟩ := ih
    exact ⟨_, tokens, (Spot.Reads.piece (Lexer.piece_of_blank found)).trans reads, gathers⟩
  | @documentation s e ts n inner found _ ih =>
    obtain ⟨rest, tokens, reads, gathers⟩ := ih
    have note : Gathers [.documentation inner] (Lexer.noteShapes inner) := fun _ _ _ => rfl
    refine ⟨_, _, (Spot.Reads.piece found).trans reads, ?_⟩
    rw [shapes_append, Lexer.shapes_reverse, Lexer.shapes_documentationTrees, List.reverse_reverse]
    exact note.append gathers
  | @leaf s e ts n make found _ ih =>
    obtain ⟨rest, tokens, reads, gathers⟩ := ih
    refine ⟨_, _, (Spot.Reads.piece found).trans reads, ?_⟩
    cases Lexer.leafAt_of_piece found with
    | literal n value =>
      have one : Gathers [.literal value (s.ahead.take n)] [.literal value] := fun _ _ _ => rfl
      rw [shapes]
      exact one.append gathers
    | @mark c joint first =>
      have one : Gathers [.mark c joint] [.mark c joint] := fun _ _ _ => rfl
      rw [shapes]
      exact one.append gathers
    | word n =>
      have one : Gathers [.word (String.ofList (s.ahead.take n))]
          [.word (String.ofList (s.ahead.take n))] :=
        fun _ _ _ => rfl
      rw [shapes]
      exact one.append gathers
  | @group s i e content ts d opened _ closed _ inside ih =>
    obtain ⟨held, tokens, reads, gathers⟩ := inside
    obtain ⟨rest, tokens', reads', gathers'⟩ := ih
    have whole := ((Spot.Reads.piece opened).trans reads).trans
      ((Spot.Reads.piece closed).trans reads')
    refine ⟨_, _, whole, ?_⟩
    rw [shapes]
    have group := (gathers.enclosed d).append gathers'
    simpa [Lexer.Piece.token?] using group

/-! ## Before other texts -/

namespace Blanks

variable {s e : Spot}

/-- Blanks are passed over before any text, if they are before one that goes on with its line. -/
theorem lexes (h : Blanks s e) (goes : 0 < Lexer.lineLength e.ahead) :
    ∃ gap, s.Leads gap e ∧ ∀ w, Lexer.Lexes gap w [] := by
  induction h with
  | here s => exact ⟨[], .refl s, Lexer.Lexes.nil⟩
  | @blank s e n found _ ih =>
    obtain ⟨gap, leads, lexes⟩ := ih goes
    refine ⟨_, (Spot.Leads.pass s n).trans leads, ?_⟩
    intro w
    have whole : s.ahead = s.ahead.take n ++ gap ++ e.ahead := by
      rw [List.append_assoc, ← leads.ahead]
      exact (List.take_append_drop n s.ahead).symm
    have inside : (s.ahead.take n).length = n := by
      have rest := congrArg List.length leads.ahead
      rw [Spot.pass, List.length_drop, List.length_append] at rest
      have some' : 0 < e.ahead.length := by
        cases ahead : e.ahead with
        | nil =>
          rw [ahead] at goes
          cases goes
        | cons c more => exact Nat.succ_pos _
      rw [List.length_take]
      omega
    have same : Lexer.blank (s.ahead.take n ++ gap ++ w) = some n := by
      refine Lexer.blank_edge (v := e.ahead) (fun ended => absurd goes (by omega)) ?_ ?_
      · rw [← whole]
        exact found
      · rw [List.length_append, inside]
        omega
    rw [List.append_assoc] at same
    have some' : s.ahead.take n ≠ [] := by
      intro nothing
      have taken := (Lexer.blank_pos found).1
      rw [nothing, List.length_nil] at inside
      omega
    have first := Lexer.lexes_piece some' (Lexer.piece_of_blank same) inside.symm
    exact first.append (lexes w)

/-- Blanks are nothing at all, or they begin with a comment or with a blank character. -/
theorem first (h : Blanks s e) : e = s ∨ ∃ n, Blanks (s.pass n) e ∧
    ((∃ c rest, (c = '/' ∨ c = '*') ∧ s.ahead = '/' :: c :: rest ∧ 2 ≤ n) ∨
      ∃ c rest, Text.isBlank c ∧ s.ahead = c :: rest ∧ n = 1) := by
  cases h with
  | here => exact .inl rfl
  | @blank _ _ n found more =>
    refine .inr ⟨n, more, ?_⟩
    by_cases comment : Lexer.beginsComment s.ahead = true
    · have long : 2 ≤ n := Lexer.two_le_of_comment comment (Lexer.piece_of_blank found)
      obtain ⟨c, rest, is, ahead⟩ := Lexer.exists_comment comment
      exact .inl ⟨c, rest, is, ahead, long⟩
    · obtain ⟨c, rest, ahead⟩ : ∃ c rest, s.ahead = c :: rest :=
        List.exists_cons_of_length_pos (Lexer.blank_pos found).2
      rw [ahead] at found comment
      rw [Lexer.blank_of_not_comment (Bool.eq_false_iff.2 comment)] at found
      split at found
      · next is =>
        cases found
        exact .inr ⟨c, rest, is, ahead, rfl⟩
      · cases found

/-- Where a text goes on with blanks it goes on with something at which every piece ends. -/
theorem edge (h : Blanks s e) {gap : List Char} (leads : s.Leads gap e) (some' : gap ≠ [])
    (w : List Char) :
    Lexer.Edge s.ahead (gap ++ w) := by
  obtain rfl | ⟨n, more, begins⟩ := h.first
  · have none' : gap = [] := by simpa using leads.ahead
    exact absurd none' some'
  obtain ⟨rest, leads'⟩ := more.leads
  have same : gap = s.ahead.take n ++ rest := leads.unique ((Spot.Leads.pass s n).trans leads')
  obtain ⟨c, behind, is, ahead, long⟩ | ⟨c, behind, is, ahead, rfl⟩ := begins
  · obtain ⟨m, rfl⟩ : ∃ m, n = m + 2 := ⟨n - 2, by omega⟩
    rw [same, ahead]
    exact .comment is _ _
  · rw [same, ahead]
    exact .blank is _ _

end Blanks

/-! ## Words -/

namespace Lexer

open Waymark.Text

/-- One range of codes lies within another. -/
def within (r t : Nat × Nat) : Bool := t.1 ≤ r.1 && r.2 ≤ t.2

/-- What is left of ranges in order when those are taken from the front that lie within others,
which are in order too. -/
def beyond (others ranges : List (Nat × Nat)) : List (Nat × Nat) :=
  others.foldl (fun left t => left.dropWhile (within · t)) ranges

theorem exists_within {others ranges : List (Nat × Nat)} (nothing : beyond others ranges = []) :
    ∀ r ∈ ranges, ∃ t ∈ others, within r t := by
  induction others generalizing ranges with
  | nil =>
    intro r hr
    obtain rfl : ranges = [] := nothing
    cases hr
  | cons t others ih =>
    intro r hr
    rw [← List.takeWhile_append_dropWhile (p := (within · t)) (l := ranges)] at hr
    obtain first | later := List.mem_append.1 hr
    · have inside := List.mem_takeWhile_imp first
      exact ⟨t, by simp, inside⟩
    · obtain ⟨u, hu, inside⟩ := ih nothing r later
      exact ⟨u, by simp [hu], inside⟩

/-- Whatever begins an identifier goes on with one. -/
theorem continuesIdentifier_of_begins {c : Char} (begins : beginsIdentifier c = true) :
    continuesIdentifier c = true := by
  unfold beginsIdentifier at begins
  unfold continuesIdentifier
  by_cases ascii : c.toNat < 0x80
  · rw [if_pos ascii] at begins ⊢
    rw [Bool.or_eq_true] at begins ⊢
    refine begins.imp_left fun letter => ?_
    rw [Char.isAlphanum, letter, Bool.true_or]
  · rw [if_neg ascii] at begins ⊢
    have covered : beyond continuingRanges letterRanges = [] := by decide +kernel
    obtain ⟨r, hr, inside⟩ := List.any_eq_true.1 begins
    obtain ⟨t, ht, sub⟩ := exists_within covered r hr
    refine List.any_eq_true.2 ⟨t, ht, ?_⟩
    simp only [within, Bool.and_eq_true, decide_eq_true_eq] at inside sub ⊢
    omega

theorem continues_of_word? {text : List Char} {n : Nat} (found : word? text = some n) :
    ∃ c rest, text = c :: rest ∧ continuesIdentifier c = true := by
  obtain ⟨c, rest, rfl, begins⟩ := begins_of_word? found
  exact ⟨c, rest, rfl, continuesIdentifier_of_begins begins⟩

/-- A word of two letters goes on with nothing that could go on with it. -/
theorem not_continues_of_word? {a b c : Char} {rest : List Char} (raw : b ≠ '#')
    (found : word? (a :: b :: c :: rest) = some 2) : continuesIdentifier c = false := by
  unfold word? at found
  split at found
  · cases found
  · have plain : begins "r#" (a :: b :: c :: rest) = false := by
      simp [begins, List.isPrefixOf, raw.symm]
    unfold anyWord at found
    rw [plain, if_neg Bool.false_ne_true, Literal.identifier?] at found
    split at found
    · by_contra goes
      rw [Bool.not_eq_false] at goes
      have long := Option.some.inj found
      rw [List.takeWhile_cons, List.takeWhile_cons_of_pos goes] at long
      split at long
      · rw [List.length_cons, List.length_cons] at long
        omega
      · cases long
    · cases found

end Lexer

end Waymark.Source
