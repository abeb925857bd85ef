import Waymark.Proofs.Source.Grammar.Alone
import Waymark.Proofs.Source.Rereading
import Waymark.Proofs.Source.Signs

/-!
# Items taken out of a text

A function stands in a text from its first sign to the brace that closes its body, and its name
stands in between. Taken out, and under any other name, it is read as the same trees as before,
whatever lines follow it; and so is an import.

* `StandsAlone`: a text that is an item, whatever lines follow it;
* `FunctionSpots`, `exists_functionSpots`: where the parts of a function stand;
* `FunctionSpots.standsAlone`, `standsAlone_import`: functions and imports that are taken out.
-/

namespace Waymark.Source

open Waymark.Source.Grammar (FunctionTrees Opens)
open Waymark.Source.Lexer (Gathers Lexes Token)

/-- A text that is an item, whatever lines follow it. -/
def StandsAlone (text : List Char) : Prop :=
  ∃ trees, IsItem trees ∧ ∃ ts, Gathers ts (shapes trees) ∧ ∀ behind, Lexes text ('\n' :: behind) ts

/-! ## Functions -/

/-- Where a function stands, whose trees before the name are given: behind these, at its name,
behind the trees of its head, and at the braces of its body. -/
structure FunctionSpots (s : Spot) (front : List Tree) (t : FunctionTrees) (n : String)
    (span : Span) where
  before : Spot
  name : Spot
  count : Nat
  head : Spot
  opening : Spot
  closing : Spot
  front : Row s front before
  gap : Blanks before name
  word : Lexer.piece name.ahead = some (.leaf count (.word n))
  span : span = ⟨name.place, (name.pass count).place⟩
  middle : Row (name.pass count) t.middle head
  gap' : Blanks head opening
  opened : Lexer.piece opening.ahead = some (.opening .brace)
  content : Row (opening.pass 1) t.content closing
  closed : Lexer.piece closing.ahead = some (.closing .brace)
  body : t.body = ⟨opening.place, (closing.pass 1).place⟩

section
variable {s e : Spot} {front rest : List Tree} {t : FunctionTrees} {n : String} {span : Span}

theorem exists_functionSpots (row : Row s (front ++ (t.fromName n span ++ rest)) e) :
    Nonempty (FunctionSpots s front t n span) := by
  have brace : Delimiter.brace ≠ .bracket := by decide
  simp only [FunctionTrees.fromName, FunctionTrees.block, List.cons_append, List.append_assoc,
    List.nil_append] at row
  -- up to the name, from there up to the body, and through it
  obtain ⟨before, first, named⟩ := row.split (t := .word n span) trivial
  obtain ⟨name, count, gap, word, place, behind⟩ := named.word
  obtain ⟨head, middle, body⟩ := behind.split (t := .group .brace t.body t.closing t.content) brace
  obtain ⟨opening, closing, gap', opened, content, closed, place', -⟩ := body.enclosed
  exact ⟨⟨before, name, count, head, opening, closing, first, gap, word, place, middle, gap',
    opened, content, closed, place'⟩⟩

namespace FunctionSpots

theorem name_eq (p : FunctionSpots s front t n span) :
    n = String.ofList (p.name.ahead.take p.count) :=
  (Lexer.word_of_piece p.word).1

/-- The characters up to the name. -/
theorem toName (p : FunctionSpots s front t n span) : ∃ chars, s.Leads chars p.name := by
  obtain ⟨upTo, leads⟩ := p.front.leads
  obtain ⟨gap, skipped⟩ := p.gap.leads
  exact ⟨_, leads.trans skipped⟩

/-- The characters from the name to where the body begins. -/
theorem toContent (p : FunctionSpots s front t n span) :
    ∃ head, (p.name.pass p.count).Leads head (p.opening.pass 1) ∧ head ≠ [] := by
  obtain ⟨head, toHead⟩ := p.middle.leads
  obtain ⟨gap, skipped⟩ := p.gap'.leads
  have brace := Lexer.opener_of_piece p.opened
  exact ⟨_, (toHead.trans skipped).trans (.next brace), by simp⟩

/-- What stands between the name and the closing brace is read as the head and the body, before any
text that goes on with the brace. -/
theorem reads_back (p : FunctionSpots s front t n span) : ∃ back tokens,
    (p.name.pass p.count).Leads back p.closing ∧
      Gathers (tokens ++ [.closing .brace]) (shapes (t.middle ++ [t.block])) ∧
      ∀ w, Lexes back ('\x7d' :: w) tokens := by
  obtain ⟨head, tokens, reads, gathers⟩ := p.middle.reads
  obtain ⟨gap, passed⟩ := p.gap'.reads
  obtain ⟨held, tokens', inside, gathers'⟩ := p.content.reads
  have whole := (reads.trans passed).trans ((Spot.Reads.piece p.opened).trans inside)
  refine ⟨_, tokens ++ [] ++ ([.opening .brace] ++ tokens'), whole.leads, ?_, ?_⟩
  · have group := gathers.append (gathers'.enclosed .brace)
    rw [shapes_append, FunctionTrees.block, shapes, shapes]
    simpa using group
  · intro w
    obtain ⟨more, ahead⟩ := List.head?_eq_some_iff.1 (Lexer.closer_of_piece p.closed)
    have lexes := whole.lexes
    rw [ahead] at lexes
    exact lexes.edge (.closing (.inr rfl) _ _) fun _ => by simp

/-- Behind its keyword a function goes on with a gap before its name: otherwise the keyword would go
on. -/
theorem gap_ne_nil {q : Spot} {name : Spot} {count k : Nat} {n : String} {gap : List Char}
    (word : Lexer.piece q.ahead = some (.leaf k (.word "fn")))
    (named : Lexer.piece name.ahead = some (.leaf count (.word n)))
    (leads : (q.pass k).Leads gap name) :
    gap ≠ [] ∧ q.ahead.take k = ['f', 'n'] := by
  obtain ⟨written, found⟩ := Lexer.word_of_piece word
  obtain ⟨-, found'⟩ := Lexer.word_of_piece named
  obtain ⟨c, rest, ahead, goes⟩ := Lexer.continues_of_word? found'
  have taken : q.ahead.take k = ['f', 'n'] := by
    rw [← String.toList_ofList (l := q.ahead.take k), ← written]
    decide
  refine ⟨?_, taken⟩
  rintro rfl
  have behind : q.ahead.drop k = c :: rest := by
    rw [← ahead]
    exact leads.ahead
  have whole : q.ahead = 'f' :: 'n' :: c :: rest := by
    rw [← List.take_append_drop k q.ahead, taken, behind]
    rfl
  have two : k = 2 := by
    have long := congrArg List.length taken
    rw [whole, List.length_take] at long
    simp only [List.length_cons, List.length_nil] at long
    omega
  rw [whole, two] at found
  rw [Lexer.not_continues_of_word? (by decide) found] at goes
  cases goes

/-- What stands before the name is read as the trees up to the keyword, before any text. -/
theorem reads_front (p : FunctionSpots s (t.front ++ [.word "fn" t.keyword]) t n span) :
    ∃ chars tokens, s.Leads chars p.name ∧
    Gathers tokens (shapes (t.front ++ [.word "fn" t.keyword])) ∧
      ∀ w, Lexes chars w tokens := by
  obtain ⟨m, first, keyword⟩ := p.front.split (t := .word "fn" t.keyword) trivial
  obtain ⟨q, k, gap, word, -, behind⟩ := keyword.word
  -- the text up to the end of the keyword, and the gap behind it
  obtain ⟨chars, tokens, reads, gathers⟩ := first.reads
  obtain ⟨passed, blanks⟩ := gap.reads
  have upTo := (reads.trans blanks).trans (Spot.Reads.piece word)
  have between : Blanks (q.pass k) p.name := behind.blanks.trans p.gap
  obtain ⟨c, rest, ahead, goes⟩ := Lexer.continues_of_word? (Lexer.word_of_piece p.word).2
  have line : 0 < Lexer.lineLength p.name.ahead := by
    have other : c ≠ '\n' := by
      rintro rfl
      cases goes
    rw [ahead]
    simp [Lexer.lineLength, other]
  obtain ⟨apart, leads, lexes⟩ := between.lexes line
  obtain ⟨some', taken⟩ := gap_ne_nil word p.word leads
  refine ⟨_, tokens ++ [.word "fn"], upTo.leads.trans leads, ?_, ?_⟩
  · have one : Gathers [.word "fn"] [.word "fn"] := fun _ _ _ => rfl
    rw [shapes_append, shapes, shapes]
    exact gathers.append one
  · intro w
    have edge := between.edge leads some' w
    have last : (chars ++ passed ++ q.ahead.take k).getLast? = some 'n' := by
      rw [taken]
      simp
    have front := upTo.lexes.edge edge (fun open' => by
      rw [Lexer.Piece.length, last] at open'
      cases open')
    have both := front.append (lexes w)
    simpa [Lexer.Piece.token?] using both

/-- Behind the name comes a character at which a name ends, and which closes no body. -/
theorem begins_back (p : FunctionSpots s front t n span) (opens : Opens t.middle) :
    ∃ d, (p.name.pass p.count).ahead.head? = some d ∧ Lexer.closesName d = true ∧ d ≠ '\x7d' := by
  obtain ⟨m, d, gap, here, closes, other⟩ : ∃ m d, Blanks (p.name.pass p.count) m ∧
      m.ahead.head? = some d ∧ Lexer.closesName d = true ∧ d ≠ '\x7d' := by
    have middle := p.middle
    cases opened : t.middle with
    | nil =>
      rw [opened] at opens
      cases opens
    | cons u rest =>
      rw [opened] at opens middle
      cases opens with
      | generics joint span =>
        obtain ⟨m, gap, first, -⟩ := middle.mark (by decide)
        exact ⟨m, '<', gap, first, by decide, by decide⟩
      | parameters span closing content =>
        obtain ⟨m, -, gap, first, -⟩ := middle.enclosed
        exact ⟨m, '(', gap, Lexer.opener_of_piece first, by decide, by decide⟩
  obtain rfl | ⟨n, -, ⟨c, rest, -, ahead, -⟩ | ⟨c, rest, is, ahead, -⟩⟩ := gap.first
  · exact ⟨d, here, closes, other⟩
  · exact ⟨'/', by rw [ahead]; rfl, by decide, by decide⟩
  · refine ⟨c, by rw [ahead]; rfl, (Lexer.endsToken_of_isBlank is).closesName, ?_⟩
    rintro rfl
    cases is

/-- What stands behind the name begins with a character at which a name ends. -/
theorem closesName_back (p : FunctionSpots s front t n span) (opens : Opens t.middle)
    {back : List Char} (leads : (p.name.pass p.count).Leads back p.closing) :
    ∃ d more, back = d :: more ∧ Lexer.closesName d = true := by
  obtain ⟨d, here, closes, other⟩ := p.begins_back opens
  have ahead := leads.ahead
  cases back with
  | nil =>
    rw [List.nil_append] at ahead
    rw [ahead, Lexer.closer_of_piece p.closed] at here
    cases here
    exact absurd rfl other
  | cons c more =>
    rw [ahead] at here
    cases here
    exact ⟨_, more, rfl, closes⟩

/-- A function that is taken out of its text is an item by itself under any name. -/
theorem standsAlone (p : FunctionSpots s (t.front ++ [.word "fn" t.keyword]) t n span)
    (opens : Opens t.middle)
    {name : String} (ascii : Lexer.IsAsciiName name.toList)
    (item : ∀ span, IsItem (t.under name span))
    {chars back : List Char} (front : s.Leads chars p.name)
    (behind : (p.name.pass p.count).Leads back p.closing) :
    StandsAlone (chars ++ (name.toList ++ (back ++ ['\x7d']))) := by
  obtain ⟨chars', tokens, front', gathers, lexes⟩ := p.reads_front
  obtain ⟨back', tokens', behind', gathers', lexes'⟩ := p.reads_back
  obtain rfl := front.unique front'
  obtain rfl := behind.unique behind'
  obtain ⟨d, more, rfl, closes⟩ := p.closesName_back opens behind
  refine ⟨_, item span, tokens ++ ([.word name] ++ (tokens' ++ [.closing .brace])), ?_, ?_⟩
  · have one : Gathers [.word name] [.word name] := fun _ _ _ => rfl
    have all := gathers.append (one.append gathers')
    rw [FunctionTrees.under, FunctionTrees.fromName]
    simpa [shapes_append, shapes] using all
  · intro w
    have named : Lexes name.toList (d :: more ++ ['\x7d'] ++ '\n' :: w) [.word name] := by
      have found := Lexer.lexes_name ascii closes (more ++ ['\x7d'] ++ '\n' :: w)
      rwa [String.ofList_toList] at found
    have last := Lexer.lexes_closing .brace ('\n' :: w)
    exact (lexes _).append (named.append ((lexes' _).append last))

end FunctionSpots

end

/-! ## Imports -/

/-- An import that is taken out of its text is an item by itself. -/
theorem standsAlone_import {s e m : Spot} {front : List Tree} {span : Span} {chars : List Char}
    (row : Row s front e) (gap : Blanks e m) (semicolon : m.ahead.head? = some ';')
    (leads : s.Leads chars m)
    (item : IsItem (front ++ [.mark ';' false span])) : StandsAlone (chars ++ [';']) := by
  obtain ⟨chars', tokens, reads, gathers⟩ := row.reads
  obtain ⟨passed, blanks⟩ := gap.reads
  have upTo := reads.trans blanks
  obtain rfl := leads.unique upTo.leads
  obtain ⟨more, ahead⟩ := List.head?_eq_some_iff.1 semicolon
  refine ⟨_, item, tokens ++ [] ++ [.mark ';' false], ?_, ?_⟩
  · have one : Gathers [.mark ';' false] [.mark ';' false] := fun _ _ _ => rfl
    rw [shapes_append, shapes, shapes, List.append_nil]
    exact gathers.append one
  · intro w
    have front := upTo.lexes
    rw [ahead] at front
    have front' := front.edge (.closing (.inl rfl) _ ('\n' :: w)) fun _ => by simp
    exact front'.append (Lexer.lexes_mark (by decide) ('\n' :: w))

end Waymark.Source
