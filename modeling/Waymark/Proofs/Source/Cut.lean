import Mathlib.Data.List.TakeWhile
import Waymark.Proofs.Source.Shape
import Waymark.Proofs.Source.Signs
import Waymark.Proofs.Source.Tokens
import Waymark.Source.File

/-!
# Functions as they are written

The trees of a text have true places when the text has at most one byte order mark at its front: a
second one counts as a column and shifts the first line. From a run of them every item is read, and
a function that stands in its text from where it begins to where it ends is a cut of the text. Under
another name it is the same cut with only that name replaced.

* `TruePlaces`, `truePlaces_of_unmarked`: texts whose trees stand where they are said to stand;
* `complete_eq_ok`, `mem_items`: the trees from which items are read;
* `Cut`, `Cut.Of.extract`: a function in its text, and what is taken out for it;
* `renamed_under`: a function under another name.
-/

namespace Waymark.Source

open Waymark.Source.Parser

theorem line_foldl_next {line : List Char} (unbroken : ∀ c ∈ line, c ≠ '\n') (p : Position) :
    (line.foldl Position.next p).line = p.line := by
  induction line generalizing p with
  | nil => rfl
  | cons c rest ih =>
    have next : p.next c = ⟨p.line, p.column + 1⟩ := if_neg (unbroken c (by simp))
    rw [List.foldl_cons, ih (fun d hd => unbroken d (List.mem_cons_of_mem _ hd)), next]

/-- Behind the first line of a text the second one begins. -/
theorem placeAfter_line {line : List Char} (unbroken : ∀ c ∈ line, c ≠ '\n') :
    placeAfter (line ++ ['\n']) = ⟨2, 0⟩ := by
  have same := line_foldl_next unbroken .origin
  have first : (placeAfter line).line = 1 := same
  rw [placeAfter_append, List.foldl_cons, List.foldl_nil, Position.next, if_pos rfl, first]

/-- A text from which an interpreter's line is taken goes on at the end of that line. -/
theorem withoutInterpreter_cases (text : List Char) :
    withoutInterpreter text = text ∨ ∃ line, (∀ c ∈ line, c ≠ '\n') ∧
      (text = line ∧ withoutInterpreter text = [] ∨
        ∃ rest, text = line ++ '\n' :: rest ∧ withoutInterpreter text = '\n' :: rest) := by
  unfold withoutInterpreter
  split
  · next rest =>
    split
    · exact .inl rfl
    · refine .inr ⟨'#' :: '!' :: rest.takeWhile (· ≠ '\n'), ?_, ?_⟩
      · intro c hc
        obtain rfl | rfl | hc : c = '#' ∨ c = '!' ∨
          c ∈ rest.takeWhile (· ≠ '\n') := by simpa using hc
        · decide
        · decide
        · simpa using List.mem_takeWhile_imp hc
      · have whole := List.takeWhile_append_dropWhile (p := fun c => decide (c ≠ '\n')) (l := rest)
        cases ended : rest.dropWhile (· ≠ '\n') with
        | nil =>
          rw [ended, List.append_nil] at whole
          exact .inl ⟨by rw [whole], rfl⟩
        | cons c more =>
          have line : c = '\n' := by
            have stops := List.head?_dropWhile_not (fun c => decide (c ≠ '\n')) rest
            rw [ended] at stops
            simpa using stops
          subst line
          refine .inr ⟨more, ?_, rfl⟩
          rw [ended] at whole
          rw [List.cons_append, List.cons_append, whole]
  · exact .inl rfl

/-- The trees of a text have their true places: they are read from a spot of the text. -/
def TruePlaces (text : List Char) : Prop := ∃ s :
    Spot, s.text = text ∧ treesOf text = Lexer.lex s.cursor

/-- The places of a text are true when it has no byte order mark at its front: that would count as a
column. -/
theorem truePlaces_of_unmarked {text : List Char} (unmarked : text.head? ≠ some byteOrderMark) :
    TruePlaces text := by
  have kept : withoutByteOrderMark text = text := by
    cases text with
    | nil => rfl
    | cons c rest => exact if_neg fun marked => unmarked (congrArg some marked)
  rw [TruePlaces, treesOf, kept]
  obtain whole | ⟨line, unbroken, ⟨rfl, empty⟩ | ⟨rest, split, behind⟩⟩ :=
    withoutInterpreter_cases text
  · have from' : cursorOf text = ⟨text, .origin⟩ := by
      cases text with
      | nil => rfl
      | cons c rest => exact if_neg fun marked => unmarked (congrArg some marked)
    rw [whole, from']
    exact ⟨⟨[], text⟩, rfl, rfl⟩
  · rw [empty]
    exact ⟨⟨text, []⟩, List.append_nil text, rfl⟩
  · have unlike : '\n' ≠ byteOrderMark := by decide
    have from' : cursorOf ('\n' :: rest) =
        ⟨'\n' :: rest, .origin⟩ := by rw [cursorOf, if_neg unlike]
    have passed : Lexer.Reading.step ⟨⟨'\n' :: rest, .origin⟩, [], []⟩ =
        .ok ⟨⟨rest, ⟨2, 0⟩⟩, [], []⟩ := by
      have blank : Lexer.piece ('\n' :: rest) = some (.blank 1) := Lexer.piece_of_blank rfl
      rw [Lexer.Reading.step, blank]
      rfl
    -- the line end that is left is passed over first, and from there on the lines are counted right
    rw [behind, from', Lexer.lex, List.length_cons, Lexer.lexFrom, passed]
    refine ⟨⟨line ++ ['\n'], rest⟩, by rw [split, Spot.text]; simp, ?_⟩
    rw [Spot.cursor, Spot.place, placeAfter_line unbroken]
    rfl

theorem complete_eq_ok {α : Type} {p : Parser α} {trees : List Tree} {a : α} :
    p.complete trees = .ok a ↔
      ∃ j, p.run ⟨trees, .origin, none⟩ = .ok (a, j) ∧ j.leftover = none ∧ j.trees = [] := by
  unfold complete
  constructor
  · intro done
    split at done
    · cases done
    · next b j run =>
      split at done
      · cases done
      · cases done
      · next none' nothing =>
        cases done
        exact ⟨j, run, none', nothing⟩
  · rintro ⟨j, run, none', nothing⟩
    rw [run]
    dsimp only
    rw [none', nothing]

theorem depthFor_deep (n : Nat) : 3 * n + 1 ≤ depthFor n := by
  unfold depthFor
  omega

theorem tokenCount_le_of_suffix {ts us : List Tree} (suffix : ts <:+ us) :
    tokenCount ts ≤ tokenCount us := by
  obtain ⟨front, rfl⟩ := suffix
  rw [tokenCount_append]
  exact Nat.le_add_left _ _

/-- Every item of a file is read from a run of its trees, at a depth that suffices for it. -/
theorem mem_items {text : List Char} {items : List Item} (read : itemsOf text = .ok items) :
    ∃ trees, treesOf text = .ok trees ∧ ∀ item ∈ items, ∃ (d : Nat) (i k : Input),
      i.trees <:+ trees ∧ 3 * tokenCount i.trees ≤ d ∧
        (Grammar.atDepth d).itemRule.run i = .ok (item, k) ∧ k.leftover = none := by
  unfold itemsOf at read
  cases lexed : treesOf text with
  | error p =>
    rw [lexed] at read
    cases read
  | ok trees =>
    rw [lexed] at read
    refine ⟨trees, rfl, ?_⟩
    intro item hi
    change Parser.complete _ trees = .ok items at read
    obtain ⟨j, parsed, none', -⟩ := complete_eq_ok.1 read
    obtain ⟨_, i₁, opened, parsed⟩ := run_bind parsed
    obtain ⟨i, k, within', taken, -, done⟩ := (repeats_of_run_many parsed).mem item hi
    have behind : i.trees <:+ trees := within'.trans (Parser.rest_suffix _ opened)
    have deep : 3 * tokenCount trees + 1 ≤ depthFor (tokenCount trees) := depthFor_deep _
    have fewer := tokenCount_le_of_suffix behind
    generalize depthFor (tokenCount trees) = n at deep taken
    obtain ⟨d, rfl⟩ : ∃ d, n = d + 1 := ⟨n - 1, by omega⟩
    exact ⟨d, i, k, behind, by omega, taken, done none'⟩

/-- The text of a function as it stands in its file: what stands before the name and behind it. -/
structure Cut where
  before : List Char
  front : List Char
  name : List Char
  back : List Char
  after : List Char

namespace Cut

/-- The whole file. -/
def file (c : Cut) : List Char := c.before ++ (c.front ++ (c.name ++ (c.back ++ c.after)))

/-- The function under a name. -/
def under (c : Cut) (name : List Char) : List Char := c.front ++ (name ++ c.back)

/-- The function begins where the item begins, its name stands where the item has it, and it ends
where the body ends. -/
structure Of (c : Cut) (text : List Char) (f : FunctionItem) : Prop where
  file : text = c.file
  name : f.signature.name = String.ofList c.name
  start : startOf f.attributes f.visibility f.signature.keyword = placeAfter c.before
  nameSpan : f.signature.nameSpan =
    ⟨placeAfter (c.before ++ c.front), placeAfter (c.before ++ (c.front ++ c.name))⟩
  stop : f.stop = placeAfter (c.before ++ c.under c.name)

/-- What is taken out of the file for an item that has a cut. -/
theorem Of.extract {c : Cut} {file : SourceFile} {f : FunctionItem} (h : c.Of file.text f) :
    file.extract f = .ok {
      name := f.signature.name
      line := f.signature.nameSpan.start.line
      source := String.ofList (c.under c.name)
      nameStart := byteLength c.front
      nameStop := byteLength (c.front ++ c.name) } := by
  obtain ⟨whole, -, start, nameSpan, stop⟩ := h
  have base : offset file.text (placeAfter c.before) = byteLength c.before := by
    rw [whole, Cut.file, offset_placeAfter]
  have first : offset file.text (placeAfter (c.before ++ c.front)) =
      byteLength (c.before ++ c.front) := by
    rw [whole, Cut.file, ← List.append_assoc, offset_placeAfter]
  have last : offset file.text (placeAfter (c.before ++ (c.front ++ c.name))) =
      byteLength (c.before ++ (c.front ++ c.name)) := by
    have split : file.text = (c.before ++ (c.front ++ c.name)) ++ (c.back ++ c.after) := by
      rw [whole, Cut.file]
      simp
    rw [split, offset_placeAfter]
  have text : between file.text (placeAfter c.before) (placeAfter (c.before ++ c.under c.name)) =
      c.under c.name := by
    have split : file.text = c.before ++ (c.under c.name ++ c.after) := by
      rw [whole, Cut.file, Cut.under]
      simp
    rw [split, between_placeAfter]
  unfold SourceFile.extract
  rw [start, nameSpan, stop]
  dsimp only
  rw [base, first, last, text, byteLength_append, if_neg (by omega), byteLength_append,
    Nat.add_sub_cancel_left, Nat.add_sub_cancel_left]

end Cut

/-- Under another name a function is its text with only the name replaced. -/
theorem renamed_under {front name back : List Char} {function : Function}
    (source : function.source = String.ofList (front ++ (name ++ back)))
    (start : function.nameStart = byteLength front)
    (stop : function.nameStop = byteLength (front ++ name)) (newName : String) :
    function.renamed newName = String.ofList (front ++ (newName.toList ++ back)) := by
  unfold Function.renamed
  rw [source, start, stop]
  dsimp only
  rw [String.toList_ofList, takeBytes_byteLength, ← List.append_assoc, dropBytes_byteLength]
  simp [← String.toList_inj]

end Waymark.Source
