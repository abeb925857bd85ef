import Waymark.Proofs.Source.Grammar.Depth
import Waymark.Proofs.Source.Extraction
import Waymark.Proofs.Source.Nesting
import Waymark.Source.File

/-!
# Which texts are files

A text is a file of the language if its tokens are put together to trees that the grammar accepts,
and that is told by the shapes of these trees alone, at any depth that suffices for them.

* `Accepted`: trees that are a file;
* `accepted_congr`, `accepted_iff`: acceptance by shapes, and at any depth;
* `parse_iff_accepted`: which texts can be read.
-/

namespace Waymark.Source

open Waymark.Source.Parser

/-- The trees are a file of the language. -/
def Accepted (trees : List Tree) : Prop :=
  ∃ items, (Grammar.atDepth (depthFor (tokenCount trees))).file.complete trees = .ok items

/-- Trees of one shape are files together, at any depths that suffice. -/
theorem exists_complete {ts us : List Tree} {d d' : Nat} (same : shapes ts = shapes us)
    (deep : 3 * tokenCount ts + 1 ≤ d) (deep' : 3 * tokenCount ts + 1 ≤ d') {items : List Item}
    (done : (Grammar.atDepth d).file.complete ts = .ok items) :
    ∃ items', (Grammar.atDepth d').file.complete us = .ok items' := by
  obtain ⟨j, run, none', nothing⟩ := complete_eq_ok.1 done
  have alike : Horizon.closed.Alike (tokenCount ts) ⟨ts, .origin, none⟩ ⟨us, .origin, none⟩ :=
    ⟨⟨ts, us, by simp [Horizon.closed], by simp [Horizon.closed], same, Nat.le_refl _⟩, Iff.rfl⟩
  obtain ⟨items', j', run', -, behind⟩ := Grammar.carries_file deep deep' alike run (Nat.zero_le _)
  obtain ⟨rest, rest', left, right, same', -⟩ := behind.trees
  refine ⟨items', complete_eq_ok.2 ⟨j', run', behind.leftover.1 none', ?_⟩⟩
  rw [nothing] at left
  obtain ⟨rfl, -⟩ := List.append_eq_nil_iff.1 left.symm
  rw [right, shapes_eq_nil same']
  rfl

/-- Whether trees are a file is told at any depth that suffices. -/
theorem accepted_iff {ts : List Tree} {d : Nat} (deep : 3 * tokenCount ts + 1 ≤ d) :
    Accepted ts ↔ ∃ items, (Grammar.atDepth d).file.complete ts = .ok items :=
  ⟨fun ⟨_, done⟩ => exists_complete rfl (depthFor_deep _) deep done,
    fun ⟨_, done⟩ => exists_complete rfl deep (depthFor_deep _) done⟩

/-- Whether trees are a file is told by their shapes. -/
theorem accepted_congr {ts us : List Tree} (same : shapes ts = shapes us) :
    Accepted ts ↔ Accepted us := by
  have deep : 3 * tokenCount us + 1 ≤ depthFor (tokenCount ts) :=
    tokenCount_congr same ▸ depthFor_deep _
  rw [accepted_iff deep]
  exact ⟨fun ⟨_, done⟩ => exists_complete same (depthFor_deep _) (depthFor_deep _) done,
    fun ⟨_, done⟩ => exists_complete same.symm deep deep done⟩

/-- A text that begins with a comment is a file if its tokens are put together to trees that are
one. -/
theorem parse_iff_accepted {text : String} {behind : List Char}
    (slash : text.toList = '/' :: behind)
    {ts : List Lexer.Token} (lexes : Lexer.Lexes text.toList [] ts) {us : List Tree}
    (gathered : Lexer.gather [] [] ts = some (shapes us)) :
    (∃ file, SourceFile.parse text = .ok file) ↔ Accepted us := by
  obtain ⟨trees, lexed, same⟩ := Lexer.lex_of_gather lexes gathered .origin
  have unmarked : withoutByteOrderMark text.toList = text.toList := by
    rw [slash, withoutByteOrderMark, if_neg (by decide)]
  have read : treesOf text.toList = .ok trees := by
    rw [treesOf, unmarked, ← lexed, slash]
    have from' : cursorOf ('/' :: behind) =
        ⟨'/' :: behind, .origin⟩ := by rw [cursorOf, if_neg (by decide)]
    rw [← from']
    rfl
  have items : (∃ file, SourceFile.parse text = .ok file) ↔
      ∃ items, itemsOf text.toList = .ok items := by
    simp only [parse_eq_ok_iff, unmarked]
    constructor
    · rintro ⟨file, whole, found⟩
      exact ⟨file.items, whole ▸ found⟩
    · rintro ⟨found, done⟩
      exact ⟨⟨text.toList, found⟩, rfl, done⟩
  have parsed : itemsOf text.toList =
      (Grammar.atDepth (depthFor (tokenCount trees))).file.complete trees := by
    rw [itemsOf, read]
    rfl
  rw [items, parsed, ← accepted_congr same, Accepted]

end Waymark.Source
