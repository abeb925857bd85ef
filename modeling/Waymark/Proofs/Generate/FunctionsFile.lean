import Waymark.Proofs.Generate.Blocks
import Waymark.Proofs.Generate.RegisteringTrees
import Waymark.Proofs.Source.Excerpt

/-!
# The file of functions as a file of the language

The file of functions is a comment, an attribute, the imports and the functions, each on lines of
its own. So it is a file of the language if each of them is an item by itself and no path that is
shown above a function breaks the line of its comment.

* `spells_opening`: the comment and the attribute;
* `spells_imports`, `spells_block`: the lines of imports and of a function;
* `parse_functionsText`: the whole file.
-/

namespace Waymark.Generate

open Waymark.Scan
open Waymark.Source Waymark.Source.Parser
open Waymark.Source.Lexer (Gathers Lexes Token isNameChar lexes_blank)
open Bare

/-- The attribute of the file of functions. -/
def openingTrees : List Tree :=
  [joint '#', mark '!', group .bracket [word "allow",
    group .paren [word "unused_imports", mark ',', word "dead_code"]]]

/-- The attribute of the file of functions in tokens. -/
def openingTokens : List Token :=
  [.mark '#' true, .mark '!' false, .opening .bracket, .word "allow", .opening .paren,
    .word "unused_imports", .mark ',' false, .word "dead_code", .closing .paren, .closing .bracket]

theorem lexes_allowance (behind : List Char) :
    Lexes "#![allow(unused_imports, dead_code)]\n".toList behind openingTokens := by
  have text : Lexes "#![allow(unused_imports, dead_code)]".toList ['\n'] openingTokens :=
    ⟨11, by decide, by decide +kernel⟩
  have line := text.edge (.blank rfl [] behind) (by simp)
  exact line.append (lexes_blank (.inr rfl) behind)

theorem spells_allowance : Spells "#![allow(unused_imports, dead_code)]\n".toList openingTrees := by
  refine ⟨openingTokens, ?_, lexes_allowance⟩
  intro frames trees rest
  simp [openingTokens, openingTrees, word, mark, joint, group, shapes, Lexer.gather]

theorem spells_opening :
    Spells (header ++ "#![allow(unused_imports, dead_code)]\n").toList openingTrees := by
  have whole : '\n' ∉ "Code generated by trellis. DO NOT EDIT.".toList := by decide
  rw [String.toList_append]
  exact (Spells.comment whole).append spells_allowance

/-- Lines that are items are read as the items. -/
theorem spells_items {texts : List String} (alone : ∀ t ∈ texts, StandsAlone t.toList) :
    ∃ all : List (List Tree), (∀ trees ∈ all, IsItem trees) ∧
      Spells (String.join (texts.map (· ++ "\n"))).toList all.flatten := by
  induction texts with
  | nil => exact ⟨[], by simp, .nil⟩
  | cons t more ih =>
    obtain ⟨trees, item, spells⟩ := (alone t (by simp)).spells
    obtain ⟨all, items, behind⟩ := ih fun u hu => alone u (by simp [hu])
    refine ⟨trees :: all, List.forall_mem_cons.2 ⟨item, items⟩, ?_⟩
    have lines := spells.append behind
    simpa [String.toList_join] using lines

theorem spells_imports {imports : List String} (alone : ∀ t ∈ imports, StandsAlone t.toList) :
    ∃ all : List (List Tree), (∀ trees ∈ all, IsItem trees) ∧
      Spells (importLines imports).toList all.flatten := by
  unfold importLines
  cases imports with
  | nil => exact ⟨[], by simp, .nil⟩
  | cons t more =>
    obtain ⟨all, items, spells⟩ := spells_items alone
    refine ⟨all, items, ?_⟩
    have behind := Spells.lineEnd.append spells
    simpa using behind

/-- A block is read as its function if the path above it is on one line. -/
theorem spells_block {shown : Option String} {b : Block}
    (unbroken : '\n' ∉ (shownPath shown b.file).toList)
    (alone : StandsAlone (b.function.renamed b.name).toList) :
    ∃ trees, IsItem trees ∧ Spells (b.text shown).toList trees := by
  obtain ⟨trees, item, spells⟩ := alone.spells
  refine ⟨trees, item, ?_⟩
  have digits : '\n' ∉ (toString b.function.line).toList := by
    intro among
    have digit := isNameChar_toString b.function.line _ among
    cases digit
  have line : '\n' ∉ (shownPath shown b.file ++ ":" ++ toString b.function.line).toList := by
    simp only [String.toList_append, List.mem_append, not_or]
    exact ⟨⟨unbroken, by decide⟩, digits⟩
  have lines := (Spells.lineEnd.append (Spells.comment line)).append spells
  simpa [Block.text, functionBlock] using lines

theorem spells_blocks {shown : Option String} {blocks : List Block}
    (unbroken : ∀ b ∈ blocks, '\n' ∉ (shownPath shown b.file).toList)
    (alone : ∀ b ∈ blocks, StandsAlone (b.function.renamed b.name).toList) :
    ∃ all : List (List Tree), (∀ trees ∈ all, IsItem trees) ∧
      Spells (String.join (blocks.map (Block.text shown))).toList all.flatten := by
  induction blocks with
  | nil => exact ⟨[], by simp, .nil⟩
  | cons b more ih =>
    obtain ⟨trees, item, spells⟩ := spells_block (unbroken b (by simp)) (alone b (by simp))
    obtain ⟨all, items, behind⟩ := ih (fun c hc => unbroken c (by simp [hc])) fun c hc =>
      alone c (by simp [hc])
    refine ⟨trees :: all, List.forall_mem_cons.2 ⟨item, items⟩, ?_⟩
    have lines := spells.append behind
    simpa [String.toList_join] using lines

/-- The attribute of the file is read in front of anything but another one. -/
theorem run_openingTrees (g : Grammar) (rest : List Tree) (closed : opensInside rest = false) :
    ∃ places, g.step.innerAttributes.run ⟨openingTrees ++ rest, .origin, none⟩ =
      .ok (places, ⟨rest, .origin, none⟩) := by
  obtain ⟨p, run⟩ : ∃ p, g.step.innerAttribute.run ⟨openingTrees ++ rest, .origin, none⟩ =
      .ok (p, ⟨rest, .origin, none⟩) := ⟨_, rfl⟩
  have shorter : rest.length < (openingTrees ++ rest).length := by
    rw [List.length_append]
    exact Nat.lt_add_of_pos_left (by decide)
  exact ⟨[p], Finds.many (.next rfl run shorter (.nil closed))⟩

/-- The file of functions is a file of the language if all imports and functions are items by
themselves, and all paths that are shown stand on one line. -/
theorem parse_functionsText {shown : Option String} {plan : Plan}
    (imports : ∀ t ∈ plan.imports, StandsAlone t.toList)
    (unbroken : ∀ b ∈ plan.blocks, '\n' ∉ (shownPath shown b.file).toList)
    (functions : ∀ b ∈ plan.blocks, StandsAlone (b.function.renamed b.name).toList) :
    ∃ file, SourceFile.parse (functionsText shown plan) = .ok file := by
  obtain ⟨first, items, front⟩ := spells_imports imports
  obtain ⟨second, items', back⟩ := spells_blocks unbroken functions
  obtain ⟨ts, gathers, lexes⟩ := (spells_opening.append front).append back
  have written : (functionsText shown plan).toList =
      (header ++ "#![allow(unused_imports, dead_code)]\n").toList
        ++ (importLines plan.imports).toList ++
        (String.join (plan.blocks.map (Block.text shown))).toList := by
    rw [functionsText_eq, String.toList_append, String.toList_append]
  have whole := lexes []
  rw [← written] at whole
  have gathered := gathers.whole
  rw [List.append_assoc, ← List.flatten_append] at gathered
  have slash : (functionsText shown plan).toList =
      '/' :: (functionsText shown plan).toList.tail := by
    rw [written]
    rfl
  apply (parse_iff_accepted slash whole gathered).2
  apply accepted_items
  · intro trees among
    obtain among | among := List.mem_append.1 among
    · exact items trees among
    · exact items' trees among
  · exact run_openingTrees

end Waymark.Generate
