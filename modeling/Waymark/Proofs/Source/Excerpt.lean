import Waymark.Proofs.Source.Acceptance

/-!
# Items on lines of their own

A text that is an item by itself is one in any file in which it stands on lines of its own. So a
text that consists of such lines behind an attribute is a file of the language.

* `Spells`: a text that is read as certain trees, whatever follows it;
* `StandsAlone.spells`: an item on lines of its own is;
* `accepted_items`: items behind an attribute are a file.
-/

namespace Waymark.Source

open Waymark.Source.Parser

/-! ## Texts -/

/-- A text that is read as certain trees, whatever follows it. -/
def Spells (part : List Char) (trees : List Tree) : Prop :=
  ∃ ts, Lexer.Gathers ts (shapes trees) ∧ ∀ behind, Lexer.Lexes part behind ts

namespace Spells

variable {a b line : List Char} {trees more : List Tree}

theorem nil : Spells [] [] := ⟨[], by rw [shapes]; exact .nil, .nil⟩

theorem append (first : Spells a trees) (next : Spells b more) :
    Spells (a ++ b) (trees ++ more) := by
  obtain ⟨ts, gathers, lexes⟩ := first
  obtain ⟨us, gathers', lexes'⟩ := next
  refine ⟨ts ++ us, ?_, fun behind => (lexes _).append (lexes' behind)⟩
  rw [shapes_append]
  exact gathers.append gathers'

theorem lineEnd : Spells ['\n'] [] :=
  ⟨[], by rw [shapes]; exact .nil, fun behind => Lexer.lexes_blank (.inr rfl) behind⟩

/-- A comment up to the end of its line. -/
theorem comment (whole : '\n' ∉ line) : Spells ('/' :: '/' :: ' ' :: line ++ ['\n']) [] := by
  refine ⟨[], by rw [shapes]; exact .nil, fun behind => ?_⟩
  exact (Lexer.lexes_comment whole behind).append (Lexer.lexes_blank (.inr rfl) behind)

end Spells

/-- An item on lines of its own. -/
theorem StandsAlone.spells {text : List Char} (alone : StandsAlone text) :
    ∃ trees, IsItem trees ∧ Spells (text ++ ['\n']) trees := by
  obtain ⟨trees, item, ts, gathers, lexes⟩ := alone
  refine ⟨trees, item, ts, gathers, fun behind => ?_⟩
  have ended := (lexes behind).append (Lexer.lexes_blank (.inr rfl) behind)
  rwa [List.append_nil] at ended

/-! ## Trees -/

/-- An attribute comes next that belongs to what encloses it. -/
def opensInside : Test := Ahead.allOf [Ahead.marks "#", Ahead.second (Ahead.marks "!")]

/-- No item begins with an attribute of what encloses it. -/
theorem not_opensInside {g : Grammar} {item : Item} {i j : Input}
    (run : g.itemRule.run i = .ok (item, j)) : opensInside i.trees = false := by
  rw [Bool.eq_false_iff]
  intro inner
  obtain ⟨attributes, k, read, -⟩ := run_bind run
  have hash : Ahead.marks "#" i.trees = true := (Bool.and_eq_true_iff.1 inner).1
  cases repeats_of_run_many read with
  | nil ended =>
    rw [hash] at ended
    cases ended
  | next _ found =>
    obtain ⟨part, rest, here, sign, -⟩ := Grammar.run_outerAttribute found
    cases sign with
    | outer joint span brackets closing content =>
      rw [here] at inner
      cases inner

namespace IsItem

variable {trees : List Tree}

theorem ne_nil (item : IsItem trees) : trees ≠ [] := by
  rintro rfl
  obtain ⟨_, _, run, -⟩ := item _ (Nat.le_refl _) [] ⟨[], .origin, none⟩ ⟨rfl, rfl⟩
  cases run

theorem not_opensInside (item : IsItem trees) (rest : List Tree) :
    opensInside (trees ++ rest) = false := by
  obtain ⟨_, _, run, -⟩ := item _ (Nat.le_refl _) rest ⟨trees ++ rest, .origin, none⟩ ⟨rfl, rfl⟩
  exact Source.not_opensInside run

end IsItem

/-- Items one behind the other are found one by one. -/
theorem exists_finds {d : Nat} {all : List (List Tree)} (items : ∀ trees ∈ all, IsItem trees)
    (deep : 3 * tokenCount all.flatten + 1 ≤ d) {i : Input} (here : i.Has all.flatten) :
    ∃ found j, Finds (Ahead.isNot Ahead.nothing) (Grammar.atDepth d).item i found j ∧ j.Has [] := by
  induction all generalizing i with
  | nil =>
    have ended : Ahead.isNot Ahead.nothing i.trees = false := by
      rw [here.trees]
      rfl
    exact ⟨[], i, .nil ended, here⟩
  | cons trees more ih =>
    have item : IsItem trees := items trees (by simp)
    rw [List.flatten_cons] at here deep
    rw [tokenCount_append] at deep
    obtain ⟨first, j, run, left⟩ := item d (by omega) more.flatten i here
    have later : ∀ t ∈ more, IsItem t := fun t ht => items t (by simp [ht])
    obtain ⟨found, k, finds, done⟩ := ih later (by omega) left
    have asked : Ahead.isNot Ahead.nothing i.trees = true := by
      rw [here.trees]
      simp [Ahead.isNot, Ahead.nothing, item.ne_nil]
    have shorter : j.trees.length < i.trees.length := by
      have some' := List.length_pos_of_ne_nil item.ne_nil
      rw [here.trees, left.trees, List.length_append]
      omega
    exact ⟨first :: found, k, .next asked run shorter finds, done⟩

/-- Items behind an attribute of the file are a file. -/
theorem accepted_items {opening : List Tree} {all : List (List Tree)}
    (items : ∀ trees ∈ all, IsItem trees)
    (opens : ∀ (g : Grammar) (rest : List Tree), opensInside rest = false → ∃ places,
      g.step.innerAttributes.run ⟨opening ++ rest, .origin, none⟩ =
        .ok (places, ⟨rest, .origin, none⟩)) :
    Accepted (opening ++ all.flatten) := by
  have deep := depthFor_deep (tokenCount (opening ++ all.flatten))
  generalize depthFor (tokenCount (opening ++ all.flatten)) = n at deep
  rw [accepted_iff deep]
  rw [tokenCount_append] at deep
  obtain ⟨d, rfl⟩ : ∃ d, n = d + 1 := ⟨n - 1, by omega⟩
  have closed : opensInside all.flatten = false := by
    cases all with
    | nil => rfl
    | cons trees more => exact (items trees (by simp)).not_opensInside more.flatten
  obtain ⟨places, opened⟩ := opens (Grammar.atDepth d) all.flatten closed
  have here : Input.Has ⟨all.flatten, .origin, none⟩ all.flatten := ⟨rfl, rfl⟩
  have enough : 3 * tokenCount all.flatten + 1 ≤ d + 1 := by omega
  obtain ⟨found, j, finds, done⟩ := exists_finds items enough here
  have run : (Grammar.atDepth (d + 1)).file.run ⟨opening ++ all.flatten, .origin, none⟩ =
      .ok (found, j) := (run_bind_ok opened).trans finds.many
  exact ⟨found, complete_eq_ok.2 ⟨j, run, done.leftover, done.trees⟩⟩

end Waymark.Source
