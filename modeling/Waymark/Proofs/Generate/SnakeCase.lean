import Waymark.Generate.Names
import Waymark.Proofs.Source.Tokens
import Waymark.Proofs.Text.Splitting

/-!
# Lower snake case

Whatever a text is, its letters and digits are kept in lower case and in their order, and one
underscore stands for each gap between them:

* `IsSnake`: words of small letters and digits, with one underscore between neighbours;
* `isSnake_snakeFrom`: this is what is written;
* `snakeFrom_of_isSnake`: such a text is left as it is;
* `exists_snakeFrom`: what is written up to a letter or digit, and where the underscores in it come
  from;
* `snakeCase_normal`: what the snake case of a text is, and that it is its own snake case.
-/

namespace Waymark.Generate

open Waymark.Source.Lexer (isAlpha_iff isDigit_iff)
open Waymark.Text

/-- A small letter or a digit. -/
def isSmall (c : Char) : Bool := c.isLower || c.isDigit

/-- A word of small letters and digits. -/
def IsWord (word : List Char) : Prop := word ≠ [] ∧ ∀ c ∈ word, isSmall c

/-- Words, with one underscore between neighbours. -/
def IsSnake (text : List Char) : Prop :=
  ∃ words, text = join '_' words ∧ ∀ word ∈ words, IsWord word

/-- The letters and digits of a text, in lower case. -/
def lettersOf (text : List Char) : List Char := (text.filter Char.isAlphanum).map Char.toLower

/-- The codes of small letters and digits. -/
theorem isSmall_iff {c : Char} :
    isSmall c ↔ 97 ≤ c.toNat ∧ c.toNat ≤ 122 ∨ 48 ≤ c.toNat ∧ c.toNat ≤ 57 := by
  have letter : c.isLower = (decide (c.val ≥ 'a'.val) && decide (c.val ≤ 'z'.val)) := rfl
  rw [isSmall, Bool.or_eq_true, isDigit_iff]
  simp [letter, UInt32.le_iff_toNat_le]

theorem isAlphanum_iff {c : Char} : c.isAlphanum ↔ 65 ≤ c.toNat ∧ c.toNat ≤ 90 ∨ isSmall c := by
  rw [Char.isAlphanum, Bool.or_eq_true, isAlpha_iff, isDigit_iff, isSmall_iff, or_assoc]

theorem isAlphanum_of_isSmall {c : Char} (small : isSmall c) : c.isAlphanum :=
  isAlphanum_iff.2 (.inr small)

/-- Capital letters lie so far before the small ones, and all else is left as it is. -/
theorem toLower_cases (c : Char) : 65 ≤ c.toNat ∧ c.toNat ≤ 90 ∧ c.toLower.toNat = c.toNat + 32 ∨
    ¬ (65 ≤ c.toNat ∧ c.toNat ≤ 90) ∧ c.toLower = c := by
  unfold Char.toLower
  split
  · next capital =>
    obtain ⟨low, high⟩ := capital
    have low : 65 ≤ c.toNat := UInt32.le_iff_toNat_le.1 low
    have high : c.toNat ≤ 90 := UInt32.le_iff_toNat_le.1 high
    refine .inl ⟨low, high, ?_⟩
    have sum : (c.val + 32).toNat = (c.val.toNat + 32) % 2 ^ 32 := UInt32.toNat_add c.val 32
    have bound : c.val.toNat ≤ 90 := high
    exact sum.trans (Nat.mod_eq_of_lt (by omega))
  · next other =>
    refine .inr ⟨fun ⟨low, high⟩ => other ⟨?_, ?_⟩, rfl⟩
    · exact UInt32.le_iff_toNat_le.2 low
    · exact UInt32.le_iff_toNat_le.2 high

theorem toLower_of_isSmall {c : Char} (small : isSmall c) : c.toLower = c := by
  obtain ⟨low, high, -⟩ | ⟨-, kept⟩ := toLower_cases c
  · have codes := isSmall_iff.1 small
    omega
  · exact kept

theorem isSmall_toLower {c : Char} (plain : c.isAlphanum) : isSmall c.toLower := by
  obtain ⟨low, high, moved⟩ | ⟨other, kept⟩ := toLower_cases c
  · exact isSmall_iff.2 (.inl (by omega))
  · rw [kept]
    exact (isAlphanum_iff.1 plain).resolve_left other

theorem ne_underscore_of_isSmall {c : Char} (small : isSmall c) : c ≠ '_' := by
  rintro rfl
  exact absurd small (by decide)

section
variable {c : Char} {written apart : Bool} {rest : List Char}

theorem snakeFrom_skip (other : c.isAlphanum = false) :
    snakeFrom written apart (c :: rest) = snakeFrom written true rest := by
  simp [snakeFrom, other]

theorem snakeFrom_keep (plain : c.isAlphanum) : snakeFrom written apart (c :: rest) =
    (if written && apart then ['_'] else []) ++ c.toLower :: snakeFrom true false rest := by
  rw [snakeFrom, if_pos plain]
  split <;> rfl

end

/-- Behind a letter or digit the word goes on, unless something else followed it, and more words
come after. -/
theorem exists_words (apart : Bool) (text : List Char) :
    ∃ run words, snakeFrom true apart text = run ++ lead '_' words ∧ (apart = true → run = []) ∧
      (∀ c ∈ run, isSmall c) ∧ ∀ word ∈ words, IsWord word := by
  induction text generalizing apart with
  | nil => exact ⟨[], [], rfl, fun _ => rfl, by simp, by simp⟩
  | cons c rest ih =>
    cases plain : c.isAlphanum with
    | false =>
      obtain ⟨run, words, same, none', small, each⟩ := ih true
      exact ⟨run, words, by rw [snakeFrom_skip plain, same], fun _ => none' rfl, small, each⟩
    | true =>
      obtain ⟨run, words, same, -, small, each⟩ := ih false
      have begun : ∀ d ∈ c.toLower :: run, isSmall d :=
        List.forall_mem_cons.2 ⟨isSmall_toLower plain, small⟩
      cases apart with
      | false =>
        exact ⟨c.toLower :: run, words, by simp [snakeFrom_keep plain, same], nofun, begun, each⟩
      | true =>
        refine ⟨[], (c.toLower :: run) :: words, by simp [snakeFrom_keep plain, same], fun _ => rfl,
          by simp, ?_⟩
        exact List.forall_mem_cons.2 ⟨⟨List.cons_ne_nil _ _, begun⟩, each⟩

theorem isSnake_snakeFrom (apart : Bool) (text : List Char) :
    IsSnake (snakeFrom false apart text) := by
  induction text generalizing apart with
  | nil => exact ⟨[], rfl, by simp⟩
  | cons c rest ih =>
    cases plain : c.isAlphanum with
    | false =>
      rw [snakeFrom_skip plain]
      exact ih true
    | true =>
      obtain ⟨run, words, same, -, small, each⟩ := exists_words false rest
      refine ⟨(c.toLower :: run) :: words, ?_,
        List.forall_mem_cons.2 ⟨⟨List.cons_ne_nil _ _, ?_⟩, each⟩⟩
      · rw [snakeFrom_keep plain, same, join_cons]
        rfl
      · exact List.forall_mem_cons.2 ⟨isSmall_toLower plain, small⟩

/-- A word is written as it is. -/
theorem snakeFrom_word {word : List Char} (small : ∀ c ∈ word, isSmall c) (rest : List Char) :
    snakeFrom true false (word ++ rest) = word ++ snakeFrom true false rest := by
  induction word with
  | nil => rfl
  | cons c word ih =>
    obtain ⟨first, more⟩ := List.forall_mem_cons.1 small
    rw [List.cons_append, snakeFrom_keep (isAlphanum_of_isSmall first), ih more,
      toLower_of_isSmall first]
    rfl

theorem snakeFrom_lead {words : List (List Char)} (each : ∀ word ∈ words, IsWord word) :
    snakeFrom true false (lead '_' words) = lead '_' words := by
  induction words with
  | nil => rfl
  | cons word words ih =>
    obtain ⟨⟨nonempty, small⟩, more⟩ := List.forall_mem_cons.1 each
    obtain ⟨c, word, rfl⟩ := List.exists_cons_of_ne_nil nonempty
    obtain ⟨first, small⟩ := List.forall_mem_cons.1 small
    have underscore : '_'.isAlphanum = false := by decide
    rw [lead_cons, snakeFrom_skip underscore, List.cons_append,
      snakeFrom_keep (isAlphanum_of_isSmall first), snakeFrom_word small, ih more,
      toLower_of_isSmall first]
    rfl

/-- Words with single underscores between them are left as they are. -/
theorem snakeFrom_of_isSnake {text : List Char} (snake : IsSnake text) (apart : Bool) :
    snakeFrom false apart text = text := by
  obtain ⟨words, rfl, each⟩ := snake
  cases words with
  | nil => rfl
  | cons word words =>
    obtain ⟨⟨nonempty, small⟩, more⟩ := List.forall_mem_cons.1 each
    obtain ⟨c, word, rfl⟩ := List.exists_cons_of_ne_nil nonempty
    obtain ⟨first, small⟩ := List.forall_mem_cons.1 small
    rw [join_cons, List.cons_append, snakeFrom_keep (isAlphanum_of_isSmall first),
      snakeFrom_word small, snakeFrom_lead more, toLower_of_isSmall first]
    rfl

theorem filter_snakeFrom (written apart : Bool) (text : List Char) :
    (snakeFrom written apart text).filter (· ≠ '_') = lettersOf text := by
  induction text generalizing written apart with
  | nil => rfl
  | cons c rest ih =>
    cases plain : c.isAlphanum with
    | false =>
      rw [snakeFrom_skip plain, ih, lettersOf, lettersOf, List.filter_cons_of_neg (by simp [plain])]
    | true =>
      have kept : c.toLower ≠ '_' := ne_underscore_of_isSmall (isSmall_toLower plain)
      rw [snakeFrom_keep plain, List.filter_append, List.filter_cons_of_pos (by simpa using kept),
        ih]
      split <;> simp [lettersOf, plain]

/-- What is written up to a letter or digit. Once something was written, an underscore stands in it
exactly when something else than letters and digits does in the text. -/
theorem exists_snakeFrom {a : Char} (plain : a.isAlphanum) (written apart : Bool)
    (front rest : List Char) :
    ∃ before, snakeFrom written apart (front ++ a :: rest) = before
      ++ a.toLower :: snakeFrom true false rest ∧
      before.filter (· ≠ '_') = lettersOf front ∧
      (written = true → ('_' ∈ before ↔ apart = true ∨ ∃ c ∈ front, c.isAlphanum = false)) := by
  induction front generalizing written apart with
  | nil =>
    refine ⟨if written && apart then ['_'] else [], snakeFrom_keep plain, ?_, ?_⟩
    · split <;> rfl
    · rintro rfl
      cases apart <;> simp
  | cons c front ih =>
    cases kept : c.isAlphanum with
    | false =>
      obtain ⟨before, same, letters, gap⟩ := ih written true
      refine ⟨before, by rw [List.cons_append, snakeFrom_skip kept, same], ?_, fun done => ?_⟩
      · rw [letters, lettersOf, lettersOf, List.filter_cons_of_neg (by simp [kept])]
      · simp [gap done, kept]
    | true =>
      obtain ⟨before, same, letters, gap⟩ := ih true false
      have small : c.toLower ≠ '_' := ne_underscore_of_isSmall (isSmall_toLower kept)
      refine ⟨(if written && apart then ['_'] else []) ++ c.toLower :: before, ?_, ?_, ?_⟩
      · rw [List.cons_append, snakeFrom_keep kept, same, List.append_assoc, List.cons_append]
      · rw [List.filter_append, List.filter_cons_of_pos (by simpa using small), letters]
        split <;> simp [lettersOf, kept]
      · rintro rfl
        cases apart <;> simp [gap rfl, kept, Ne.symm small]

/-- What the snake case of a text is. -/
structure SnakeCased (raw snake : List Char) : Prop where
  shape : IsSnake snake
  empty_iff : snake = [] ↔ ∀ c ∈ raw, c.isAlphanum = false
  letters : snake.filter (· ≠ '_') = lettersOf raw
  /-- Two letters or digits of the text stand apart if and only if something else stands between
  them. -/
  gaps : ∀ front a middle b back, raw = front ++ a :: (middle ++ b :: back) → a.isAlphanum →
      b.isAlphanum →
    ∃ before between behind, snake = before ++ a.toLower :: (between ++ b.toLower :: behind) ∧
      before.filter (· ≠ '_') = lettersOf front ∧ between.filter (· ≠ '_') = lettersOf middle ∧
      behind.filter (· ≠ '_') = lettersOf back ∧
      ('_' ∈ between ↔ ∃ c ∈ middle, c.isAlphanum = false)

theorem snakeCased_snakeFrom (raw : List Char) : SnakeCased raw (snakeFrom false false raw) := by
  have shape := isSnake_snakeFrom false raw
  have letters := filter_snakeFrom false false raw
  refine ⟨shape, ?_, letters, ?_⟩
  · constructor
    · intro empty
      rw [empty, List.filter_nil, lettersOf, eq_comm, List.map_eq_nil_iff,
        List.filter_eq_nil_iff] at letters
      simpa using letters
    · intro none'
      -- no word holds a letter or digit, so there is none
      obtain ⟨words, same, each⟩ := shape
      have nothing : lettersOf raw = [] := by
        rw [lettersOf, List.map_eq_nil_iff, List.filter_eq_nil_iff]
        simpa using none'
      rw [nothing, List.filter_eq_nil_iff, same] at letters
      rw [same]
      cases words with
      | nil => rfl
      | cons word words =>
        obtain ⟨nonempty, small⟩ := each word (by simp)
        obtain ⟨c, word, rfl⟩ := List.exists_cons_of_ne_nil nonempty
        have other := ne_underscore_of_isSmall (small c (by simp))
        exact absurd (by simpa using other) (letters c (by simp [join_cons]))
  · rintro front a middle b back rfl plainA plainB
    obtain ⟨before, first, lettersBefore, -⟩ :=
      exists_snakeFrom plainA false false front (middle ++ b :: back)
    obtain ⟨between, second, lettersBetween, gap⟩ := exists_snakeFrom plainB true false middle back
    refine ⟨before, between, snakeFrom true false back, ?_, lettersBefore, lettersBetween, ?_, ?_⟩
    · rw [first, second]
    · exact filter_snakeFrom true false back
    · simpa using gap rfl

/-- **Snake case is a normal form.** It is made of words of small letters and digits with one
underscore between neighbours. Without its underscores it is what a text has of letters and digits,
in lower case, and between two of these an underscore stands exactly when something else stood
between them. Nothing changes when it is made again. -/
theorem snakeCase_normal (raw : String) :
    SnakeCased raw.toList (snakeCase raw).toList ∧ snakeCase (snakeCase raw) = snakeCase raw := by
  have made : (snakeCase raw).toList = snakeFrom false false raw.toList := String.toList_ofList
  constructor
  · rw [made]
    exact snakeCased_snakeFrom raw.toList
  · rw [snakeCase, made, snakeFrom_of_isSnake (isSnake_snakeFrom false raw.toList)]
    rfl

/-- What is no letter or digit leaves no trace at the ends, and one underscore between them. -/
example : snakeCase "--Foo  Ba\u00e4r9__" = "foo_ba_r9" := by decide +kernel

end Waymark.Generate
