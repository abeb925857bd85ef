import Waymark.Source.Lexer

/-!
# Pieces of a text

What stands at the beginning of a text when a piece is read there.

* `blank_pos`, `documentation_pos`, `read_pos`, `word?_pos`: whatever is read takes a character;
* `LeafAt`, `leaf_at`: a literal, a mark or a word;
* `PieceAt`, `piece_at`: any piece; of a delimiter it is known how it is written.
-/

namespace Waymark.Source.Lexer

/-! ## Lengths -/

section
variable {text : List Char} {n : Nat}

theorem blockFrom_pos {depth : Nat} (h : blockFrom depth text = some n) : 0 < n := by
  unfold blockFrom at h
  split at h
  · cases h
  · cases h
  · obtain ⟨m, -, rfl⟩ := Option.map_eq_some_iff.1 h
    omega
  · split at h
    · cases h
      omega
    · obtain ⟨m, -, rfl⟩ := Option.map_eq_some_iff.1 h
      omega
  · obtain ⟨m, -, rfl⟩ := Option.map_eq_some_iff.1 h
    omega

/-- A blank takes a character. -/
theorem blank_pos (h : blank text = some n) : 0 < n ∧ 0 < text.length := by
  unfold blank at h
  split at h
  · next line =>
    cases h
    rw [isPlainLineComment, Bool.and_eq_true, Bool.and_eq_true, begins] at line
    obtain ⟨rest, rfl⟩ := List.isPrefixOf_iff_prefix.1 line.1.1
    simp [lineLength]
  · split at h
    · next block =>
      refine ⟨blockFrom_pos h, ?_⟩
      cases text with
      | nil => cases h
      | cons c rest => simp
    · split at h
      · split at h
        · cases h
          simp
        · cases h
      · cases h

theorem lineLength_slash (rest : List Char) : 0 < lineLength ('/' :: rest) := by
  simp [lineLength]

/-- A documentation comment takes a character. -/
theorem documentation_pos {inner : Bool} (h : documentation text = some (n, inner)) : 0 < n := by
  unfold documentation at h
  dsimp only at h
  split at h
  · next line =>
    split at h
    · cases h
    · cases h
      rw [Bool.or_eq_true, Bool.and_eq_true] at line
      obtain first | ⟨first, -⟩ := line
      · obtain ⟨rest, rfl⟩ := List.isPrefixOf_iff_prefix.1 first
        exact lineLength_slash _
      · obtain ⟨rest, rfl⟩ := List.isPrefixOf_iff_prefix.1 first
        exact lineLength_slash _
  · split at h
    · obtain ⟨m, block, kept⟩ := Option.bind_eq_some_iff.1 h
      split at kept
      · cases kept
      · cases kept
        exact blockFrom_pos block
    · cases h

theorem identifier?_pos (h : Literal.identifier? text = some n) : 0 < n := by
  unfold Literal.identifier? at h
  split at h
  · cases h
  · split at h
    · cases h
      omega
    · cases h

theorem word?_pos (h : word? text = some n) : 0 < n := by
  unfold word? at h
  split at h
  · cases h
  · unfold anyWord at h
    split at h
    · obtain ⟨m, -, kept⟩ := Option.bind_eq_some_iff.1 h
      split at kept
      · cases kept
      · cases kept
        omega
    · exact identifier?_pos h

theorem wholeDigits_pos {base v : Nat} (h : Literal.wholeDigits base none text = some (n, v)) :
    0 < n := by
  cases text with
  | nil => cases h
  | cons c rest =>
    unfold Literal.wholeDigits at h
    split at h
    · split at h
      · cases h
      · obtain ⟨m, -, same⟩ := Option.map_eq_some_iff.1 h
        cases same
        omega
    · split at h
      · cases h
      · split at h
        · obtain ⟨m, -, same⟩ := Option.map_eq_some_iff.1 h
          cases same
          omega
        · split at h <;> cases h

theorem wholeNumber_pos {v : Nat} (h : Literal.wholeNumber text = some (n, v)) : 0 < n := by
  unfold Literal.wholeNumber at h
  split at h
  · obtain ⟨m, -, same⟩ := Option.map_eq_some_iff.1 h
    cases same
    omega
  · obtain ⟨m, -, same⟩ := Option.map_eq_some_iff.1 h
    cases same
    omega
  · obtain ⟨m, -, same⟩ := Option.map_eq_some_iff.1 h
    cases same
    omega
  · exact wholeDigits_pos h

theorem le_of_withSuffix {digits : Nat} (h : Literal.withSuffix text digits = some n) :
    digits ≤ n := by
  unfold Literal.withSuffix at h
  dsimp only at h
  split at h
  · cases h
    omega
  · split at h
    · cases h
    · cases h
      omega

/-- A literal takes a character. -/
theorem read_pos {value : Literal} (h : Literal.read text = some (n, value)) : 0 < n := by
  unfold Literal.read at h
  dsimp only at h
  split at h
  · next found quoted =>
    cases h
    split at quoted <;> first
      | cases quoted
      | (obtain ⟨m, -, same⟩ := Option.map_eq_some_iff.1 quoted; cases same; omega)
  · split at h
    · next m fraction =>
      cases h
      unfold Literal.fractionLength at fraction
      split at fraction
      · split at fraction
        · obtain ⟨digits, -, whole⟩ := Option.bind_eq_some_iff.1 fraction
          exact Nat.lt_of_lt_of_le (Nat.succ_pos _) (le_of_withSuffix whole)
        · cases fraction
      · cases fraction
    · obtain ⟨⟨m, index⟩, whole, same⟩ := Option.map_eq_some_iff.1 h
      cases same
      obtain ⟨⟨digits, v⟩, number, whole⟩ := Option.bind_eq_some_iff.1 whole
      obtain ⟨m, suffixed, same⟩ := Option.map_eq_some_iff.1 whole
      cases same
      exact Nat.lt_of_lt_of_le (wholeNumber_pos number) (le_of_withSuffix suffixed)

end

/-! ## What is read -/

/-- What a leaf at the beginning of a text is: a literal, a mark, or a word that is named as it is
written. -/
inductive LeafAt (text : List Char) : Nat → (Span → Tree) → Prop
  | literal (n : Nat) (value : Literal) (some' : 0 < n) : LeafAt text n (.literal value)
  | mark {c : Char} (joint : Bool) (first : text.head? = some c) : LeafAt text 1 (.mark c joint)
  | word (n : Nat) (found : word? text = some n) :
      LeafAt text n (.word (String.ofList (text.take n)))

theorem head?_of_mark? {text : List Char} {c : Char} (h : mark? text = some c) :
    text.head? = some c := by
  unfold mark? at h
  split at h
  · cases h
  · split at h
    · split at h
      · exact h
      · cases h
    · cases h

theorem leaf_at {text : List Char} {p : Piece} (h : leaf text = some p) :
    ∃ n make, p = .leaf n make ∧ LeafAt text n make := by
  unfold leaf at h
  split at h
  · next found =>
    cases h
    exact ⟨_, _, rfl, .literal _ _ (read_pos found)⟩
  · split at h
    · next marked =>
      split at h
      · cases h
        exact ⟨_, _, rfl, .mark _ (head?_of_mark? marked)⟩
      · cases h
    · next marked =>
      cases h
      exact ⟨_, _, rfl, .mark _ (head?_of_mark? marked)⟩
    · split at h
      · next found =>
        cases h
        exact ⟨_, _, rfl, .word _ found⟩
      · split at h
        · cases h
          exact ⟨_, _, rfl, .literal _ _ (by decide)⟩
        · cases h

/-- The mark that opens a pair of delimiters. -/
def opener : Delimiter → Char
  | .paren => '('
  | .bracket => '['
  | .brace => '\x7b'

/-- The mark that closes a pair of delimiters. -/
def closer : Delimiter → Char
  | .paren => ')'
  | .bracket => ']'
  | .brace => '\x7d'

/-- What a piece at the beginning of a text is. -/
inductive PieceAt (text : List Char) : Piece → Prop
  | blank {n : Nat} (found : Lexer.blank text = some n) : PieceAt text (.blank n)
  | documentation {n : Nat} {inner : Bool} (found : Lexer.documentation text = some (n, inner)) :
      PieceAt text (.documentation n inner)
  | opening {d : Delimiter} (first : text.head? = some (opener d)) : PieceAt text (.opening d)
  | closing {d : Delimiter} (first : text.head? = some (closer d)) : PieceAt text (.closing d)
  | leaf {n : Nat} {make : Span → Tree} (found : LeafAt text n make) : PieceAt text (.leaf n make)

theorem piece_at {text : List Char} {p : Piece} (h : piece text = some p) : PieceAt text p := by
  have ofLeaf (h : leaf text = some p) : PieceAt text p := by
    obtain ⟨n, make, rfl, found⟩ := leaf_at h
    exact .leaf found
  unfold piece at h
  split at h
  · next found =>
    cases h
    exact .blank found
  · split at h
    · next found =>
      cases h
      exact .documentation found
    · split at h
      · split at h
        · exact ofLeaf h
        · cases h
          exact .opening rfl
      · cases h
        exact .opening rfl
      · cases h
        exact .opening rfl
      · cases h
        exact .closing rfl
      · cases h
        exact .closing rfl
      · cases h
        exact .closing rfl
      · exact ofLeaf h

section
variable {text : List Char} {n : Nat}

theorem documentation_of_piece {inner : Bool} (h : piece text = some (.documentation n inner)) :
    documentation text = some (n, inner) := by
  cases piece_at h with
  | documentation found => exact found

theorem leafAt_of_piece {make : Span → Tree} (h : piece text = some (.leaf n make)) :
    LeafAt text n make := by
  cases piece_at h with
  | leaf found => exact found

/-- A word is named as it is written. -/
theorem word_of_piece {name : String} (h : piece text = some (.leaf n (.word name))) :
    name = String.ofList (text.take n) ∧ word? text = some n := by
  generalize same : Tree.word name = make at h
  have here := congrFun same
  cases leafAt_of_piece h with
  | literal _ value => cases here ⟨.origin, .origin⟩
  | mark joint first => cases here ⟨.origin, .origin⟩
  | word _ found =>
    cases here ⟨.origin, .origin⟩
    exact ⟨rfl, found⟩

theorem opener_of_piece {d : Delimiter} (h : piece text = some (.opening d)) :
    text.head? = some (opener d) := by
  cases piece_at h with
  | opening first => exact first

theorem closer_of_piece {d : Delimiter} (h : piece text = some (.closing d)) :
    text.head? = some (closer d) := by
  cases piece_at h with
  | closing first => exact first

end

end Waymark.Source.Lexer
