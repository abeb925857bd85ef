import Waymark.Proofs.Source.Pieces
import Waymark.Proofs.Source.Shape
import Waymark.Proofs.Source.Tokens

/-!
# Tokens in their delimiters

Trees are put together from tokens with the delimiters that are open. What shapes they have is told
by the tokens alone, and a part of a text whose delimiters are paired adds the same trees wherever
it stands.

* `gather`: the shapes of the trees that some tokens are put together to;
* `Gathers`: tokens that are paired among themselves, and the shapes of their trees;
* `lex_of_gather`: a text is read as trees of the shapes that its tokens are put together to.
-/

namespace Waymark.Source.Lexer

/-- The shapes of the trees that stand for a documentation comment. -/
def noteShapes (inner : Bool) : List Shape :=
  .mark '#' false :: (if inner then [.mark '!' false] else []) ++
    [.group .bracket [.word "doc", .mark '=' false, .literal .text]]

/-- Puts tokens together to trees: the delimiters that are open with what stands before them, and
what was read since, the last tree first. -/
def gather : List (Delimiter × List Shape) → List Shape → List Token → Option (List Shape)
  | frames, trees, [] => if frames.isEmpty then some trees.reverse else none
  | frames, trees, .word name :: ts => gather frames (.word name :: trees) ts
  | frames, trees, .mark symbol joint :: ts => gather frames (.mark symbol joint :: trees) ts
  | frames, trees, .literal value _ :: ts => gather frames (.literal value :: trees) ts
  | frames, trees, .documentation inner :: ts =>
    gather frames ((noteShapes inner).reverse ++ trees) ts
  | frames, trees, .opening d :: ts => gather ((d, trees) :: frames) [] ts
  | frames, trees, .closing d :: ts =>
    match frames with
    | [] => none
    | (d', before) :: frames =>
      if d' = d then gather frames (.group d trees.reverse :: before) ts else none

/-- Tokens that are put together to trees of these shapes, whatever stands around them. -/
def Gathers (ts : List Token) (ss : List Shape) : Prop :=
  ∀ frames trees rest, gather frames trees (ts ++ rest) = gather frames (ss.reverse ++ trees) rest

namespace Gathers

variable {ts us : List Token} {ss rs : List Shape}

theorem nil : Gathers [] [] := fun _ _ _ => rfl

theorem append (first : Gathers ts ss) (next : Gathers us rs) : Gathers (ts ++ us) (ss ++ rs) := by
  intro frames trees rest
  rw [List.append_assoc, first, next, List.reverse_append, List.append_assoc]

theorem enclosed (d : Delimiter) (inside : Gathers ts ss) :
    Gathers (.opening d :: (ts ++ [.closing d])) [.group d ss] := by
  intro frames trees rest
  rw [List.cons_append, List.append_assoc, gather, inside, List.append_nil,
    List.singleton_append, gather, if_pos rfl, List.reverse_reverse]
  rfl

theorem whole (gathers : Gathers ts ss) : gather [] [] ts = some ss := by
  have found := gathers [] [] []
  rwa [List.append_nil, List.append_nil, gather, List.reverse_reverse] at found

end Gathers

/-! ## Reading trees -/

theorem shapes_documentationTrees (span : Span) (inner : Bool) :
    shapes (documentationTrees span inner) = (noteShapes inner).reverse := by
  cases inner <;> simp [documentationTrees, noteShapes, shapes]

theorem shapes_reverse (trees : List Tree) : shapes trees.reverse = (shapes trees).reverse := by
  induction trees with
  | nil => simp [shapes]
  | cons t rest ih => cases t <;> simp [shapes, shapes_append, ih]

/-- The delimiters that are open, with the shapes of what stands before them. -/
def openShapes (frames : List Frame) : List (Delimiter × List Shape) :=
  frames.map fun frame => (frame.delimiter, shapes frame.before)

theorem rest_advance (n : Nat) (text : List Char) (p : Position) :
    (Cursor.advance n ⟨text, p⟩).rest = text.drop n := by
  induction n generalizing text p with
  | zero => rfl
  | succ n ih =>
    cases text with
    | nil => rfl
    | cons c rest => exact ih rest (p.next c)

/-- A piece is read as its token is put to the trees before it. -/
theorem step_of_gather {r : Reading} {p : Piece} {ts : List Token} {ss : List Shape}
    (here : piece r.cursor.rest = some p)
    (gathered : gather (openShapes r.frames) (shapes r.trees) ((p.token? r.cursor.rest).toList
      ++ ts) = some ss) :
    ∃ r', r.step = .ok r' ∧ r'.cursor.rest = r.cursor.rest.drop p.length ∧
      gather (openShapes r'.frames) (shapes r'.trees) ts = some ss := by
  obtain ⟨⟨text, place⟩, frames, trees⟩ := r
  dsimp only at here gathered
  unfold Reading.step
  dsimp only
  rw [here]
  cases p with
  | blank n => exact ⟨_, rfl, rest_advance .., gathered⟩
  | documentation n inner =>
    refine ⟨_, rfl, rest_advance .., ?_⟩
    dsimp only
    rw [shapes_append, shapes_documentationTrees]
    exact gathered
  | opening d =>
    refine ⟨_, rfl, rest_advance .., ?_⟩
    dsimp only
    rw [shapes]
    exact gathered
  | closing d =>
    cases frames with
    | nil => cases gathered
    | cons frame frames =>
      change (if frame.delimiter = d then _ else none) = _ at gathered
      split at gathered
      · next same =>
        refine ⟨_, if_pos same, rest_advance .., ?_⟩
        dsimp only
        rw [shapes, shapes_reverse]
        exact gathered
      · cases gathered
  | leaf n make =>
    refine ⟨_, rfl, rest_advance .., ?_⟩
    dsimp only
    cases piece_at here with
    | leaf found =>
      cases found with
      | literal | mark | word =>
        rw [shapes]
        exact gathered

/-- Pieces are read as their tokens are put together. -/
theorem lexFrom_of_gather {n fuel : Nat} {r : Reading} {ts : List Token} {ss : List Shape}
    (taken : takePieces n r.cursor.rest = some (ts, [])) (enough : n ≤ fuel)
    (gathered : gather (openShapes r.frames) (shapes r.trees) ts = some ss) :
    ∃ trees, lexFrom fuel r = .ok trees ∧ shapes trees = ss := by
  induction n generalizing fuel r ts with
  | zero =>
    obtain ⟨⟨text, place⟩, frames, trees⟩ := r
    cases taken
    cases frames with
    | nil =>
      exact ⟨trees.reverse, by cases fuel <;> rfl,
        by rw [shapes_reverse]; exact Option.some.inj gathered⟩
    | cons frame frames => cases gathered
  | succ n ih =>
    obtain ⟨fuel, rfl⟩ : ∃ more, fuel = more + 1 := ⟨fuel - 1, by omega⟩
    unfold takePieces at taken
    split at taken
    · cases taken
    · next p here =>
      split at taken
      · cases taken
      · next us rest behind =>
        cases taken
        obtain ⟨r', stepped, moved, further⟩ := step_of_gather here gathered
        rw [← moved] at behind
        obtain ⟨trees, read, same⟩ := ih behind (show n ≤ fuel by omega) further
        refine ⟨trees, ?_, same⟩
        obtain ⟨⟨text, place⟩, frames, before⟩ := r
        cases text with
        | nil => cases here
        | cons c text => rw [lexFrom, stepped]; exact read

/-- A text is read as trees of the shapes that its tokens are put together to. -/
theorem lex_of_gather {text : List Char} {ts : List Token} {ss : List Shape}
    (lexes : Lexes text [] ts) (gathered : gather [] [] ts = some ss) (p : Position) :
    ∃ trees, lex ⟨text, p⟩ = .ok trees ∧ shapes trees = ss := by
  obtain ⟨n, fewer, taken⟩ := lexes
  rw [List.append_nil] at taken
  refine lexFrom_of_gather taken fewer ?_
  rw [shapes]
  exact gathered

end Waymark.Source.Lexer
