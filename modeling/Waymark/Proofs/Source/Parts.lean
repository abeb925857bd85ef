import Waymark.Proofs.Source.Pieces
import Waymark.Proofs.Source.Tokens

/-!
# Texts written part by part

A text that is written as words, marks, quoted texts, delimiters, blanks and comments, none of which
goes on into the next, is read as just these.

* `Part.written`, `tokensOf`: how a part is written, and the tokens of parts in a row;
* `Part.EndsBefore`, `Part.Divides`, `Part.IsRemark`: what a part can stand in front of;
* `Fits`: no part goes on into the next one;
* `tokens?_written`: the text of parts has their tokens.
-/

namespace Waymark.Source.Lexer

open Waymark.Text

/-- A part of a text. -/
inductive Part where
  | blank (c : Char)
  | word (name : String)
  | mark (symbol : Char)
  | number (value : Nat)
  | text (value : String)
  | opening (delimiter : Delimiter)
  | closing (delimiter : Delimiter)
  /-- A line that is passed over, without its end. -/
  | comment (line : String)
  /-- A line that documents what follows, without its end. -/
  | note (line : String)

/-- The marks that parts can be. -/
def partMarks : List Char := ['.', ',', ';', ':', '&', '=', '#', '!']

namespace Part

/-- How a part is written. -/
def written : Part → List Char
  | blank c | mark c => [c]
  | word name => name.toList
  | number value => (toString value).toList
  | text value => Quoted.encode value.toList
  | opening d => [opener d]
  | closing d => [closer d]
  | comment line => '/' :: '/' :: ' ' :: line.toList
  | note line => '/' :: '/' :: '/' :: ' ' :: line.toList

/-- A mark stands first. -/
def marksFirst : List Part → Bool
  | mark _ :: _ => true
  | _ => false

/-- The token of a part, given whether a mark follows it. -/
def token? (joint : Bool) : Part → Option Token
  | blank _ | comment _ => none
  | word name => some (.word name)
  | mark symbol => some (.mark symbol joint)
  | number value => some (.literal (.whole (some value)) (toString value).toList)
  | text value => some (.literal .text (Quoted.encode value.toList))
  | opening d => some (.opening d)
  | closing d => some (.closing d)
  | note _ => some (.documentation false)

/-- The part by itself is what it looks like. -/
def Sound : Part → Prop
  | blank c => c = ' ' ∨ c = '\n'
  | word name => IsAsciiName name.toList
  | mark symbol => symbol ∈ partMarks
  | number value => value = 5 ∨ value = 50 ∨ value = 100
  | text _ | opening _ | closing _ => True
  | comment line => '\n' ∉ line.toList
  | note line => '\n' ∉ line.toList ∧ '\r' ∉ line.toList

/-- A part ends in front of others. -/
def EndsBefore : Part → List Part → Prop
  | word _, rest | text _, rest =>
    match rest with
    | blank _ :: _ | opening _ :: _ | closing _ :: _ => True
    | mark symbol :: _ => symbol ≠ '#'
    | _ => False
  | number _, rest =>
    match rest with
    | closing .paren :: _ => True
    | _ => False
  | comment _, rest | note _, rest => ∃ more, rest = blank '\n' :: more
  | opening _, rest =>
    match rest with
    | comment _ :: _ | note _ :: _ => False
    | _ => True
  | blank _, _ | mark _, _ | closing _, _ => True

/-- A name or a text ends in front of this part. -/
@[simp] def Divides : Part → Prop
  | blank _ | opening _ | closing _ => True
  | mark symbol => symbol ≠ '#'
  | word _ | number _ | text _ | comment _ | note _ => False

/-- The part is a comment. -/
@[simp] def IsRemark : Part → Prop
  | comment _ | note _ => True
  | blank _ | word _ | mark _ | number _ | text _ | opening _ | closing _ => False

section
variable (p : Part) (rest : List Part)

@[simp] theorem blank_endsBefore (c : Char) : (blank c).EndsBefore rest := trivial

@[simp] theorem mark_endsBefore (symbol : Char) : (mark symbol).EndsBefore rest := trivial

@[simp] theorem closing_endsBefore (d : Delimiter) : (closing d).EndsBefore rest := trivial

@[simp] theorem word_endsBefore (name : String) :
    (word name).EndsBefore (p :: rest) ↔ p.Divides := by
  cases p <;> rfl

@[simp] theorem text_endsBefore (value : String) :
    (text value).EndsBefore (p :: rest) ↔ p.Divides := by
  cases p <;> rfl

@[simp] theorem number_endsBefore (value : Nat) :
    (number value).EndsBefore (closing .paren :: rest) := trivial

@[simp] theorem comment_endsBefore (line : String) :
    (comment line).EndsBefore (blank '\n' :: rest) := ⟨rest, rfl⟩

@[simp] theorem note_endsBefore (line : String) : (note line).EndsBefore (blank '\n' :: rest) :=
  ⟨rest, rfl⟩

@[simp] theorem opening_endsBefore (d : Delimiter) :
    (opening d).EndsBefore (p :: rest) ↔ ¬ p.IsRemark := by
  cases p <;> simp [EndsBefore]

end

end Part

/-- The tokens of parts in a row. -/
def tokensOf : List Part → List Token
  | [] => []
  | p :: rest => (p.token? (Part.marksFirst rest)).toList ++ tokensOf rest

/-- No part goes on into the next one. -/
def Fits : List Part → Prop
  | [] => True
  | p :: rest => p.Sound ∧ p.EndsBefore rest ∧ Fits rest

/-- The text that some parts are written as. -/
def writtenAs (parts : List Part) : List Char := parts.flatMap Part.written

theorem lexes_mark {c : Char} (h : c ∈ partMarks) (behind : List Char) :
    Lexes [c] behind [.mark c (mark? behind).isSome] := by
  have here : piece ([c] ++ behind) = some (.leaf 1 (.mark c (mark? behind).isSome)) := by
    simp only [partMarks, List.mem_cons, List.not_mem_nil, or_false] at h
    rcases h with rfl | rfl | rfl | rfl | rfl | rfl | rfl | rfl <;> rfl
  exact lexes_piece (by simp) here rfl

theorem lexes_blank {c : Char} (h : c = ' ' ∨ c = '\n') (behind : List Char) :
    Lexes [c] behind [] := by
  have here : piece ([c] ++ behind) = some (.blank 1) := by
    rcases h with rfl | rfl <;> rfl
  exact lexes_piece (by simp) here rfl

theorem lexes_closing (d : Delimiter) (behind : List Char) :
    Lexes [closer d] behind [.closing d] := by
  have here : piece ([closer d] ++ behind) = some (.closing d) := by
    cases d <;> rfl
  exact lexes_piece (by simp) here rfl

theorem lexes_opening (d : Delimiter) {behind : List Char} (h : behind.head? ≠ some '/') :
    Lexes [opener d] behind [.opening d] := by
  have here : piece ([opener d] ++ behind) = some (.opening d) := by
    cases d with
    | paren =>
      have whole : Literal.faulty.isPrefixOf ('(' :: behind) = false := by
        cases behind with
        | nil => rfl
        | cons c rest =>
          have other : '/' ≠ c := fun same => h (by rw [same]; rfl)
          have written : Literal.faulty = '(' :: '/' :: "*ERROR*/)".toList := rfl
          simp [written, List.isPrefixOf, other]
      have noBlank : blank ('(' :: behind) = none := rfl
      have noNote : documentation ('(' :: behind) = none := rfl
      show piece ('(' :: behind) = _
      unfold piece
      rw [noBlank, noNote]
      show (if Literal.faulty.isPrefixOf ('(' :: behind) then leaf ('(' :: behind)
        else some (.opening .paren)) = _
      rw [whole]
      rfl
    | bracket => rfl
    | brace => rfl
  exact lexes_piece (by simp) here rfl

theorem lexes_number {n : Nat} (h : n = 5 ∨ n = 50 ∨ n = 100) (behind : List Char) :
    Lexes (toString n).toList (')' :: behind)
      [.literal (.whole (some n)) (toString n).toList] := by
  rcases h with rfl | rfl | rfl
  · exact ⟨1, by decide, rfl⟩
  · exact ⟨1, by decide, rfl⟩
  · exact ⟨1, by decide, rfl⟩

theorem lineLength_append {line : List Char} (whole : '\n' ∉ line) (behind : List Char) :
    lineLength (line ++ '\n' :: behind) = line.length := by
  have taken : (line ++ '\n' :: behind).takeWhile (· ≠ '\n') = line := by
    rw [List.takeWhile_append_of_pos]
    · simp
    · intro c hc
      simpa using ne_of_mem_of_not_mem hc whole
  rw [lineLength, taken]

theorem hasBareReturn_eq_false {text : List Char} (calm : '\r' ∉ text) :
    hasBareReturn text = false := by
  induction text with
  | nil => rfl
  | cons c rest ih =>
    have other : c ≠ '\r' := fun same => calm (by simp [same])
    have behind := ih fun h => calm (List.mem_cons_of_mem _ h)
    unfold hasBareReturn
    split
    · next same => cases same
    · next same => exact absurd (List.cons.inj same).1 other
    · next same => exact absurd (List.cons.inj same).1 other
    · next same =>
      cases same
      exact behind

theorem lexes_comment {line : List Char} (whole : '\n' ∉ line) (behind : List Char) :
    Lexes ('/' :: '/' :: ' ' :: line) ('\n' :: behind) [] := by
  have long : lineLength ('/' :: '/' :: ' ' :: line ++ '\n' :: behind) = line.length + 3 :=
    lineLength_append (by simpa using whole) behind
  have plain : isPlainLineComment ('/' :: '/' :: ' ' :: line ++ '\n' :: behind) = true := rfl
  have passed : blank ('/' :: '/' :: ' ' :: line ++ '\n' :: behind) = some (line.length + 3) := by
    unfold blank
    rw [plain, long]
    rfl
  exact lexes_piece (by simp) (piece_of_blank passed) rfl

theorem lexes_note {line : List Char} (whole : '\n' ∉ line) (calm : '\r' ∉ line)
    (behind : List Char) :
    Lexes ('/' :: '/' :: '/' :: ' ' :: line) ('\n' :: behind) [.documentation false] := by
  have long : lineLength ('/' :: '/' :: '/' :: ' ' :: line ++ '\n' :: behind) = line.length + 4 :=
    lineLength_append (by simpa using whole) behind
  have taken : ('/' :: '/' :: '/' :: ' ' :: line ++ '\n' :: behind).take (line.length + 4 + 1) =
      '/' :: '/' :: '/' :: ' ' :: line ++ ['\n'] := by
    have front : '/' :: '/' :: '/' :: ' ' :: line ++ '\n' :: behind =
        ('/' :: '/' :: '/' :: ' ' :: line ++ ['\n']) ++ behind := by simp
    rw [front]
    exact List.take_left' (by simp)
  have still : hasBareReturn
      (('/' :: '/' :: '/' :: ' ' :: line ++ '\n' :: behind).take (line.length + 4 + 1)) =
        false := by
    rw [taken]
    exact hasBareReturn_eq_false (by simpa using calm)
  have outer : (begins "//!" ('/' :: '/' :: '/' :: ' ' :: line ++ '\n' :: behind) ||
      begins "///" ('/' :: '/' :: '/' :: ' ' :: line ++ '\n' :: behind) &&
        !begins "////" ('/' :: '/' :: '/' :: ' ' :: line ++ '\n' :: behind)) = true := rfl
  have noted : documentation ('/' :: '/' :: '/' :: ' ' :: line ++ '\n' :: behind) =
      some (line.length + 4, false) := by
    unfold documentation
    simp only [outer, long, still]
    rfl
  exact lexes_piece (by simp) (piece_of_documentation rfl noted) rfl

/-- What stands first among parts in front of which a name ends. -/
theorem closes_of_endsBefore (name : String) {rest : List Part}
    (ends : (Part.word name).EndsBefore rest) (fits : Fits rest) :
    ∃ d more, writtenAs rest = d :: more ∧ closesName d := by
  cases rest with
  | nil => cases ends
  | cons p more =>
    obtain ⟨sound, -, -⟩ := fits
    cases p with
    | blank c =>
      refine ⟨c, writtenAs more, rfl, ?_⟩
      rcases sound with rfl | rfl <;> decide
    | mark c =>
      refine ⟨c, writtenAs more, rfl, ?_⟩
      have among : ∀ c ∈ partMarks, c ≠ '#' → closesName c :=
        List.all_iff_forall_prop.1 (by decide)
      exact among c sound ends
    | opening d => exact ⟨opener d, writtenAs more, rfl, by cases d <;> decide⟩
    | closing d => exact ⟨closer d, writtenAs more, rfl, by cases d <;> decide⟩
    | word _ | text _ | number _ | comment _ | note _ => cases ends

theorem written_word {name : String} (h : IsAsciiName name.toList) :
    ∃ c more, name.toList = c :: more ∧ isNameChar c := by
  cases chars : name.toList with
  | nil => rw [chars] at h; cases h
  | cons c more =>
    rw [chars] at h
    obtain ⟨-, each⟩ := h
    exact ⟨c, more, rfl, each c (by simp)⟩

theorem head?_writtenAs {d : Delimiter} {parts : List Part}
    (ends : (Part.opening d).EndsBefore parts)
    (fits : Fits parts) : (writtenAs parts).head? ≠ some '/' := by
  cases parts with
  | nil => simp [writtenAs]
  | cons p rest =>
    obtain ⟨sound, -, -⟩ := fits
    cases p with
    | blank c =>
      have among : ∀ c, c = ' ' ∨ c = '\n' → some c ≠ some '/' := by
        rintro c (rfl | rfl) <;> decide
      exact among c sound
    | mark c =>
      have among : ∀ c ∈ partMarks, some c ≠ some '/' :=
        List.all_iff_forall_prop.1 (by decide)
      exact among c sound
    | word name =>
      obtain ⟨c, more, written, named⟩ := written_word sound
      show (name.toList ++ writtenAs rest).head? ≠ some '/'
      rw [written]
      intro same
      exact ne_of_isNameChar named rfl (Option.some_inj.1 same)
    | number n =>
      have digits : ∀ n, n = 5 ∨ n = 50 ∨ n = 100 →
          (toString n).toList ≠ [] ∧ (toString n).toList.head? ≠ some '/' := by
        rintro n (rfl | rfl | rfl) <;> decide
      obtain ⟨some', other⟩ := digits n sound
      show ((toString n).toList ++ writtenAs rest).head? ≠ some '/'
      rwa [List.head?_append_of_ne_nil _ some']
    | text value =>
      have quote : some '"' ≠ some '/' := by decide
      exact quote
    | opening d =>
      have bracket : some (opener d) ≠ some '/' := by cases d <;> decide
      exact bracket
    | closing d =>
      have bracket : some (closer d) ≠ some '/' := by cases d <;> decide
      exact bracket
    | comment line => cases ends
    | note line => cases ends

theorem mark?_writtenAs {parts : List Part} (fits : Fits parts) :
    (mark? (writtenAs parts)).isSome = Part.marksFirst parts := by
  cases parts with
  | nil => rfl
  | cons p rest =>
    obtain ⟨sound, ends, -⟩ := fits
    cases p with
    | blank c => rcases sound with rfl | rfl <;> rfl
    | mark c =>
      simp only [Part.Sound, partMarks, List.mem_cons, List.not_mem_nil, or_false] at sound
      rcases sound with rfl | rfl | rfl | rfl | rfl | rfl | rfl | rfl <;> rfl
    | word name =>
      obtain ⟨c, more, written, named⟩ := written_word sound
      show (mark? (name.toList ++ writtenAs rest)).isSome = false
      rw [written, List.cons_append, mark?_name named]
      rfl
    | number n => rcases sound with rfl | rfl | rfl <;> rfl
    | text value => rfl
    | opening d => cases d <;> rfl
    | closing d => cases d <;> rfl
    | comment line => rfl
    | note line => rfl

/-- Parts in a row are read as their tokens. -/
theorem lexes_written {parts : List Part} (fits : Fits parts) :
    Lexes (writtenAs parts) [] (tokensOf parts) := by
  induction parts with
  | nil => exact .nil []
  | cons p rest ih =>
    have first : Lexes p.written (writtenAs rest) (p.token? (Part.marksFirst rest)).toList := by
      obtain ⟨sound, ends, fits⟩ := fits
      cases p with
      | blank c => exact lexes_blank sound _
      | word name =>
        obtain ⟨d, more, same, closes⟩ := closes_of_endsBefore _ ends fits
        rw [same]
        have named := lexes_name sound closes more
        rw [String.ofList_toList] at named
        exact named
      | mark c =>
        rw [← mark?_writtenAs fits]
        exact lexes_mark sound _
      | number n =>
        match rest, ends with
        | .closing .paren :: more, _ => exact lexes_number sound (writtenAs more)
      | text value =>
        obtain ⟨d, more, same, closes⟩ := closes_of_endsBefore "" ends fits
        rw [same]
        exact lexes_quoted _ _ closes
      | opening d => exact lexes_opening d (head?_writtenAs ends fits)
      | closing d => exact lexes_closing d _
      | comment line =>
        obtain ⟨more, rfl⟩ := ends
        exact lexes_comment sound (writtenAs more)
      | note line =>
        obtain ⟨more, rfl⟩ := ends
        exact lexes_note sound.1 sound.2 (writtenAs more)
    rw [← List.append_nil (writtenAs rest)] at first
    exact first.append (ih fits.2.2)

theorem tokens?_written {parts : List Part} (fits : Fits parts) :
    tokens? (writtenAs parts) = some (tokensOf parts) :=
  (lexes_written fits).tokens

end Waymark.Source.Lexer
