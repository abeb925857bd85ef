import Mathlib.Data.Bool.AllAny
import Mathlib.Data.List.Basic
import Waymark.Proofs.Source.TextLiteral
import Waymark.Source.Lexer

/-!
# Tokens of a text

The pieces of a text in a row, blanks left out and delimiters by themselves. A text put together
from parts has the tokens of its parts, where no part goes on into the next one.

* `takePieces`: the tokens of so many pieces, and the text behind them;
* `tokens?`: the tokens of a whole text;
* `Lexes.append`: the tokens of a text put together;
* `lexes_name`, `lexes_quoted`: a name and a quoted text are one token each.
-/

namespace Waymark.Source.Lexer

open Waymark.Text

/-- A token of a text. -/
inductive Token where
  | word (name : String)
  | mark (symbol : Char) (joint : Bool)
  | literal (value : Literal) (text : List Char)
  | documentation (inner : Bool)
  | opening (delimiter : Delimiter)
  | closing (delimiter : Delimiter)
deriving DecidableEq

/-- How many characters a piece takes. -/
def Piece.length : Piece → Nat
  | blank n | documentation n _ | leaf n _ => n
  | opening _ | closing _ => 1

/-- The token that a piece at the beginning of a text is. -/
def Piece.token? (text : List Char) : Piece → Option Token
  | blank _ => none
  | documentation _ inner => some (.documentation inner)
  | opening d => some (.opening d)
  | closing d => some (.closing d)
  | leaf n make =>
    match make ⟨Position.origin, Position.origin⟩ with
    | .word name _ => some (.word name)
    | .mark symbol joint _ => some (.mark symbol joint)
    | .literal value _ => some (.literal value (text.take n))
    | .group _ _ _ _ => none

/-- The tokens of so many pieces, and the text behind them. -/
def takePieces : Nat → List Char → Option (List Token × List Char)
  | 0, text => some ([], text)
  | n + 1, text =>
    match piece text with
    | none => none
    | some p =>
      match takePieces n (text.drop p.length) with
      | none => none
      | some (more, rest) => some ((p.token? text).toList ++ more, rest)

/-- The tokens of a text, with a bound on the number of pieces. -/
def tokensFrom : Nat → List Char → Option (List Token)
  | _, [] => some []
  | 0, _ :: _ => none
  | fuel + 1, c :: rest =>
    match piece (c :: rest) with
    | none => none
    | some p =>
      (tokensFrom fuel ((c :: rest).drop p.length)).map ((p.token? (c :: rest)).toList ++ ·)

/-- The tokens of a text; there are no more pieces than characters. -/
def tokens? (text : List Char) : Option (List Token) := tokensFrom text.length text

/-- A part of a text is read up to what stands behind it. -/
def Lexes (part behind : List Char) (ts : List Token) : Prop :=
  ∃ n ≤ part.length, takePieces n (part ++ behind) = some (ts, behind)

theorem takePieces_add {n m : Nat} {text middle behind : List Char} {ts more : List Token}
    (first : takePieces n text = some (ts, middle))
    (next : takePieces m middle = some (more, behind)) :
    takePieces (n + m) text = some (ts ++ more, behind) := by
  induction n generalizing text ts with
  | zero =>
    cases first
    simpa using next
  | succ n ih =>
    rw [Nat.add_right_comm]
    unfold takePieces at first
    split at first
    · cases first
    · next p here =>
      split at first
      · cases first
      · next us rest taken =>
        cases first
        simp only [takePieces, here, ih taken, List.append_assoc]

theorem Lexes.nil (behind : List Char) : Lexes [] behind [] := ⟨0, Nat.le_refl 0, rfl⟩

/-- A text put together from two parts has the tokens of both. -/
theorem Lexes.append {a b behind : List Char} {ts us : List Token}
    (first : Lexes a (b ++ behind) ts)
    (next : Lexes b behind us) : Lexes (a ++ b) behind (ts ++ us) := by
  obtain ⟨n, fewer, front⟩ := first
  obtain ⟨m, fewer', back⟩ := next
  refine ⟨n + m, by simpa using Nat.add_le_add fewer fewer', ?_⟩
  rw [List.append_assoc]
  exact takePieces_add front back

theorem tokensFrom_of_take {n fuel : Nat} {text : List Char} {ts : List Token}
    (taken : takePieces n text = some (ts, [])) (enough : n ≤ fuel) :
    tokensFrom fuel text = some ts := by
  induction n generalizing text ts fuel with
  | zero =>
    cases taken
    simp [tokensFrom]
  | succ n ih =>
    obtain ⟨fuel, rfl⟩ : ∃ more, fuel = more + 1 := ⟨fuel - 1, by omega⟩
    unfold takePieces at taken
    split at taken
    · cases taken
    · next p here =>
      split at taken
      · cases taken
      · next us rest left =>
        cases taken
        cases text with
        | nil => cases here
        | cons c rest =>
          unfold tokensFrom
          simp only [here]
          rw [ih left (by omega)]
          rfl

/-- The tokens of a whole text are those of its parts. -/
theorem Lexes.tokens {text : List Char} {ts : List Token} (h : Lexes text [] ts) :
    tokens? text = some ts := by
  obtain ⟨n, fewer, taken⟩ := h
  rw [List.append_nil] at taken
  exact tokensFrom_of_take taken fewer

/-- A letter, a digit or an underscore of ASCII. -/
def isNameChar (c : Char) : Bool := c.isAlphanum || c = '_'

/-- A name in ASCII: letters, digits and underscores, no digit first. -/
inductive IsAsciiName : List Char → Prop
  | intro {c : Char} {rest : List Char} (first : c.isDigit = false)
      (each : ∀ d ∈ c :: rest, isNameChar d) : IsAsciiName (c :: rest)

/-- A character in front of which a name ends, and with which it begins no literal. -/
def closesName (d : Char) : Bool :=
  !continuesIdentifier d && !beginsIdentifier d && d ≠ '"' && d ≠ '#' && d ≠ '\x27'

/-- What follows the first character of a name begins no literal with it. -/
def opensNothing (e : Char) : Prop := e ≠ '"' ∧ e ≠ '#' ∧ e ≠ '\x27'

theorem closesName_iff {d : Char} :
    closesName d = true ↔
      continuesIdentifier d = false ∧ beginsIdentifier d = false ∧ opensNothing d := by
  simp [closesName, opensNothing, and_assoc]

theorem ne_of_isNameChar {c : Char} (h : isNameChar c) {special : Char}
    (other : isNameChar special = false) : c ≠ special := by
  rintro rfl
  rw [h] at other
  cases other

/-- The codes of letters. -/
theorem isAlpha_iff {c : Char} :
    c.isAlpha ↔ 65 ≤ c.toNat ∧ c.toNat ≤ 90 ∨ 97 ≤ c.toNat ∧ c.toNat ≤ 122 := by
  have letter : c.isAlpha = (decide (c.val ≥ 'A'.val ∧ c.val ≤ 'Z'.val) ||
      (decide (c.val ≥ 'a'.val) && decide (c.val ≤ 'z'.val))) := rfl
  simp [letter, UInt32.le_iff_toNat_le]

/-- The codes of digits. -/
theorem isDigit_iff {c : Char} : c.isDigit ↔ 48 ≤ c.toNat ∧ c.toNat ≤ 57 := by
  simp [Char.isDigit, UInt32.le_iff_toNat_le]

theorem isNameChar_iff {c : Char} : isNameChar c ↔ c.isAlpha ∨ c.isDigit ∨ c = '_' := by
  simp [isNameChar, Char.isAlphanum, or_assoc]

theorem lt_of_isNameChar {c : Char} (h : isNameChar c) : c.toNat < 0x80 := by
  obtain letter | digit | rfl := isNameChar_iff.1 h
  · have codes := isAlpha_iff.1 letter
    omega
  · have codes := isDigit_iff.1 digit
    omega
  · decide

theorem continuesIdentifier_of_isNameChar {c : Char} (h : isNameChar c) :
    continuesIdentifier c = true := by
  rw [continuesIdentifier, if_pos (lt_of_isNameChar h)]
  exact h

theorem beginsIdentifier_of_isNameChar {c : Char} (h : isNameChar c) (first : c.isDigit = false) :
    beginsIdentifier c = true := by
  rw [beginsIdentifier, if_pos (lt_of_isNameChar h)]
  simpa [isNameChar, Char.isAlphanum, first] using h

theorem identifier?_name {name : List Char} (h : IsAsciiName name) {d : Char}
    (closes : closesName d) (behind : List Char) :
    Literal.identifier? (name ++ d :: behind) = some name.length := by
  obtain @⟨c, rest, first, each⟩ := h
  have ends := (closesName_iff.1 closes).1
  have here := beginsIdentifier_of_isNameChar (each c (by simp)) first
  have taken : (rest ++ d :: behind).takeWhile continuesIdentifier = rest := by
    rw [List.takeWhile_append_of_pos]
    · simp [ends]
    · intro e he
      exact continuesIdentifier_of_isNameChar (each e (by simp [he]))
  simp only [List.cons_append, Literal.identifier?, here, if_true, taken, List.length_cons]
  rw [Nat.add_comm]

theorem rawQuoted_eq_none (flavour : Literal.Flavour) {e : Char} (h : opensNothing e)
    (rest : List Char) : Literal.rawQuoted flavour (e :: rest) = none := by
  simp [Literal.rawQuoted, h.1, h.2.1]

theorem hex?_of_not_isDigit {c : Char} (h : c.isDigit = false) {d : Nat}
    (hex : Literal.hex? c = some d) : 10 ≤ d := by
  have digit : ('0' ≤ c && c ≤ '9') = false := h
  rw [Literal.hex?, digit] at hex
  split at hex
  · contradiction
  split at hex
  · cases hex
    omega
  split at hex
  · cases hex
    omega
  · cases hex

theorem wholeLength_eq_none {c : Char} (first : c.isDigit = false) (rest : List Char) :
    Literal.wholeLength (c :: rest) = none := by
  have zero : c ≠ '0' := by
    rintro rfl
    cases first
  have digit : Literal.isDigit c = false := first
  have number : Literal.wholeNumber (c :: rest) = Literal.wholeDigits 10 none (c :: rest) := by
    unfold Literal.wholeNumber
    split <;> simp_all
  rw [Literal.wholeLength, number, Literal.wholeDigits]
  by_cases under : c = '_'
  · simp [under]
  · cases hex : Literal.hex? c with
    | none => simp [under]
    | some d => simp [under, digit, Nat.not_lt.2 (hex?_of_not_isDigit first hex)]

theorem read_name {c e : Char} (h : isNameChar c) (first : c.isDigit = false) {rest : List Char}
    (next : opensNothing e) (later : isNameChar e → ∃ f more, rest = f :: more ∧ opensNothing f) :
    Literal.read (c :: e :: rest) = none := by
  have fraction : Literal.fractionLength (c :: e :: rest) = none := by
    have digit : Literal.isDigit c = false := first
    simp [Literal.fractionLength, digit]
  have quote : c ≠ '"' := ne_of_isNameChar h rfl
  have single : c ≠ '\x27' := ne_of_isNameChar h rfl
  unfold Literal.read
  simp only [fraction, wholeLength_eq_none first]
  split
  · next value found =>
    -- a quote or a fence would have to stand where the name goes on or ends
    split at found
    · next same => exact absurd (List.cons.inj same).1 quote
    · next same =>
      cases same
      rw [rawQuoted_eq_none _ next] at found
      cases found
    · next same =>
      cases same
      exact absurd rfl next.1
    · next same =>
      cases same
      obtain ⟨f, more, rfl, opens⟩ := later rfl
      rw [rawQuoted_eq_none _ opens] at found
      cases found
    · next same =>
      cases same
      exact absurd rfl next.1
    · next same =>
      cases same
      obtain ⟨f, more, rfl, opens⟩ := later rfl
      rw [rawQuoted_eq_none _ opens] at found
      cases found
    · next same =>
      cases same
      exact absurd rfl next.2.2
    · next same => exact absurd (List.cons.inj same).1 single
    · cases found
  · rfl

/-- No word of a name is the beginning of a literal. -/
theorem word?_name {c e : Char} {rest : List Char} (next : opensNothing e)
    (later : isNameChar e → ∃ f more, rest = f :: more ∧ opensNothing f) :
    word? (c :: e :: rest) = Literal.identifier? (c :: e :: rest) := by
  have raw : begins "r#" (c :: e :: rest) = false := by
    simp [begins, List.isPrefixOf, next.2.1.symm]
  have starts : literalStarts.any (begins · (c :: e :: rest)) = false := by
    by_cases isR : e = 'r'
    · subst isR
      obtain ⟨f, more, rfl, opens⟩ := later rfl
      simp [literalStarts, begins, List.isPrefixOf, opens.1.symm, opens.2.1.symm]
    · simp [literalStarts, begins, List.isPrefixOf, Ne.symm isR, next.1.symm, next.2.1.symm,
        next.2.2.symm]
  rw [word?, starts, anyWord, raw]
  rfl

theorem isBlank_of_isNameChar {c : Char} (h : isNameChar c) : isBlank c = false := by
  obtain letter | digit | rfl := isNameChar_iff.1 h
  · have codes := isAlpha_iff.1 letter
    simp [isBlank, isSpace]
    omega
  · have codes := isDigit_iff.1 digit
    simp [isBlank, isSpace]
    omega
  · decide

theorem blank_name {c : Char} (h : isNameChar c) (rest : List Char) : blank (c :: rest) = none := by
  have slash : '/' ≠ c := (ne_of_isNameChar h rfl).symm
  simp [blank, isPlainLineComment, isPlainBlockComment, begins, List.isPrefixOf, slash,
    isBlank_of_isNameChar h]

theorem documentation_name {c : Char} (h : isNameChar c) (rest : List Char) :
    documentation (c :: rest) = none := by
  have slash : '/' ≠ c := (ne_of_isNameChar h rfl).symm
  simp [documentation, begins, List.isPrefixOf, slash]

theorem mark?_name {c : Char} (h : isNameChar c) (rest : List Char) : mark? (c :: rest) = none := by
  have slash : '/' ≠ c := (ne_of_isNameChar h rfl).symm
  have marks : ∀ m ∈ "~!@#$%^&*-=+|;:,<.>/?'".toList, isNameChar m = false :=
    List.all_iff_forall_prop.1 (by decide)
  have other : "~!@#$%^&*-=+|;:,<.>/?'".toList.contains c = false := by
    rw [Bool.eq_false_iff]
    intro among
    exact Bool.false_ne_true ((marks c (List.contains_iff_mem.1 among)).symm.trans h)
  have noComment : (begins "//" (c :: rest) || begins "/*" (c :: rest)) = false := by
    simp [begins, List.isPrefixOf, slash]
  rw [mark?, noComment]
  simp only [other]
  rfl

theorem piece_of_blank {text : List Char} {n : Nat} (h : blank text = some n) :
    piece text = some (.blank n) := by
  unfold piece
  rw [h]

theorem piece_of_documentation {text : List Char} {n : Nat} {inner : Bool}
    (noBlank : blank text = none)
    (h : documentation text = some (n, inner)) : piece text = some (.documentation n inner) := by
  unfold piece
  rw [noBlank, h]

theorem piece_eq_leaf {c : Char} {rest : List Char} (noBlank : blank (c :: rest) = none)
    (noNote : documentation (c :: rest) = none) (other : c ∉ "()[]\x7b\x7d".toList) :
    piece (c :: rest) = leaf (c :: rest) := by
  unfold piece
  rw [noBlank, noNote]
  dsimp only
  split
  · next same => exact absurd (by simp [(List.cons.inj same).1]) other
  · next same => exact absurd (by simp [(List.cons.inj same).1]) other
  · next same => exact absurd (by simp [(List.cons.inj same).1]) other
  · next same => exact absurd (by simp [(List.cons.inj same).1]) other
  · next same => exact absurd (by simp [(List.cons.inj same).1]) other
  · next same => exact absurd (by simp [(List.cons.inj same).1]) other
  · rfl

/-- A name is one piece. -/
theorem piece_name {c e : Char} {rest : List Char} (h : isNameChar c) (first : c.isDigit = false)
    (next : opensNothing e) (later : isNameChar e → ∃ f more, rest = f :: more ∧ opensNothing f)
    {n : Nat} (ends : Literal.identifier? (c :: e :: rest) = some n) :
    piece (c :: e :: rest) = some (.leaf n (.word (String.ofList ((c :: e :: rest).take n)))) := by
  have found : leaf (c :: e :: rest) =
      some (.leaf n (.word (String.ofList ((c :: e :: rest).take n)))) := by
    simp only [leaf, read_name h first next later, mark?_name h, word?_name next later, ends]
  have brackets : ∀ special ∈ "()[]\x7b\x7d".toList, isNameChar special = false :=
    List.all_iff_forall_prop.1 (by decide)
  rw [piece_eq_leaf (blank_name h _) (documentation_name h _), found]
  intro among
  exact ne_of_isNameChar h (brackets c among) rfl

theorem lexes_piece {part behind : List Char} {p : Piece} (nonempty : part ≠ [])
    (here : piece (part ++ behind) = some p) (long : p.length = part.length) :
    Lexes part behind (p.token? (part ++ behind)).toList := by
  refine ⟨1, List.length_pos_of_ne_nil nonempty, ?_⟩
  simp [takePieces, here, long]

/-- A name is one token. -/
theorem lexes_name {name : List Char} (h : IsAsciiName name) {d : Char} (closes : closesName d)
    (behind : List Char) : Lexes name (d :: behind) [.word (String.ofList name)] := by
  have ends := identifier?_name h closes behind
  obtain ⟨stops, -, closing⟩ := closesName_iff.1 closes
  have notName : isNameChar d = false := by
    rw [Bool.eq_false_iff]
    intro is
    exact Bool.false_ne_true (stops.symm.trans (continuesIdentifier_of_isNameChar is))
  have going {e : Char} (is : isNameChar e) : opensNothing e :=
    ⟨ne_of_isNameChar is rfl, ne_of_isNameChar is rfl, ne_of_isNameChar is rfl⟩
  obtain @⟨c, rest, first, each⟩ := h
  have here : piece (c :: rest ++ d :: behind) = some (.leaf (c :: rest).length
      (.word (String.ofList ((c :: rest ++ d :: behind).take (c :: rest).length)))) := by
    match rest with
    | [] => exact piece_name (each c (by simp)) first closing (by simp [notName]) ends
    | [e] =>
      exact piece_name (each c (by simp)) first (going (each e (by simp)))
        (fun _ => ⟨d, behind, rfl, closing⟩) ends
    | e :: f :: more =>
      exact piece_name (each c (by simp)) first (going (each e (by simp)))
        (fun _ => ⟨f, _, rfl, going (each f (by simp))⟩) ends
  rw [List.take_left] at here
  exact lexes_piece (by simp) here rfl

theorem suffix_of_closesName {d : Char} (closes : closesName d) (behind : List Char) :
    Literal.suffix (d :: behind) = 0 := by
  simp [Literal.suffix, Literal.identifier?, (closesName_iff.1 closes).2.1]

theorem read_quoted (text behind : List Char) {d : Char} (closes : closesName d) :
    Literal.read (Quoted.encode text ++ d :: behind) =
      some ((Quoted.encode text).length, .text) := by
  have value := Literal.valueFrom_encode text (d :: behind)
  have length : Literal.quotedFrom .text .plain (text.flatMap Quoted.escape ++ '"' :: d :: behind) =
      some ((text.flatMap Quoted.escape).length + 1) := by
    rw [Literal.quotedFrom_eq, value, Option.map_some, suffix_of_closesName closes]
    simp only [List.length_append, List.length_cons, Option.some.injEq]
    omega
  have written : Quoted.encode text ++ d :: behind =
      '"' :: (text.flatMap Quoted.escape ++ '"' :: d :: behind) := by
    simp [Quoted.encode]
  rw [written, Literal.read]
  simp only [length]
  simp [Quoted.encode]

/-- A quoted text is one token. -/
theorem lexes_quoted (text behind : List Char) {d : Char} (closes : closesName d) :
    Lexes (Quoted.encode text) (d :: behind) [.literal .text (Quoted.encode text)] := by
  have here : piece (Quoted.encode text ++ d :: behind) =
      some (.leaf (Quoted.encode text).length (.literal .text)) := by
    have found := read_quoted text behind closes
    have leads : Quoted.encode text ++ d :: behind =
        '"' :: (text.flatMap Quoted.escape ++ ['"'] ++ d :: behind) := rfl
    rw [leads] at found ⊢
    rw [piece_eq_leaf rfl rfl (by decide), leaf, found]
  have token := lexes_piece (by simp [Quoted.encode]) here rfl
  simpa [Piece.token?] using token

end Waymark.Source.Lexer
