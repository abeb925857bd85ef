import Waymark.Proofs.Source.Tokens

/-!
# Where literals end

A literal is read up to its end, and of what stands behind it only the next character tells that it
ends there. So it is the same before any texts that begin with a character with which nothing goes
on.

* `EndsToken`: a character that goes on with no word, no number and no fence;
* `endsToken_of_isBlank`: every blank is one;
* `identifier?_edge`, `quotes_edge`, `fractionLength_edge`, `wholeLength_edge`: what is read up to
  one;
* `read_edge`: any literal.
-/

namespace Waymark.Source.Lexer

open Waymark.Text

/-- A character that goes on with no word, no number and no fence. -/
structure EndsToken (c : Char) : Prop where
  continues : continuesIdentifier c = false
  begins : beginsIdentifier c = false
  hex : Literal.hex? c = none
  digit : Literal.isDigit c = false
  other : c ∉ "\"#'\\.+-_!eErxobc".toList

/-- A name ends before such a character. -/
theorem EndsToken.closesName {c : Char} (ends : EndsToken c) : closesName c = true := by
  have listed : ['"', '#', '\x27'] ⊆ "\"#'\\.+-_!eErxobc".toList := by decide
  have apart : ∀ d ∈ ['"', '#', '\x27'], c ≠ d := by
    rintro d among rfl
    exact ends.other (listed among)
  have opens : opensNothing c := ⟨apart _ (by simp), apart _ (by simp), apart _ (by simp)⟩
  exact closesName_iff.2 ⟨ends.continues, ends.begins, opens⟩

/-- The range of codes holds no blank. -/
def BlankFree (r : Nat × Nat) : Prop :=
  0xA0 < r.1 ∧ r.2 < 0x1680 ∨ 0x1680 < r.1 ∧ r.2 < 0x2000 ∨ 0x202F < r.1 ∧ r.2 < 0x205F ∨
    0x205F < r.1 ∧ r.2 < 0x3000 ∨ 0x3000 < r.1

instance (r : Nat × Nat) : Decidable (BlankFree r) := inferInstanceAs (Decidable (_ ∨ _))

theorem inRanges_of_isBlank {ranges : List (Nat × Nat)}
    (free : ∀ r ∈ ranges, BlankFree r) {c : Char} (is : isBlank c) : inRanges ranges c = false := by
  simp only [isBlank, isSpace, Bool.or_eq_true, Bool.and_eq_true, decide_eq_true_eq] at is
  simp only [inRanges, List.any_eq_false, Bool.and_eq_true, decide_eq_true_eq]
  intro r hr
  have apart := free r hr
  unfold BlankFree at apart
  omega

theorem not_isNameChar_of_isBlank {c : Char} (is : isBlank c) : isNameChar c = false := by
  rw [Bool.eq_false_iff]
  intro name
  rw [isBlank_of_isNameChar name] at is
  cases is

theorem hex?_of_not_isNameChar {c : Char} (other : isNameChar c = false) :
    Literal.hex? c = none := by
  rw [Bool.eq_false_iff, Ne, isNameChar_iff, isAlpha_iff, isDigit_iff] at other
  unfold Literal.hex?
  simp only [Bool.and_eq_true, decide_eq_true_eq, Char.le_def, UInt32.le_iff_toNat_le]
  change (if 48 ≤ c.toNat ∧ c.toNat ≤ 57 then _ else if 97 ≤ c.toNat ∧ c.toNat ≤ 102 then _ else
    if 65 ≤ c.toNat ∧ c.toNat ≤ 70 then _ else _) = _
  rw [if_neg (by omega), if_neg (by omega), if_neg (by omega)]

/-- A blank is none of some characters that are none. -/
theorem not_mem_of_isBlank {c : Char} (is : isBlank c) {seen : List Char}
    (visible : seen.all (!isBlank ·) = true) : c ∉ seen := by
  intro among
  have shown := List.all_eq_true.1 visible c among
  rw [is] at shown
  cases shown

theorem endsToken_of_isBlank {c : Char} (is : isBlank c) : EndsToken c := by
  have name := not_isNameChar_of_isBlank is
  have letters : ∀ r ∈ letterRanges, BlankFree r := by decide +kernel
  have continuing : ∀ r ∈ continuingRanges, BlankFree r := by decide +kernel
  have ascii : c.isAlphanum = false ∧ c ≠ '_' := by simpa [isNameChar] using name
  have alpha : c.isAlpha = false := by
    have both := ascii.1
    rw [Char.isAlphanum, Bool.or_eq_false_iff] at both
    exact both.1
  constructor
  · rw [continuesIdentifier, inRanges_of_isBlank continuing is, ascii.1]
    simp [ascii.2]
  · rw [beginsIdentifier, inRanges_of_isBlank letters is, alpha]
    simp [ascii.2]
  · exact hex?_of_not_isNameChar name
  · have digit := ascii.1
    rw [Char.isAlphanum, Bool.or_eq_false_iff] at digit
    exact digit.2
  · exact not_mem_of_isBlank is (by decide)

end Waymark.Source.Lexer

namespace Waymark.Source.Literal

open Waymark.Text
open Waymark.Source.Lexer (EndsToken)

variable {c : Char} {u v w : List Char} {flavour : Flavour} {n : Nat}

/-- An identifier ends within the part. -/
theorem identifier?_edge (ends : EndsToken c) :
    identifier? (u ++ c :: v) = identifier? (u ++ c :: w) ∧
    ∀ n, identifier? (u ++ c :: v) = some n → n ≤ u.length := by
  cases u with
  | nil => simp [identifier?, ends.begins]
  | cons d u =>
    have stops (more : List Char) :
        (u ++ c :: more).takeWhile continuesIdentifier = u.takeWhile continuesIdentifier := by
      induction u with
      | nil => simp [ends.continues]
      | cons e u ih => simp [List.takeWhile_cons, ih]
    simp only [List.cons_append, identifier?, stops]
    refine ⟨trivial, fun n found => ?_⟩
    split at found
    · cases found
      have := (List.takeWhile_prefix continuesIdentifier (l := u)).length_le
      rw [List.length_cons]
      omega
    · cases found

theorem suffix_edge (ends : EndsToken c) : suffix (u ++ c :: v) = suffix (u ++ c :: w) := by
  rw [suffix, (identifier?_edge ends).1]
  rfl

theorem quotedFrom_pos {s : State} {text : List Char} (found : quotedFrom flavour s text = some n) :
    0 < n := by
  unfold quotedFrom at found
  split at found
  · cases found
  · split at found
    · cases found
      omega
    · obtain ⟨next, -, behind⟩ := Option.bind_eq_some_iff.1 found
      obtain ⟨m, -, rfl⟩ := Option.map_eq_some_iff.1 behind
      omega

theorem quotedFrom_edge (ends : EndsToken c) {s : State}
    (found : quotedFrom flavour s (u ++ c :: v) = some n)
    (short : n ≤ u.length) : quotedFrom flavour s (u ++ c :: w) = some n := by
  induction u generalizing s n with
  | nil => exact absurd (quotedFrom_pos found) (Nat.not_lt.2 short)
  | cons d u ih =>
    rw [List.cons_append, quotedFrom] at found ⊢
    rw [← suffix_edge ends]
    split at found
    · next closes => rw [if_pos closes]; exact found
    · next goes =>
      rw [if_neg goes]
      obtain ⟨next, stepped, behind⟩ := Option.bind_eq_some_iff.1 found
      obtain ⟨m, rest, rfl⟩ := Option.map_eq_some_iff.1 behind
      rw [stepped, Option.bind_some, ih rest (Nat.le_of_succ_le_succ short)]
      rfl

theorem fenced_le (ends : EndsToken c) {fence : Nat} (h : fenced fence (u ++ c :: v) = true) :
    fence ≤ u.length := by
  induction u generalizing fence with
  | nil =>
    cases fence with
    | zero => exact Nat.le_refl 0
    | succ fence =>
      have hash : c ≠ '#' := fun same => ends.other (by simp [same])
      rw [List.nil_append, fenced] at h
      · cases h
      · simpa using hash
  | cons d u ih =>
    cases fence with
    | zero => exact Nat.zero_le _
    | succ fence =>
      by_cases hash : d = '#'
      · subst hash
        exact Nat.succ_le_succ (ih h)
      · rw [List.cons_append, fenced] at h
        · cases h
        · simpa using hash

theorem fenced_append {fence : Nat} (short : fence ≤ u.length) :
    fenced fence (u ++ v) = fenced fence u := by
  induction u generalizing fence with
  | nil =>
    obtain rfl := Nat.le_zero.1 short
    rfl
  | cons d u ih =>
    cases fence with
    | zero => rfl
    | succ fence =>
      by_cases hash : d = '#'
      · subst hash
        exact ih (Nat.le_of_succ_le_succ short)
      · rw [List.cons_append, fenced, fenced]
        · simpa using hash
        · simpa using hash

theorem fenced_edge (ends : EndsToken c) {fence : Nat} :
    fenced fence (u ++ c :: v) = fenced fence (u ++ c :: w) := by
  rw [Bool.eq_iff_iff]
  constructor
  · intro h
    have short := fenced_le ends h
    rwa [fenced_append short] at h ⊢
  · intro h
    have short := fenced_le ends h
    rwa [fenced_append short] at h ⊢

theorem rawFrom_pos {fence : Nat} {lineFeed : Bool} {text : List Char}
    (found : rawFrom flavour fence lineFeed text = some n) : 0 < n := by
  unfold rawFrom at found
  split at found
  · cases found
  · split at found
    · obtain ⟨m, -, rfl⟩ := Option.map_eq_some_iff.1 found
      omega
    · cases found
  · split at found
    · cases found
      omega
    · split at found
      · obtain ⟨m, -, rfl⟩ := Option.map_eq_some_iff.1 found
        omega
      · split at found
        · obtain ⟨m, -, rfl⟩ := Option.map_eq_some_iff.1 found
          omega
        · cases found

theorem rawFrom_edge (ends : EndsToken c) {fence : Nat} {lineFeed : Bool}
    (found : rawFrom flavour fence lineFeed (u ++ c :: v) = some n) (short : n ≤ u.length) :
    rawFrom flavour fence lineFeed (u ++ c :: w) = some n := by
  induction u generalizing lineFeed n with
  | nil => exact absurd (rawFrom_pos found) (Nat.not_lt.2 short)
  | cons d u ih =>
    have further {lineFeed : Bool} {n : Nat}
        (found : (rawFrom flavour fence lineFeed (u ++ c :: v)).map (· + 1) = some n)
        (short : n ≤ (d :: u).length) : (rawFrom flavour fence lineFeed (u ++ c :: w)).map (· + 1) =
          some n := by
      obtain ⟨m, rest, rfl⟩ := Option.map_eq_some_iff.1 found
      rw [ih rest (Nat.le_of_succ_le_succ short)]
      rfl
    cases lineFeed with
    | true =>
      rw [List.cons_append, rawFrom] at found ⊢
      split at found
      · next feed =>
        rw [if_pos feed]
        exact further found short
      · cases found
    | false =>
      rw [List.cons_append, rawFrom] at found ⊢
      rw [← fenced_edge (v := v) ends]
      split at found
      · next closes =>
        have within' := fenced_le ends (Bool.and_eq_true_iff.1 closes).2
        rw [List.drop_append_of_le_length within', suffix_edge ends] at found
        rw [if_pos closes, List.drop_append_of_le_length within']
        exact found
      · next goes =>
        rw [if_neg goes]
        split at found
        · next return' =>
          rw [if_pos return']
          exact further found short
        · next other =>
          rw [if_neg other]
          split at found
          · next allowed =>
            rw [if_pos allowed]
            exact further found short
          · cases found

theorem rawQuoted_edge (ends : EndsToken c) (found : rawQuoted flavour (u ++ c :: v) = some n)
    (short : n ≤ u.length) :
    rawQuoted flavour (u ++ c :: w) = some n := by
  have hash : c ≠ '#' := fun same => ends.other (by simp [same])
  have quote : c ≠ '"' := fun same => ends.other (by simp [same])
  have fence (more : List Char) : (u ++ c :: more).takeWhile (· = '#') = u.takeWhile (· = '#') := by
    clear found short
    induction u with
    | nil => simp [hash]
    | cons d u ih => simp only [List.cons_append, List.takeWhile_cons, ih]
  have within' : (u.takeWhile (· = '#')).length ≤ u.length := (List.takeWhile_prefix _).length_le
  unfold rawQuoted at found ⊢
  rw [fence] at found ⊢
  dsimp only at found ⊢
  rw [List.drop_append_of_le_length within'] at found ⊢
  cases behind : u.drop (u.takeWhile (· = '#')).length with
  | nil =>
    rw [behind] at found
    simp [quote] at found
  | cons d rest =>
    have length := congrArg List.length behind
    rw [List.length_drop, List.length_cons] at length
    rw [behind] at found
    simp only [List.cons_append] at found ⊢
    split at found
    · next same =>
      obtain ⟨rfl, rfl⟩ := List.cons.inj same
      split at found
      · next few =>
        obtain ⟨m, inside, rfl⟩ := Option.map_eq_some_iff.1 found
        refine (if_pos few).trans ?_
        rw [rawFrom_edge ends inside (by omega)]
        rfl
      · cases found
    · cases found

theorem singleEscape_pos {s : State} {text : List Char}
    (found : singleEscape flavour s text = some n) : 0 < n := by
  unfold singleEscape at found
  split at found
  · cases found
  · split at found
    · split at found
      · cases found
        omega
      · cases found
    · obtain ⟨next, -, behind⟩ := Option.bind_eq_some_iff.1 found
      obtain ⟨m, -, rfl⟩ := Option.map_eq_some_iff.1 behind
      omega

theorem singleEscape_edge (ends : EndsToken c) {s : State}
    (found : singleEscape flavour s (u ++ c :: v) = some n)
    (short : n ≤ u.length) : singleEscape flavour s (u ++ c :: w) = some n := by
  induction u generalizing s n with
  | nil => exact absurd (singleEscape_pos found) (Nat.not_lt.2 short)
  | cons d u ih =>
    rw [List.cons_append, singleEscape] at found ⊢
    rw [← suffix_edge ends]
    split at found
    · next plain => rw [if_pos plain]; exact found
    · next escaped =>
      rw [if_neg escaped]
      obtain ⟨next, stepped, behind⟩ := Option.bind_eq_some_iff.1 found
      obtain ⟨m, rest, rfl⟩ := Option.map_eq_some_iff.1 behind
      rw [stepped, Option.bind_some, ih rest (Nat.le_of_succ_le_succ short)]
      rfl

theorem single_pos {text : List Char} (found : single flavour text = some n) : 1 < n := by
  unfold single at found
  split at found
  · obtain ⟨m, inside, rfl⟩ := Option.map_eq_some_iff.1 found
    have := singleEscape_pos inside
    omega
  · split at found
    · cases found
      omega
    · cases found
  · cases found

theorem single_edge (ends : EndsToken c) (found : single flavour (u ++ c :: v) = some n)
    (short : n ≤ u.length) :
    single flavour (u ++ c :: w) = some n := by
  rcases u with _ | ⟨a, _ | ⟨d, u⟩⟩
  · exact absurd (single_pos found) (by simp at short; omega)
  · exact absurd (single_pos found) (Nat.not_lt.2 short)
  · by_cases escaped : a = '\\'
    · subst escaped
      obtain ⟨m, inside, rfl⟩ := Option.map_eq_some_iff.1 found
      have same := singleEscape_edge (u := d :: u) (w := w) ends inside
        (Nat.le_of_succ_le_succ short)
      exact Option.map_eq_some_iff.2 ⟨m, same, rfl⟩
    · by_cases closed : d = '\''
      · subst closed
        rw [List.cons_append, List.cons_append, single] at found ⊢
        · rw [← suffix_edge ends]
          exact found
        · exact escaped
        · exact escaped
      · rw [List.cons_append, List.cons_append, single] at found
        · cases found
        · exact fun rest same => escaped (List.cons.inj same).1
        · exact fun e rest same => closed (List.cons.inj (List.cons.inj same).2).1

/-! ## Numbers -/

/-- What is found one character later in two texts is found in both, and is longer by the one. -/
theorem longer_edge (size : α → Nat) {longer : α → α} (one : ∀ a, size (longer a) = size a + 1)
    {found there : Option α} {bound : Nat}
    (edge : ∀ {a}, found = some a → size a ≤ bound ∧ there = some a) {b : α}
    (found' : found.map longer = some b) : size b ≤ bound + 1 ∧ there.map longer = some b := by
  obtain ⟨a, rest, rfl⟩ := Option.map_eq_some_iff.1 found'
  obtain ⟨short, same⟩ := edge rest
  rw [one, same]
  exact ⟨Nat.succ_le_succ short, rfl⟩

theorem exponent_edge (ends : EndsToken c) {signed valued : Bool}
    (found : exponent signed valued (u ++ c :: v) = some n) :
    n ≤ u.length ∧ exponent signed valued (u ++ c :: w) = some n := by
  have other : c ≠ '+' ∧ c ≠ '-' ∧ c ≠ '_' := by
    refine ⟨?_, ?_, ?_⟩ <;> exact fun same => ends.other (by simp [same])
  induction u generalizing signed valued n with
  | nil =>
    simp only [List.nil_append, exponent, other, ends.digit] at found ⊢
    cases valued with
    | false => cases found
    | true =>
      cases found
      exact ⟨Nat.le_refl 0, rfl⟩
  | cons d u ih =>
    have further {signed valued : Bool} {n : Nat}
        (found : (exponent signed valued (u ++ c :: v)).map (· + 1) = some n) :
        n ≤ (d :: u).length ∧ (exponent signed valued (u ++ c :: w)).map (· + 1) = some n :=
      longer_edge id (fun _ => rfl) ih found
    have stops {n : Nat} (found : some 0 = some n) : n ≤ (d :: u).length ∧ some 0 = some n := by
      cases found
      exact ⟨Nat.zero_le _, rfl⟩
    rw [List.cons_append, exponent] at found ⊢
    by_cases sign : (d = '+' || d = '-') = true
    · rw [if_pos sign] at found ⊢
      cases valued with
      | true => exact stops found
      | false =>
        cases signed with
        | true => cases found
        | false => exact further found
    · rw [if_neg sign] at found ⊢
      by_cases digit : isDigit d = true
      · rw [if_pos digit] at found ⊢
        exact further found
      · rw [if_neg digit] at found ⊢
        by_cases under : d = '_'
        · rw [if_pos under] at found ⊢
          exact further found
        · rw [if_neg under] at found ⊢
          cases valued with
          | true => exact stops found
          | false => cases found

theorem fractionDigits_edge (ends : EndsToken c) {pointed : Bool}
    (found : fractionDigits pointed (u ++ c :: v) = some n) :
    n ≤ u.length ∧ fractionDigits pointed (u ++ c :: w) = some n := by
  have other : c ≠ '.' ∧ c ≠ '_' ∧ c ≠ 'e' ∧ c ≠ 'E' := by
    refine ⟨?_, ?_, ?_, ?_⟩ <;> exact fun same => ends.other (by simp [same])
  induction u generalizing pointed n with
  | nil =>
    simp only [List.nil_append, fractionDigits, other, ends.digit] at found ⊢
    cases pointed with
    | false => cases found
    | true =>
      cases found
      exact ⟨Nat.le_refl 0, rfl⟩
  | cons d u ih =>
    have further {pointed : Bool} {n : Nat}
        (found : (fractionDigits pointed (u ++ c :: v)).map (· + 1) = some n) :
        n ≤ (d :: u).length ∧ (fractionDigits pointed (u ++ c :: w)).map (· + 1) = some n :=
      longer_edge id (fun _ => rfl) ih found
    have stops {n : Nat} (found : (if pointed then some 0 else none) = some n) :
        n ≤ (d :: u).length ∧ (if pointed then some 0 else none) = some n := by
      cases pointed with
      | false => cases found
      | true =>
        cases found
        exact ⟨Nat.zero_le _, rfl⟩
    rw [List.cons_append, fractionDigits.eq_def] at found ⊢
    dsimp only at found ⊢
    by_cases digit : (isDigit d || d = '_') = true
    · rw [if_pos digit] at found ⊢
      exact further found
    · rw [if_neg digit] at found ⊢
      by_cases point : d = '.'
      · rw [if_pos point] at found ⊢
        cases pointed with
        | true => exact stops found
        | false =>
          rw [if_neg Bool.false_ne_true] at found ⊢
          cases u with
          | nil =>
            simp only [List.nil_append, other, ends.begins] at found ⊢
            exact further found
          | cons e u =>
            simp only [List.cons_append] at found ⊢
            by_cases goes : (e = '.' || beginsIdentifier e) = true
            · rw [if_pos goes] at found
              cases found
            · rw [if_neg goes] at found ⊢
              exact further found
      · rw [if_neg point] at found ⊢
        by_cases mark : (d = 'e' || d = 'E') = true
        · rw [if_pos mark] at found ⊢
          cases power : exponent false false (u ++ c :: v) with
          | some m =>
            rw [power] at found
            cases found
            obtain ⟨short, same⟩ := exponent_edge (w := w) ends power
            rw [same]
            exact ⟨Nat.succ_le_succ short, rfl⟩
          | none =>
            have none' : exponent false false (u ++ c :: w) = none := by
              cases there : exponent false false (u ++ c :: w) with
              | none => rfl
              | some m => rw [(exponent_edge ends there).2] at power; cases power
            rw [power] at found
            rw [none']
            exact stops found
        · rw [if_neg mark] at found ⊢
          exact stops found

theorem withSuffix_edge (ends : EndsToken c) {digits : Nat} (short : digits ≤ u.length)
    (found : withSuffix (u ++ c :: v) digits = some n) :
    n ≤ u.length ∧ withSuffix (u ++ c :: w) digits = some n := by
  have letters (more : List Char) :
      suffix (u.drop digits ++ c :: more) ≤ (u.drop digits).length := by
    unfold suffix
    cases named : identifier? (u.drop digits ++ c :: more) with
    | none => exact Nat.zero_le _
    | some m => exact (identifier?_edge (w := more) ends).2 m named
  rw [List.length_drop] at letters
  unfold withSuffix at found ⊢
  rw [List.drop_append_of_le_length short] at found ⊢
  dsimp only at found ⊢
  rw [suffix_edge (v := w) (w := v) ends]
  have within' : suffix (u.drop digits ++ c :: v) ≤ (u.drop digits).length := by
    rw [List.length_drop]
    exact letters v
  rw [List.drop_append_of_le_length within'] at found ⊢
  cases behind : (u.drop digits).drop (suffix (u.drop digits ++ c :: v)) with
  | nil =>
    rw [behind] at found
    simp only [List.nil_append, ends.continues] at found ⊢
    cases found
    exact ⟨by have := letters v; omega, rfl⟩
  | cons d rest =>
    rw [behind] at found
    simp only [List.cons_append] at found ⊢
    by_cases goes : continuesIdentifier d = true
    · rw [if_pos goes] at found
      cases found
    · rw [if_neg goes] at found ⊢
      cases found
      exact ⟨by have := letters v; omega, rfl⟩

theorem fractionLength_edge (ends : EndsToken c) (found : fractionLength (u ++ c :: v) = some n) :
    n ≤ u.length ∧ fractionLength (u ++ c :: w) = some n := by
  cases u with
  | nil =>
    simp only [List.nil_append, fractionLength, ends.digit] at found
    cases found
  | cons d u =>
    simp only [List.cons_append, fractionLength] at found ⊢
    by_cases digit : isDigit d = true
    · rw [if_pos digit] at found ⊢
      obtain ⟨m, digits, behind⟩ := Option.bind_eq_some_iff.1 found
      obtain ⟨short, same⟩ := fractionDigits_edge (w := w) ends digits
      rw [same, Option.bind_some]
      exact withSuffix_edge (u := d :: u) ends (Nat.succ_le_succ short) behind
    · rw [if_neg digit] at found
      cases found

theorem wholeDigits_edge (ends : EndsToken c) {base m : Nat} {value : Option Nat}
    (found : wholeDigits base value (u ++ c :: v) = some (n, m)) :
    n ≤ u.length ∧ wholeDigits base value (u ++ c :: w) = some (n, m) := by
  have other : c ≠ '_' := fun same => ends.other (by simp [same])
  induction u generalizing value n m with
  | nil =>
    simp only [List.nil_append, wholeDigits, other, ends.hex] at found ⊢
    obtain ⟨_, -, same⟩ := Option.map_eq_some_iff.1 found
    cases same
    exact ⟨Nat.le_refl 0, found⟩
  | cons d u ih =>
    let longer (found : Nat × Nat) : Nat × Nat := (found.1 + 1, found.2)
    have further {value : Option Nat}
        (found : (wholeDigits base value (u ++ c :: v)).map longer = some (n, m)) :
        n ≤ (d :: u).length ∧ (wholeDigits base value (u ++ c :: w)).map longer = some (n, m) :=
      longer_edge Prod.fst (fun _ => rfl) ih found
    have stops (found : value.map (0, ·) = some (n, m)) :
        n ≤ (d :: u).length ∧ value.map (0, ·) = some (n, m) := by
      obtain ⟨_, -, same⟩ := Option.map_eq_some_iff.1 found
      cases same
      exact ⟨Nat.zero_le _, found⟩
    rw [List.cons_append, wholeDigits] at found ⊢
    by_cases under : d = '_'
    · rw [if_pos under] at found ⊢
      by_cases early : (value.isNone && base = 10) = true
      · rw [if_pos early] at found
        cases found
      · rw [if_neg early] at found ⊢
        exact further found
    · rw [if_neg under] at found ⊢
      cases hex : hex? d with
      | none =>
        simp only [hex] at found ⊢
        exact stops found
      | some value' =>
        simp only [hex] at found ⊢
        by_cases low : value' < base
        · rw [if_pos low] at found ⊢
          exact further found
        · rw [if_neg low] at found ⊢
          by_cases digit : isDigit d = true
          · rw [if_pos digit] at found
            cases found
          · rw [if_neg digit] at found ⊢
            exact stops found

/-- The characters that mark the base of a number behind its zero. -/
def isBase (c : Char) : Bool := c = 'x' || c = 'o' || c = 'b'

/-- A number without the mark of a base is one to the base ten. -/
theorem wholeNumber_decimal {text : List Char}
    (unmarked : ∀ d rest, text = '0' :: d :: rest → isBase d = false) :
    wholeNumber text = wholeDigits 10 none text := by
  unfold wholeNumber
  split
  · cases unmarked _ _ rfl
  · cases unmarked _ _ rfl
  · cases unmarked _ _ rfl
  · rfl

theorem wholeNumber_edge (ends : EndsToken c) {m : Nat}
    (found : wholeNumber (u ++ c :: v) = some (n, m)) :
    n ≤ u.length ∧ wholeNumber (u ++ c :: w) = some (n, m) := by
  have based {base : Nat} {u : List Char} {n m : Nat}
      (found : (wholeDigits base none (u ++ c :: v)).map (fun found => (found.1 + 2, found.2)) =
        some (n, m)) :
      n ≤ u.length + 2 ∧ (wholeDigits base none (u ++ c :: w)).map (fun found =>
        (found.1 + 2, found.2)) = some (n, m) := by
    obtain ⟨⟨k, l⟩, rest, same⟩ := Option.map_eq_some_iff.1 found
    cases same
    obtain ⟨short, same⟩ := wholeDigits_edge (w := w) ends rest
    exact ⟨Nat.add_le_add_right short 2, by rw [same]; rfl⟩
  by_cases marked : ∃ d rest, u = '0' :: d :: rest ∧ isBase d = true
  · obtain ⟨d, rest, rfl, base⟩ := marked
    obtain (rfl | rfl) | rfl : (d = 'x' ∨ d = 'o') ∨ d = 'b' := by simpa [isBase] using base
    · exact based found
    · exact based found
    · exact based found
  · have unmarked (more : List Char) (d : Char) (rest : List Char)
        (same : u ++ c :: more = '0' :: d :: rest) :
        isBase d = false := by
      rcases u with _ | ⟨e, _ | ⟨f, u⟩⟩
      · obtain ⟨rfl, -⟩ := List.cons.inj same
        cases ends.digit
      · obtain ⟨-, rest'⟩ := List.cons.inj same
        obtain ⟨rfl, -⟩ := List.cons.inj rest'
        rw [Bool.eq_false_iff]
        intro base
        obtain (rfl | rfl) | rfl : (c = 'x' ∨ c = 'o') ∨ c = 'b' := by simpa [isBase] using base
        all_goals exact ends.other (by decide)
      · obtain ⟨rfl, rest'⟩ := List.cons.inj same
        obtain ⟨rfl, -⟩ := List.cons.inj rest'
        rw [Bool.eq_false_iff]
        exact fun base => marked ⟨_, _, rfl, base⟩
    rw [wholeNumber_decimal (unmarked v)] at found
    rw [wholeNumber_decimal (unmarked w)]
    exact wholeDigits_edge ends found

theorem wholeLength_edge (ends : EndsToken c) {index : Option Nat}
    (found : wholeLength (u ++ c :: v) = some (n, index)) :
    n ≤ u.length ∧ wholeLength (u ++ c :: w) = some (n, index) := by
  obtain ⟨⟨digits, value⟩, number, behind⟩ := Option.bind_eq_some_iff.1 found
  obtain ⟨short, same⟩ := wholeNumber_edge (w := w) ends number
  obtain ⟨m, suffixed, same'⟩ := Option.map_eq_some_iff.1 behind
  cases same'
  obtain ⟨short', same'⟩ := withSuffix_edge (w := w) ends short suffixed
  refine ⟨short', ?_⟩
  rw [wholeLength, same, Option.bind_some]
  dsimp only
  rw [same']
  rfl

/-! ## Any literal -/

/-- The literal between quotes at the beginning of a text. -/
def quotes : List Char → Option (Nat × Literal)
  | '"' :: rest => (quotedFrom .text .plain rest).map fun n => (n + 1, .text)
  | 'r' :: rest => (rawQuoted .text rest).map fun n => (n + 1, .text)
  | 'b' :: '"' :: rest => (quotedFrom .bytes .plain rest).map fun n => (n + 2, .other)
  | 'b' :: 'r' :: rest => (rawQuoted .bytes rest).map fun n => (n + 2, .other)
  | 'c' :: '"' :: rest => (quotedFrom .terminated .plain rest).map fun n => (n + 2, .other)
  | 'c' :: 'r' :: rest => (rawQuoted .terminated rest).map fun n => (n + 2, .other)
  | 'b' :: '\'' :: rest => (single .bytes rest).map fun n => (n + 2, .other)
  | '\'' :: rest => (single .text rest).map fun n => (n + 1, .other)
  | _ => none

theorem read_eq (text : List Char) : read text = (quotes text).elim
    ((fractionLength text).elim ((wholeLength text).map fun found => (found.1, .whole found.2))
      fun n => some (n, ofFraction (text.take n))) some := by
  unfold read
  dsimp only
  split
  · next found quoted =>
    have same : quotes text = some found := quoted
    rw [same]
    rfl
  · next quoted =>
    have same : quotes text = none := quoted
    rw [same]
    cases fractionLength text <;> rfl

/-- A text that begins with a part begins with the first character of the part. -/
theorem cons_of_append {d : Char} {rest : List Char} (same : u ++ v = d :: rest)
    (some' : 0 < u.length) :
    ∃ more, u = d :: more ∧ rest = more ++ v := by
  cases u with
  | nil => cases some'
  | cons e u =>
    obtain ⟨rfl, rfl⟩ := List.cons.inj same
    exact ⟨u, rfl, rfl⟩

theorem quotes_edge (ends : EndsToken c) {value : Literal}
    (found : quotes (u ++ c :: v) = some (n, value))
    (short : n ≤ u.length) : quotes (u ++ c :: w) = some (n, value) := by
  have behindOne {reader : List Char → Option Nat} {rest : List Char} {d : Char} {kind : Literal}
      (same : u ++ c :: v = d :: rest)
      (found : (reader rest).map (fun n => (n + 1, kind)) = some (n, value))
      (kept : ∀ {u n}, reader (u ++ c :: v) = some n → n ≤ u.length →
        reader (u ++ c :: w) = some n) :
      ∃ more, u = d :: more ∧ (reader (more ++ c :: w)).map (fun n => (n + 1, kind)) =
        some (n, value) := by
    obtain ⟨m, inside, same'⟩ := Option.map_eq_some_iff.1 found
    cases same'
    obtain ⟨more, rfl, rfl⟩ := cons_of_append same (by omega)
    exact ⟨more, rfl, by rw [kept inside (Nat.le_of_succ_le_succ short)]; rfl⟩
  have behindTwo {reader : List Char → Option Nat} {rest : List Char} {d e : Char} {kind : Literal}
      (same : u ++ c :: v = d :: e :: rest)
      (found : (reader rest).map (fun n => (n + 2, kind)) = some (n, value))
      (kept : ∀ {u n}, reader (u ++ c :: v) = some n → n ≤ u.length →
        reader (u ++ c :: w) = some n) :
      ∃ more, u = d :: e :: more ∧ (reader (more ++ c :: w)).map (fun n => (n + 2, kind)) =
        some (n, value) := by
    obtain ⟨m, inside, same'⟩ := Option.map_eq_some_iff.1 found
    cases same'
    obtain ⟨more, rfl, rest'⟩ := cons_of_append same (by omega)
    rw [List.length_cons] at short
    obtain ⟨more, rfl, rfl⟩ := cons_of_append rest'.symm (by omega)
    rw [List.length_cons] at short
    exact ⟨more, rfl, by rw [kept inside (by omega)]; rfl⟩
  generalize whole : u ++ c :: v = text at found
  unfold quotes at found
  split at found
  · obtain ⟨more, rfl, same⟩ := behindOne whole found (quotedFrom_edge ends)
    exact same
  · obtain ⟨more, rfl, same⟩ := behindOne whole found (rawQuoted_edge ends)
    exact same
  · obtain ⟨more, rfl, same⟩ := behindTwo whole found (quotedFrom_edge ends)
    exact same
  · obtain ⟨more, rfl, same⟩ := behindTwo whole found (rawQuoted_edge ends)
    exact same
  · obtain ⟨more, rfl, same⟩ := behindTwo whole found (quotedFrom_edge ends)
    exact same
  · obtain ⟨more, rfl, same⟩ := behindTwo whole found (rawQuoted_edge ends)
    exact same
  · obtain ⟨more, rfl, same⟩ := behindTwo whole found (single_edge ends)
    exact same
  · obtain ⟨more, rfl, same⟩ := behindOne whole found (single_edge ends)
    exact same
  · cases found

theorem quotes_of_isDigit {d : Char} (digit : isDigit d = true) (rest : List Char) :
    quotes (d :: rest) = none := by
  have other (e : Char) (not : isDigit e = false) : d ≠ e := by
    rintro rfl
    rw [digit] at not
    cases not
  unfold quotes
  split
  all_goals first
    | rfl
    | next same => exact absurd (List.cons.inj same).1 (other _ rfl)

/-- A number begins with a digit. -/
theorem isDigit_of_number {d : Char} {rest : List Char}
    (found : (fractionLength (d :: rest)).isSome ∨ (wholeLength (d :: rest)).isSome) :
    isDigit d = true := by
  by_contra other
  rw [Bool.not_eq_true] at other
  obtain fraction | whole := found
  · simp [fractionLength, other] at fraction
  · rw [Lexer.wholeLength_eq_none other] at whole
    cases whole

/-- A literal is the same before any text that ends it. -/
theorem read_edge (ends : EndsToken c) {value : Literal}
    (found : read (u ++ c :: v) = some (n, value))
    (short : n ≤ u.length) : read (u ++ c :: w) = some (n, value) := by
  rw [read_eq] at found ⊢
  cases quoted : quotes (u ++ c :: v) with
  | some pair =>
    rw [quoted] at found
    cases found
    rw [quotes_edge ends quoted short]
    rfl
  | none =>
    rw [quoted, Option.elim_none] at found
    have digit : ∃ d more, u = d :: more ∧ isDigit d = true := by
      have number : (fractionLength (u ++ c :: v)).isSome ∨ (wholeLength (u ++ c :: v)).isSome := by
        cases fraction : fractionLength (u ++ c :: v) with
        | some m => exact .inl rfl
        | none =>
          rw [fraction] at found
          obtain ⟨_, whole, -⟩ := Option.map_eq_some_iff.1 found
          exact .inr (by rw [whole]; rfl)
      cases u with
      | nil =>
        have digit := isDigit_of_number number
        rw [ends.digit] at digit
        cases digit
      | cons d more => exact ⟨d, more, rfl, isDigit_of_number number⟩
    have none' : quotes (u ++ c :: w) = none := by
      obtain ⟨d, more, rfl, digit⟩ := digit
      exact quotes_of_isDigit digit _
    rw [none', Option.elim_none]
    cases fraction : fractionLength (u ++ c :: v) with
    | some m =>
      rw [fraction] at found
      cases found
      rw [(fractionLength_edge (w := w) ends fraction).2, Option.elim_some]
      rw [List.take_append_of_le_length short, List.take_append_of_le_length short]
    | none =>
      have none' : fractionLength (u ++ c :: w) = none := by
        cases there : fractionLength (u ++ c :: w) with
        | none => rfl
        | some m =>
          rw [(fractionLength_edge ends there).2] at fraction
          cases fraction
      rw [fraction] at found
      rw [none']
      obtain ⟨⟨m, index⟩, whole, same⟩ := Option.map_eq_some_iff.1 found
      rw [Option.elim_none, (wholeLength_edge (w := w) ends whole).2, Option.map_some, same]

end Waymark.Source.Literal
