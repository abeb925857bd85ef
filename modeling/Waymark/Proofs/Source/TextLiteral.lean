import Mathlib.Algebra.Group.Nat.Defs
import Waymark.Source.Literal
import Waymark.Text.Quoted

/-!
# The value of a text literal

The machine that finds the end of a text literal also tells what it stands for: each of its steps
adds one character or none.

* `valueFrom`: the characters that a literal stands for, and what follows its closing quote;
* `quotedFrom_eq`: it ends where the literal ends;
* `valueFrom_encode`: a quoted text stands for the text that was quoted.
-/

namespace Waymark.Source.Literal

open Waymark.Text

/-- The character that an escape of one letter stands for. -/
def escaped? (c : Char) : Option Char :=
  if c = 'n' then some '\n'
  else if c = 'r' then some '\r'
  else if c = 't' then some '\t'
  else if c = '0' then some '\x00'
  else if c = '\\' || c = '\'' || c = '"' then some c
  else none

/-- The character that a step of the machine adds to the value of a literal. -/
def emitted? : State → Char → Option Char
  | .plain, c => if c = '\\' || c = '\r' then none else some c
  | .continuation, c =>
    if c = ' ' || c = '\t' || c = '\n' || c = '\\' || c = '\r' then none else some c
  | .lineFeed, c => some c
  | .escape, c => escaped? c
  | .secondHex first, c => (hex? c).map fun d => Char.ofNat (first * 16 + d)
  | .codePoint _ value, c => if c = '\x7d' then some (Char.ofNat value) else none
  | .firstHex, _ | .openBrace, _ | .continuationLineFeed, _ => none

/-- The characters that a literal stands for from here on, and what follows its closing quote. -/
def valueFrom : State → List Char → Option (List Char × List Char)
  | _, [] => none
  | s, c :: rest =>
    if c = '"' && (s = .plain || s = .continuation) then some ([], rest)
    else (quotedStep .text s c).bind fun next =>
      (valueFrom next rest).map fun found => ((emitted? s c).toList ++ found.1, found.2)

theorem valueFrom_suffix {s : State} {text value rest : List Char}
    (h : valueFrom s text = some (value, rest)) : rest <:+ text := by
  induction text generalizing s value with
  | nil => cases h
  | cons c more ih =>
    unfold valueFrom at h
    split at h
    · cases h
      exact List.suffix_cons _ _
    · obtain ⟨next, -, found⟩ := Option.bind_eq_some_iff.1 h
      obtain ⟨⟨behind, left⟩, further, same⟩ := Option.map_eq_some_iff.1 found
      cases same
      exact (ih further).trans (List.suffix_cons _ _)

/-- The value of a literal ends where the literal does, its suffix apart. -/
theorem quotedFrom_eq (s : State) (text : List Char) :
    quotedFrom .text s text =
      (valueFrom s text).map fun found => text.length - found.2.length + suffix found.2 := by
  induction text generalizing s with
  | nil => rfl
  | cons c rest ih =>
    unfold quotedFrom valueFrom
    split
    · simp
    · cases step : quotedStep .text s c with
      | none => rfl
      | some next =>
        simp only [Option.bind_some, ih, Option.map_map]
        cases found : valueFrom next rest with
        | none => rfl
        | some value =>
          have shorter := (valueFrom_suffix found).length_le
          simp only [Option.map_some, Function.comp_apply, List.length_cons, Option.some.injEq]
          omega

theorem hex?_hexDigit {d : Nat} (h : d < 16) : hex? (Quoted.hexDigit d) = some d := by
  revert d
  decide

theorem valueFrom_hexDigit {digit : Nat} (h : digit < 16) {digits : Nat} (room : digits < 6)
    (value : Nat) (rest : List Char) :
    valueFrom (.codePoint digits value) (Quoted.hexDigit digit :: rest) =
      valueFrom (.codePoint (digits + 1) (value * 16 + digit)) rest := by
  have plain : Quoted.hexDigit digit ≠ '"' ∧ Quoted.hexDigit digit ≠ '_' ∧
      Quoted.hexDigit digit ≠ '\x7d' := by
    revert digit
    decide
  have step : quotedStep .text (.codePoint digits value) (Quoted.hexDigit digit) =
      some (.codePoint (digits + 1) (value * 16 + digit)) := by
    simp [quotedStep, escapeStep, plain, hex?_hexDigit h, Nat.ne_of_lt room]
  have silent : emitted? (.codePoint digits value) (Quoted.hexDigit digit) = none := by
    simp [emitted?, plain]
  rw [valueFrom, step, silent]
  simp [plain]

/-- The digits of a number add it to the value of an escape. -/
theorem valueFrom_hexDigits {fuel n : Nat} (small : n < 16 ^ (fuel + 1)) {digits : Nat}
    (room : digits + fuel < 6) (value : Nat) (rest : List Char) :
    ∃ more, 0 < more ∧ more ≤ fuel + 1 ∧
      valueFrom (.codePoint digits value) (Quoted.hexDigits (fuel + 1) n ++ rest) =
        valueFrom (.codePoint (digits + more) (value * 16 ^ more + n)) rest := by
  induction fuel generalizing n rest with
  | zero =>
    have one : n < 16 := by simpa using small
    refine ⟨1, by omega, by omega, ?_⟩
    rw [Quoted.hexDigits, if_pos one, List.singleton_append, valueFrom_hexDigit one (by omega),
      Nat.pow_one]
  | succ fuel ih =>
    rw [Quoted.hexDigits]
    by_cases one : n < 16
    · refine ⟨1, by omega, by omega, ?_⟩
      rw [if_pos one, List.singleton_append, valueFrom_hexDigit one (by omega), Nat.pow_one]
    · have front : n / 16 < 16 ^ (fuel + 1) := by
        rw [Nat.pow_succ] at small
        omega
      obtain ⟨more, some', most, read⟩ :=
        ih front (by omega) (Quoted.hexDigit (n % 16) :: rest)
      refine ⟨more + 1, by omega, by omega, ?_⟩
      have last : n % 16 < 16 := by omega
      have whole : (value * 16 ^ more + n / 16) * 16 + n % 16 = value * 16 ^ (more + 1) + n := by
        rw [Nat.pow_succ, Nat.add_mul, Nat.mul_assoc]
        omega
      rw [if_neg one, List.append_assoc, List.singleton_append, read,
        valueFrom_hexDigit last (by omega), whole, Nat.add_assoc]

theorem valueFrom_byCodePoint (c : Char) (rest : List Char) :
    valueFrom .plain (Quoted.byCodePoint c ++ rest) =
      (valueFrom .plain rest).map fun found => (c :: found.1, found.2) := by
  have bound : c.toNat < 0xD800 ∨ 0xDFFF < c.toNat ∧ c.toNat < 0x110000 := c.valid
  have small : c.toNat < 16 ^ (5 + 1) := by omega
  obtain ⟨more, some', -, read⟩ :=
    valueFrom_hexDigits small (show 0 + 5 < 6 by omega) 0 ('\x7d' :: rest)
  have valid : isCodePoint c.toNat = true := by
    simp only [isCodePoint, Bool.or_eq_true, Bool.and_eq_true, decide_eq_true_eq]
    omega
  have opened : valueFrom .plain (Quoted.byCodePoint c ++ rest) =
      valueFrom (.codePoint 0 0) (Quoted.hexDigits (5 + 1) c.toNat ++ '\x7d' :: rest) := by
    simp [Quoted.byCodePoint, valueFrom, quotedStep, plainStep, escapeStep, emitted?, escaped?,
      Function.comp_def]
  have closed : valueFrom (.codePoint (0 + more) (0 * 16 ^ more + c.toNat)) ('\x7d' :: rest) =
      (valueFrom .plain rest).map fun found => (c :: found.1, found.2) := by
    simp [valueFrom, quotedStep, escapeStep, emitted?, some', valid]
  rw [opened, read, closed]

/-- An escape of one letter adds the character it stands for. -/
theorem valueFrom_escaped {letter c : Char} (stands : escaped? letter = some c)
    (goes : quotedStep .text .escape letter = some .plain) (rest : List Char) :
    valueFrom .plain ('\\' :: letter :: rest) =
      (valueFrom .plain rest).map fun found => (c :: found.1, found.2) := by
  have opened : valueFrom .plain ('\\' :: letter :: rest) = valueFrom .escape (letter :: rest) := by
    rw [valueFrom]
    simp [quotedStep, plainStep, emitted?]
  rw [opened, valueFrom, goes, emitted?, stands]
  simp

/-- A character is read back from the way in which it is written. -/
theorem valueFrom_escape (c : Char) (rest : List Char) :
    valueFrom .plain (Quoted.escape c ++ rest) =
      (valueFrom .plain rest).map fun found => (c :: found.1, found.2) := by
  unfold Quoted.escape
  split
  · next same =>
    subst same
    exact valueFrom_escaped rfl rfl rest
  split
  · next same =>
    subst same
    exact valueFrom_escaped rfl rfl rest
  split
  · next same =>
    subst same
    exact valueFrom_escaped rfl rfl rest
  split
  · next same =>
    subst same
    exact valueFrom_escaped rfl rfl rest
  split
  · next same =>
    subst same
    exact valueFrom_escaped rfl rfl rest
  split
  · next same =>
    subst same
    exact valueFrom_escaped rfl rfl rest
  split
  · exact valueFrom_byCodePoint c rest
  · next nul tab ret feed slash quote shown =>
    rw [List.singleton_append, valueFrom]
    simp [quotedStep, plainStep, isAllowed, emitted?, slash, quote, ret]

/-- A quoted text stands for the text that was quoted. -/
theorem valueFrom_encode (text rest : List Char) :
    valueFrom .plain (text.flatMap Quoted.escape ++ '"' :: rest) = some (text, rest) := by
  induction text with
  | nil => rfl
  | cons c more ih =>
    rw [List.flatMap_cons, List.append_assoc, valueFrom_escape, ih]
    rfl

end Waymark.Source.Literal
