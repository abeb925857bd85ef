import Waymark.Proofs.Text.Encoding

/-!
# Bytes that need not be a text

Bytes are shown with a mark in place of each part that is no text. A separator is no such mark, and
is shown where its byte stands:

* `step_sound`: what one step reads, and what it leaves;
* `slash_mem_of_lossy`: a separator that is shown is among the bytes;
* `eq_encode_of_signs`: bytes that are shown in signs of ASCII alone are those of the signs;
* `lossy_ne_empty`: of some bytes something is shown.
-/

namespace Waymark.Text.Utf8

/-- A character of ASCII other than the null character. -/
def IsSign (c : Char) : Prop := 0 < c.toNat ∧ c.toNat < 0x80

/-- A sign has the number that it was made of. A number of no character makes the null character,
which is no sign. -/
theorem toNat_of_isSign {n : Nat} (sign : IsSign (Char.ofNat n)) : (Char.ofNat n).toNat = n := by
  by_cases valid : n.isValidChar
  · rw [Char.ofNat, dif_pos valid]
    exact UInt32.toNat_ofNatLT
  · rw [Char.ofNat, dif_neg valid] at sign
    exact absurd sign.1 (by decide)

section
variable {a b : UInt8}

/-- A character of two bytes is no sign. -/
theorem not_isSign_of_two (first : (0xC2 ≤ a && a ≤ 0xDF) = true) (n : Nat) :
    ¬ IsSign (Char.ofNat (a.toNat % 32 * 64 + n)) := by
  intro sign
  have code := toNat_of_isSign sign
  have small := sign.2
  simp only [Bool.and_eq_true, decide_eq_true_eq, UInt8.le_iff_toNat_le, UInt8.reduceToNat] at first
  omega

/-- Nor is one of three bytes; the second byte is large where the first is small. -/
theorem not_isSign_of_three (first : (0xE0 ≤ a && a ≤ 0xEF) = true)
    (second : secondOfThree a b = true)
    (n : Nat) : ¬ IsSign (Char.ofNat (a.toNat % 16 * 4096 + low b * 64 + n)) := by
  intro sign
  have code := toNat_of_isSign sign
  have small := sign.2
  simp only [Bool.and_eq_true, decide_eq_true_eq, UInt8.le_iff_toNat_le, UInt8.reduceToNat] at first
  unfold low at code small
  unfold secondOfThree at second
  split at second
  · simp only [Bool.and_eq_true, decide_eq_true_eq, UInt8.le_iff_toNat_le,
      UInt8.reduceToNat] at second
    omega
  · next other =>
    have other' : a.toNat ≠ 0xE0 := fun same => other (UInt8.toNat_inj.1 same)
    omega

/-- Nor is one of four bytes. -/
theorem not_isSign_of_four (first : (0xF0 ≤ a && a ≤ 0xF4) = true)
    (second : secondOfFour a b = true)
    (n : Nat) : ¬ IsSign (Char.ofNat (a.toNat % 8 * 262144 + low b * 4096 + n)) := by
  intro sign
  have code := toNat_of_isSign sign
  have small := sign.2
  simp only [Bool.and_eq_true, decide_eq_true_eq, UInt8.le_iff_toNat_le, UInt8.reduceToNat] at first
  unfold low at code small
  unfold secondOfFour at second
  split at second
  · simp only [Bool.and_eq_true, decide_eq_true_eq, UInt8.le_iff_toNat_le,
      UInt8.reduceToNat] at second
    omega
  · next other =>
    have other' : a.toNat ≠ 0xF0 := fun same => other (UInt8.toNat_inj.1 same)
    omega

end

/-- A step leaves what is behind it, and reads a sign from the byte of it. -/
def Step.Sound (bytes : List UInt8) : Step → Prop
  | .char c rest => rest <:+ bytes ∧ (IsSign c → bytes = UInt8.ofNat c.toNat :: rest)
  | .invalid _ rest => rest <:+ bytes
  | .incomplete => True
  | .done => bytes = []

theorem step_sound (bytes : List UInt8) : (step bytes).Sound bytes := by
  fun_cases step bytes with
  | case1 => rfl
  | case3 | case6 | case7 | case11 | case12 | case13 => trivial
  | case2 a rest ascii =>
    refine ⟨⟨[a], rfl⟩, fun sign => ?_⟩
    rw [toNat_of_isSign sign, UInt8.ofNat_toNat]
  | case4 a _ first b rest _ =>
    exact ⟨⟨[a, b], rfl⟩, fun sign => absurd sign (not_isSign_of_two first _)⟩
  | case8 a _ _ first b second c rest _ =>
    exact ⟨⟨[a, b, c], rfl⟩, fun sign => absurd sign (not_isSign_of_three first second _)⟩
  | case14 a _ _ _ first b second c _ e rest _ =>
    refine ⟨⟨[a, b, c, e], rfl⟩, fun sign => absurd sign ?_⟩
    rw [Nat.add_assoc]
    exact not_isSign_of_four first second _
  | case5 | case10 | case17 | case18 => exact ⟨[_], rfl⟩
  | case9 | case16 => exact ⟨[_, _], rfl⟩
  | case15 => exact ⟨[_, _, _], rfl⟩

theorem not_isSign_replacement : ¬ IsSign replacement := by
  rintro ⟨-, small⟩
  exact absurd small (by decide)

theorem slash_mem_of_lossyFrom {fuel : Nat} {read : List Char} {bytes : List UInt8}
    (h : '/' ∈ lossyFrom fuel read bytes) : '/' ∈ read ∨ 0x2F ∈ bytes := by
  have mark : '/' ≠ replacement := by decide
  induction fuel generalizing read bytes with
  | zero => exact .inl (List.mem_reverse.1 h)
  | succ fuel ih =>
    have sound := step_sound bytes
    unfold lossyFrom at h
    cases taken : step bytes with
    | done =>
      rw [taken] at h
      exact .inl (List.mem_reverse.1 h)
    | incomplete =>
      rw [taken] at h
      exact .inl (List.mem_of_ne_of_mem mark (List.mem_reverse.1 h))
    | invalid n rest =>
      rw [taken] at h sound
      exact (ih h).imp (List.mem_of_ne_of_mem mark) fun later => sound.subset later
    | char c rest =>
      rw [taken] at h sound
      obtain here | later := ih h
      · obtain rfl | before := List.mem_cons.1 here
        · rw [sound.2 ⟨by decide, by decide⟩]
          exact .inr List.mem_cons_self
        · exact .inl before
      · exact .inr (sound.1.subset later)

/-- A separator that is shown is among the bytes. -/
theorem slash_mem_of_lossy {bytes : List UInt8} (h : '/' ∈ (lossy bytes).toList) :
    0x2F ∈ bytes := by
  rw [lossy, String.toList_ofList] at h
  exact (slash_mem_of_lossyFrom h).resolve_left List.not_mem_nil

theorem encodeChar_of_isSign {c : Char} (sign : IsSign c) :
    String.utf8EncodeChar c = [UInt8.ofNat c.toNat] := by
  have small : c.val.toNat ≤ 127 := Nat.le_of_lt_succ sign.2
  simp only [String.utf8EncodeChar, if_pos small]
  rfl

/-- What is shown of some bytes stands behind what was read before; signs alone are shown of no
other bytes than theirs. -/
theorem lossyFrom_eq_append (fuel : Nat) (read : List Char) (bytes : List UInt8) :
    ∃ shown, lossyFrom fuel read bytes = read.reverse ++ shown ∧
      (bytes.length < fuel → (∀ c ∈ shown, IsSign c) → bytes = encode shown) := by
  induction fuel generalizing read bytes with
  | zero => exact ⟨[], by simp [lossyFrom], fun enough => absurd enough (Nat.not_lt_zero _)⟩
  | succ fuel ih =>
    have sound := step_sound bytes
    unfold lossyFrom
    cases taken : step bytes with
    | done =>
      rw [taken] at sound
      exact ⟨[], by simp, fun _ _ => sound⟩
    | incomplete =>
      refine ⟨[replacement], by simp, fun _ signs => ?_⟩
      exact absurd (signs _ List.mem_cons_self) not_isSign_replacement
    | invalid n rest =>
      obtain ⟨shown, whole, -⟩ := ih (replacement :: read) rest
      refine ⟨replacement :: shown, by simp [whole], fun _ signs => ?_⟩
      exact absurd (signs _ List.mem_cons_self) not_isSign_replacement
    | char c rest =>
      rw [taken] at sound
      obtain ⟨shown, whole, written⟩ := ih (c :: read) rest
      refine ⟨c :: shown, by simp [whole], fun enough signs => ?_⟩
      obtain ⟨sign, others⟩ := List.forall_mem_cons.1 signs
      have first : bytes = UInt8.ofNat c.toNat :: rest := sound.2 sign
      rw [first, List.length_cons] at enough
      rw [first, encode_cons, encodeChar_of_isSign sign, List.singleton_append,
        ← written (Nat.lt_of_succ_lt_succ enough) others]

/-- Bytes that are shown in signs alone are those of the signs. -/
theorem eq_encode_of_signs {bytes : List UInt8} (signs : ∀ c ∈ (lossy bytes).toList, IsSign c) :
    bytes = encode (lossy bytes).toList := by
  obtain ⟨shown, whole, written⟩ := lossyFrom_eq_append (bytes.length + 1) [] bytes
  have text : (lossy bytes).toList = shown := by
    rw [lossy, String.toList_ofList, whole, List.reverse_nil, List.nil_append]
  rw [text] at signs ⊢
  exact written (Nat.lt_succ_self _) signs

/-- Of some bytes something is shown. -/
theorem lossy_ne_empty {bytes : List UInt8} (some' : bytes ≠ []) : lossy bytes ≠ "" := by
  intro empty
  have nothing : (lossy bytes).toList = [] := by rw [empty]; rfl
  have written : bytes = encode (lossy bytes).toList := eq_encode_of_signs (by rw [nothing]; simp)
  rw [nothing] at written
  exact some' written

end Waymark.Text.Utf8
