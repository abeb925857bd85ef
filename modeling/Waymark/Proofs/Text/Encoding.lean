import Mathlib.Data.List.Basic
import Waymark.Disk.Path

/-!
# Texts and their bytes

A text is written by the bytes of its characters, one behind the other:

* `step_encodeChar`: the first character of a text is read back from its bytes, whatever follows;
* `lossy_encode`: nothing is lost of bytes that write a text;
* `encode_injective`: two texts with the same bytes are the same;
* `decode?_eq_some_iff`: the bytes that are a text are those that write one;
* `mem_encode_iff`: an ASCII character stands among the bytes of the texts that hold it;
* `encode_lt`: texts are ordered as their bytes are;
* `Name.display_ofString`: the name of a text is shown as the text.
-/

namespace Waymark.Text.Utf8

/-- The bytes that write some characters. -/
def encode (cs : List Char) : List UInt8 := cs.flatMap String.utf8EncodeChar

@[simp] theorem encode_nil : encode [] = [] := rfl

@[simp] theorem encode_cons (c : Char) (cs : List Char) :
    encode (c :: cs) = String.utf8EncodeChar c ++ encode cs := rfl

@[simp] theorem encode_append (cs ds : List Char) : encode (cs ++ ds) = encode cs ++ encode ds := by
  simp [encode]

theorem byteArray_toList (b : ByteArray) : b.toList = b.data.toList := by
  have loop (i : Nat) (r : List UInt8) :
      ByteArray.toList.loop b i r = r.reverse ++ b.data.toList.drop i := by
    induction i, r using ByteArray.toList.loop.induct b with
    | case1 i r inside ih =>
      have bound : i < b.data.toList.length := by simpa using inside
      rw [ByteArray.toList.loop, if_pos inside, ih, List.drop_eq_getElem_cons bound]
      have same : b.get! i = b.data.toList[i] := by
        rw [Array.getElem_toList]
        exact getElem!_pos b.data i (by simpa using bound)
      simp [same]
    | case2 i r outside =>
      have bound : b.data.toList.length ≤ i := by simpa using outside
      rw [ByteArray.toList.loop, if_neg outside, List.drop_eq_nil_of_le bound, List.append_nil]
  simpa [ByteArray.toList] using loop 0 []

theorem toList_toUTF8 (s : String) : s.toUTF8.toList = encode s.toList := by
  rw [String.toUTF8_eq_toByteArray, byteArray_toList, ← String.utf8Encode_toList, List.utf8Encode,
    List.toList_data_toByteArray, encode]

section
variable {x y z w : UInt8} {a b c d : Nat} (rest : List UInt8)

theorem isContinuation_of_toNat (hy : y.toNat = b + 0x80) (hb : b < 64) :
    isContinuation y = true ∧ low y = b := by
  constructor
  · simp only [isContinuation, UInt8.le_iff_toNat_le, hy, UInt8.reduceToNat, Bool.and_eq_true,
      decide_eq_true_eq]
    omega
  · rw [low, hy]
    omega

theorem step_two (hx : x.toNat = a + 0xC0) (hy : y.toNat = b + 0x80) (lo : 2 ≤ a) (hi : a < 32)
    (hb : b < 64) : step (x :: y :: rest) = .char (Char.ofNat (a * 64 + b)) rest := by
  have notOne : ¬ x < 0x80 := by
    simp only [UInt8.lt_iff_toNat_lt, hx, UInt8.reduceToNat]
    omega
  have two : 0xC2 ≤ x ∧ x ≤ 0xDF := by
    simp only [UInt8.le_iff_toNat_le, hx, UInt8.reduceToNat]
    omega
  obtain ⟨continues, payload⟩ := isContinuation_of_toNat hy hb
  have first : x.toNat % 32 = a := by omega
  simp [step, notOne, two, continues, payload, first]

theorem step_three (hx : x.toNat = a + 0xE0) (hy : y.toNat = b + 0x80) (hz : z.toNat = c + 0x80)
    (ha : a < 16) (hb : b < 64) (hc : c < 64) (long : a = 0 → 32 ≤ b) (plane : a = 13 → b < 32) :
    step (x :: y :: z :: rest) = .char (Char.ofNat (a * 4096 + b * 64 + c)) rest := by
  have notOne : ¬ x < 0x80 := by
    simp only [UInt8.lt_iff_toNat_lt, hx, UInt8.reduceToNat]
    omega
  have notTwo : ¬ (0xC2 ≤ x ∧ x ≤ 0xDF) := by
    simp only [UInt8.le_iff_toNat_le, hx, UInt8.reduceToNat]
    omega
  have three : 0xE0 ≤ x ∧ x ≤ 0xEF := by
    simp only [UInt8.le_iff_toNat_le, hx, UInt8.reduceToNat]
    omega
  have second : secondOfThree x y = true := by
    unfold secondOfThree isContinuation
    simp only [← UInt8.toNat_inj, UInt8.le_iff_toNat_le, hx, hy, UInt8.reduceToNat]
    split
    · simp; omega
    · split
      · simp; omega
      · simp; omega
  obtain ⟨continues, payload⟩ := isContinuation_of_toNat hz hc
  have first : x.toNat % 16 = a := by omega
  simp [step, notOne, notTwo, three, second, continues, payload,
    (isContinuation_of_toNat hy hb).2, first]

theorem step_four (hx : x.toNat = a + 0xF0) (hy : y.toNat = b + 0x80) (hz : z.toNat = c + 0x80)
    (hw : w.toNat = d + 0x80) (ha : a < 5) (hb : b < 64) (hc : c < 64) (hd : d < 64)
    (long : a = 0 → 16 ≤ b) (last : a = 4 → b < 16) :
    step (x :: y :: z :: w :: rest) =
      .char (Char.ofNat (a * 262144 + b * 4096 + c * 64 + d)) rest := by
  have notOne : ¬ x < 0x80 := by
    simp only [UInt8.lt_iff_toNat_lt, hx, UInt8.reduceToNat]
    omega
  have notTwo : ¬ (0xC2 ≤ x ∧ x ≤ 0xDF) := by
    simp only [UInt8.le_iff_toNat_le, hx, UInt8.reduceToNat]
    omega
  have notThree : ¬ (0xE0 ≤ x ∧ x ≤ 0xEF) := by
    simp only [UInt8.le_iff_toNat_le, hx, UInt8.reduceToNat]
    omega
  have four : 0xF0 ≤ x ∧ x ≤ 0xF4 := by
    simp only [UInt8.le_iff_toNat_le, hx, UInt8.reduceToNat]
    omega
  have second : secondOfFour x y = true := by
    unfold secondOfFour isContinuation
    simp only [← UInt8.toNat_inj, UInt8.le_iff_toNat_le, hx, hy, UInt8.reduceToNat]
    split
    · simp; omega
    · split
      · simp; omega
      · simp; omega
  have first : x.toNat % 8 = a := by omega
  simp [step, notOne, notTwo, notThree, four, second, isContinuation_of_toNat hy hb,
    isContinuation_of_toNat hz hc, isContinuation_of_toNat hw hd, first]

end

/-- A character is read back from its bytes, whatever follows them. -/
theorem step_encodeChar (c : Char) (rest : List UInt8) :
    step (String.utf8EncodeChar c ++ rest) = .char c rest := by
  have value : Char.ofNat c.val.toNat = c := Char.ofNat_toNat c
  have valid : c.val.toNat < 0xD800 ∨ 0xDFFF < c.val.toNat ∧ c.val.toNat < 0x110000 := c.valid
  simp only [String.utf8EncodeChar]
  generalize c.val.toNat = v at value valid ⊢
  have byte (n : Nat) (h : n < 256) : (UInt8.ofNat n).toNat = n := by
    simp [UInt8.toNat_ofNat', Nat.mod_eq_of_lt h]
  split
  · next one =>
    have ascii : UInt8.ofNat v < 0x80 := by
      simp only [UInt8.lt_iff_toNat_lt, byte v (by omega), UInt8.reduceToNat]
      omega
    simp [step, ascii, byte v (by omega), value]
  · split
    · next two =>
      have split : v / 64 % 32 * 64 + v % 64 = v := by omega
      rw [List.cons_append, List.cons_append, List.nil_append,
        step_two rest (byte _ (by omega)) (byte _ (by omega)) (by omega) (by omega) (by omega),
        split, value]
    · split
      · next three =>
        have split : v / 4096 % 16 * 4096 + v / 64 % 64 * 64 + v % 64 = v := by omega
        simp only [List.cons_append, List.nil_append]
        rw [step_three rest (byte _ (by omega)) (byte _ (by omega)) (byte _ (by omega)) (by omega)
          (by omega) (by omega) (by omega) (by omega), split, value]
      · have split : v / 262144 % 8 * 262144 + v / 4096 % 64 * 4096 + v / 64 % 64 * 64 + v % 64 =
            v := by
          omega
        simp only [List.cons_append, List.nil_append]
        rw [step_four rest (byte _ (by omega)) (byte _ (by omega)) (byte _ (by omega))
          (byte _ (by omega)) (by omega) (by omega) (by omega) (by omega) (by omega) (by omega),
          split, value]

theorem length_le_encode (cs : List Char) : cs.length ≤ (encode cs).length := by
  induction cs with
  | nil => simp
  | cons c cs ih =>
    have := c.utf8Size_pos
    simp only [encode_cons, List.length_append, String.length_utf8EncodeChar, List.length_cons]
    omega

theorem lossyFrom_encode (fuel : Nat) (read cs : List Char) (h : cs.length < fuel) :
    lossyFrom fuel read (encode cs) = read.reverse ++ cs := by
  induction cs generalizing fuel read with
  | nil =>
    obtain ⟨fuel, rfl⟩ := Nat.exists_eq_succ_of_ne_zero (Nat.ne_of_gt h)
    simp [lossyFrom, step]
  | cons c cs ih =>
    obtain ⟨fuel, rfl⟩ := Nat.exists_eq_succ_of_ne_zero (show fuel ≠ 0 by omega)
    rw [encode_cons, lossyFrom, step_encodeChar]
    simp only [List.length_cons, Nat.succ_lt_succ_iff] at h
    simp [ih fuel (c :: read) h]

/-- Nothing is lost of bytes that write a text. -/
theorem lossy_encode (cs : List Char) : lossy (encode cs) = String.ofList cs := by
  have := length_le_encode cs
  rw [lossy, lossyFrom_encode _ _ _ (by omega)]
  rfl

theorem encode_injective : Function.Injective encode := by
  intro cs ds same
  have texts : String.ofList cs = String.ofList ds := by
    rw [← lossy_encode, ← lossy_encode, same]
  simpa using congrArg String.toList texts

theorem decode?_toUTF8 (s : String) : decode? s.toUTF8 = some s := by
  rw [decode?, String.fromUTF8?, String.toUTF8_eq_toByteArray, dif_pos s.isValidUTF8]
  rfl

theorem toUTF8_of_decode? {b : ByteArray} {s : String} (h : decode? b = some s) : s.toUTF8 = b := by
  unfold decode? String.fromUTF8? at h
  split at h
  · simp only [Option.some.injEq] at h
    rw [← h]
    rfl
  · cases h

/-- The bytes that are a text are those that write one. -/
theorem decode?_eq_some_iff (bytes : List UInt8) (s : String) :
    decode? ⟨bytes.toArray⟩ = some s ↔ bytes = encode s.toList := by
  constructor
  · intro h
    rw [← toList_toUTF8, toUTF8_of_decode? h, byteArray_toList]
  · rintro rfl
    have same : (⟨(encode s.toList).toArray⟩ : ByteArray) = s.toUTF8 := by
      apply ByteArray.ext
      rw [← Array.toList_inj, ← byteArray_toList s.toUTF8, toList_toUTF8]
    rw [same, decode?_toUTF8]

/-- An ASCII character stands among the bytes of no other one. -/
theorem mem_encodeChar_iff {a : Char} (ascii : a.toNat < 0x80) (c : Char) :
    UInt8.ofNat a.toNat ∈ String.utf8EncodeChar c ↔ a = c := by
  have byte (n : Nat) (h : n < 256) : (UInt8.ofNat n).toNat = n := by
    simp [UInt8.toNat_ofNat', Nat.mod_eq_of_lt h]
  have valid : c.val.toNat < 0xD800 ∨ 0xDFFF < c.val.toNat ∧ c.val.toNat < 0x110000 := c.valid
  have same : a = c ↔ a.toNat = c.val.toNat :=
    ⟨fun h => h ▸ rfl, fun h => Char.toNat_inj.mp h⟩
  rw [same]
  simp only [String.utf8EncodeChar]
  generalize c.val.toNat = v at valid ⊢
  generalize a.toNat = u at ascii ⊢
  have pick (n : Nat) (h : n < 256) : UInt8.ofNat u = UInt8.ofNat n ↔ u = n := by
    rw [← UInt8.toNat_inj, byte u (by omega), byte n h]
  split
  · next one => simp only [List.mem_singleton, pick v (by omega)]
  · split
    · simp only [List.mem_cons, List.not_mem_nil, or_false]
      rw [pick _ (by omega), pick _ (by omega)]
      omega
    · split
      · simp only [List.mem_cons, List.not_mem_nil, or_false]
        rw [pick _ (by omega), pick _ (by omega), pick _ (by omega)]
        omega
      · simp only [List.mem_cons, List.not_mem_nil, or_false]
        rw [pick _ (by omega), pick _ (by omega), pick _ (by omega), pick _ (by omega)]
        omega

/-- An ASCII character stands among the bytes of the texts that hold it. -/
theorem mem_encode_iff {a : Char} (ascii : a.toNat < 0x80) (cs : List Char) :
    UInt8.ofNat a.toNat ∈ encode cs ↔ a ∈ cs := by
  simp only [encode, List.mem_flatMap, mem_encodeChar_iff ascii, exists_eq_right']

/-- Bytes that begin with those of a text begin a text that begins with it. -/
theorem exists_of_encode_eq_append {text front : List Char} {rest : List UInt8}
    (h : encode text = encode front ++ rest) : ∃ tail, text = front ++ tail ∧
    rest = encode tail := by
  induction front generalizing text with
  | nil => exact ⟨text, rfl, h.symm⟩
  | cons c front ih =>
    cases text with
    | nil =>
      have written := String.length_utf8EncodeChar c
      have size := c.utf8Size_pos
      have empty := congrArg List.length h
      simp at empty
      omega
    | cons d text =>
      rw [encode_cons, encode_cons, List.append_assoc] at h
      have first : Step.char d (encode text) = Step.char c (encode front ++ rest) := by
        rw [← step_encodeChar, ← step_encodeChar, h]
      obtain ⟨rfl, behind⟩ := Step.char.inj first
      obtain ⟨tail, rfl, rfl⟩ := ih behind
      exact ⟨tail, rfl, rfl⟩

/-- Of two characters the lesser one has the lesser bytes, whatever follows them. -/
theorem encodeChar_append_lt {c d : Char} (less : c < d) (rest more : List UInt8) :
    String.utf8EncodeChar c ++ rest < String.utf8EncodeChar d ++ more := by
  have values : c.val.toNat < d.val.toNat := less
  have valid : d.val.toNat < 0xD800 ∨ 0xDFFF < d.val.toNat ∧ d.val.toNat < 0x110000 := d.valid
  simp only [String.utf8EncodeChar]
  generalize c.val.toNat = v at values ⊢
  generalize d.val.toNat = w at values valid ⊢
  have byte {m n : Nat} (hm : m < 256) (hn : n < 256) : (UInt8.ofNat m < UInt8.ofNat n ↔ m < n) ∧
      (UInt8.ofNat m = UInt8.ofNat n ↔ m = n) := by
    rw [UInt8.lt_iff_toNat_lt, ← UInt8.toNat_inj, UInt8.toNat_ofNat', UInt8.toNat_ofNat',
      Nat.mod_eq_of_lt hm, Nat.mod_eq_of_lt hn]
    exact ⟨Iff.rfl, Iff.rfl⟩
  -- digit by digit: the first that differs decides
  have digit {m n : Nat} (hm : m < 256) (hn : n < 256) (le : m ≤ n) {xs ys : List UInt8}
      (behind : m = n → xs < ys) : UInt8.ofNat m :: xs < UInt8.ofNat n :: ys := by
    rw [List.cons_lt_cons_iff, (byte hm hn).1, (byte hm hn).2]
    obtain first | same := Nat.lt_or_eq_of_le le
    · exact .inl first
    · exact .inr ⟨same, behind same⟩
  repeat' split
  all_goals simp only [List.cons_append, List.nil_append]
  all_goals
    repeat
      first
        | exfalso; omega
        | refine digit (by omega) (by omega) (by omega) fun same => ?_

/-- Texts are ordered as their bytes are. -/
theorem encode_lt {cs ds : List Char} (less : cs < ds) : encode cs < encode ds := by
  induction cs generalizing ds with
  | nil =>
    cases ds with
    | nil => exact absurd less (by simp)
    | cons d rest =>
      obtain ⟨b, bs, first⟩ := List.exists_cons_of_ne_nil (String.utf8EncodeChar_ne_nil (c := d))
      rw [encode_nil, encode_cons, first]
      exact List.nil_lt_cons _ _
  | cons c rest ih =>
    cases ds with
    | nil => exact absurd less (by simp)
    | cons d more =>
      rw [encode_cons, encode_cons]
      obtain first | ⟨rfl, behind⟩ := List.cons_lt_cons_iff.1 less
      · exact encodeChar_append_lt first _ _
      · exact List.append_left_lt (ih behind)

end Waymark.Text.Utf8

namespace Waymark.Disk.Name

open Waymark.Text.Utf8

theorem ofString_eq_encode (s : String) : ofString s = encode s.toList := toList_toUTF8 s

/-- The name of a text is shown as the text. -/
theorem display_ofString (s : String) : (ofString s).display = s := by
  rw [display, ofString_eq_encode, lossy_encode, String.ofList_toList]

theorem ofString_inj {s t : String} : ofString s = ofString t ↔ s = t := by
  refine ⟨fun same => ?_, congrArg ofString⟩
  rw [← display_ofString s, same, display_ofString]

/-- The names of texts are ordered as the texts are. -/
theorem ofString_lt {s t : String} (less : s < t) : ofString s < ofString t := by
  rw [ofString_eq_encode, ofString_eq_encode]
  exact encode_lt (String.lt_iff.1 less)

theorem ofString_ne_nil {s : String} (some' : s ≠ "") : ofString s ≠ [] := by
  intro bare
  have shown := congrArg display bare
  rw [display_ofString] at shown
  exact some' shown

/-- A name that is written without a slash holds no separator. -/
theorem separator_notMem_ofString {s : String} (flat : '/' ∉ s.toList) :
    separator ∉ ofString s := by
  rw [ofString_eq_encode]
  exact fun among => flat ((mem_encode_iff (a := '/') (by decide) _).1 among)

end Waymark.Disk.Name

theorem Waymark.Disk.Path.ofString_eq_encode (s : String) :
    ofString s = ⟨Text.Utf8.encode s.toList⟩ := by
  rw [← Name.ofString_eq_encode]
  rfl
