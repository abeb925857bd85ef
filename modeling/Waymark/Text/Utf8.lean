/-!
# Reading bytes as UTF-8

A byte sequence is read one character at a time. Where no character can be read, the longest part
that could have begun one is set aside:

* `step`: the next character, a faulty part of one to three bytes, or a beginning that breaks off;
* `check`: the place and length of the first fault of a text, or its characters;
* `lossy`: the text with one replacement character for each faulty part.
-/

namespace Waymark.Text.Utf8

/-- What stands at the beginning of some bytes. -/
inductive Step where
  /-- A character and what follows it. -/
  | char (c : Char) (rest : List UInt8)
  /-- That many bytes which begin no character, and what follows them. -/
  | invalid (length : Nat) (rest : List UInt8)
  /-- A beginning of a character at the very end. -/
  | incomplete
  | done

/-- A byte that continues a character. -/
def isContinuation (b : UInt8) : Bool := 0x80 ≤ b && b ≤ 0xBF

/-- The bytes that may come second, by the first byte of a three-byte character. -/
def secondOfThree (first b : UInt8) : Bool :=
  if first = 0xE0 then 0xA0 ≤ b && b ≤ 0xBF
  else if first = 0xED then 0x80 ≤ b && b ≤ 0x9F
  else isContinuation b

/-- The bytes that may come second, by the first byte of a four-byte character. -/
def secondOfFour (first b : UInt8) : Bool :=
  if first = 0xF0 then 0x90 ≤ b && b ≤ 0xBF
  else if first = 0xF4 then 0x80 ≤ b && b ≤ 0x8F
  else isContinuation b

/-- The payload of a continuation byte. -/
def low (b : UInt8) : Nat := b.toNat % 64

/-- Reads one character. -/
def step : List UInt8 → Step
  | [] => .done
  | a :: rest =>
    if a < 0x80 then .char (Char.ofNat a.toNat) rest
    else if 0xC2 ≤ a && a ≤ 0xDF then
      match rest with
      | [] => .incomplete
      | b :: rest' =>
        if isContinuation b then .char (Char.ofNat (a.toNat % 32 * 64 + low b)) rest'
        else .invalid 1 rest
    else if 0xE0 ≤ a && a ≤ 0xEF then
      match rest with
      | [] => .incomplete
      | b :: rest' =>
        if secondOfThree a b then
          match rest' with
          | [] => .incomplete
          | c :: rest'' =>
            if isContinuation c then
              .char (Char.ofNat (a.toNat % 16 * 4096 + low b * 64 + low c)) rest''
            else .invalid 2 rest'
        else .invalid 1 rest
    else if 0xF0 ≤ a && a ≤ 0xF4 then
      match rest with
      | [] => .incomplete
      | b :: rest' =>
        if secondOfFour a b then
          match rest' with
          | [] => .incomplete
          | c :: rest'' =>
            if isContinuation c then
              match rest'' with
              | [] => .incomplete
              | d :: rest''' =>
                if isContinuation d then
                  .char (Char.ofNat (a.toNat % 8 * 262144 + low b * 4096 + low c * 64 + low d))
                    rest'''
                else .invalid 3 rest''
            else .invalid 2 rest'
        else .invalid 1 rest
    else .invalid 1 rest

/-- The first fault of a byte sequence that is not UTF-8. -/
structure Flaw where
  /-- How many bytes before it are valid. -/
  validUpTo : Nat
  /-- The length of the faulty part; absent where the input only breaks off. -/
  length : Option Nat

/-- The wording of a flaw. -/
def Flaw.message (f : Flaw) : String :=
  match f.length with
  | some n =>
    "invalid utf-8 sequence of " ++ toString n ++ " bytes from index " ++ toString f.validUpTo
  | none => "incomplete utf-8 byte sequence from index " ++ toString f.validUpTo

/-- Reads with a bound on the number of characters, collecting them in reverse. -/
def checkFrom : Nat → Nat → List Char → List UInt8 → Except Flaw (List Char)
  | 0, _, read, _ => .ok read.reverse
  | fuel + 1, offset, read, bytes =>
    match step bytes with
    | .done => .ok read.reverse
    | .incomplete => .error ⟨offset, none⟩
    | .invalid n _ => .error ⟨offset, some n⟩
    | .char c rest => checkFrom fuel (offset + c.utf8Size) (c :: read) rest

/-- The characters of a byte sequence, or its first flaw. -/
def check (bytes : List UInt8) : Except Flaw (List Char) :=
  checkFrom (bytes.length + 1) 0 [] bytes

/-- What stands for a part that is no character. -/
def replacement : Char := '\uFFFD'

/-- Reads with a bound on the number of parts, collecting the text in reverse. -/
def lossyFrom : Nat → List Char → List UInt8 → List Char
  | 0, read, _ => read.reverse
  | fuel + 1, read, bytes =>
    match step bytes with
    | .done => read.reverse
    | .incomplete => (replacement :: read).reverse
    | .invalid _ rest => lossyFrom fuel (replacement :: read) rest
    | .char c rest => lossyFrom fuel (c :: read) rest

/-- The text of a byte sequence, each faulty part replaced. -/
def lossy (bytes : List UInt8) : String :=
  String.ofList (lossyFrom (bytes.length + 1) [] bytes)

/-- The text of a byte sequence that is UTF-8. -/
def decode? (bytes : ByteArray) : Option String := String.fromUTF8? bytes

/-- The text of a byte sequence, or its first flaw. -/
def decode (bytes : ByteArray) : Except Flaw String :=
  match decode? bytes with
  | some s => .ok s
  | none =>
    match check bytes.toList with
    | .ok cs => .ok (String.ofList cs)
    | .error f => .error f

end Waymark.Text.Utf8
