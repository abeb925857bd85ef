import Waymark.Json.Value
import Waymark.Text.Utf8

/-!
# Reading JSON

One value is read from bytes, with white space around it. A fault is told by its kind and by the
line and column reached when it was noticed, counted in bytes; faults noticed by looking ahead count
the byte looked at. Nesting is limited to 127 levels.

* `Fault.message`: the wording of each kind;
* `read`: the value of a byte sequence, or its first fault.
-/

namespace Waymark.Json

/-- Kinds of faults in a JSON text. -/
inductive FaultKind where
  | endInList
  | endInObject
  | endInString
  | endInValue
  | expectedColon
  | expectedListCommaOrEnd
  | expectedObjectCommaOrEnd
  | expectedIdent
  | expectedValue
  | invalidEscape
  | invalidNumber
  | numberOutOfRange
  | invalidCodePoint
  | controlCharacter
  | keyNotString
  | loneSurrogate
  | trailingComma
  | trailingCharacters
  | unexpectedEndOfEscape
  | recursionLimit

/-- The wording of a kind of fault. -/
def FaultKind.text : FaultKind → String
  | endInList => "EOF while parsing a list"
  | endInObject => "EOF while parsing an object"
  | endInString => "EOF while parsing a string"
  | endInValue => "EOF while parsing a value"
  | expectedColon => "expected `:`"
  | expectedListCommaOrEnd => "expected `,` or `]`"
  | expectedObjectCommaOrEnd => "expected `,` or `\x7d`"
  | expectedIdent => "expected ident"
  | expectedValue => "expected value"
  | invalidEscape => "invalid escape"
  | invalidNumber => "invalid number"
  | numberOutOfRange => "number out of range"
  | invalidCodePoint => "invalid unicode code point"
  | controlCharacter => "control character (\\u0000-\\u001F) found while parsing a string"
  | keyNotString => "key must be a string"
  | loneSurrogate => "lone leading surrogate in hex escape"
  | trailingComma => "trailing comma"
  | trailingCharacters => "trailing characters"
  | unexpectedEndOfEscape => "unexpected end of hex escape"
  | recursionLimit => "recursion limit exceeded"

/-- A fault and where it was noticed. -/
structure Fault where
  kind : FaultKind
  line : Nat
  column : Nat

/-- The wording of a fault with its place. -/
def Fault.message (f : Fault) : String :=
  f.kind.text ++ " at line " ++ toString f.line ++ " column " ++ toString f.column

/-- What is left to read, and how many lines and bytes of the line lie behind. -/
structure Cursor where
  rest : List UInt8
  line : Nat
  column : Nat

namespace Cursor

/-- The next byte. -/
def peek (c : Cursor) : Option UInt8 := c.rest.head?

/-- Steps over the next byte. -/
def skip (c : Cursor) : Cursor :=
  match c.rest with
  | [] => c
  | b :: rest => if b = 0x0A then ⟨rest, c.line + 1, 0⟩ else ⟨rest, c.line, c.column + 1⟩

/-- A fault where the cursor stands. -/
def fault {α : Type} (c : Cursor) (kind : FaultKind) : Except Fault α :=
  .error ⟨kind, c.line, c.column⟩

/-- A fault at the byte looked at. -/
def faultAhead {α : Type} (c : Cursor) (kind : FaultKind) : Except Fault α :=
  c.skip.fault kind

/-- Bytes that may stand between tokens. -/
def isBlank (b : UInt8) : Bool := b = 0x20 || b = 0x0A || b = 0x09 || b = 0x0D

/-- Steps over white space, with the bytes left as its measure. -/
def skipBlanks (c : Cursor) : Cursor := go c.rest c
where
  go : List UInt8 → Cursor → Cursor
    | [], c => c
    | b :: rest, c => if isBlank b then go rest c.skip else c

end Cursor

/-- The value of a byte as a decimal digit. -/
def digit? (b : UInt8) : Option Nat :=
  if 0x30 ≤ b && b ≤ 0x39 then some (b.toNat - 0x30) else none

/-- The value of a byte as a digit in base sixteen. -/
def hex? (b : UInt8) : Option Nat :=
  if 0x30 ≤ b && b ≤ 0x39 then some (b.toNat - 0x30)
  else if 0x41 ≤ b && b ≤ 0x46 then some (b.toNat - 0x37)
  else if 0x61 ≤ b && b ≤ 0x66 then some (b.toNat - 0x57)
  else none

/-- The rest of a word whose first letter chose it. -/
def word : List UInt8 → Cursor → Except Fault Cursor
  | [], c => .ok c
  | expected :: more, c =>
    match c.peek with
    | none => c.fault .endInValue
    | some b => if b = expected then word more c.skip else c.skip.fault .expectedIdent

/-- The four digits of an escape. -/
def fourDigits (c : Cursor) : Except Fault (Nat × Cursor) :=
  match c.rest with
  | b₁ :: b₂ :: b₃ :: b₄ :: _ =>
    let after := c.skip.skip.skip.skip
    match hex? b₁, hex? b₂, hex? b₃, hex? b₄ with
    | some x₁, some x₂, some x₃, some x₄ => .ok (((x₁ * 16 + x₂) * 16 + x₃) * 16 + x₄, after)
    | _, _, _, _ => after.fault .invalidEscape
  | rest => (rest.foldl (fun c _ => c.skip) c).fault .endInString

/-- One byte that must be there, inside a pair of escapes. -/
def pairByte (expected : UInt8) (c : Cursor) : Except Fault Cursor :=
  match c.peek with
  | none => c.fault .endInString
  | some b => if b = expected then .ok c.skip else c.skip.fault .unexpectedEndOfEscape

/-- The character of an escape by code, in one part or in two. -/
def codeEscape (c : Cursor) : Except Fault (Char × Cursor) := do
  let (high, c) ← fourDigits c
  if 0xDC00 ≤ high && high ≤ 0xDFFF then c.fault .loneSurrogate
  else if high < 0xD800 || 0xDBFF < high then .ok (Char.ofNat high, c)
  else
    let c ← pairByte 0x5C c
    let c ← pairByte 0x75 c
    let (low, c) ← fourDigits c
    if low < 0xDC00 || 0xDFFF < low then c.fault .loneSurrogate
    else .ok (Char.ofNat ((high - 0xD800) * 0x400 + (low - 0xDC00) + 0x10000), c)

/-- The character behind a backslash. -/
def escaped (c : Cursor) : Except Fault (Char × Cursor) :=
  match c.peek with
  | none => c.fault .endInString
  | some b =>
    let after := c.skip
    if b = 0x22 then .ok ('"', after)
    else if b = 0x5C then .ok ('\\', after)
    else if b = 0x2F then .ok ('/', after)
    else if b = 0x62 then .ok ('\x08', after)
    else if b = 0x66 then .ok ('\x0c', after)
    else if b = 0x6E then .ok ('\n', after)
    else if b = 0x72 then .ok ('\r', after)
    else if b = 0x74 then .ok ('\t', after)
    else if b = 0x75 then codeEscape after
    else after.fault .invalidEscape

/-- The bytes of a string up to its closing quote, where the cursor stays; they are collected in
reverse. -/
def stringBytes : Nat → List UInt8 → Cursor → Except Fault (List UInt8 × Cursor)
  | 0, _, c => c.fault .endInString
  | fuel + 1, read, c =>
    match c.peek with
    | none => c.fault .endInString
    | some b =>
      if b = 0x22 then .ok (read.reverse, c)
      else if b = 0x5C then do
        let (ch, c) ← escaped c.skip
        stringBytes fuel ((String.singleton ch).toUTF8.toList.reverse ++ read) c
      else if b < 0x20 then c.skip.fault .controlCharacter
      else stringBytes fuel (b :: read) c.skip

/-- A string behind its opening quote. -/
def stringRest (c : Cursor) : Except Fault (String × Cursor) := do
  let (bytes, c) ← stringBytes (c.rest.length + 1) [] c
  match Text.Utf8.decode? ⟨bytes.toArray⟩ with
  | some s => .ok (s, c.skip)
  | none => c.fault .invalidCodePoint

/-- A power of ten that a binary fraction can hold. -/
def powerOfTen (n : Nat) : Float := Float.ofScientific 1 false n

/-- The fraction `significand * 10 ^ exponent`, by one multiplication or division of rounded
numbers; very small ones are divided in steps. -/
def fractionOf (c : Cursor) (positive : Bool) (significand : Nat) (exponent : Int) :
    Except Fault Float :=
  let signed (x : Float) : Float := if positive then x else -x
  let f := significand.toUInt64.toFloat
  if exponent.natAbs ≤ 308 then
    if 0 ≤ exponent then
      let x := f * powerOfTen exponent.toNat
      if x.isInf then c.fault .numberOutOfRange else .ok (signed x)
    else .ok (signed (f / powerOfTen (-exponent).toNat))
  else if significand = 0 then .ok (signed 0)
  else if 0 ≤ exponent then c.fault .numberOutOfRange
  else
    let step := f / powerOfTen 308
    if (-exponent).toNat ≤ 616 then .ok (signed (step / powerOfTen ((-exponent).toNat - 308)))
    else .ok (signed 0)

/-- Steps over digits. -/
def skipDigits : List UInt8 → Cursor → Cursor
  | [], c => c
  | b :: rest, c => if (digit? b).isSome then skipDigits rest c.skip else c

/-- The digits of an exponent; an exponent beyond 31 bits gives zero or a number too large. -/
def exponentDigits : List UInt8 → Nat → Cursor → Option Nat × Cursor
  | [], e, c => (some e, c)
  | b :: rest, e, c =>
    match digit? b with
    | none => (some e, c)
    | some d =>
      if 2147483647 < e * 10 + d then (none, c.skip) else exponentDigits rest (e * 10 + d) c.skip

/-- An exponent, standing at its letter. -/
def exponentPart (positive : Bool) (significand : Nat) (start : Int) (c : Cursor) :
    Except Fault (Float × Cursor) :=
  let c := c.skip
  let (up, c) :=
    match c.peek with
    | some b => if b = 0x2B then (true, c.skip) else if b = 0x2D then (false, c.skip) else (true, c)
    | none => (true, c)
  match c.peek with
  | none => c.fault .endInValue
  | some b =>
    match digit? b with
    | none => c.skip.fault .invalidNumber
    | some d =>
      match exponentDigits c.skip.rest d c.skip with
      | (some e, c) => do
        let x ← fractionOf c positive significand (if up then start + e else start - e)
        .ok (x, c)
      | (none, c) =>
        if significand ≠ 0 && up then c.fault .numberOutOfRange
        else .ok (if positive then 0 else -0, skipDigits c.rest c)

/-- Digits behind the point, as long as the significand fits 64 bits; the flag tells whether it
stopped fitting. -/
def pointDigits : List UInt8 → Nat → Nat → Cursor → Bool × Nat × Nat × Cursor
  | [], s, n, c => (true, s, n, c)
  | b :: rest, s, n, c =>
    match digit? b with
    | none => (true, s, n, c)
    | some d =>
      if 0x10000000000000000 ≤ s * 10 + d then (false, s, n, c)
        else pointDigits rest (s * 10 + d) (n + 1) c.skip

/-- An exponent if there is one, else the fraction as it stands. -/
def exponentIfAny (positive : Bool) (significand : Nat) (exponent : Int) (c : Cursor) :
    Except Fault (Float × Cursor) :=
  if c.peek = some 0x65 || c.peek = some 0x45 then exponentPart positive significand exponent c
  else do
    let x ← fractionOf c positive significand exponent
    .ok (x, c)

/-- The part behind a decimal point, standing at the point. -/
def pointPart (positive : Bool) (significand : Nat) (before : Int) (c : Cursor) :
    Except Fault (Float × Cursor) :=
  match pointDigits c.skip.rest significand 0 c.skip with
  | (false, s, n, c) => exponentIfAny positive s (before - n) (skipDigits c.rest c)
  | (true, s, n, c) =>
    if n = 0 then
      match c.peek with
      | some _ => c.faultAhead .invalidNumber
      | none => c.faultAhead .endInValue
    else exponentIfAny positive s (before - n) c

/-- What follows the whole part of a number. -/
def afterWhole (positive : Bool) (significand : Nat) (c : Cursor) :
    Except Fault (Number × Cursor) :=
  if c.peek = some 0x2E then do
    let (x, c) ← pointPart positive significand 0 c
    .ok (.fraction x, c)
  else if c.peek = some 0x65 || c.peek = some 0x45 then do
    let (x, c) ← exponentPart positive significand 0 c
    .ok (.fraction x, c)
  else if positive then .ok (.whole significand, c)
  else if significand = 0 || 0x8000000000000000 < significand then
    .ok (.fraction (-(significand.toUInt64.toFloat)), c)
  else .ok (.whole (-significand), c)

/-- A whole part too long for 64 bits: further digits only count. -/
def longWhole (positive : Bool) (significand : Nat) :
    List UInt8 → Nat → Cursor → Except Fault (Number × Cursor)
  | [], n, c => do
    let x ← fractionOf c positive significand n
    .ok (.fraction x, c)
  | b :: rest, n, c =>
    if (digit? b).isSome then longWhole positive significand rest (n + 1) c.skip
    else if b = 0x2E then do
      let (x, c) ← pointPart positive significand n c
      .ok (.fraction x, c)
    else do
      let (x, c) ← exponentIfAny positive significand n c
      .ok (.fraction x, c)

/-- The digits of a whole part behind the first. -/
def wholeDigits (positive : Bool) : List UInt8 → Nat → Cursor → Except Fault (Number × Cursor)
  | [], s, c => afterWhole positive s c
  | b :: rest, s, c =>
    match digit? b with
    | none => afterWhole positive s c
    | some d =>
      if 0x10000000000000000 ≤ s * 10 + d then longWhole positive s (b :: rest) 0 c
      else wholeDigits positive rest (s * 10 + d) c.skip

/-- A number behind its sign. -/
def numberFrom (positive : Bool) (c : Cursor) : Except Fault (Number × Cursor) :=
  match c.peek with
  | none => c.fault .endInValue
  | some b =>
    match digit? b with
    | none => c.skip.fault .invalidNumber
    | some 0 =>
      match c.skip.peek.bind digit? with
      | some _ => c.skip.faultAhead .invalidNumber
      | none => afterWhole positive 0 c.skip
    | some d => wholeDigits positive c.skip.rest d c.skip

/-- A reader of one value. -/
abbrev ValueReader := Cursor → Except Fault (Json × Cursor)

/-- The items of an array behind its bracket, collected in reverse. -/
def items (value : ValueReader) : Nat → List Json → Cursor → Except Fault (List Json × Cursor)
  | 0, _, c => c.fault .endInList
  | fuel + 1, read, c =>
    let c := c.skipBlanks
    match c.peek with
    | none => c.faultAhead .endInList
    | some b =>
      if b = 0x5D then .ok (read.reverse, c.skip)
      else if read.isEmpty then do
        let (v, c) ← value c
        items value fuel (v :: read) c
      else if b = 0x2C then
        let c := c.skip.skipBlanks
        match c.peek with
        | some 0x5D => c.faultAhead .trailingComma
        | none => c.faultAhead .endInValue
        | some _ => do
          let (v, c) ← value c
          items value fuel (v :: read) c
      else c.faultAhead .expectedListCommaOrEnd

/-- One member of an object, standing where its name must begin. -/
def member (value : ValueReader) (c : Cursor) : Except Fault ((String × Json) × Cursor) :=
  match c.peek with
  | none => c.faultAhead .endInValue
  | some b =>
    if b = 0x22 then do
      let (name, c) ← stringRest c.skip
      let c := c.skipBlanks
      match c.peek with
      | none => c.faultAhead .endInObject
      | some b =>
        if b = 0x3A then do
          let (v, c) ← value c.skip
          .ok ((name, v), c)
        else c.faultAhead .expectedColon
    else if b = 0x7D then c.faultAhead .trailingComma
    else c.faultAhead .keyNotString

/-- The members of an object behind its brace. -/
def members (value : ValueReader) : Nat → Bool → List (String × Json) → Cursor →
    Except Fault (List (String × Json) × Cursor)
  | 0, _, _, c => c.fault .endInObject
  | fuel + 1, first, read, c =>
    let c := c.skipBlanks
    match c.peek with
    | none => c.faultAhead .endInObject
    | some b =>
      if b = 0x7D then .ok (read, c.skip)
      else if b = 0x2C && !first then do
        let ((n, v), c) ← member value c.skip.skipBlanks
        members value fuel false (insertMember n v read) c
      else if first then do
        let ((n, v), c) ← member value c
        members value fuel false (insertMember n v read) c
      else c.faultAhead .expectedObjectCommaOrEnd

/-- A value, its items and members read by `nested` where nesting is still allowed. -/
def valueWith (nested : Option ValueReader) : ValueReader := fun c =>
  let c := c.skipBlanks
  match c.peek with
  | none => c.faultAhead .endInValue
  | some b =>
    if b = 0x6E then do
      let c ← word [0x75, 0x6C, 0x6C] c.skip
      .ok (.null, c)
    else if b = 0x74 then do
      let c ← word [0x72, 0x75, 0x65] c.skip
      .ok (.bool true, c)
    else if b = 0x66 then do
      let c ← word [0x61, 0x6C, 0x73, 0x65] c.skip
      .ok (.bool false, c)
    else if b = 0x2D then do
      let (n, c) ← numberFrom false c.skip
      .ok (.number n, c)
    else if (digit? b).isSome then do
      let (n, c) ← numberFrom true c
      .ok (.number n, c)
    else if b = 0x22 then do
      let (s, c) ← stringRest c.skip
      .ok (.string s, c)
    else if b = 0x5B then
      match nested with
      | none => c.faultAhead .recursionLimit
      | some inner => do
        let (vs, c) ← items inner (c.rest.length + 1) [] c.skip
        .ok (.array vs, c)
    else if b = 0x7B then
      match nested with
      | none => c.faultAhead .recursionLimit
      | some inner => do
        let (ms, c) ← members inner (c.rest.length + 1) true [] c.skip
        .ok (.object ms, c)
    else c.faultAhead .expectedValue

/-- A value with at most that many levels of nesting. -/
def valueAt : Nat → ValueReader
  | 0 => valueWith none
  | depth + 1 => valueWith (some (valueAt depth))

/-- The one value of a byte sequence. -/
def read (bytes : ByteArray) : Except Fault Json := do
  let (v, c) ← valueAt 127 ⟨bytes.toList, 1, 0⟩
  let c := c.skipBlanks
  match c.peek with
  | none => .ok v
  | some _ => c.faultAhead .trailingCharacters

end Waymark.Json
