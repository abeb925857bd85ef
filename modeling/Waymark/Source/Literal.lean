import Waymark.Source.Token
import Waymark.Text.Identifier

/-!
# Literals

Each reader gives the number of characters that a literal at the beginning of a text takes. What
stands between quotes is read by a machine over its characters, so that an escape is a few steps:

* `quoted`: text, bytes and zero-terminated text between double quotes;
* `rawQuoted`: the same between double quotes fenced by `#`, without escapes;
* `single`: one character or byte between single quotes;
* `fractionLength`, `wholeLength`: numbers;
* `read`: whichever of them stands there, and what matters of it.
-/

namespace Waymark.Source.Literal

open Waymark.Text

/-- How many characters an identifier at the beginning takes, without a mark for raw words. -/
def identifier? : List Char → Option Nat
  | [] => none
  | c :: rest =>
    if beginsIdentifier c then some (1 + (rest.takeWhile continuesIdentifier).length) else none

/-- How many characters the suffix of a literal takes. -/
def suffix (text : List Char) : Nat := (identifier? text).getD 0

/-- What stands between the quotes. -/
inductive Flavour where
  | text
  | bytes
  | terminated
deriving DecidableEq

/-- Where the machine stands inside an escape or between characters. -/
inductive State where
  | plain
  /-- Behind a carriage return, which a line feed has to follow. -/
  | lineFeed
  | escape
  | firstHex
  | secondHex (first : Nat)
  | openBrace
  | codePoint (digits value : Nat)
  /-- Behind an escaped line end: blanks are passed over. -/
  | continuation
  | continuationLineFeed
deriving DecidableEq

/-- The value of a hexadecimal digit. -/
def hex? (c : Char) : Option Nat :=
  if '0' ≤ c && c ≤ '9' then some (c.toNat - '0'.toNat)
  else if 'a' ≤ c && c ≤ 'f' then some (c.toNat - 'a'.toNat + 10)
  else if 'A' ≤ c && c ≤ 'F' then some (c.toNat - 'A'.toNat + 10)
  else none

/-- A number is the code of a character. -/
def isCodePoint (n : Nat) : Bool := n < 0xD800 || (0xE000 ≤ n && n < 0x110000)

/-- A character that stands for itself. -/
def isAllowed (flavour : Flavour) (c : Char) : Bool :=
  match flavour with
  | .text => true
  | .bytes => c.toNat < 128
  | .terminated => c ≠ '\x00'

/-- One character that is not the closing quote, between escapes. -/
def plainStep (flavour : Flavour) (c : Char) : Option State :=
  if c = '\\' then some .escape
  else if c = '\r' then some .lineFeed
  else if isAllowed flavour c then some .plain
  else none

/-- One step inside an escape that stands for a character. -/
def escapeStep (flavour : Flavour) : State → Char → Option State
  | .escape, c =>
    if c = 'x' then some .firstHex
    else if c = 'u' then if flavour = .bytes then none else some .openBrace
    else if c = '0' then if flavour = .terminated then none else some .plain
    else if c = 'n' || c = 'r' || c = 't' || c = '\\' || c = '\'' || c = '"' then some .plain
    else none
  | .firstHex, c => (hex? c).bind fun d =>
    if flavour = .text && 8 ≤ d then none else some (.secondHex d)
  | .secondHex first, c => (hex? c).bind fun d =>
    if flavour = .terminated && first = 0 && d = 0 then none else some .plain
  | .openBrace, c => if c = '\x7b' then some (.codePoint 0 0) else none
  | .codePoint digits value, c =>
    if c = '_' && 0 < digits then some (.codePoint digits value)
    else if c = '\x7d' && 0 < digits then
      if isCodePoint value && !(flavour = .terminated && value = 0) then some .plain else none
    else (hex? c).bind fun d =>
      if digits = 6 then none else some (.codePoint (digits + 1) (value * 16 + d))
  | _, _ => none

/-- One step between double quotes, the closing quote apart. -/
def quotedStep (flavour : Flavour) : State → Char → Option State
  | .plain, c => plainStep flavour c
  | .lineFeed, c => if c = '\n' then some .plain else none
  | .escape, c =>
    if c = '\n' then some .continuation
    else if c = '\r' then some .continuationLineFeed
    else escapeStep flavour .escape c
  | .continuationLineFeed, c => if c = '\n' then some .continuation else none
  | .continuation, c =>
    if c = ' ' || c = '\t' || c = '\n' then some .continuation
    else if c = '\r' then some .continuationLineFeed
    else plainStep flavour c
  | s, c => escapeStep flavour s c

/-- How many characters stand from here to behind the closing quote and the suffix. -/
def quotedFrom (flavour : Flavour) : State → List Char → Option Nat
  | _, [] => none
  | s, c :: rest =>
    if c = '"' && (s = .plain || s = .continuation) then some (1 + suffix rest)
    else (quotedStep flavour s c).bind fun next => (quotedFrom flavour next rest).map (· + 1)

/-- The text goes on with that many fence marks. -/
def fenced : Nat → List Char → Bool
  | 0, _ => true
  | n + 1, '#' :: rest => fenced n rest
  | _ + 1, _ => false

/-- How many characters stand from here to behind the closing quote, its fence and the suffix;
`lineFeed` says that a line feed has to come next. -/
def rawFrom (flavour : Flavour) (fence : Nat) : Bool → List Char → Option Nat
  | _, [] => none
  | true, c :: rest => if c = '\n' then (rawFrom flavour fence false rest).map (· + 1) else none
  | false, c :: rest =>
    if c = '"' && fenced fence rest then some (1 + fence + suffix (rest.drop fence))
    else if c = '\r' then (rawFrom flavour fence true rest).map (· + 1)
    else if isAllowed flavour c then (rawFrom flavour fence false rest).map (· + 1)
    else none

/-- What follows the letters of a raw literal: a fence of at most 255 marks, then the quotes. -/
def rawQuoted (flavour : Flavour) (text : List Char) : Option Nat :=
  let fence := (text.takeWhile (· = '#')).length
  match text.drop fence with
  | '"' :: rest =>
    if fence ≤ 255 then (rawFrom flavour fence false rest).map (· + fence + 1) else none
  | _ => none

/-- How many characters stand from inside an escape to behind the closing single quote. -/
def singleEscape (flavour : Flavour) : State → List Char → Option Nat
  | _, [] => none
  | s, c :: rest =>
    if s = .plain then if c = '\'' then some (1 + suffix rest) else none
    else (escapeStep flavour s c).bind fun next => (singleEscape flavour next rest).map (· + 1)

/-- What follows an opening single quote: one character or escape, and the closing quote. -/
def single (flavour : Flavour) : List Char → Option Nat
  | '\\' :: rest => (singleEscape flavour .escape rest).map (· + 1)
  | c :: '\'' :: rest => if isAllowed flavour c then some (2 + suffix rest) else none
  | _ => none

/-- A decimal digit. -/
def isDigit (c : Char) : Bool := '0' ≤ c && c ≤ '9'

/-- The digits behind an exponent mark: the length they take with their sign, when there are any.
A second sign before a digit is refused. -/
def exponent : Bool → Bool → List Char → Option Nat
  | _, valued, [] => if valued then some 0 else none
  | signed, valued, c :: rest =>
    if c = '+' || c = '-' then
      if valued then some 0
      else if signed then none
      else (exponent true valued rest).map (· + 1)
    else if isDigit c then (exponent signed true rest).map (· + 1)
    else if c = '_' then (exponent signed valued rest).map (· + 1)
    else if valued then some 0 else none

/-- The digits of a number with a point or an exponent behind its first digit. -/
def fractionDigits : Bool → List Char → Option Nat
  | pointed, [] => if pointed then some 0 else none
  | pointed, c :: rest =>
    if isDigit c || c = '_' then (fractionDigits pointed rest).map (· + 1)
    else if c = '.' then
      if pointed then some 0
      else match rest with
        | [] => some 1
        | d :: _ =>
          if d = '.' || beginsIdentifier d then none else (fractionDigits true rest).map (· + 1)
    else if c = 'e' || c = 'E' then
      match exponent false false rest with
      | some n => some (n + 1)
      | none => if pointed then some 0 else none
    else if pointed then some 0 else none

/-- The length of a number with its suffix, given the length of its digits. -/
def withSuffix (text : List Char) (digits : Nat) : Option Nat :=
  let rest := text.drop digits
  let n := suffix rest
  match rest.drop n with
  | [] => some (digits + n)
  | c :: _ => if continuesIdentifier c then none else some (digits + n)

/-- The length of a number with a point or an exponent, and of its digits alone. -/
def fractionLength (text : List Char) : Option Nat :=
  match text with
  | c :: rest =>
    if isDigit c then (fractionDigits false rest).bind fun n => withSuffix text (n + 1) else none
  | [] => none

/-- The digits of a whole number in a base: their length and value, when there is one at all. -/
def wholeDigits (base : Nat) : Option Nat → List Char → Option (Nat × Nat)
  | value, [] => value.map (0, ·)
  | value, c :: rest =>
    if c = '_' then
      if value.isNone && base = 10 then none
      else (wholeDigits base value rest).map fun (n, v) => (n + 1, v)
    else match hex? c with
      | none => value.map (0, ·)
      | some d =>
        if d < base then
          (wholeDigits base (some (value.getD 0 * base + d)) rest).map fun (n, v) => (n + 1, v)
        else if isDigit c then none
        else value.map (0, ·)

/-- The length of the digits of a whole number with the mark of its base, and its value. -/
def wholeNumber : List Char → Option (Nat × Nat)
  | '0' :: 'x' :: rest => (wholeDigits 16 none rest).map fun (n, v) => (n + 2, v)
  | '0' :: 'o' :: rest => (wholeDigits 8 none rest).map fun (n, v) => (n + 2, v)
  | '0' :: 'b' :: rest => (wholeDigits 2 none rest).map fun (n, v) => (n + 2, v)
  | digits => wholeDigits 10 none digits

/-- The length of a whole number with its suffix, and the field it can number. -/
def wholeLength (text : List Char) : Option (Nat × Option Nat) :=
  (wholeNumber text).bind fun (digits, value) =>
    (withSuffix text digits).map fun n =>
      (n, if n = digits && value < 0x100000000 then some value else none)

/-- A text is a number of a field and nothing else. -/
def isIndex (text : List Char) : Bool :=
  match wholeLength text with
  | some (n, some _) => n = text.length && (fractionLength text).isNone
  | _ => false

/-- The pieces of a text between points. -/
def pointPieces : List Char → List (List Char)
  | [] => [[]]
  | c :: rest =>
    match pointPieces rest with
    | [] => [[c]]
    | piece :: pieces => if c = '.' then [] :: piece :: pieces else (c :: piece) :: pieces

/-- What matters of a number with a point or an exponent. -/
def ofFraction (text : List Char) : Literal :=
  let trailing := text.getLast? = some '.'
  .fraction ((pointPieces (if trailing then text.dropLast else text)).all isIndex) trailing

/-- The literal that stands for a piece of text that could not be made a token. -/
def faulty : List Char := "(/*ERROR*/)".toList

/-- A literal at the beginning of a text: how many characters it takes and what matters of it. -/
def read (text : List Char) : Option (Nat × Literal) :=
  let quotes : Option (Nat × Literal) :=
    match text with
    | '"' :: rest => (quotedFrom .text .plain rest).map fun n => (n + 1, .text)
    | 'r' :: rest => (rawQuoted .text rest).map fun n => (n + 1, .text)
    | 'b' :: '"' :: rest => (quotedFrom .bytes .plain rest).map fun n => (n + 2, .other)
    | 'b' :: 'r' :: rest => (rawQuoted .bytes rest).map fun n => (n + 2, .other)
    | 'c' :: '"' :: rest => (quotedFrom .terminated .plain rest).map fun n => (n + 2, .other)
    | 'c' :: 'r' :: rest => (rawQuoted .terminated rest).map fun n => (n + 2, .other)
    | 'b' :: '\'' :: rest => (single .bytes rest).map fun n => (n + 2, .other)
    | '\'' :: rest => (single .text rest).map fun n => (n + 1, .other)
    | _ => none
  match quotes with
  | some found => some found
  | none =>
    match fractionLength text with
    | some n => some (n, ofFraction (text.take n))
    | none => (wholeLength text).map fun (n, index) => (n, .whole index)

end Waymark.Source.Literal
