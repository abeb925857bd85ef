import Waymark.Proofs.Routing.Component

/-!
# Paths and components

A path matches a pattern component by component. This is what the tokens of the pattern say about
the bytes of the path:

* `Matches`: the components of a pattern match those of a path;
* `fits_of_matches`, `matches_of_fits`: the tokens fit the bytes of exactly the paths that match;
* `Fits.unique`: tokens fit a path in one way only.
-/

namespace Waymark.Routing

open Template Waymark.Text
open Waymark.Text.Utf8 (encode)

/-- The components of a pattern match those of a path. `values` is what the parameters take,
`capture` what a wildcard takes, with its name. -/
inductive Matches : List Component → List String → List String → Option (String × String) → Prop
  | nil : Matches [] [] [] none
  | literal {cs : List Component} {parts values : List String} {capture : Option (String × String)}
    (raw : String) (more : Matches cs parts values capture) :
    Matches (.literal raw :: cs) (raw :: parts) values capture
  | parameter {cs : List Component} {parts values : List String}
      {capture : Option (String × String)}
    (name : String) {value : String} (component : IsComponent value)
    (more : Matches cs parts values capture) :
    Matches (.parameter name :: cs) (value :: parts) (value :: values) capture
  | wildcard (name : Option String) {value : String} (written : value ≠ "") :
    Matches [.wildcard name] [value] [] (some (Component.captureName name, value))

/-- A text in bytes. -/
def bytesOf (s : String) : List UInt8 := encode s.toList

/-- A capture in bytes. -/
def captureBytes (capture : String × String) : List UInt8 × List UInt8 :=
  (bytesOf capture.1, bytesOf capture.2)

theorem encode_slash_cons (cs : List Char) : encode ('/' :: cs) = slash :: encode cs := by
  have byte : String.utf8EncodeChar '/' = [slash] := by decide
  rw [Utf8.encode_cons, byte]
  rfl

theorem Matches.nil_iff {cs : List Component} {parts values : List String}
    {capture : Option (String × String)} (h : Matches cs parts values capture) :
    cs = [] ↔ parts = [] := by
  cases h <;> simp

theorem fits_of_matches_each {cs : List Component} {parts values : List String}
    {capture : Option (String × String)} (h : Matches cs parts values capture) :
    Fits (tokensEach cs) (encode (lead '/' (parts.map String.toList))) (values.map bytesOf)
      (capture.toList.map captureBytes) := by
  induction h with
  | nil => exact .nil
  | literal raw _ ih =>
    rw [List.map_cons, lead_cons, encode_slash_cons, Utf8.encode_append]
    exact .literal slash (fits_literals.2 ⟨_, rfl, ih⟩)
  | @parameter _ _ _ _ name value component _ ih =>
    have written : encode value.toList ≠ [] := by
      rw [ne_eq, encode_eq_nil_iff, String.toList_eq_nil_iff]
      exact component.1
    have flat : slash ∉ encode value.toList := by
      rw [slash_mem_encode]
      exact component.2
    rw [List.map_cons, lead_cons, encode_slash_cons, Utf8.encode_append]
    exact .literal slash (.parameter written flat (closed_encode_lead _) ih)
  | @wildcard name value written =>
    have written' : encode value.toList ≠ [] := by
      rw [ne_eq, encode_eq_nil_iff, String.toList_eq_nil_iff]
      exact written
    rw [List.map_cons, lead_cons, encode_slash_cons, Utf8.encode_append, List.map_nil, lead_nil,
      Utf8.encode_nil, List.append_nil]
    exact .literal slash (.wildcard _ written')

/-- The tokens of a pattern fit the bytes of the paths that match. -/
theorem fits_of_matches {cs : List Component} {parts values : List String}
    {capture : Option (String × String)} (h : Matches cs parts values capture) :
    Fits (tokensOf cs) (bytesOf (slashed parts)) (values.map bytesOf)
      (capture.toList.map captureBytes) := by
  by_cases empty : cs = []
  · subst empty
    cases h
    have root : bytesOf (slashed []) = [slash] := by decide
    rw [root]
    exact .literal slash .nil
  · have written : parts ≠ [] := fun none => empty (h.nil_iff.2 none)
    rw [tokensOf, if_neg empty, bytesOf, toList_slashed written]
    exact fits_of_matches_each h

/-- Tokens that begin with the bytes of a text fit the texts that begin with it. -/
theorem fits_text (front : List Char) {ts : List Token} {text : List Char}
    {taken : List (List UInt8)} {rest : List (List UInt8 × List UInt8)}
    (fits : Fits (literals (encode front) ++ ts) (encode text) taken rest) :
    ∃ tail, text = front ++ tail ∧ Fits ts (encode tail) taken rest := by
  obtain ⟨bytes, same, fits⟩ := fits_literals.1 fits
  obtain ⟨tail, rfl, rfl⟩ := Utf8.exists_of_encode_eq_append same
  exact ⟨tail, rfl, fits⟩

theorem fits_slash {ts : List Token} {text : List Char} {taken : List (List UInt8)}
    {rest : List (List UInt8 × List UInt8)}
    (fits : Fits (.literal slash :: ts) (encode text) taken rest) :
    ∃ tail, text = '/' :: tail ∧ Fits ts (encode tail) taken rest := by
  have byte : literals (encode ['/']) = [.literal slash] := by decide
  exact fits_text ['/'] (by rwa [byte])

/-- A parameter takes the characters up to the next slash. -/
theorem fits_value {ts : List Token} {text : List Char} {taken : List (List UInt8)}
    {rest : List (List UInt8 × List UInt8)}
    (fits : Fits (.parameter :: ts) (encode text) taken rest) :
    ∃ value tail more, text = value ++ tail ∧ value ≠ [] ∧ '/' ∉ value ∧
      Fits ts (encode tail) more rest := by
  obtain ⟨value, tail, rfl, flat, closed⟩ := exists_piece '/' text
  have flat' : slash ∉ encode value := by rwa [slash_mem_encode]
  have closed' : Closed slash (encode tail) := by
    cases tail with
    | nil => exact closed_nil
    | cons c tail =>
      obtain rfl : c = '/' := closed c rfl
      rw [encode_slash_cons]
      exact closed_cons _
  rw [Utf8.encode_append] at fits
  have written : encode value ≠ [] := by
    intro empty
    rw [empty, List.nil_append] at fits
    cases tail with
    | nil => exact not_reaches_nil (by simp) ⟨taken, rest, fits⟩
    | cons c tail =>
      obtain rfl : c = '/' := closed c rfl
      rw [encode_slash_cons] at fits
      exact not_fits_parameter fits
  obtain ⟨more, -, fits⟩ := (fits_parameter written flat' closed').1 fits
  exact ⟨value, tail, more, rfl, by simpa [encode_eq_nil_iff] using written, flat, fits⟩

theorem matches_of_fits_each {cs : List Component} (documented : IsDocumented cs) {text : List Char}
    {taken : List (List UInt8)} {rest : List (List UInt8 × List UInt8)}
    (fits : Fits (tokensEach cs) (encode text) taken rest) :
    ∃ parts values capture, text = lead '/' (parts.map String.toList) ∧
      Matches cs parts values capture := by
  induction documented generalizing text taken rest with
  | nil =>
    have empty : encode text = [] := reaches_nil_iff.1 ⟨taken, rest, fits⟩
    exact ⟨[], [], none, encode_eq_nil_iff.1 empty, .nil⟩
  | @wildcard name proper =>
    obtain ⟨tail, rfl, inside⟩ := fits_slash fits
    have written : tail ≠ [] := by
      rintro rfl
      exact not_reaches_nil (by simp [Component.tokens]) ⟨taken, rest, inside⟩
    have value : String.ofList tail ≠ "" := by simpa using written
    exact ⟨[String.ofList tail], [], _, by simp, .wildcard name value⟩
  | @cons c cs proper goesOn _ ih =>
    obtain ⟨tail, rfl, inside⟩ := fits_slash fits
    cases c with
    | literal raw =>
      obtain ⟨tail, rfl, behind⟩ := fits_text raw.toList inside
      obtain ⟨parts, values, capture, rfl, found⟩ := ih behind
      exact ⟨raw :: parts, values, capture, by simp, .literal raw found⟩
    | parameter name =>
      obtain ⟨value, tail, more, rfl, written, flat, behind⟩ := fits_value inside
      obtain ⟨parts, values, capture, rfl, found⟩ := ih behind
      have component : IsComponent (String.ofList value) :=
        ⟨by simpa using written, by simpa using flat⟩
      exact ⟨String.ofList value :: parts, _, capture, by simp, .parameter name component found⟩
    | wildcard name => cases goesOn

/-- A path that the tokens of a pattern fit matches the pattern. -/
theorem matches_of_fits {cs : List Component} (documented : IsDocumented cs) {path : String}
    {taken : List (List UInt8)} {rest : List (List UInt8 × List UInt8)}
    (fits : Fits (tokensOf cs) (bytesOf path) taken rest) :
    ∃ parts values capture, path = slashed parts ∧ Matches cs parts values capture := by
  by_cases empty : cs = []
  · subst empty
    obtain ⟨tail, text, inside⟩ := fits_slash fits
    have none : encode tail = [] := reaches_nil_iff.1 ⟨taken, rest, inside⟩
    rw [encode_eq_nil_iff.1 none] at text
    exact ⟨[], [], Option.none, String.toList_inj.1 text, .nil⟩
  · rw [tokensOf, if_neg empty] at fits
    obtain ⟨parts, values, capture, text, found⟩ := matches_of_fits_each documented fits
    have written : parts ≠ [] := fun none => empty (found.nil_iff.2 none)
    refine ⟨parts, values, capture, String.toList_inj.1 ?_, found⟩
    rw [text, toList_slashed written]

/-- Tokens fit a path in one way only. -/
theorem Fits.unique {ts : List Token} {path : List UInt8} {taken taken' : List (List UInt8)}
    {rest rest' : List (List UInt8 × List UInt8)} (fits : Fits ts path taken rest)
    (other : Fits ts path taken' rest') : taken = taken' ∧ rest = rest' := by
  induction fits generalizing taken' rest' with
  | nil =>
    cases other
    exact ⟨rfl, rfl⟩
  | literal b _ ih =>
    cases other with
    | literal _ other => exact ih other
  | parameter written flat closed _ ih =>
    obtain ⟨more, rfl, behind⟩ := (fits_parameter written flat closed).1 other
    obtain ⟨rfl, rfl⟩ := ih behind
    exact ⟨rfl, rfl⟩
  | wildcard name _ =>
    cases other
    exact ⟨rfl, rfl⟩

end Waymark.Routing
