import Waymark.Proofs.Routing.Pattern
import Waymark.Proofs.Routing.PathIndex.Normal
import Waymark.Proofs.Text.Encoding
import Waymark.Routing.Mux

/-!
# Patterns of whole components

A pattern in the documented form is made of components: literals with their braces doubled, `{n}`
for a parameter, and `*` or `{*n}` at the end for a wildcard. The path index reads such a pattern as
tokens:

* `Component`, `Component.text`: the components and how they are written;
* `IsDocumented`: the components of a pattern in the documented form;
* `tokensOf`, `namesOf`: the tokens that the index reads, and the names of the parameters;
* `spells_template`: the template of a pattern spells its tokens.
-/

namespace Waymark.Routing

open Template Waymark.Text
open Waymark.Text.Utf8 (encode)

/-- A component of a pattern. -/
inductive Component where
  | literal (raw : String)
  | parameter (name : String)
  /-- A wildcard, with a name or as a bare `*`. -/
  | wildcard (name : Option String)
deriving DecidableEq

namespace Component

/-- How a component is written in a pattern. -/
def text : Component → String
  | literal raw => escapeLiteral raw
  | parameter name => placeholder name
  | wildcard none => "*"
  | wildcard (some name) => placeholder ("*" ++ name)

/-- The component takes the rest of a path. -/
def isWildcard : Component → Bool
  | wildcard _ => true
  | literal _ | parameter _ => false

/-- A name that can stand between braces. -/
def IsName (name : String) : Prop :=
  name ≠ "" ∧ '{' ∉ name.toList ∧ '}' ∉ name.toList ∧ '*' ∉ name.toList ∧ '/' ∉ name.toList

instance (name : String) : Decidable (IsName name) :=
  inferInstanceAs (Decidable (name ≠ "" ∧ '{' ∉ name.toList ∧ '}' ∉ name.toList ∧
    '*' ∉ name.toList ∧
    '/' ∉ name.toList))

/-- The component reads back as what it is. -/
def IsProper : Component → Prop
  | literal raw => raw ≠ "*" ∧ '/' ∉ raw.toList
  | parameter name => IsName name
  | wildcard name => ∀ n ∈ name, IsName n

instance : (c : Component) → Decidable c.IsProper
  | literal raw => inferInstanceAs (Decidable (raw ≠ "*" ∧ '/' ∉ raw.toList))
  | parameter name => inferInstanceAs (Decidable (IsName name))
  | wildcard none => .isTrue (by simp [IsProper])
  | wildcard (some name) => decidable_of_iff (IsName name) (by simp [IsProper])

/-- The name under which a wildcard is captured. -/
def captureName (name : Option String) : String := name.getD Mux.wildcardName

/-- The tokens of a component, behind its slash. -/
def tokens : Component → List Token
  | literal raw => literals (encode raw.toList)
  | parameter _ => [.parameter]
  | wildcard name => [.wildcard (encode (captureName name).toList)]

end Component

/-- The components of a pattern in the documented form: a wildcard ends the pattern. -/
inductive IsDocumented : List Component → Prop
  | nil : IsDocumented []
  | wildcard {name : Option String} (proper : (Component.wildcard name).IsProper) :
    IsDocumented [.wildcard name]
  | cons {c : Component} {cs : List Component} (proper : c.IsProper) (goesOn : c.isWildcard = false)
    (more : IsDocumented cs) : IsDocumented (c :: cs)

/-- The tokens of components, each behind its slash. -/
def tokensEach (cs : List Component) : List Token :=
  cs.flatMap fun c => .literal slash :: c.tokens

/-- The tokens of a pattern. -/
def tokensOf (cs : List Component) : List Token :=
  if cs = [] then [.literal slash] else tokensEach cs

/-- The names of the parameters, in bytes. -/
def namesOf (cs : List Component) : List (List UInt8) :=
  cs.filterMap fun
    | .parameter name => some (encode name.toList)
    | .literal _ | .wildcard _ => none

/-- The pattern of some components. -/
def patternOf (cs : List Component) : String := slashed (cs.map Component.text)

theorem IsDocumented.proper {cs : List Component} (documented : IsDocumented cs) :
    ∀ c ∈ cs, c.IsProper := by
  induction documented with
  | nil => simp
  | wildcard proper => simpa using proper
  | cons proper _ _ ih => simpa using ⟨proper, ih⟩

/-- How a component is written in the form of the path index. -/
def indexText : Component → String
  | .wildcard name => placeholder ("*" ++ Component.captureName name)
  | c => c.text

theorem toList_escapeLiteral (raw : String) : (escapeLiteral raw).toList =
    raw.toList.flatMap fun c => if c = '{' || c = '}' then [c, c] else [c] := by
  simp [escapeLiteral]

theorem escapeLiteral_eq_star {raw : String} (h : escapeLiteral raw = "*") : raw = "*" := by
  have chars := congrArg String.toList h
  rw [toList_escapeLiteral] at chars
  apply String.toList_inj.1
  cases spelled : raw.toList with
  | nil => simp [spelled] at chars
  | cons c cs =>
    rw [spelled, List.flatMap_cons] at chars
    split at chars
    · simp at chars
    · obtain ⟨rfl, rest⟩ : c = '*' ∧
        (cs.flatMap fun c => if c = '{' || c = '}' then [c, c] else [c]) = []
        := by simpa using chars
      have empty : cs = [] := by
        cases cs with
        | nil => rfl
        | cons d ds =>
          rw [List.flatMap_cons] at rest
          split at rest <;> simp at rest
      rw [empty]
      rfl

theorem slash_not_mem_text {c : Component} (proper : c.IsProper) : '/' ∉ c.text.toList := by
  cases c with
  | literal raw =>
    rw [Component.text, mem_escapeLiteral]
    exact proper.2
  | parameter name => simpa [Component.text, placeholder] using proper.2.2.2.2
  | wildcard name =>
    cases name with
    | none => decide
    | some name => simpa [Component.text, placeholder] using (proper name rfl).2.2.2.2

theorem placeholder_ne_star (name : String) : placeholder name ≠ "*" := by
  intro h
  simpa [placeholder] using congrArg String.toList h

theorem indexText_eq {c : Component} (proper : c.IsProper) :
    (if c.text = "*" then String.ofList ('{' :: '*' :: Mux.wildcardName.toList ++ ['}'])
      else c.text) =
      indexText c := by
  cases c with
  | literal raw =>
    have other : escapeLiteral raw ≠ "*" := fun h => proper.1 (escapeLiteral_eq_star h)
    simp [Component.text, indexText, other]
  | parameter name =>
    simp [Component.text, indexText, placeholder_ne_star]
  | wildcard name =>
    cases name with
    | none => decide
    | some name =>
      simp [Component.text, indexText, placeholder_ne_star, Component.captureName]

/-- Bare wildcards get their name; everything else stays. -/
theorem indexTemplate_patternOf {cs : List Component} (proper : ∀ c ∈ cs, c.IsProper) :
    Mux.indexTemplate (patternOf cs) = slashed (cs.map indexText) := by
  by_cases empty : cs = []
  · subst empty
    decide
  · have written : cs.map Component.text ≠ [] := by simpa using empty
    have flat : ∀ p ∈ (cs.map Component.text).map String.toList, '/' ∉ p := by
      simpa using fun c hc => slash_not_mem_text (proper c hc)
    have named : (cs.map Component.text).map (fun part =>
        if part = "*" then String.ofList ('{' :: '*' :: Mux.wildcardName.toList ++ ['}'])
          else part) =
          cs.map indexText := by
      rw [List.map_map]
      exact List.map_congr_left fun c hc => indexText_eq (proper c hc)
    have same : ((cs.map Component.text).map String.toList).map String.ofList =
        cs.map Component.text := by
      simp [Function.comp_def]
    have goesOn : (cs.map indexText).map String.toList ≠ [] := by simpa using empty
    rw [Mux.indexTemplate, splitString, patternOf, toList_slashed written, split_lead flat,
      List.map_cons, List.map_cons, same, named]
    apply String.toList_inj.1
    rw [toList_slashed (by simpa using empty), ← cons_join goesOn]
    obtain ⟨first, rest, spelled⟩ := List.exists_cons_of_ne_nil goesOn
    simp [joinStrings, spelled, join]

/-- A byte that is no brace stands for itself. -/
theorem ofBytes_cons {b : UInt8} (opened : b ≠ openBrace) (closed : b ≠ closeBrace)
    (rest : List UInt8) :
    ofBytes (b :: rest) = symbolOf b :: ofBytes rest := by
  have plainly : plain b = symbolOf b := by simp [plain, symbolOf, opened, closed]
  cases rest with
  | nil => simp [ofBytes, plainly]
  | cons c rest => simp [ofBytes, opened, closed, plainly]

/-- A doubled brace is a literal one. -/
theorem ofBytes_doubled {b : UInt8} (brace : b = openBrace ∨ b = closeBrace) (rest : List UInt8) :
    ofBytes (b :: b :: rest) = symbolOf b :: ofBytes rest := by
  have escaped : symbolOf b = ⟨b, true⟩ := by simp [symbolOf, brace]
  simp [ofBytes, brace, escaped]

/-- A single brace opens or closes a placeholder. -/
theorem ofBytes_single {b : UInt8} {rest : List UInt8} (single : ∀ c ∈ rest.head?, c ≠ b) :
    ofBytes (b :: rest) = plain b :: ofBytes rest := by
  cases rest with
  | nil => rfl
  | cons c rest =>
    have other : b ≠ c := Ne.symm (single c rfl)
    simp [ofBytes, other]

theorem ofBytes_flat {bs : List UInt8} (opened : openBrace ∉ bs) (closed : closeBrace ∉ bs)
    (rest : List UInt8) : ofBytes (bs ++ rest) = bs.map symbolOf ++ ofBytes rest := by
  induction bs with
  | nil => rfl
  | cons b bs ih =>
    simp only [List.mem_cons, not_or] at opened closed
    rw [List.cons_append, ofBytes_cons (Ne.symm opened.1) (Ne.symm closed.1), ih opened.2 closed.2]
    rfl

theorem openBrace_mem_encode (cs : List Char) : openBrace ∈ encode cs ↔ '{' ∈ cs :=
  Utf8.mem_encode_iff (a := '{') (by decide) cs

theorem closeBrace_mem_encode (cs : List Char) : closeBrace ∈ encode cs ↔ '}' ∈ cs :=
  Utf8.mem_encode_iff (a := '}') (by decide) cs

theorem star_mem_encode (cs : List Char) : star ∈ encode cs ↔ '*' ∈ cs :=
  Utf8.mem_encode_iff (a := '*') (by decide) cs

theorem slash_mem_encode (cs : List Char) : slash ∈ encode cs ↔ '/' ∈ cs :=
  Utf8.mem_encode_iff (a := '/') (by decide) cs

theorem encode_eq_nil_iff {cs : List Char} : encode cs = [] ↔ cs = [] := by
  constructor
  · intro h
    exact Utf8.encode_injective h
  · rintro rfl
    rfl

theorem isPlaceholderName_encode {name : String} (named : Component.IsName name) :
    IsPlaceholderName (encode name.toList) := by
  obtain ⟨written, -, closed, starless, flat⟩ := named
  refine ⟨?_, ?_, ?_, ?_⟩
  · rw [ne_eq, encode_eq_nil_iff, String.toList_eq_nil_iff]
    exact written
  · rwa [closeBrace_mem_encode]
  · rwa [star_mem_encode]
  · rwa [slash_mem_encode]

/-- A literal with its braces doubled is read back as its bytes. -/
theorem ofBytes_escapeLiteral (raw : List Char) (rest : List UInt8) :
    ofBytes (encode (raw.flatMap fun c => if c = '{' || c = '}' then [c, c] else [c]) ++ rest) =
      (encode raw).map symbolOf ++ ofBytes rest := by
  induction raw with
  | nil => rfl
  | cons c raw ih =>
    rw [List.flatMap_cons, Utf8.encode_append, List.append_assoc]
    by_cases brace : c = '{' ∨ c = '}'
    · obtain ⟨b, byte, doubled⟩ : ∃ b, String.utf8EncodeChar c = [b] ∧
        (b = openBrace ∨ b = closeBrace) := by
        obtain rfl | rfl := brace
        · exact ⟨openBrace, by decide, .inl rfl⟩
        · exact ⟨closeBrace, by decide, .inr rfl⟩
      have twice : (if c = '{' || c = '}' then [c, c] else [c]) = [c, c] := by simp [brace]
      rw [twice]
      simp only [Utf8.encode_cons, Utf8.encode_nil, byte, List.append_nil, List.cons_append,
        List.nil_append, ofBytes_doubled doubled, ih, List.map_cons]
    · have once : (if c = '{' || c = '}' then [c, c] else [c]) = [c] := by simp [brace]
      rw [not_or] at brace
      have opened : openBrace ∉ encode [c] := by
        rw [openBrace_mem_encode, List.mem_singleton]
        exact Ne.symm brace.1
      have closed : closeBrace ∉ encode [c] := by
        rw [closeBrace_mem_encode, List.mem_singleton]
        exact Ne.symm brace.2
      rw [once, ofBytes_flat opened closed, ih]
      simp

theorem map_symbolOf_eq {bs : List UInt8} (opened : openBrace ∉ bs) (closed : closeBrace ∉ bs) :
    bs.map symbolOf = bs.map plain := by
  refine List.map_congr_left fun b hb => ?_
  have noOpen : b ≠ openBrace := fun same => opened (same ▸ hb)
  have noClose : b ≠ closeBrace := fun same => closed (same ▸ hb)
  simp [symbolOf, plain, noOpen, noClose]

/-- A name between braces is read back as a placeholder. -/
theorem ofBytes_placeholder {name : List UInt8} (written : name ≠ []) (opened : openBrace ∉ name)
    (closed : closeBrace ∉ name) {rest : List UInt8} (ends : Closed slash rest) :
    ofBytes (openBrace :: (name ++ closeBrace :: rest)) = braced name ++ ofBytes rest := by
  have first : ∀ c ∈ (name ++ closeBrace :: rest).head?, c ≠ openBrace := by
    obtain ⟨b, name, rfl⟩ := List.exists_cons_of_ne_nil written
    rintro c ⟨rfl⟩ same
    exact opened (by simp [same])
  have last : ∀ c ∈ rest.head?, c ≠ closeBrace := by
    intro c hc same
    rw [ends c hc] at same
    exact absurd same (by decide)
  rw [ofBytes_single first, ofBytes_flat opened closed, ofBytes_single last,
    map_symbolOf_eq opened closed]
  simp [braced]

namespace Component

/-- The template of a component in the form of the path index. -/
def template : Component → Template
  | literal raw => (encode raw.toList).map symbolOf
  | parameter name => braced (encode name.toList)
  | wildcard name => starred (encode (captureName name).toList)

theorem isName_captureName {name : Option String} (proper : (wildcard name).IsProper) :
    IsName (captureName name) := by
  cases name with
  | none => decide
  | some name => exact proper name rfl

/-- A component is read back as its template, up to the next slash. -/
theorem ofBytes_indexText {c : Component} (proper : c.IsProper) {rest : List UInt8}
    (ends : Closed slash rest) :
    ofBytes (encode (indexText c).toList ++ rest) = c.template ++ ofBytes rest := by
  have openByte : String.utf8EncodeChar '{' = [openBrace] := by decide
  have closeByte : String.utf8EncodeChar '}' = [closeBrace] := by decide
  have starByte : String.utf8EncodeChar '*' = [star] := by decide
  cases c with
  | literal raw =>
    have spelled : indexText (literal raw) = escapeLiteral raw := rfl
    rw [spelled, toList_escapeLiteral, ofBytes_escapeLiteral, template]
  | parameter name =>
    have spelled : encode (indexText (parameter name)).toList =
        openBrace :: (encode name.toList ++ [closeBrace]) := by
      simp [indexText, text, placeholder, openByte, closeByte]
    have named := isPlaceholderName_encode proper
    have opened : openBrace ∉ encode name.toList := by
      rw [openBrace_mem_encode]
      exact proper.2.1
    rw [spelled, List.cons_append, List.append_assoc]
    exact ofBytes_placeholder named.1 opened named.2.1 ends
  | wildcard name =>
    have spelled : encode (indexText (wildcard name)).toList =
        openBrace :: (star :: encode (captureName name).toList ++ [closeBrace]) := by
      simp [indexText, placeholder, openByte, closeByte, starByte]
    have isName := isName_captureName proper
    have named := isPlaceholderName_encode isName
    have opened : openBrace ∉ star :: encode (captureName name).toList := by
      rw [List.mem_cons, openBrace_mem_encode, not_or]
      exact ⟨by decide, isName.2.1⟩
    have closed : closeBrace ∉ star :: encode (captureName name).toList := by
      rw [List.mem_cons, not_or]
      exact ⟨by decide, named.2.1⟩
    rw [spelled, List.cons_append, List.append_assoc]
    exact ofBytes_placeholder (by simp) opened closed ends

end Component

theorem closed_encode_lead (pieces : List (List Char)) :
    Closed slash (encode (lead '/' pieces)) := by
  cases pieces with
  | nil => exact closed_nil
  | cons => exact closed_cons _

theorem ends_tokensEach (cs : List Component) :
    ∀ u ∈ (tokensEach cs).head?, u = .literal slash := by
  cases cs with
  | nil => simp [tokensEach]
  | cons => simp [tokensEach]

theorem spells_each {cs : List Component} (documented : IsDocumented cs) :
    Spells (tokensEach cs) (namesOf cs)
      (ofBytes (encode (lead '/' (cs.map fun c => (indexText c).toList)))) := by
  have slashFirst {c : Component} (proper : c.IsProper) (pieces : List (List Char)) :
      ofBytes (encode (lead '/' ((indexText c).toList :: pieces))) =
        symbolOf slash :: (c.template ++ ofBytes (encode (lead '/' pieces))) := by
    have byte : String.utf8EncodeChar '/' = [slash] := by decide
    rw [lead_cons, Utf8.encode_cons, Utf8.encode_append, byte, List.cons_append, List.nil_append,
      ofBytes_cons (by decide) (by decide),
      Component.ofBytes_indexText proper (closed_encode_lead _)]
  induction documented with
  | nil => exact .nil
  | @wildcard name proper =>
    have named := isPlaceholderName_encode (Component.isName_captureName proper)
    have spells := Spells.literal slash (.wildcard named)
    rw [List.map_cons, slashFirst proper]
    simpa [tokensEach, Component.tokens, namesOf, Component.template, ofBytes] using spells
  | @cons c cs proper goesOn _ ih =>
    rw [List.map_cons, slashFirst proper]
    cases c with
    | literal raw => exact .literal slash (ih.literals _)
    | parameter name =>
      exact .literal slash (.parameter (isPlaceholderName_encode proper) (ends_tokensEach cs) ih)
    | wildcard name => cases goesOn

/-- The template of a pattern spells its tokens. -/
theorem spells_template {cs : List Component} (documented : IsDocumented cs) :
    Spells (tokensOf cs) (namesOf cs) (ofPattern (Mux.indexTemplate (patternOf cs))) := by
  rw [indexTemplate_patternOf documented.proper, ofPattern, Utf8.toList_toUTF8]
  by_cases empty : cs = []
  · subst empty
    have root : ofBytes (encode (slashed ([].map indexText)).toList) = [symbolOf slash] := by decide
    rw [root]
    exact .literal slash .nil
  · have spells := spells_each documented
    rw [tokensOf, if_neg empty, toList_slashed (by simpa using empty), List.map_map]
    exact spells

end Waymark.Routing
