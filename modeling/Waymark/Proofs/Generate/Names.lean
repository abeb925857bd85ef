import Mathlib.Data.List.Nodup
import Mathlib.Data.List.Perm.Subperm
import Std.Data.String.ToNat
import Waymark.Generate.Plan
import Waymark.Proofs.Generate.SnakeCase
import Waymark.Proofs.Source.Tokens
import Waymark.Proofs.Text.Splitting
import Waymark.Source.Grammar.Ahead

/-!
# Names that are given out

A base is a text of ASCII letters, digits and underscores that no keyword contains. A name for it is
an identifier and no keyword, and it is free: no more candidates are tried than names are given out,
but one of those and one more is free.

* `allocate_not_mem`: a name that is given out was free;
* `Given`: names were given out one after the other;
* `names_ofScan`: the names of a plan are identifiers, and no two are the same;
* `names_ofScan_not_keyword`: and none of them is a keyword.
-/

namespace Waymark.Generate

open Waymark.Routing
open Waymark.Scan
open Waymark.Source (keywords)
open Waymark.Source.Lexer (isNameChar isNameChar_iff isAlpha_iff IsAsciiName)

namespace Names

theorem candidate_injective (base : String) : Function.Injective (candidate base) := by
  intro n m same
  have mark : "_".length = 1 := rfl
  match n, m with
  | 0, 0 => rfl
  | 0, m + 1 =>
    have length := congrArg String.length same
    simp [candidate] at length
    omega
  | n + 1, 0 =>
    have length := congrArg String.length same
    simp [candidate] at length
    omega
  | n + 1, m + 1 =>
    have numbers : toString (n + 2) = toString (m + 2) := by
      simpa [candidate] using same
    have := Nat.repr_inj.1 numbers
    omega

theorem mem_used_of_firstFree {used : List String} {base : String} {more n : Nat}
    (taken : firstFree used base more n ∈ used) (k : Nat) (low : n ≤ k) (high : k ≤ n + more) :
    candidate base k ∈ used := by
  induction more generalizing n with
  | zero =>
    obtain rfl : k = n := by omega
    exact taken
  | succ more ih =>
    unfold firstFree at taken
    split at taken
    · next here =>
      obtain rfl | later := Nat.eq_or_lt_of_le low
      · exact List.contains_iff_mem.1 here
      · exact ih taken later (by omega)
    · next free => exact absurd (List.contains_iff_mem.2 taken) free

/-- A name that is given out was free. -/
theorem allocate_not_mem (names : Names) (base : String) :
    (names.allocate base).1 ∉ names.used := by
  intro taken
  -- else all candidates were taken, and there is one more of them than names are given out
  let tried := (List.range (names.used.length + 1)).map (candidate (identifierOf base))
  have once : tried.Nodup := List.Nodup.map (candidate_injective _) List.nodup_range
  have among : tried ⊆ names.used := by
    intro name tested
    obtain ⟨k, hk, rfl⟩ := List.mem_map.1 tested
    have bound := List.mem_range.1 hk
    exact mem_used_of_firstFree taken k (Nat.zero_le k) (by omega)
  have fewer := (List.subperm_of_subset once among).length_le
  simp only [tried, List.length_map, List.length_range] at fewer
  omega

/-- A name that is given out is a candidate, and none before it was free. -/
theorem allocate_eq_candidate (names : Names) (base : String) :
    ∃ k, (names.allocate base).1 = candidate (identifierOf base) k ∧
      ∀ j < k, candidate (identifierOf base) j ∈ names.used := by
  have general (more n : Nat) :
      ∃ k, firstFree names.used (identifierOf base) more n = candidate (identifierOf base) k ∧
        ∀ j, n ≤ j → j < k → candidate (identifierOf base) j ∈ names.used := by
    induction more generalizing n with
    | zero => exact ⟨n, rfl, fun j low high => by omega⟩
    | succ more ih =>
      unfold firstFree
      split
      · next here =>
        obtain ⟨k, same, before⟩ := ih (n + 1)
        refine ⟨k, same, fun j low high => ?_⟩
        obtain rfl | later := Nat.eq_or_lt_of_le low
        · exact List.contains_iff_mem.1 here
        · exact before j later high
      · exact ⟨n, rfl, fun j low high => by omega⟩
  obtain ⟨k, same, before⟩ := general names.used.length 0
  exact ⟨k, same, fun j => before j (Nat.zero_le j)⟩

end Names

/-- A text that names can be made from. -/
structure IsBase (base : String) : Prop where
  each : ∀ c ∈ base.toList, isNameChar c
  visible : ∃ c ∈ base.toList, c ≠ '_'
  apart : ∀ k ∈ keywords, ¬ base.toList <:+: k.toList

/-- A name that a function can have. -/
structure IsIdentifier (name : String) : Prop where
  ascii : IsAsciiName name.toList
  visible : name ≠ "_"

theorem isNameChar_of_isDigit {c : Char} (h : c.isDigit) : isNameChar c := by
  simp [isNameChar, Char.isAlphanum, h]

theorem isNameChar_underscore : ∀ c ∈ "_".toList, isNameChar c :=
  List.all_iff_forall_prop.1 (by decide)

theorem isNameChar_toString (n : Nat) : ∀ c ∈ (toString n).toList, isNameChar c := by
  intro c hc
  apply isNameChar_of_isDigit
  apply Nat.isDigit_of_mem_toDigits (b := 10) (n := n) (by omega) (by omega)
  simpa [toString, Nat.repr_eq_ofList_toDigits] using hc

/-- A text that a name contains and that makes it an identifier. -/
theorem IsBase.isIdentifier {base : String} (h : IsBase base)
    (first : ∀ c ∈ base.toList.head?, c.isDigit = false) : IsIdentifier base := by
  obtain ⟨each, ⟨c, hc, other⟩, -⟩ := h
  constructor
  · cases chars : base.toList with
    | nil => rw [chars] at hc; cases hc
    | cons d rest =>
      rw [chars] at first each
      exact .intro (first d rfl) each
  · rintro rfl
    exact other (by simpa using hc)

/-- A base is no keyword. -/
theorem IsBase.not_keyword {base : String} (h : IsBase base) : base ∉ keywords :=
  fun key => h.apart base key (List.infix_refl _)

theorem IsBase.append {base ending : String} (h : IsBase base)
    (each : ∀ c ∈ ending.toList, isNameChar c) : IsBase (base ++ ending) where
  each c hc := by
    rw [String.toList_append, List.mem_append] at hc
    exact hc.elim (h.each c) (each c)
  visible := by
    obtain ⟨c, hc, other⟩ := h.visible
    exact ⟨c, by simp [hc], other⟩
  apart k hk inside := by
    rw [String.toList_append] at inside
    exact h.apart k hk ((List.prefix_append _ _).isInfix.trans inside)

/-- A base with characters before it that can stand in a name is one. -/
theorem IsBase.prepend {front base : String} (each : ∀ c ∈ front.toList, isNameChar c)
    (h : IsBase base) :
    IsBase (front ++ base) where
  each c hc := by
    rw [String.toList_append, List.mem_append] at hc
    exact hc.elim (each c) (h.each c)
  visible := by
    obtain ⟨c, hc, other⟩ := h.visible
    exact ⟨c, by simp [hc], other⟩
  apart k hk inside := by
    rw [String.toList_append] at inside
    exact h.apart k hk ((List.suffix_append _ _).isInfix.trans inside)

/-- A name that is given out is an identifier and no keyword. -/
theorem isIdentifier_allocate {base : String} (h : IsBase base) (names : Names) :
    IsIdentifier (names.allocate base).1 ∧ (names.allocate base).1 ∉ keywords := by
  obtain ⟨k, same, -⟩ := names.allocate_eq_candidate base
  have based : IsBase (Names.identifierOf base) ∧
      ∀ c ∈ (Names.identifierOf base).toList.head?, c.isDigit = false := by
    unfold Names.identifierOf
    split
    · next c rest chars =>
      split
      · exact ⟨h.prepend isNameChar_underscore, by simp⟩
      · next first =>
        exact ⟨h, by simpa [chars] using first⟩
    · next chars => exact ⟨h, by simp [chars]⟩
  rw [same]
  cases k with
  | zero => exact ⟨based.1.isIdentifier based.2, based.1.not_keyword⟩
  | succ k =>
    have each : ∀ c ∈ ("_" ++ toString (k + 2)).toList, isNameChar c := by
      intro c hc
      rw [String.toList_append, List.mem_append] at hc
      exact hc.elim (isNameChar_underscore c) (isNameChar_toString _ c)
    have grown := based.1.append each
    rw [← String.append_assoc] at grown
    refine ⟨grown.isIdentifier ?_, grown.not_keyword⟩
    obtain ⟨c, hc, -⟩ := based.1.visible
    have nonempty : (Names.identifierOf base).toList ≠ [] := List.ne_nil_of_mem hc
    rw [String.append_assoc, String.toList_append, List.head?_append_of_ne_nil _ nonempty]
    exact based.2

/-- Names were given out one after the other: they are identifiers and no keywords, and each was
free. -/
structure Given (names : Names) (given : List String) (after : Names) : Prop where
  used : after.used = given.reverse ++ names.used
  once : names.used.Nodup → after.used.Nodup
  identifiers : ∀ n ∈ given, IsIdentifier n
  apart : ∀ n ∈ given, n ∉ keywords

theorem Given.none (names : Names) : Given names [] names := ⟨rfl, id, by simp, by simp⟩

theorem Given.append {a b c : Names} {first more : List String} (before : Given a first b)
    (behind : Given b more c) : Given a (first ++ more) c where
  used := by rw [behind.used, before.used, List.reverse_append, List.append_assoc]
  once h := behind.once (before.once h)
  identifiers n hn := (List.mem_append.1 hn).elim (before.identifiers n) (behind.identifiers n)
  apart n hn := (List.mem_append.1 hn).elim (before.apart n) (behind.apart n)

theorem given_allocate {base : String} (h : IsBase base) (names : Names) :
    Given names [(names.allocate base).1] (names.allocate base).2 where
  used := rfl
  once h := List.nodup_cons.2 ⟨names.allocate_not_mem base, h⟩
  identifiers n hn := by
    rw [List.mem_singleton] at hn
    exact hn ▸ (isIdentifier_allocate h names).1
  apart n hn := by
    rw [List.mem_singleton] at hn
    exact hn ▸ (isIdentifier_allocate h names).2

/-- All characters can stand in a name. -/
def IsStem (s : String) : Prop := ∀ c ∈ s.toList, isNameChar c

/-- The words of a snake case, and the underscores between them, can stand in a name. -/
theorem isStem_snakeCase (raw : String) : IsStem (snakeCase raw) := by
  intro c hc
  obtain ⟨words, same, each⟩ := isSnake_snakeFrom false raw.toList
  rw [snakeCase, String.toList_ofList, same] at hc
  obtain rfl | ⟨word, hw, inside⟩ := Text.mem_of_mem_join hc
  · decide
  · simp [isNameChar, isAlphanum_of_isSmall ((each word hw).2 c inside)]

theorem isStem_joinStems {ifNone : String} {parts : List String} (none : IsStem ifNone)
    (each : ∀ p ∈ parts, IsStem p) : IsStem (joinStems ifNone parts) := by
  unfold joinStems
  split
  · exact none
  · intro c hc
    rw [Text.joinStrings, String.toList_ofList] at hc
    obtain rfl | ⟨piece, hp, inside⟩ := Text.mem_of_mem_join hc
    · decide
    · obtain ⟨p, kept, rfl⟩ := List.mem_map.1 hp
      exact each p (List.mem_filter.1 kept).1 c inside

theorem isStem_partStem (part : String) : IsStem (partStem part) := by
  unfold partStem
  split
  · exact List.all_iff_forall_prop.1 (by decide)
  · split <;> exact isStem_snakeCase _

theorem isStem_patternStem (pattern : String) : IsStem (patternStem pattern) := by
  apply isStem_joinStems
  · exact List.all_iff_forall_prop.1 (by decide)
  · intro p hp
    obtain ⟨part, -, rfl⟩ := List.mem_map.1 hp
    exact isStem_partStem part

theorem isStem_segmentStem (s : Segment) : IsStem (segmentStem s) := by
  have catchall : IsStem "catchall" :=
    List.all_iff_forall_prop.1 (by decide)
  unfold segmentStem
  split
  · intro c hc
    rw [String.toList_append, List.mem_append] at hc
    obtain word | name := hc
    · exact List.all_eq_true.1 (show "group_".toList.all isNameChar from by decide) c word
    · exact isStem_snakeCase _ c name
  · exact catchall
  · exact catchall
  · exact isStem_snakeCase _
  · exact isStem_snakeCase _

theorem isStem_scopeStem (chain : List Segment) : IsStem (scopeStem chain) := by
  apply isStem_joinStems
  · exact List.all_iff_forall_prop.1 (by decide)
  · intro p hp
    obtain ⟨s, -, rfl⟩ := List.mem_map.1 hp
    exact isStem_segmentStem s

/-- A stem with a word behind it is a base. -/
theorem IsStem.isBase {stem ending : String} (h : IsStem stem) (word : IsBase ending) :
    IsBase (stem ++ ending) :=
  word.prepend h

theorem given_nameFiles {ending : String} (word : IsBase ending) (names : Names)
    (files : List FunctionFile) :
    Given names ((nameFiles ending names files).1.map Prod.snd)
      (nameFiles ending names files).2 := by
  induction files generalizing names with
  | nil => exact .none names
  | cons f rest ih =>
    exact (given_allocate ((isStem_scopeStem f.file.segments).isBase word) names).append (ih _)

/-- The names of the functions that a registration emits. -/
def Registration.names : Registration → List String
  | handler _ _ name => [name]
  | page _ name loader _ => name :: (loader.map Prod.snd).toList

/-- The names of all functions of a plan. -/
def Plan.names (plan : Plan) : List String :=
  plan.routes.flatMap Registration.names ++ plan.middlewares.map Prod.snd
    ++ plan.layouts.map Prod.snd ++ (plan.proxy.map Prod.snd).toList

theorem isBase_word : ∀ w ∈ ["_page", "_load", "_middleware", "_layout", "proxy"], IsBase w := by
  have named : ∀ w ∈ ["_page", "_load", "_middleware", "_layout", "proxy"],
      w.toList.all isNameChar ∧ w.toList.any (· ≠ '_') ∧
        ∀ k ∈ keywords, ¬ w.toList <:+: k.toList := by decide +kernel
  intro w hw
  obtain ⟨each, visible, apart⟩ := named w hw
  exact ⟨List.all_eq_true.1 each, List.any_iff_exists_prop.1 visible, apart⟩

theorem isBase_handlerName (m : Http.Method) : IsBase ("_" ++ m.handlerName) := by
  cases m <;> exact ⟨List.all_eq_true.1 (by decide), List.any_iff_exists_prop.1 (by decide),
    by decide +kernel⟩

theorem given_register (scan : AppScan) (names : Names) (e : Entry) :
    Given names ((register scan names e).1.toList.flatMap Registration.names)
      (register scan names e).2 := by
  cases e with
  | handler file h =>
    have base := (isStem_patternStem file.pattern).isBase (isBase_handlerName h.method)
    rw [← String.append_assoc] at base
    exact given_allocate base names
  | page entry =>
    have stem := isStem_patternStem entry.file.pattern
    have first := given_allocate (stem.isBase (isBase_word "_page" (by simp))) names
    cases there : scan.pageAt? entry.file.path with
    | none =>
      simp only [register, there]
      exact .none names
    | some page =>
      cases load : scan.loaderFor? page.file with
      | none =>
        simp only [register, there, load]
        exact first
      | some loader =>
        simp only [register, there, load]
        have both := first.append (given_allocate (stem.isBase (isBase_word "_load" (by simp)))
          (names.allocate (patternStem entry.file.pattern ++ "_page")).2)
        simpa [Registration.names] using both

theorem given_registerAll (scan : AppScan) (names : Names) (es : List Entry) :
    Given names ((registerAll scan names es).1.flatMap Registration.names)
      (registerAll scan names es).2 := by
  induction es generalizing names with
  | nil => exact .none names
  | cons e rest ih =>
    rw [registerAll, List.flatMap_append]
    exact (given_register scan names e).append (ih _)

theorem Given.nodup {given : List String} {after : Names} (h : Given .empty given after) :
    given.Nodup := by
  have once := h.once List.nodup_nil
  rw [h.used, Names.empty, List.append_nil] at once
  exact List.nodup_reverse.1 once

/-- The names of a plan were given out one after the other. -/
theorem given_ofScan (scan : AppScan) : ∃ after, Given .empty (Plan.ofScan scan).names after := by
  have routes := given_registerAll scan .empty scan.entries
  have middlewares := given_nameFiles (isBase_word "_middleware" (by simp))
    (registerAll scan .empty scan.entries).2 (byScope scan.middlewares)
  have layouts := given_nameFiles (isBase_word "_layout" (by simp))
    (nameFiles "_middleware" (registerAll scan .empty scan.entries).2 (byScope scan.middlewares)).2
    (byScope scan.layouts)
  have before := (routes.append middlewares).append layouts
  cases proxy : scan.proxy with
  | none =>
    rw [Plan.names, Plan.ofScan, proxy]
    exact ⟨_, by simpa using before⟩
  | some p =>
    have all := before.append (given_allocate (isBase_word "proxy" (by simp)) _)
    rw [Plan.names, Plan.ofScan, proxy]
    exact ⟨_, all⟩

/-- The names of a plan are identifiers, and no two are the same. -/
theorem names_ofScan (scan : AppScan) :
    (Plan.ofScan scan).names.Nodup ∧ ∀ n ∈ (Plan.ofScan scan).names, IsIdentifier n := by
  obtain ⟨after, given⟩ := given_ofScan scan
  exact ⟨given.nodup, given.identifiers⟩

/-- No name of a plan is a keyword. -/
theorem names_ofScan_not_keyword (scan : AppScan) :
    ∀ n ∈ (Plan.ofScan scan).names, n ∉ keywords := by
  obtain ⟨after, given⟩ := given_ofScan scan
  exact given.apart

end Waymark.Generate
