import Waymark.Proofs.Routing.PathIndex.Token

/-!
# Templates in their own names

A template comes with names for its parameters. Normalizing gives every parameter the letter of its
place and keeps the names apart, so that templates which differ only in names spell the same tokens:

* `Spells`: a template spells tokens, with the names of its parameters;
* `normalize_spells`: what is spelled is written out with letters, and the names are found again;
* `normalize_crowded`: there are letters for 25 parameters only.
-/

namespace Waymark.Routing

open Template

/-- A template spells tokens; its parameters have the given names, in order. -/
inductive Spells : List Token → List (List UInt8) → Template → Prop
  | nil : Spells [] [] []
  | literal {ts : List Token} {names : List (List UInt8)} {t : Template} (b : UInt8)
    (more : Spells ts names t) : Spells (.literal b :: ts) names (symbolOf b :: t)
  | parameter {ts : List Token} {names : List (List UInt8)} {t : Template} {name : List UInt8}
    (named : IsPlaceholderName name) (ends : ∀ u ∈ ts.head?, u = .literal slash)
    (more : Spells ts names t) : Spells (.parameter :: ts) (name :: names) (braced name ++ t)
  | wildcard {name : List UInt8} (named : IsPlaceholderName name) :
    Spells [.wildcard name] [] (starred name)

theorem Spells.literals {ts : List Token} {names : List (List UInt8)} {t : Template}
    (spells : Spells ts names t) (bs : List UInt8) :
    Spells (literals bs ++ ts) names (bs.map symbolOf ++ t) := by
  induction bs with
  | nil => exact spells
  | cons b bs ih => exact .literal b ih

theorem Spells.regular {ts : List Token} {names : List (List UInt8)} {t : Template}
    (spells : Spells ts names t) : ∀ {depth : Nat}, depth + names.length ≤ 25 →
    Regular depth ts := by
  induction spells with
  | nil => exact fun _ => .nil
  | literal b _ ih => exact fun enough => .literal b (ih enough)
  | @parameter ts names t name _ ends more ih =>
    intro depth enough
    rw [List.length_cons] at enough
    have behind : Regular (depth + 1) ts := ih (by omega)
    cases behind with
    | nil => exact .parameter (by omega)
    | literal b behind =>
      obtain rfl : b = slash := Token.literal.inj (ends _ rfl)
      exact .component (by omega) behind
    | parameter | component | wildcard => simpa using ends _ rfl
  | wildcard named => exact fun _ => .wildcard named

/-- A parameter is followed by nothing or a slash, where no escape can be taken for another one. -/
theorem keepFirstEscape_spells {ts : List Token} {names : List (List UInt8)} {t : Template}
    (spells : Spells ts names t) (ends : ∀ u ∈ ts.head?, u = .literal slash) (n : Nat) :
    keepFirstEscape n t = t := by
  cases spells with
  | nil => cases n <;> rfl
  | literal b _ =>
    obtain rfl : b = slash := Token.literal.inj (ends _ rfl)
    cases n <;> rfl
  | parameter | wildcard => simpa using ends _ rfl

theorem letterAt_succ (depth : Nat) : letterAt depth + 1 = letterAt (depth + 1) := by
  rw [letterAt, letterAt, ← Nat.add_assoc, UInt8.ofNat_add (0x61 + depth) 1]
  rfl

theorem nextPlaceholder_named {name : List UInt8} (named : IsPlaceholderName name) (bs : List UInt8)
    (t : Template) :
    nextPlaceholder (bs.map symbolOf ++ (braced name ++ t)) =
      .ok (some ⟨bs.map symbolOf, braced name, t⟩) := by
  obtain ⟨written, closed, starless, flat⟩ := named
  obtain ⟨first, rest, rfl⟩ := List.exists_cons_of_ne_nil written
  simp only [List.mem_cons, not_or] at closed starless flat
  exact nextPlaceholder_braced (Ne.symm closed.1) closed.2 starless.2 flat.2
    (fun same => absurd same.symm starless.1) bs t

theorem isWildcard_braced {name : List UInt8} (named : IsPlaceholderName name)
    (before after : Template) : Placeholder.isWildcard ⟨before, braced name, after⟩ = false := by
  obtain ⟨written, -, starless, -⟩ := named
  obtain ⟨first, rest, rfl⟩ := List.exists_cons_of_ne_nil written
  simp only [List.mem_cons, not_or] at starless
  simp [Placeholder.isWildcard, braced, Ne.symm starless.1]

theorem isWildcard_starred (name : List UInt8) (before after : Template) :
    Placeholder.isWildcard ⟨before, starred name, after⟩ = true := by
  simp [Placeholder.isWildcard, starred, braced]

theorem name_braced (name : List UInt8) (before after : Template) :
    Placeholder.name ⟨before, braced name, after⟩ = name := by
  simp [Placeholder.name, bytes, braced, Function.comp_def]

section
variable {ts : List Token} {names : List (List UInt8)} {t : Template}

/-- Normalizing from a parameter on. -/
theorem normalizeFrom_parameter (spells : Spells ts names t) {name : List UInt8}
    (named : IsPlaceholderName name) (ends : ∀ u ∈ ts.head?, u = .literal slash) {depth : Nat}
    (lettered : depth < 25) (fuel : Nat) (done : Template) (found : List (List UInt8))
    (bs : List UInt8) :
    normalizeFrom (fuel + 1) (letterAt depth) done found (bs.map symbolOf ++ (braced name ++ t)) =
      normalizeFrom fuel (letterAt (depth + 1))
        (done ++ bs.map symbolOf ++ Template.lettered (letterAt depth)) (name :: found) t := by
  have letter : letterAt depth ≠ 0x7A := letterAt_ne lettered (by decide)
  simp only [normalizeFrom, nextPlaceholder_named named, isWildcard_braced named,
    Bool.false_eq_true, ↓reduceIte, letter, name_braced, keepFirstEscape_spells spells ends,
    letterAt_succ]

/-- Normalizing from a place on: `bs` are the bytes since the last placeholder. -/
theorem normalizeFrom_spells (spells : Spells ts names t) : ∀ (depth : Nat),
    depth + names.length ≤ 25 → ∀ (fuel : Nat), t.length < fuel →
      ∀ (done : Template) (found : List (List UInt8)) (bs : List UInt8),
      normalizeFrom fuel (letterAt depth) done found (bs.map symbolOf ++ t) =
        .ok (done ++ (bs.map symbolOf ++ render depth ts), found.reverse ++ names) := by
  induction spells with
  | nil =>
    intro depth _ fuel enough done found bs
    obtain ⟨fuel, rfl⟩ := Nat.exists_eq_add_of_lt enough
    simp [normalizeFrom, nextPlaceholder_literals, render]
  | literal b _ ih =>
    intro depth few fuel enough done found bs
    have step := ih depth few fuel (Nat.lt_of_succ_lt enough) done found (bs ++ [b])
    simpa [render] using step
  | @parameter ts names t name named ends more ih =>
    intro depth few fuel enough done found bs
    rw [List.length_cons] at few
    obtain ⟨fuel, rfl⟩ := Nat.exists_eq_add_one.2 (Nat.zero_lt_of_lt enough)
    have short : t.length < fuel := by
      simp [braced] at enough
      omega
    have step := ih (depth + 1) (by omega) fuel short
      (done ++ bs.map symbolOf ++ lettered (letterAt depth)) (name :: found) []
    rw [List.map_nil, List.nil_append] at step
    rw [normalizeFrom_parameter more named ends (by omega), step]
    simp [render]
  | @wildcard name named =>
    intro depth _ fuel enough done found bs
    have two : ∃ rest, fuel = rest + 2 := by
      refine ⟨fuel - 2, ?_⟩
      simp [starred, braced] at enough
      omega
    obtain ⟨fuel, rfl⟩ := two
    have next := nextPlaceholder_wildcard named bs []
    rw [List.append_nil] at next
    have last : nextPlaceholder [] = .ok none := rfl
    simp only [normalizeFrom, next, isWildcard_starred, ↓reduceIte, last]
    simp [render]

/-- What is spelled is written out with letters, and the names are found again. -/
theorem normalize_spells (spells : Spells ts names t) (few : names.length ≤ 25) :
    normalize t = .ok (render 0 ts, names) := by
  have all := normalizeFrom_spells spells 0 (by omega) (t.length + 1) (Nat.lt_succ_self _)
    [] [] []
  simpa [Template.normalize, letterAt] using all

theorem normalizeFrom_crowded (spells : Spells ts names t) : ∀ (depth : Nat), depth ≤ 25 →
    25 < depth + names.length → ∀ (fuel : Nat) (done : Template) (found : List (List UInt8))
      (bs : List UInt8), ∃ e,
      normalizeFrom fuel (letterAt depth) done found (bs.map symbolOf ++ t) = .error e := by
  induction spells with
  | nil =>
    intro depth few many
    simp at many
    omega
  | literal b _ ih =>
    intro depth few many fuel done found bs
    simpa using ih depth few many fuel done found (bs ++ [b])
  | @parameter ts names t name named ends more ih =>
    intro depth few many fuel done found bs
    rw [List.length_cons] at many
    cases fuel with
    | zero => exact ⟨_, rfl⟩
    | succ fuel =>
      by_cases lettered : depth < 25
      · have step := ih (depth + 1) (by omega) (by omega) fuel
          (done ++ bs.map symbolOf ++ Template.lettered (letterAt depth)) (name :: found) []
        rwa [normalizeFrom_parameter more named ends lettered]
      · obtain rfl : depth = 25 := by omega
        have letter : letterAt 25 = 0x7A := by decide
        refine ⟨.tooManyPlaceholders, ?_⟩
        simp only [normalizeFrom, nextPlaceholder_named named, isWildcard_braced named,
          Bool.false_eq_true, ↓reduceIte, letter]
  | wildcard =>
    intro depth few many
    simp at many
    omega

/-- There are letters for 25 parameters only. -/
theorem normalize_crowded (spells : Spells ts names t) (many : 25 < names.length) :
    ∃ e, normalize t = .error e :=
  normalizeFrom_crowded spells 0 (by omega) (by omega) (t.length + 1) [] [] []

end

end Waymark.Routing
