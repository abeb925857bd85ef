import Mathlib.Data.List.Nodup
import Waymark.Proofs.Text.Splitting
import Waymark.Routing.PathIndex.Insert

/-!
# Tokens of templates

A template with lettered placeholders is a list of tokens written out: bytes that stand for
themselves, parameters and a wildcard.

* `Regular`: parameters end at a slash, a wildcard is last, and there are letters enough;
* `nextPlaceholder_parameter`, `nextPlaceholder_wildcard`: what is written out is read back;
* `Fits`: the tokens match a path, with what the placeholders take;
* `Clash`: two templates that cannot stand in one index.
-/

namespace Waymark.Routing

open Template

/-- The symbol of a byte that stands for itself. -/
def symbolOf (b : UInt8) : Symbol := ⟨b, b = openBrace || b = closeBrace⟩

@[simp] theorem symbolOf_byte (b : UInt8) : (symbolOf b).byte = b := rfl

@[simp] theorem map_byte_map_symbolOf (bs : List UInt8) :
    (bs.map symbolOf).map Symbol.byte = bs := by
  simp [Function.comp_def]

@[simp] theorem opens_symbolOf (b : UInt8) : opens (symbolOf b) = false := by
  by_cases h : b = openBrace <;> simp [opens, symbolOf, h]

@[simp] theorem closes_symbolOf (b : UInt8) : closes (symbolOf b) = false := by
  by_cases h : b = closeBrace <;> simp [closes, symbolOf, h]

theorem symbolOf_injective : Function.Injective symbolOf := fun _ _ h => congrArg Symbol.byte h

@[simp] theorem plain_byte (b : UInt8) : (plain b).byte = b := rfl

@[simp] theorem plain_escaped (b : UInt8) : (plain b).escaped = false := rfl

/-- A part of a template. -/
inductive Token where
  | literal (b : UInt8)
  | parameter
  | wildcard (name : List UInt8)
deriving DecidableEq

/-- The token takes part of a path that it does not spell out. -/
def Token.isHole : Token → Bool
  | literal _ => false
  | parameter | wildcard _ => true

/-- The letter that a parameter gets behind others. -/
def letterAt (depth : Nat) : UInt8 := UInt8.ofNat (0x61 + depth)

/-- A name between its braces. -/
def braced (name : List UInt8) : Template :=
  plain openBrace :: (name.map plain ++ [plain closeBrace])

/-- A wildcard with its braces. -/
def starred (name : List UInt8) : Template := braced (star :: name)

/-- Tokens written out, where `depth` parameters stand in front. -/
def render (depth : Nat) : List Token → Template
  | [] => []
  | .literal b :: rest => symbolOf b :: render depth rest
  | .parameter :: rest => lettered (letterAt depth) ++ render (depth + 1) rest
  | .wildcard name :: rest => starred name ++ render depth rest

/-- A name that can stand between braces. -/
def IsPlaceholderName (name : List UInt8) : Prop :=
  name ≠ [] ∧ closeBrace ∉ name ∧ star ∉ name ∧ slash ∉ name

/-- Bytes as tokens that stand for themselves. -/
abbrev literals (bs : List UInt8) : List Token := bs.map Token.literal

/-- Tokens that can be written out behind some parameters: a parameter ends its component, a
wildcard is the last token. -/
inductive Regular : Nat → List Token → Prop
  | nil {depth : Nat} : Regular depth []
  | literal {depth : Nat} {rest : List Token} (b : UInt8) (more : Regular depth rest) :
    Regular depth (.literal b :: rest)
  | parameter {depth : Nat} (lettered : depth < 25) : Regular depth [.parameter]
  | component {depth : Nat} {rest : List Token} (lettered : depth < 25)
    (more : Regular (depth + 1) rest) : Regular depth (.parameter :: .literal slash :: rest)
  | wildcard {depth : Nat} {name : List UInt8} (named : IsPlaceholderName name) :
    Regular depth [.wildcard name]

@[simp] theorem render_literals (depth : Nat) (bs : List UInt8) (rest : List Token) :
    render depth (literals bs ++ rest) = bs.map symbolOf ++ render depth rest := by
  induction bs with
  | nil => rfl
  | cons b bs ih => simp [render, ih]

theorem Regular.of_literals {depth : Nat} {bs : List UInt8} {rest : List Token}
    (h : Regular depth (literals bs ++ rest)) : Regular depth rest := by
  induction bs with
  | nil => exact h
  | cons b bs ih =>
    cases h with
    | literal _ more => exact ih more

theorem nextPlaceholderFrom_literals (passed : Template) (bs : List UInt8) (t : Template) :
    nextPlaceholderFrom passed (bs.map symbolOf ++ t) =
      nextPlaceholderFrom ((bs.map symbolOf).reverse ++ passed) t := by
  induction bs generalizing passed with
  | nil => rfl
  | cons b bs ih => simp [nextPlaceholderFrom, ih]

theorem nextPlaceholder_literals (bs : List UInt8) :
    nextPlaceholder (bs.map symbolOf) = .ok none := by
  have h := nextPlaceholderFrom_literals [] bs []
  rw [List.append_nil] at h
  rw [nextPlaceholder, h]
  rfl

theorem closeName_plain (before read : Template) {name : List UInt8} (closed : closeBrace ∉ name)
    (starless : star ∉ name) (flat : slash ∉ name) (t : Template) :
    closeName before read (name.map plain ++ t) =
      closeName before ((name.map plain).reverse ++ read) t := by
  induction name generalizing read with
  | nil => rfl
  | cons b name ih =>
    simp only [List.mem_cons, not_or] at closed starless flat
    have step := ih (plain b :: read) closed.2 starless.2 flat.2
    simp [closeName, plain, Ne.symm closed.1, Ne.symm starless.1, Ne.symm flat.1] at step ⊢
    exact step

theorem letterAt_toNat {depth : Nat} (h : depth < 25) : (letterAt depth).toNat = 0x61 + depth := by
  rw [letterAt, UInt8.toNat_ofNat']
  omega

theorem letterAt_ne {depth : Nat} (h : depth < 25) {b : UInt8}
    (low : b.toNat < 0x61 ∨ 0x79 < b.toNat) :
    letterAt depth ≠ b := by
  intro same
  have := letterAt_toNat h
  rw [same] at this
  omega

/-- The first placeholder of a template is the one that was written out. -/
theorem nextPlaceholder_braced {first : UInt8} {rest : List UInt8} (opened : first ≠ closeBrace)
    (closed : closeBrace ∉ rest) (starless : star ∉ rest) (flat : slash ∉ rest)
    (written : first = star → rest ≠ []) (bs : List UInt8) (t : Template) :
    nextPlaceholder (bs.map symbolOf ++ (braced (first :: rest) ++ t)) =
      .ok (some ⟨bs.map symbolOf, braced (first :: rest), t⟩) := by
  let read := (rest.map plain).reverse ++ [plain first, plain openBrace]
  have last : read.head?.map Symbol.byte ≠ some star := by
    obtain rfl | ⟨front, b, rfl⟩ := List.eq_nil_or_concat' rest
    · simpa [read] using fun same => written same rfl
    · have other : b ≠ star := fun same => starless (by simp [same])
      simpa [read] using other
  have named := closeName_plain (bs.map symbolOf) [plain first, plain openBrace]
    closed starless flat
    (plain closeBrace :: t)
  have ends : closeName (bs.map symbolOf) read (plain closeBrace :: t) =
      .ok ⟨bs.map symbolOf, braced (first :: rest), t⟩ := by
    simp only [closeName, plain_byte, ↓reduceIte, plain_escaped, Bool.false_eq_true, last]
    simp [braced, read]
  have opening : closes (plain openBrace) = false ∧ opens (plain openBrace) = true := by decide
  have spelled : braced (first :: rest) ++ t =
      plain openBrace :: plain first :: (rest.map plain ++ plain closeBrace :: t) := by
    simp [braced]
  rw [nextPlaceholder, nextPlaceholderFrom_literals, List.append_nil, spelled, nextPlaceholderFrom]
  simp only [opening, Bool.false_eq_true, ↓reduceIte, plain_byte, opened,
    List.reverse_reverse, named]
  rw [ends]
  rfl

theorem nextPlaceholder_parameter {depth : Nat} (h : depth < 25) (bs : List UInt8) (t : Template) :
    nextPlaceholder (bs.map symbolOf ++ (lettered (letterAt depth) ++ t)) =
      .ok (some ⟨bs.map symbolOf, lettered (letterAt depth), t⟩) :=
  nextPlaceholder_braced (letterAt_ne h (by decide)) List.not_mem_nil List.not_mem_nil
    List.not_mem_nil (fun same => absurd same (letterAt_ne h (by decide))) bs t

theorem nextPlaceholder_wildcard {name : List UInt8} (named : IsPlaceholderName name)
    (bs : List UInt8) (t : Template) :
    nextPlaceholder (bs.map symbolOf ++ (starred name ++ t)) =
      .ok (some ⟨bs.map symbolOf, starred name, t⟩) :=
  nextPlaceholder_braced (by decide) named.2.1 named.2.2.1 named.2.2.2 (fun _ => named.1) bs t

/-- The tokens match a path. `taken` are the pieces that parameters take, `rest` is what a wildcard
takes, with its name. -/
inductive Fits : List Token → List UInt8 → List (List UInt8) → List (List UInt8 × List UInt8) → Prop
  | nil : Fits [] [] [] []
  | literal {ts : List Token} {path : List UInt8} {taken : List (List UInt8)}
    {rest : List (List UInt8 × List UInt8)} (b : UInt8) (more : Fits ts path taken rest) :
    Fits (.literal b :: ts) (b :: path) taken rest
  | parameter {ts : List Token} {piece path : List UInt8} {taken : List (List UInt8)}
    {rest : List (List UInt8 × List UInt8)} (written : piece ≠ []) (flat : slash ∉ piece)
    (closed : Text.Closed slash path) (more : Fits ts path taken rest) :
    Fits (.parameter :: ts) (piece ++ path) (piece :: taken) rest
  | wildcard {path : List UInt8} (name : List UInt8) (written : path ≠ []) :
    Fits [.wildcard name] path [] [(name, path)]

/-- A parameter takes the whole of a component. -/
theorem fits_parameter {ts : List Token} {piece path : List UInt8} (written : piece ≠ [])
    (flat : slash ∉ piece) (closed : Text.Closed slash path) {taken : List (List UInt8)}
    {rest : List (List UInt8 × List UInt8)} :
    Fits (.parameter :: ts) (piece ++ path) taken rest ↔
      ∃ more, taken = piece :: more ∧ Fits ts path more rest := by
  constructor
  · intro h
    generalize whole : piece ++ path = text at h
    cases h with
    | parameter _ flat' closed' more =>
      obtain ⟨rfl, rfl⟩ := Text.append_inj_of_closed flat flat' closed closed' whole
      exact ⟨_, rfl, more⟩
  · rintro ⟨more, rfl, fits⟩
    exact .parameter written flat closed fits

theorem not_fits_parameter {ts : List Token} {path : List UInt8} {taken : List (List UInt8)}
    {rest : List (List UInt8 × List UInt8)} :
    ¬ Fits (.parameter :: ts) (slash :: path) taken rest := by
  intro h
  generalize whole : slash :: path = text at h
  cases h with
  | @parameter _ piece behind _ _ written flat _ _ =>
    obtain ⟨b, more, rfl⟩ := List.exists_cons_of_ne_nil written
    rw [List.cons_append, List.cons.injEq] at whole
    exact flat (by simp [whole.1])

/-- The tokens match a path somehow. -/
def Reaches (ts : List Token) (path : List UInt8) : Prop := ∃ taken rest, Fits ts path taken rest

theorem fits_literals {bs path : List UInt8} {ts : List Token} {taken : List (List UInt8)}
    {rest : List (List UInt8 × List UInt8)} :
    Fits (literals bs ++ ts) path taken rest ↔ ∃ tail, path = bs ++ tail ∧
    Fits ts tail taken rest := by
  induction bs generalizing path with
  | nil => simp
  | cons b bs ih =>
    constructor
    · intro h
      cases h with
      | literal _ more =>
        obtain ⟨tail, rfl, fits⟩ := ih.1 more
        exact ⟨tail, rfl, fits⟩
    · rintro ⟨tail, rfl, fits⟩
      exact .literal b (ih.2 ⟨tail, rfl, fits⟩)

theorem reaches_literals {bs tail : List UInt8} {ts : List Token} :
    Reaches (literals bs ++ ts) (bs ++ tail) ↔ Reaches ts tail := by
  simp [Reaches, fits_literals]

theorem reaches_nil_iff {path : List UInt8} : Reaches [] path ↔ path = [] := by
  constructor
  · rintro ⟨_, _, h⟩
    cases h
    rfl
  · rintro rfl
    exact ⟨_, _, .nil⟩

theorem not_reaches_nil {ts : List Token} (h : ts ≠ []) : ¬ Reaches ts [] := by
  rintro ⟨_, _, fits⟩
  cases ts with
  | nil => exact h rfl
  | cons t ts =>
    cases t with
    | literal b => cases fits
    | parameter =>
      generalize empty : ([] : List UInt8) = path at fits
      cases fits with
      | parameter written => exact written (List.append_eq_nil_iff.1 empty.symm).1
    | wildcard name =>
      cases fits with
      | wildcard _ written => exact written rfl

/-- At the first token in which two templates differ, the one has a byte and the other a
placeholder. -/
def Before (ts us : List Token) : Prop :=
  ∃ common b ts' hole us', ts = common ++ Token.literal b :: ts' ∧ us = common ++ hole :: us' ∧
    hole.isHole = true

theorem Before.append_left {ts us : List Token} (h : Before ts us) (front : List Token) :
    Before (front ++ ts) (front ++ us) := by
  obtain ⟨common, b, ts', hole, us', rfl, rfl, isHole⟩ := h
  exact ⟨front ++ common, b, ts', hole, us', by simp, by simp, isHole⟩

theorem before_cons_iff {t u : Token} {ts us : List Token} :
    Before (t :: ts) (u :: us) ↔
      (t = u ∧ Before ts us) ∨ (t.isHole = false ∧ u.isHole = true) := by
  constructor
  · rintro ⟨common, b, ts', hole, us', first, second, isHole⟩
    cases common with
    | nil =>
      obtain ⟨rfl, rfl⟩ := List.cons.inj first
      obtain ⟨rfl, rfl⟩ := List.cons.inj second
      exact .inr ⟨rfl, isHole⟩
    | cons c common =>
      obtain ⟨rfl, rfl⟩ := List.cons.inj first
      obtain ⟨rfl, rfl⟩ := List.cons.inj second
      exact .inl ⟨rfl, common, b, ts', hole, us', rfl, rfl, isHole⟩
  · rintro (⟨rfl, before⟩ | ⟨literal, isHole⟩)
    · exact before.append_left [t]
    · cases t with
      | literal b => exact ⟨[], b, ts, u, us, rfl, rfl, isHole⟩
      | parameter | wildcard name => exact absurd literal.symm Bool.false_ne_true

theorem not_before_nil_left {us : List Token} : ¬ Before [] us := by
  rintro ⟨common, b, ts', hole, us', first, -, -⟩
  simp at first

theorem not_before_nil_right {ts : List Token} : ¬ Before ts [] := by
  rintro ⟨common, b, ts', hole, us', -, second, -⟩
  simp at second

/-- Of two templates, only one comes before the other. -/
theorem Before.not_swap {ts us : List Token} (before : Before ts us) : ¬ Before us ts := by
  induction ts generalizing us with
  | nil => exact absurd before not_before_nil_left
  | cons t ts ih =>
    cases us with
    | nil => exact absurd before not_before_nil_right
    | cons u us =>
      rw [before_cons_iff] at before ⊢
      rintro (⟨rfl, back⟩ | ⟨literal, hole⟩)
      · obtain ⟨-, before⟩ | ⟨literal, hole⟩ := before
        · exact ih before back
        · exact Bool.false_ne_true (literal.symm.trans hole)
      · obtain ⟨rfl, -⟩ | ⟨literal', -⟩ := before
        · exact Bool.false_ne_true (literal.symm.trans hole)
        · exact Bool.false_ne_true (literal'.symm.trans hole)

/-- A template that only goes on where another one ends does not come before it. -/
theorem not_before_append (ts us : List Token) : ¬ Before (ts ++ us) ts := by
  induction ts with
  | nil => exact not_before_nil_right
  | cons t ts ih =>
    rw [List.cons_append, before_cons_iff]
    rintro (⟨-, before⟩ | ⟨literal, hole⟩)
    · exact ih before
    · exact Bool.false_ne_true (literal.symm.trans hole)

/-- A template that ends where another one goes on does not come before it. -/
theorem not_before_of_append (ts us : List Token) : ¬ Before ts (ts ++ us) := by
  induction ts with
  | nil => exact not_before_nil_left
  | cons t ts ih =>
    rw [List.cons_append, before_cons_iff]
    rintro (⟨-, before⟩ | ⟨literal, hole⟩)
    · exact ih before
    · exact Bool.false_ne_true (literal.symm.trans hole)

/-- Two templates that cannot stand in one index: they are equal, or have different placeholders
where they first differ. -/
def Clash : List Token → List Token → Prop
  | [], [] => True
  | a :: as, b :: bs => if a = b then Clash as bs else a.isHole = true ∧ b.isHole = true
  | [], _ :: _ | _ :: _, [] => False

theorem clash_cons (a b : Token) (ts us : List Token) : Clash (a :: ts) (b :: us) ↔
    if a = b then Clash ts us else a.isHole = true ∧ b.isHole = true := Iff.rfl

@[simp] theorem clash_self (ts : List Token) : Clash ts ts := by
  induction ts with
  | nil => trivial
  | cons t ts ih => rwa [clash_cons, if_pos rfl]

@[simp] theorem clash_append (front ts us : List Token) :
    Clash (front ++ ts) (front ++ us) ↔ Clash ts us := by
  induction front with
  | nil => rfl
  | cons t front ih => rw [List.cons_append, List.cons_append, clash_cons, if_pos rfl, ih]

theorem clash_nil_left {ts : List Token} : Clash [] ts ↔ ts = [] := by
  cases ts with
  | nil => exact iff_of_true trivial rfl
  | cons t ts => exact iff_of_false id (List.cons_ne_nil t ts)

theorem clash_nil_right {ts : List Token} : Clash ts [] ↔ ts = [] := by
  cases ts with
  | nil => exact iff_of_true trivial rfl
  | cons t ts => exact iff_of_false id (List.cons_ne_nil t ts)

theorem not_clash_of_isHole {a b : Token} (ts us : List Token) (differ : a.isHole ≠ b.isHole) :
    ¬ Clash (a :: ts) (b :: us) := by
  have apart : a ≠ b := fun same => differ (congrArg Token.isHole same)
  rw [clash_cons, if_neg apart]
  rintro ⟨ha, hb⟩
  exact differ (ha.trans hb.symm)

theorem not_clash_literal {a b : UInt8} (ts us : List Token) (differ : a ≠ b) :
    ¬ Clash (.literal a :: ts) (.literal b :: us) := by
  have apart : Token.literal a ≠ Token.literal b := fun same => differ (Token.literal.inj same)
  simp [clash_cons, apart, Token.isHole]

theorem clash_holes {a b : Token} (ha : a.isHole = true) (hb : b.isHole = true) (differ : a ≠ b)
    (ts us : List Token) : Clash (a :: ts) (b :: us) := by
  rw [clash_cons, if_neg differ]
  exact ⟨ha, hb⟩

end Waymark.Routing
