import Mathlib.Data.List.Basic
import Waymark.Text.Split

/-!
# Pieces between separators

Joined pieces are followed here in the form `lead`, where every piece has a separator in front of
it. Unlike `join` it distributes over appending:

* `cons_join`: a separator and the joined pieces are the pieces with separators in front;
* `split_lead`: pieces without separators are found again;
* `append_inj_of_closed`: two texts that agree part at the same first separator;
* `prefix_of_lead_append`: pieces whose text begins another one's come first among its pieces.
-/

namespace Waymark.Text

theorem withoutPrefix_eq_some_iff {α : Type} [DecidableEq α] {front text rest : List α} :
    withoutPrefix front text = some rest ↔ text = front ++ rest := by
  induction front generalizing text with
  | nil => simp [withoutPrefix]
  | cons p ps ih =>
    cases text with
    | nil => simp [withoutPrefix]
    | cons c cs =>
      by_cases same : p = c
      · simp [withoutPrefix, same, ih]
      · simp [withoutPrefix, same, Ne.symm same]

theorem withoutSuffix_eq_some_iff {ending text rest : List Char} :
    withoutSuffix ending text = some rest ↔ text = rest ++ ending := by
  simp only [withoutSuffix, Option.map_eq_some_iff, withoutPrefix_eq_some_iff]
  constructor
  · rintro ⟨found, h, rfl⟩
    simpa using congrArg List.reverse h
  · rintro rfl
    exact ⟨rest.reverse, by simp, by simp⟩

/-- The text ends, or goes on with a separator. -/
def Closed {α : Type} (sep : α) (text : List α) : Prop := ∀ c ∈ text.head?, c = sep

section
variable {α : Type} {sep : α}

theorem closed_nil : Closed sep [] := by simp [Closed]

theorem closed_cons (text : List α) : Closed sep (sep :: text) := by simp [Closed]

/-- A text is its first piece and what follows, which begins with a separator. -/
theorem exists_piece [DecidableEq α] (sep : α) (text : List α) :
    ∃ piece rest, text = piece ++ rest ∧ sep ∉ piece ∧ Closed sep rest := by
  induction text with
  | nil => exact ⟨[], [], rfl, List.not_mem_nil, closed_nil⟩
  | cons c text ih =>
    by_cases same : c = sep
    · exact ⟨[], c :: text, rfl, List.not_mem_nil, by simpa [Closed] using same⟩
    · obtain ⟨piece, rest, rfl, flat, closed⟩ := ih
      refine ⟨c :: piece, rest, rfl, ?_, closed⟩
      simpa [Ne.symm same] using flat

/-- Two texts that agree have the same first piece, and the same text behind it. -/
theorem append_inj_of_closed {p q x y : List α} (hp : sep ∉ p) (hq : sep ∉ q)
    (hx : Closed sep x) (hy : Closed sep y) (h : p ++ x = q ++ y) : p = q ∧ x = y := by
  induction p generalizing q with
  | nil =>
    cases q with
    | nil => exact ⟨rfl, h⟩
    | cons d q =>
      have : d = sep := hx d (by simp only [List.nil_append] at h; simp [h])
      simp [this] at hq
  | cons c p ih =>
    cases q with
    | nil =>
      have : c = sep := hy c (by simp only [List.nil_append] at h; simp [← h])
      simp [this] at hp
    | cons d q =>
      simp only [List.cons_append, List.cons.injEq] at h
      obtain ⟨rfl, h⟩ := h
      obtain ⟨rfl, rest⟩ := ih (fun m => hp (by simp [m])) (fun m => hq (by simp [m])) h
      exact ⟨rfl, rest⟩

end

/-- The pieces in order, a separator in front of each. -/
def lead (sep : Char) (pieces : List (List Char)) : List Char := pieces.flatMap (sep :: ·)

section
variable {sep : Char}

@[simp] theorem lead_nil : lead sep [] = [] := rfl

@[simp] theorem lead_cons (piece : List Char) (pieces : List (List Char)) :
    lead sep (piece :: pieces) = sep :: (piece ++ lead sep pieces) := rfl

@[simp] theorem lead_append (ps qs : List (List Char)) :
    lead sep (ps ++ qs) = lead sep ps ++ lead sep qs := by
  simp [lead]

theorem cons_join {pieces : List (List Char)} (h : pieces ≠ []) :
    sep :: join sep pieces = lead sep pieces := by
  induction pieces with
  | nil => exact absurd rfl h
  | cons piece rest ih =>
    cases rest with
    | nil => simp [join]
    | cons next rest =>
      rw [join, ih (by simp)]
      simp

theorem mem_of_mem_join {pieces : List (List Char)} {c : Char} (h : c ∈ join sep pieces) :
    c = sep ∨ ∃ piece ∈ pieces, c ∈ piece := by
  cases pieces with
  | nil => cases h
  | cons piece rest =>
    have among : c ∈ lead sep (piece :: rest) := by
      rw [← cons_join (by simp)]
      exact List.mem_cons_of_mem _ h
    obtain ⟨p, hp, hc⟩ := List.mem_flatMap.1 among
    exact (List.mem_cons.1 hc).imp id fun inside => ⟨p, hp, inside⟩

theorem join_append {ps : List (List Char)} (h : ps ≠ []) (qs : List (List Char)) :
    join sep (ps ++ qs) = join sep ps ++ lead sep qs := by
  have both : sep :: join sep (ps ++ qs) = lead sep (ps ++ qs) := cons_join (by simp [h])
  rw [lead_append, ← cons_join h] at both
  exact List.tail_eq_of_cons_eq both

theorem join_cons (piece : List Char) (pieces : List (List Char)) :
    join sep (piece :: pieces) = piece ++ lead sep pieces :=
  join_append (List.cons_ne_nil piece []) pieces

theorem closed_lead (pieces : List (List Char)) : Closed sep (lead sep pieces) := by
  cases pieces with
  | nil => exact closed_nil
  | cons => exact closed_cons _

theorem split_append {piece rest : List Char} (h : sep ∉ piece) :
    split sep (piece ++ sep :: rest) = piece :: split sep rest := by
  induction piece with
  | nil => simp [split]
  | cons c piece ih =>
    simp only [List.mem_cons, not_or] at h
    simp [split, ih h.2, Ne.symm h.1]

theorem split_of_not_mem {piece : List Char} (h : sep ∉ piece) : split sep piece = [piece] := by
  induction piece with
  | nil => simp [split]
  | cons c piece ih =>
    simp only [List.mem_cons, not_or] at h
    simp [split, ih h.2, Ne.symm h.1]

theorem split_append_lead {piece : List Char} {pieces : List (List Char)} (h : sep ∉ piece)
    (hs : ∀ p ∈ pieces, sep ∉ p) : split sep (piece ++ lead sep pieces) = piece :: pieces := by
  induction pieces generalizing piece with
  | nil => simp [split_of_not_mem h]
  | cons p ps ih =>
    rw [lead_cons, split_append h, ih (hs p (by simp)) (fun q hq => hs q (by simp [hq]))]

/-- Pieces without separators are found again, behind the empty piece before the first separator. -/
theorem split_lead {pieces : List (List Char)} (hs : ∀ p ∈ pieces, sep ∉ p) :
    split sep (lead sep pieces) = [] :: pieces := by
  exact split_append_lead List.not_mem_nil hs

/-- Behind pieces without separators stands the next one. -/
theorem getElem?_split_lead {front : List (List Char)} {piece : List Char}
    (flat : ∀ p ∈ front, sep ∉ p) (own : sep ∉ piece) (behind : List (List Char)) :
    (split sep (lead sep (front ++ piece :: behind)))[front.length + 1]? = some piece := by
  have first : (split sep (piece ++ lead sep behind))[0]? = some piece := by
    cases behind with
    | nil => simp [split_of_not_mem own]
    | cons next behind => rw [lead_cons, split_append own]; rfl
  have run (before : List Char) (h : sep ∉ before) :
      (split sep (before ++ lead sep (front ++ piece :: behind)))[front.length + 1]? =
        some piece := by
    induction front generalizing before with
    | nil =>
      rw [List.nil_append, lead_cons, split_append h]
      exact first
    | cons p ps ih =>
      rw [List.cons_append, lead_cons, split_append h]
      exact ih (fun q hq => flat q (List.mem_cons_of_mem p hq)) p (flat p (by simp))
  exact run [] List.not_mem_nil

/-- Pieces whose text begins the text of others come first among these. -/
theorem prefix_of_lead_append {ps qs : List (List Char)} {rest : List Char}
    (hp : ∀ p ∈ ps, sep ∉ p) (hq : ∀ q ∈ qs, sep ∉ q) (closed : Closed sep rest)
    (h : lead sep ps ++ rest = lead sep qs) : ps <+: qs := by
  induction ps generalizing qs with
  | nil => exact List.nil_prefix
  | cons p ps ih =>
    cases qs with
    | nil => simp at h
    | cons q qs =>
      simp only [lead_cons, List.cons_append, List.append_assoc, List.cons.injEq, true_and] at h
      have open' : Closed sep (lead sep ps ++ rest) := by
        cases ps with
        | nil => simpa using closed
        | cons => simpa using closed_cons _
      obtain ⟨rfl, behind⟩ :=
        append_inj_of_closed (hp p (by simp)) (hq q (by simp)) open' (closed_lead qs) h
      have := ih (fun p m => hp p (by simp [m])) (fun q m => hq q (by simp [m])) behind
      simpa using this

end

end Waymark.Text
