import Mathlib.Order.BoundedOrder.Basic
import Waymark.Proofs.Routing.Pattern
import Waymark.Proofs.Text.Encoding

/-!
# Scopes as directories

One scope covers another one exactly when its directory is the other's or lies above it, although
both are compared as texts:

* `Chain`: the names on the way from the top to a directory;
* `Chain.covers_iff_isPrefix`: a scope covers those of the directories that its own names lead to;
* `Chain.le_or_le_of_le`: two directories above a third one are above each other;
* `Chain.bytes_scope_lt`: a scope comes before those of the directories below, byte by byte;
* `covers_ancestors`: the order that all of this makes.
-/

namespace Waymark.Routing

/-- The names on the way from the top to a directory. -/
@[ext]
structure Chain where
  names : List String
  proper : ∀ n ∈ names, IsComponent n

namespace Chain

/-- The scope of a directory. -/
def scope (c : Chain) : String := scopeOf (c.names.map Segment.classify)

variable {a b c : Chain}

theorem scope_eq (c : Chain) : c.scope = Text.joinStrings '/' c.names := scopeOf_eq c.names

/-- A scope covers the scopes of the directories that its own names lead to, and no other. -/
theorem covers_iff_isPrefix : scopeContains a.scope b.scope = true ↔ a.names <+: b.names := by
  rw [scope_eq, scope_eq]
  exact scopeContains_joinStrings_iff a.proper b.proper

/-- A directory is above another one when its scope covers the other's. -/
instance : PartialOrder Chain where
  le a b := scopeContains a.scope b.scope = true
  le_refl _ := covers_iff_isPrefix.2 List.prefix_rfl
  le_trans _ _ _ ab bc :=
    covers_iff_isPrefix.2 ((covers_iff_isPrefix.1 ab).trans (covers_iff_isPrefix.1 bc))
  le_antisymm a b ab ba := by
    have front := covers_iff_isPrefix.1 ab
    have length := front.length_le.antisymm (covers_iff_isPrefix.1 ba).length_le
    exact Chain.ext (front.eq_of_length length)

theorem le_def : a ≤ b ↔ scopeContains a.scope b.scope = true := Iff.rfl

theorem scopeContains_empty (scope : String) :
    scopeContains "" scope = true := by simp [scopeContains]

/-- The application directory, with the empty scope, is above every other one. -/
instance : OrderBot Chain where
  bot := ⟨[], by simp⟩
  bot_le c := scopeContains_empty c.scope

/-- Two directories above a third one are above each other. -/
theorem le_or_le_of_le (ac : a ≤ c) (bc : b ≤ c) : a ≤ b ∨ b ≤ a := by
  obtain above | below :=
    List.prefix_or_prefix_of_prefix (covers_iff_isPrefix.1 ac) (covers_iff_isPrefix.1 bc)
  · exact .inl (covers_iff_isPrefix.2 above)
  · exact .inr (covers_iff_isPrefix.2 below)

/-- A scope comes before those of the directories below, whatever their names are. -/
theorem bytes_scope_lt (above : a.names <+: b.names) (other : a.names ≠ b.names) :
    Disk.Name.ofString a.scope < Disk.Name.ofString b.scope := by
  obtain ⟨more, path⟩ := above
  have below : more ≠ [] := by
    rintro rfl
    exact other (by simpa using path)
  have proper : ∀ n ∈ more, IsComponent n :=
    fun n hn => b.proper n (by rw [← path]; exact List.mem_append_right _ hn)
  have less : a.scope < b.scope := by
    rw [scope_eq, scope_eq, ← path]
    exact joinStrings_lt_append proper below
  exact Disk.Name.ofString_lt less

end Chain

/-- **Scopes are ordered as their directories are.** A scope covers another one if and only if the
names of its directory come first among the other's. So covering is reflexive, transitive and
antisymmetric, the empty scope covers all others, and of two scopes that cover a third one, one
covers the other. A scope also comes before those that it covers in the order of their bytes. -/
theorem covers_ancestors (a b c : Chain) :
    (scopeContains a.scope b.scope = true ↔ a.names <+: b.names) ∧
    (∀ scope, scopeContains "" scope = true) ∧
    scopeContains a.scope a.scope = true ∧
    (scopeContains a.scope b.scope = true → scopeContains b.scope c.scope = true →
      scopeContains a.scope c.scope = true) ∧
    (scopeContains a.scope b.scope = true → scopeContains b.scope a.scope = true → a = b) ∧
    (scopeContains a.scope c.scope = true → scopeContains b.scope c.scope = true →
      scopeContains a.scope b.scope = true ∨ scopeContains b.scope a.scope = true) ∧
    (a.names <+: b.names → a.names ≠ b.names →
      Disk.Name.ofString a.scope < Disk.Name.ofString b.scope) := by
  refine ⟨Chain.covers_iff_isPrefix, Chain.scopeContains_empty, le_refl a, ?_, ?_,
    Chain.le_or_le_of_le, ?_⟩
  · intro ab bc
    exact le_trans (Chain.le_def.2 ab) bc
  · intro ab ba
    exact le_antisymm (Chain.le_def.2 ab) ba
  · exact Chain.bytes_scope_lt

/-- The directory of all users. -/
def usersChain : Chain := ⟨["users"], by simp [IsComponent]⟩

/-- A directory below it, with a name that comes before a separator. -/
def markedChain : Chain := ⟨["users", "!", "[id]"], by simp [IsComponent]⟩

/-- A directory beside it, with a name that begins with the other one. -/
def archiveChain : Chain := ⟨["users-archive", "[id]"], by simp [IsComponent]⟩

/-- A scope does not cover another one because it begins it as a text, and is before those that it
covers even where a name below would be before the separator. -/
theorem covers_ancestors_archive :
    scopeContains "users" "users-archive/[id]" = false ∧
    scopeContains "users" "users/!/[id]" = true ∧
      Disk.Name.ofString "users" < Disk.Name.ofString "users/!/[id]" ∧
      scopeContains "users/!/[id]" "users-archive/[id]" = false := by
  have users : usersChain.scope = "users" := by decide +kernel
  have marked : markedChain.scope = "users/!/[id]" := by decide +kernel
  have archive : archiveChain.scope = "users-archive/[id]" := by decide +kernel
  obtain ⟨beside, -⟩ := covers_ancestors usersChain archiveChain archiveChain
  obtain ⟨below, -, -, through, -, -, before⟩ :=
    covers_ancestors usersChain markedChain archiveChain
  rw [users, archive] at beside
  rw [users, marked] at below before
  rw [users, marked, archive] at through
  have apart : scopeContains "users" "users-archive/[id]" = false := by
    rw [← Bool.not_eq_true, beside]
    decide
  have under : scopeContains "users" "users/!/[id]" = true := below.2 (by decide)
  refine ⟨apart, under, before (by decide) (by decide), ?_⟩
  cases covered : scopeContains "users/!/[id]" "users-archive/[id]" with
  | false => rfl
  | true => exact absurd (through under covered) (by rw [apart]; exact Bool.false_ne_true)

end Waymark.Routing
