/-!
# Names bound to values

A finite map as a list of pairs in which a name occurs once: binding a name again replaces its
value. Only look-ups and the sorted listing are ever observed.
-/

namespace Waymark.Text

/-- Values bound to names, each name once. -/
structure Bindings (α : Type) where
  entries : List (String × α)

namespace Bindings

variable {α : Type}

/-- Nothing bound. -/
def empty : Bindings α := ⟨[]⟩

/-- Binds a name, replacing what it was bound to. -/
def set (b : Bindings α) (name : String) (value : α) : Bindings α :=
  ⟨(name, value) :: b.entries.filter (fun entry => entry.1 ≠ name)⟩

/-- The value of a name. -/
def get? (b : Bindings α) (name : String) : Option α :=
  b.entries.lookup name

/-- Binds pairs in order, so a later pair of the same name wins. -/
def ofList (pairs : List (String × α)) : Bindings α :=
  pairs.foldl (fun b pair => b.set pair.1 pair.2) empty

/-- The pairs in ascending order of their names. -/
def sorted (b : Bindings α) : List (String × α) :=
  b.entries.mergeSort (fun x y => x.1 ≤ y.1)

end Bindings

end Waymark.Text
