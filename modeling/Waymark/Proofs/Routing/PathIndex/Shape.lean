import Waymark.Proofs.Routing.PathIndex.Token

/-!
# The shape of the path index

The trees that arise from templates of whole components have three kinds of nodes: branches, whose
labels are bytes that stand for themselves, and below them at most one parameter or wildcard each.

* `branch`, `parameterNode`, `wildcardNode`: the nodes;
* `Shaped`: a tree of such nodes, its literal children apart by their first bytes;
* `Stores`: the templates of a tree, as tokens, with their values and names.
-/

namespace Waymark.Routing.Node

open Template

variable {α : Type}

/-- The byte under which a literal child is found. -/
def firstByte (n : Node α) : UInt8 := (n.label.head?.map Symbol.byte).getD 0

/-- A node whose label stands for itself, with literal children and perhaps a placeholder child. -/
def branch (bs : List UInt8) (weight : Nat) (lits : List (Node α)) (hole : Option (Node α))
    (value : Option α) (names : List (List UInt8)) : Node α :=
  mk (bs.map symbolOf) weight hole.isSome (lits.map firstByte) .literal (lits
    ++ hole.toList) value names

/-- A parameter with what follows its component. -/
def parameterNode (depth weight : Nat) (suffixed : Bool) (next : Option (Node α)) (value : Option α)
    (names : List (List UInt8)) : Node α :=
  mk (lettered (letterAt depth)) weight false [] (.placeholder suffixed) next.toList value names

/-- A wildcard. -/
def wildcardNode (name : List UInt8) (weight : Nat) (value : α) (names : List (List UInt8)) :
    Node α :=
  mk (starred name) weight false [] .wildcard [] (some value) names

/-- The tokens of a node's label. -/
def own (n : Node α) : List Token :=
  match n.kind with
  | .literal => literals (n.label.map Symbol.byte)
  | .placeholder _ => [.parameter]
  | .wildcard => [.wildcard (((n.label.map Symbol.byte).drop 2).dropLast)]

/-- A template that ends in a tree, from the tree's root on, with its value and names. -/
inductive Stores : Node α → List Token → α → List (List UInt8) → Prop
  | here {n : Node α} {value : α} (stored : n.value = some value) : Stores n n.own value n.names
  | deeper {n c : Node α} {ts : List Token} {value : α} {names : List (List UInt8)}
    (child : c ∈ n.children) (stored : Stores c ts value names) : Stores n (n.own ++ ts) value names

theorem stores_iff (n : Node α) (ts : List Token) (value : α) (names : List (List UInt8)) :
    n.Stores ts value names ↔
      (n.value = some value ∧ n.names = names ∧ ts = n.own) ∨
        ∃ c ∈ n.children, ∃ below, ts = n.own ++ below ∧ c.Stores below value names := by
  constructor
  · rintro (stored | ⟨child, stored⟩)
    · exact .inl ⟨stored, rfl, rfl⟩
    · exact .inr ⟨_, child, _, rfl, stored⟩
  · rintro (⟨stored, rfl, rfl⟩ | ⟨c, child, below, rfl, stored⟩)
    · exact .here stored
    · exact .deeper child stored

@[simp] theorem own_branch (bs : List UInt8) (weight : Nat) (lits : List (Node α))
    (hole : Option (Node α)) (value : Option α) (names : List (List UInt8)) :
    (branch bs weight lits hole value names).own = literals bs := by
  simp [own, branch, label, kind]

@[simp] theorem own_parameterNode (depth weight : Nat) (suffixed : Bool) (next : Option (Node α))
    (value : Option α) (names : List (List UInt8)) :
    (parameterNode depth weight suffixed next value names).own = [.parameter] := rfl

@[simp] theorem own_wildcardNode (name : List UInt8) (weight : Nat) (value : α)
    (names : List (List UInt8)) :
    (wildcardNode name weight value names).own = [.wildcard name] := by
  simp [own, wildcardNode, label, kind, starred, braced, Function.comp_def]

section
variable {ts : List Token} {v : α} {ns : List (List UInt8)}

theorem stores_branch (bs : List UInt8) (weight : Nat) (lits : List (Node α))
    (hole : Option (Node α)) (value : Option α) (names : List (List UInt8)) :
    (branch bs weight lits hole value names).Stores ts v ns ↔
      (value = some v ∧ names = ns ∧ ts = literals bs) ∨
        ∃ c, (c ∈ lits ∨ c ∈ hole) ∧ ∃ below, ts = literals bs ++ below ∧ c.Stores below v ns := by
  rw [stores_iff, own_branch]
  simp [branch, Node.value, Node.names, children]

theorem stores_parameterNode (depth weight : Nat) (suffixed : Bool) (next : Option (Node α))
    (value : Option α) (names : List (List UInt8)) :
    (parameterNode depth weight suffixed next value names).Stores ts v ns ↔
      (value = some v ∧ names = ns ∧ ts = [.parameter]) ∨
        ∃ c ∈ next, ∃ below, ts = .parameter :: below ∧ c.Stores below v ns := by
  rw [stores_iff, own_parameterNode]
  simp [parameterNode, Node.value, Node.names, children]

theorem stores_wildcardNode (name : List UInt8) (weight : Nat) (value : α)
    (names : List (List UInt8)) :
    (wildcardNode name weight value names).Stores ts v ns ↔
      value = v ∧ names = ns ∧ ts = [.wildcard name] := by
  rw [stores_iff, own_wildcardNode]
  simp [wildcardNode, Node.value, Node.names, children]

end

/-- Where a node can stand. -/
inductive Role where
  /-- At the root, as a literal child, or behind a parameter. -/
  | branch
  /-- As the placeholder child of a branch. -/
  | hole

/-- A tree of templates of whole components, where `depth` parameters stand above. -/
inductive Shaped : Role → Nat → Node α → Prop
  | branch {depth weight : Nat} {bs : List UInt8} {lits : List (Node α)} {hole : Option (Node α)}
    {value : Option α} {names : List (List UInt8)}
    (written : ∀ c ∈ lits, c.label ≠ []) (apart : (lits.map firstByte).Nodup)
    (below : ∀ c ∈ lits, Shaped .branch depth c) (last : ∀ h ∈ hole, Shaped .hole depth h)
    (alive : ∀ h ∈ hole, ∃ ts v ns, h.Stores ts v ns) :
    Shaped .branch depth (branch bs weight lits hole value names)
  | parameter {depth weight : Nat} {suffixed : Bool} {next : Option (Node α)} {value : Option α}
    {names : List (List UInt8)} (ends : ∀ c ∈ next, c.label = [plain slash])
    (below : ∀ c ∈ next, Shaped .branch (depth + 1) c) :
    Shaped .hole depth (parameterNode depth weight suffixed next value names)
  | wildcard {depth weight : Nat} {name : List UInt8} {value : α} {names : List (List UInt8)} :
    Shaped .hole depth (wildcardNode name weight value names)

theorem own_of_shaped_branch {depth : Nat} {n : Node α} (shaped : Shaped .branch depth n) :
    n.own = literals (n.label.map Symbol.byte) := by
  cases shaped with
  | branch => simp [branch, own, label, kind]

/-- What a literal child stores begins with its first byte. -/
theorem stores_first {depth : Nat} {n : Node α} (shaped : Shaped .branch depth n)
    (written : n.label ≠ []) {ts : List Token} {v : α} {ns : List (List UInt8)}
    (stored : n.Stores ts v ns) : ∃ more, ts = .literal n.firstByte :: more := by
  obtain ⟨s, label, spelled⟩ := List.exists_cons_of_ne_nil written
  have own : n.own = .literal n.firstByte :: literals (label.map Symbol.byte) := by
    rw [own_of_shaped_branch shaped, spelled]
    simp [firstByte, spelled]
  obtain ⟨_, _, rfl⟩ | ⟨c, _, below, rfl, _⟩ := (stores_iff _ _ _ _).1 stored
  · exact ⟨_, own⟩
  · exact ⟨_, by rw [own]; rfl⟩

/-- What a placeholder child stores begins with a placeholder. -/
theorem stores_hole {depth : Nat} {n : Node α} (shaped : Shaped .hole depth n) {ts : List Token}
    {v : α} {ns : List (List UInt8)} (stored : n.Stores ts v ns) :
    ∃ hole more, ts = hole :: more ∧ hole.isHole = true := by
  cases shaped with
  | parameter =>
    obtain ⟨_, _, rfl⟩ | ⟨c, _, below, rfl, _⟩ := (stores_parameterNode _ _ _ _ _ _).1 stored
    · exact ⟨_, _, rfl, rfl⟩
    · exact ⟨_, _, rfl, rfl⟩
  | wildcard =>
    obtain ⟨_, _, rfl⟩ := (stores_wildcardNode _ _ _ _).1 stored
    exact ⟨_, _, rfl, rfl⟩

end Waymark.Routing.Node
