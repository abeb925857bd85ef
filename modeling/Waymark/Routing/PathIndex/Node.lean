import Waymark.Routing.Template

/-!
# Nodes of the path index

The path index is a tree whose edges are parts of templates. A node holds its label, the children
whose labels begin with a literal, found by their first byte, and at most one child for a
placeholder, which is kept last. Below a placeholder the children are the literal suffixes up to the
next slash, the longest first.
-/

namespace Waymark.Routing

/-- What the label of a node is. -/
inductive NodeKind where
  | literal
  /-- A placeholder; it is suffixed when something other than a slash follows it. -/
  | placeholder (suffixed : Bool)
  | wildcard
deriving DecidableEq

/-- A node of the path index. -/
inductive Node (α : Type) where
  | mk (label : Template) (weight : Nat) (hasWild : Bool)
      (firstBytes : List UInt8) (kind : NodeKind)
      (children : List (Node α)) (value : Option α) (names : List (List UInt8))

namespace Node

variable {α : Type}

/-- The part of a template that leads to the node. -/
def label : Node α → Template
  | mk l _ _ _ _ _ _ _ => l

/-- How many insertions went through the node; heavier literals come first. -/
def weight : Node α → Nat
  | mk _ w _ _ _ _ _ _ => w

/-- The last child is a placeholder or a wildcard. -/
def hasWild : Node α → Bool
  | mk _ _ h _ _ _ _ _ => h

/-- The first bytes of the literal children, in their order. -/
def firstBytes : Node α → List UInt8
  | mk _ _ _ f _ _ _ _ => f

/-- What the label is. -/
def kind : Node α → NodeKind
  | mk _ _ _ _ k _ _ _ => k

/-- The nodes below. -/
def children : Node α → List (Node α)
  | mk _ _ _ _ _ c _ _ => c

/-- What is stored for the template that ends here. -/
def value : Node α → Option α
  | mk _ _ _ _ _ _ v _ => v

/-- The names of the placeholders of the template that ends here. -/
def names : Node α → List (List UInt8)
  | mk _ _ _ _ _ _ _ n => n

/-- A node with nothing in it. -/
def blank : Node α := mk [] 0 false [] .literal [] none []

/-- A node of a kind with a label, on one insertion's way. -/
def labelled (kind : NodeKind) (label : Template) : Node α := mk label 1 false [] kind [] none []

/-- The node with another label. -/
def withLabel (n : Node α) (label : Template) : Node α :=
  mk label n.weight n.hasWild n.firstBytes n.kind n.children n.value n.names

/-- The node as one with a placeholder child. -/
def withWild (n : Node α) : Node α :=
  mk n.label n.weight true n.firstBytes n.kind n.children n.value n.names

/-- The node of another kind. -/
def withKind (n : Node α) (kind : NodeKind) : Node α :=
  mk n.label n.weight n.hasWild n.firstBytes kind n.children n.value n.names

/-- The node with other children. -/
def withChildren (n : Node α) (children : List (Node α)) : Node α :=
  mk n.label n.weight n.hasWild n.firstBytes n.kind children n.value n.names

/-- The node with one more first byte. -/
def withFirstByte (n : Node α) (b : UInt8) : Node α :=
  mk n.label n.weight n.hasWild (n.firstBytes ++ [b]) n.kind n.children n.value n.names

/-- The node with a value for the template that ends here. -/
def store (n : Node α) (value : α) (names : List (List UInt8)) : Node α :=
  mk n.label n.weight n.hasWild n.firstBytes n.kind n.children (some value) names

/-- The node with one more insertion through it. -/
def heavier (n : Node α) : Node α :=
  mk n.label (n.weight + 1) n.hasWild n.firstBytes n.kind n.children n.value n.names

/-- Adds a child, a placeholder child staying last. -/
def addChild (n : Node α) (child : Node α) : Node α :=
  if n.hasWild && !n.children.isEmpty then
    n.withChildren (n.children.dropLast ++ child :: n.children.getLast?.toList)
  else n.withChildren (n.children ++ [child])

/-- The place of a suffix among suffixes, longer ones first. -/
def suffixPlace (n : Node α) (suffix : Template) : Nat :=
  (n.children.takeWhile fun c => suffix.length ≤ c.label.length).length

/-- Adds a suffix child at its place. -/
def addSuffix (n : Node α) (child : Node α) : Node α :=
  let place := n.suffixPlace child.label
  n.withChildren (n.children.take place ++ child :: n.children.drop place)

/-- The place that the `i`-th child takes once it is one heavier. -/
def placeOf (n : Node α) (i : Nat) (child : Node α) : Nat :=
  i - (((n.children.take i).reverse.takeWhile fun c => c.weight < child.weight).length)

/-- The `i`-th child moved to a place in front, with its first byte. -/
def moveChild (n : Node α) (i place : Nat) (child : Node α) : Node α :=
  let others := n.children.eraseIdx i
  let bytes :=
    match n.firstBytes[i]? with
    | some b => let rest := n.firstBytes.eraseIdx i; rest.take place ++ b :: rest.drop place
    | none => n.firstBytes
  mk n.label n.weight n.hasWild bytes n.kind (others.take place ++ child :: others.drop place)
    n.value n.names

mutual

/-- The number of nodes from here downwards. -/
def size : Node α → Nat
  | mk _ _ _ _ _ children _ _ => 1 + sizeOfAll children

/-- The number of nodes of several trees. -/
def sizeOfAll : List (Node α) → Nat
  | [] => 0
  | n :: rest => n.size + sizeOfAll rest

end

end Node

end Waymark.Routing
