import Waymark.Routing.PathIndex.Node

/-!
# Inserting templates

A template is inserted by walking down as long as labels agree, splitting a label where they part,
and growing the rest of the template below. An insertion that is refused may leave nodes without
values behind; they match nothing, but a later conflict may name them.

* `grow`: the nodes of a template below a node that has no part of it yet;
* `walk`: the way from a node along what is left of a template;
* `insert`: one more template with its value, or the reason why not.
-/

namespace Waymark.Routing

/-- Why a template could not be inserted. -/
inductive InsertError where
  /-- The template meets one that is there already, whose text is given. -/
  | conflict (existing : String)
  | template (e : TemplateError)
deriving DecidableEq

namespace Node

variable {α : Type}

/-- The labels along the first children below a node. -/
def firstBranch : Nat → Node α → Template
  | 0, _ => []
  | fuel + 1, n =>
    match n.children with
    | [] => []
    | c :: _ => c.label ++ firstBranch fuel c

/-- The last node along the first children below a node. -/
def firstLeaf : Nat → Node α → Node α
  | 0, n => n
  | fuel + 1, n =>
    match n.children with
    | [] => n
    | c :: _ => firstLeaf fuel c

/-- A list ends with another one. -/
def endsWith (t ending : List UInt8) : Bool := ending.reverse.isPrefixOf t.reverse

/-- The conflict of a route at a node, where `remaining` is what is left of the route. -/
def conflictAt (route remaining : Template) (n : Node α) : InsertError :=
  if remaining.map Symbol.byte = n.label.map Symbol.byte then
    .conflict (Template.restore n.names route).text
  else
    let start := route.take (route.length - remaining.length)
    let start :=
      if endsWith (start.map Symbol.byte) (n.label.map Symbol.byte) then start else start ++ n.label
    let full := start ++ firstBranch n.size n
    .conflict (Template.restore (firstLeaf n.size n).names full).text

/-- The length of what two templates have in common. -/
def commonLength : Template → Template → Nat
  | a :: as, b :: bs => if a = b then commonLength as bs + 1 else 0
  | _, _ => 0

/-- A template up to and with its first slash. -/
def throughSlash : Template → Template
  | [] => []
  | s :: rest => if s.byte = Template.slash then [s] else s :: throughSlash rest

/-- The template holds a placeholder. -/
def holdsPlaceholder (t : Template) : Bool :=
  match Template.nextPlaceholder t with
  | .ok (some _) => true
  | _ => false

/-- Grows a template below a node; where that is refused, the nodes grown so far stay. -/
def grow (value : α) (names : List (List UInt8)) : Nat → Node α → Template →
    Node α × Option TemplateError
  | 0, n, _ => (n, some .invalidName)
  | fuel + 1, n, t =>
    match Template.nextPlaceholder t with
    | .error e => (n, some e)
    | .ok none => ((n.withLabel t).store value names, none)
    | .ok (some p) =>
      let n' := if p.before.isEmpty then n else n.withLabel p.before
      if p.isWildcard then
        if p.after.isEmpty then
          ((n'.addChild ((labelled .wildcard p.itself).store value names)).withWild, none)
        else (n, some .wildcardNotLast)
      else
        let suffix := throughSlash p.after
        let rest := p.after.drop suffix.length
        if holdsPlaceholder suffix then (n', some .crowdedSegment)
        else
          let suffixed := !(suffix.isEmpty || suffix.map Symbol.byte = [Template.slash])
          let holder : Node α := labelled (.placeholder suffixed) p.itself
          if suffix.isEmpty then
            ((n'.addChild (holder.store value names)).withWild, none)
          else
            let ending : Node α := labelled .literal suffix
            let (ending, refused) :=
              match rest with
              | [] => (ending.store value names, none)
              | next :: _ =>
                if Template.opens next then grow value names fuel ending rest
                else
                  let (child, refused) := grow value names fuel (labelled .literal []) rest
                  ((ending.withFirstByte next.byte).addChild child, refused)
            ((n'.addChild (holder.addSuffix ending)).withWild, refused)

/-- Splits the label of a node, so that only its first `common` bytes are left. -/
def splitAt (n : Node α) (common : Nat) : Node α :=
  let lower : Node α :=
    mk (n.label.drop common) (n.weight - 1)
      n.hasWild n.firstBytes .literal n.children n.value n.names
  let first := (n.label.drop common).take 1
  mk (n.label.take common) n.weight false (first.map Symbol.byte) n.kind [lower] none []

/-- The literal child that a template goes on with. -/
def literalChild? (n : Node α) (remaining : Template) : Option (Nat × Node α) :=
  match remaining with
  | [] => none
  | next :: _ =>
    if Template.opens next || Template.closes next then none
    else
      match n.firstBytes.findIdx? (· == next.byte) with
      | none => none
      | some i => n.children[i]?.map fun c => (i, c)

/-- Inserts what is left of a template from a node downwards. -/
def walk (route : Template) (value : α) (names : List (List UInt8)) : Nat → Node α → Template →
    Node α × Option InsertError
  | 0, n, _ => (n, none)
  | fuel + 1, n, t =>
    let common := commonLength t n.label
    if common < n.label.length then walk route value names fuel (n.splitAt common) t
    else if t.length = common then
      match n.value with
      | some _ => (n, some (conflictAt route t n))
      | none => (n.store value names, none)
    else
      let t := t.drop common
      match n.kind with
      | .placeholder _ =>
        let suffix := throughSlash t
        match n.children.findIdx? (fun c => c.label.map Symbol.byte == suffix.map Symbol.byte) with
        | some i =>
          match n.children[i]? with
          | none => (n, none)
          | some child =>
            let (child, refused) := walk route value names fuel child.heavier t
            (n.withChildren (n.children.set i child), refused)
        | none =>
          if holdsPlaceholder suffix then (n, some (.template .crowdedSegment))
          else
            let child : Node α := labelled .literal suffix
            let (child, refused) :=
              if suffix.length = t.length then (child.store value names, none)
              else walk route value names fuel child t
            ((n.addSuffix child).withKind (.placeholder true), refused)
      | _ =>
        match n.literalChild? t with
        | some (i, child) =>
          let place := n.placeOf i child.heavier
          let (child, refused) := walk route value names fuel child.heavier t
          (n.moveChild i place child, refused)
        | none =>
          let fresh : Bool := match t with
            | [] => false
            | next :: _ => !Template.opens next && n.kind ≠ .wildcard
          if fresh then
            let first := (t.take 1).map Symbol.byte
            let n := first.foldl withFirstByte n
            let i := n.firstBytes.length - 1
            let place := n.placeOf i (blank : Node α).heavier
            let (child, refused) := grow value names (t.length + 1) (blank : Node α).heavier t
            (((n.addChild (blank : Node α)).moveChild i place child), refused.map .template)
          else if n.hasWild then
            match n.children.getLast? with
            | none => (n, none)
            | some child =>
              let child := child.heavier
              let start := t.take child.label.length
              let refusal : Option InsertError :=
                if start.length = child.label.length
                    && start.map Symbol.byte ≠ child.label.map Symbol.byte then
                  some (conflictAt route t child)
                else if child.kind = .wildcard then some (conflictAt route t child)
                else none
              match refusal with
              | some e => (n.withChildren (n.children.dropLast ++ [child]), some e)
              | none =>
                let (child, refused) := walk route value names fuel child t
                (n.withChildren (n.children.dropLast ++ [child]), refused)
          else
            let (n, refused) := grow value names (t.length + 1) n t
            (n, refused.map .template)

/-- Inserts a pattern with its value. -/
def insert (n : Node α) (pattern : String) (value : α) : Node α × Option InsertError :=
  match Template.normalize (Template.ofPattern pattern) with
  | .error e => (n, some (.template e))
  | .ok (route, names) =>
    let n := n.heavier
    if n.label.isEmpty && n.children.isEmpty then
      let (n, refused) := grow value names (route.length + 1) n route
      (n, refused.map .template)
    else walk route value names (2 * n.size + route.length + 2) n route

end Node

end Waymark.Routing
