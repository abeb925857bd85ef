import Waymark.Proofs.Routing.PathIndex.Shape
import Waymark.Routing.PathIndex.Search

/-!
# What a search finds

A search goes into the literal child first and comes back for the placeholder. On trees of whole
components it finds whatever matches at all, and of several templates the one with a byte where the
others have their first placeholder:

* `Answer`: what the result of a search says about the stored templates;
* `answer_follow`: a search answers, from every node on and whatever was captured before;
* `answer_search`: the same from the root.
-/

namespace Waymark.Routing.Node

open Template

variable {α : Type}

theorem behind?_eq_some_iff {bs path rest : List UInt8} :
    behind? bs path = some rest ↔ path = bs ++ rest := by
  induction bs generalizing path with
  | nil => simp [behind?]
  | cons b bs ih =>
    cases path with
    | nil => simp [behind?]
    | cons p path =>
      by_cases same : b = p
      · simp [behind?, same, ih]
      · simp [behind?, same, Ne.symm same]

/-- Goes on at a node: as a search, or by letting a placeholder take its part. -/
def follow (role : Role) (n : Node α) (captured : List (List UInt8)) (path : List UInt8) :
    Option (Found α) :=
  match role with
  | .branch => n.search captured path
  | .hole => n.capture captured path

/-- Either nothing that is stored matches, or the result is a match that no other one comes
before. -/
def Answer (n : Node α) (captured : List (List UInt8)) (path : List UInt8) :
    Option (Found α) → Prop
  | none => ∀ ts v ns, n.Stores ts v ns → ¬ Reaches ts path
  | some found => ∃ ts v ns taken rest, n.Stores ts v ns ∧ Fits ts path taken rest ∧
      found = ⟨v, ns.zip (captured ++ taken) ++ rest⟩ ∧
      ∀ us w ms, n.Stores us w ms → Reaches us path → us = ts ∨ Before ts us

theorem searchLiteral_eq (lits : List (Node α)) (hole : Option (Node α))
    (captured : List (List UInt8)) (next : UInt8) (path : List UInt8) :
    searchLiteral (lits.map firstByte) (lits ++ hole.toList) captured next path =
      (lits.find? fun c => c.firstByte = next).bind fun c => c.search captured path := by
  induction lits with
  | nil =>
    cases hole <;> rw [List.map_nil] <;> simp [searchLiteral]
  | cons c rest ih =>
    rw [List.map_cons, List.cons_append, searchLiteral, List.find?_cons]
    by_cases same : c.firstByte = next
    · simp [same]
    · simp [same, ih]

theorem searchWild_eq (lits : List (Node α)) (h : Node α) (captured : List (List UInt8))
    (path : List UInt8) : searchWild (lits ++ [h]) captured path = h.capture captured path := by
  induction lits with
  | nil => rw [List.nil_append, searchWild]
  | cons c rest ih =>
    obtain ⟨d, more, same⟩ := List.exists_cons_of_ne_nil (l := rest ++ [h]) (by simp)
    rw [List.cons_append, same, searchWild, ← same, ih]
    simp

theorem search_branch (bs : List UInt8) (weight : Nat) (lits : List (Node α))
    (hole : Option (Node α))
    (value : Option α) (names captured : List (List UInt8)) (path : List UInt8) :
    (branch bs weight lits hole value names).search captured path =
      match behind? bs path with
      | none => none
      | some [] => value.map fun v => ⟨v, names.zip captured⟩
      | some (next :: rest) =>
        ((lits.find? fun c => c.firstByte = next).bind fun c => c.search captured (next :: rest)).or
          (hole.bind fun h => h.capture captured (next :: rest)) := by
  rw [branch, search, map_byte_map_symbolOf]
  cases behind? bs path with
  | none => rfl
  | some tail =>
    cases tail with
    | nil => rfl
    | cons next rest =>
      simp only [searchLiteral_eq]
      cases (lits.find? fun c => c.firstByte = next).bind fun c =>
        c.search captured (next :: rest) with
      | some found => rfl
      | none =>
        cases hole with
        | none => rfl
        | some h => simp [searchWild_eq]

theorem capture_wildcardNode (name : List UInt8) (weight : Nat) (value : α)
    (names captured : List (List UInt8)) (path : List UInt8) :
    (wildcardNode name weight value names).capture captured path =
      some ⟨value, names.zip captured ++ [(name, path)]⟩ := by
  simp [wildcardNode, capture, starred, braced, Function.comp_def]

theorem segmentOf_append {taken rest : List UInt8} (flat : slash ∉ taken)
    (closed : Text.Closed slash rest) : segmentOf (taken ++ rest) = (taken, rest) := by
  have inside : ∀ b ∈ taken, decide (b ≠ slash) = true := by
    intro b hb
    simpa using fun same : b = slash => flat (same ▸ hb)
  have stops : rest.takeWhile (fun b => decide (b ≠ slash)) = [] ∧
      rest.dropWhile (fun b => decide (b ≠ slash)) = rest := by
    cases rest with
    | nil => simp
    | cons b tail => simp [closed b rfl]
  rw [segmentOf, List.takeWhile_append_of_pos inside, List.dropWhile_append_of_pos inside, stops.1,
    stops.2, List.append_nil]

theorem searchSuffix_slash {next : Option (Node α)} (ends : ∀ c ∈ next, c.label = [plain slash])
    (captured : List (List UInt8)) {taken : List UInt8} (written : taken ≠ []) (rest : List UInt8) :
    searchSuffix next.toList captured (taken ++ [slash]) (taken ++ slash :: rest) =
      next.map fun c => c.search (captured ++ [taken]) (slash :: rest) := by
  cases next with
  | none => rfl
  | some c =>
    have label : c.label.map Symbol.byte = [slash] := by rw [ends c rfl]; rfl
    have long : 0 < taken.length := List.length_pos_iff.2 written
    simp [searchSuffix, label, long]

theorem searchSuffix_nothing {next : Option (Node α)} (ends : ∀ c ∈ next, c.label = [plain slash])
    (captured : List (List UInt8)) {taken : List UInt8} (flat : slash ∉ taken) (path : List UInt8) :
    searchSuffix next.toList captured taken path = none := by
  cases next with
  | none => rfl
  | some c =>
    have label : c.label.map Symbol.byte = [slash] := by rw [ends c rfl]; rfl
    have other : taken.drop (taken.length - 1) ≠ [slash] := by
      intro same
      exact flat (List.mem_of_mem_drop (i := taken.length - 1) (by rw [same]; simp))
    simp [searchSuffix, label, other]

theorem capture_parameterNode_slash (depth weight : Nat) (suffixed : Bool) (next : Option (Node α))
    (value : Option α) (names captured : List (List UInt8)) (path : List UInt8) :
    (parameterNode depth weight suffixed next value names).capture captured
    (slash :: path) = none := by
  have segment : segmentOf (slash :: path) = ([], slash :: path) := by simp [segmentOf]
  cases suffixed <;> simp [parameterNode, capture, segment]

/-- A parameter takes the next component; what follows is left to the node behind it. -/
theorem capture_parameterNode (depth weight : Nat) (suffixed : Bool) {next : Option (Node α)}
    (ends : ∀ c ∈ next, c.label = [plain slash]) (value : Option α)
    (names captured : List (List UInt8)) {taken rest : List UInt8} (written : taken ≠ [])
    (flat : slash ∉ taken) (closed : Text.Closed slash rest) :
    (parameterNode depth weight suffixed next value names).capture captured (taken ++ rest) =
      if rest = [] then value.map fun v => ⟨v, names.zip (captured ++ [taken])⟩
      else next.bind fun c => c.search (captured ++ [taken]) rest := by
  have segment := segmentOf_append flat closed
  cases rest with
  | nil =>
    have nothing := searchSuffix_nothing ends captured flat
    rw [List.append_nil] at segment ⊢
    obtain ⟨first, more, rfl⟩ := List.exists_cons_of_ne_nil written
    cases suffixed <;> simp [parameterNode, capture, segment, nothing]
  | cons b tail =>
    obtain rfl : b = slash := closed b rfl
    have found := searchSuffix_slash ends captured written tail
    obtain ⟨first, more, rfl⟩ := List.exists_cons_of_ne_nil written
    cases suffixed with
    | false =>
      simp only [parameterNode, capture, segment]
      cases next <;> simp [searchOnly]
    | true =>
      simp only [parameterNode, capture, segment, List.take_succ_cons, List.take_zero, found]
      cases next <;> simp

section
variable {depth weight : Nat} {bs : List UInt8} {lits : List (Node α)} {hole : Option (Node α)}
  {value : Option α} {names : List (List UInt8)}

/-- What matches beyond the label of a branch lies in the literal child of the next byte, or in the
placeholder child. -/
theorem reaches_beyond (written : ∀ c ∈ lits, c.label ≠ [])
    (below : ∀ c ∈ lits, Shaped .branch depth c) {ts : List Token} {v : α} {ns : List (List UInt8)}
    (stored : (branch bs weight lits hole value names).Stores ts v ns) {next : UInt8}
    {rest : List UInt8} (reaches : Reaches ts (bs ++ next :: rest)) :
    ∃ us, ts = literals bs ++ us ∧ Reaches us (next :: rest) ∧
      ((∃ c ∈ lits, c.firstByte = next ∧ c.Stores us v ns) ∨ ∃ h ∈ hole, h.Stores us v ns) := by
  obtain ⟨_, _, rfl⟩ | ⟨c, child, us, rfl, inner⟩ := (stores_branch _ _ _ _ _ _).1 stored
  · rw [← List.append_nil (literals bs), reaches_literals, reaches_nil_iff] at reaches
    exact absurd reaches (List.cons_ne_nil _ _)
  · rw [reaches_literals] at reaches
    refine ⟨us, rfl, reaches, ?_⟩
    cases child with
    | inr last => exact .inr ⟨c, last, inner⟩
    | inl lit =>
      obtain ⟨more, rfl⟩ := stores_first (below c lit) (written c lit) inner
      obtain ⟨_, _, fits⟩ := reaches
      cases fits with
      | literal => exact .inl ⟨c, lit, rfl, inner⟩

/-- What ends at the label of a branch is its own template. -/
theorem reaches_label (written : ∀ c ∈ lits, c.label ≠ [])
    (below : ∀ c ∈ lits, Shaped .branch depth c)
    (last : ∀ h ∈ hole, Shaped .hole depth h) {ts : List Token} {v : α} {ns : List (List UInt8)}
    (stored : (branch bs weight lits hole value names).Stores ts v ns) (reaches : Reaches ts bs) :
    value = some v ∧ names = ns ∧ ts = literals bs := by
  obtain own | ⟨c, child, us, rfl, inner⟩ := (stores_branch _ _ _ _ _ _).1 stored
  · exact own
  · have reachesNil : Reaches us [] := reaches_literals.1 (by simpa using reaches)
    have more : us ≠ [] := by
      cases child with
      | inl lit =>
        obtain ⟨_, rfl⟩ := stores_first (below c lit) (written c lit) inner
        exact List.cons_ne_nil _ _
      | inr hole =>
        obtain ⟨_, _, rfl, _⟩ := stores_hole (last c hole) inner
        exact List.cons_ne_nil _ _
    exact absurd reachesNil (not_reaches_nil more)

theorem eq_of_firstByte (apart : (lits.map firstByte).Nodup) {c d : Node α} (hc : c ∈ lits)
    (hd : d ∈ lits) (same : c.firstByte = d.firstByte) : c = d :=
  List.inj_on_of_nodup_map apart hc hd same

/-- A child's match is the branch's, when every other match lies in the child or comes later. -/
theorem Answer.of_child {c : Node α} (child : c ∈ lits ∨ c ∈ hole) {captured : List (List UInt8)}
    {tail : List UInt8} {found : Found α} (answer : c.Answer captured tail (some found))
    (others : ∀ us w ms, (branch bs weight lits hole value names).Stores us w ms →
      Reaches us (bs ++ tail) → ∃ vs, us = literals bs ++ vs ∧
        ((c.Stores vs w ms ∧ Reaches vs tail) ∨ ∀ ts v ns, c.Stores ts v ns → Before ts vs)) :
    (branch bs weight lits hole value names).Answer captured (bs ++ tail) (some found) := by
  obtain ⟨ts, v, ns, taken, more, stored, fits, rfl, least⟩ := answer
  refine ⟨literals bs ++ ts, v, ns, taken, more, ?_, fits_literals.2 ⟨_, rfl, fits⟩, rfl, ?_⟩
  · exact (stores_branch _ _ _ _ _ _).2 (.inr ⟨c, child, ts, rfl, stored⟩)
  · intro us w ms other reaches
    obtain ⟨vs, rfl, ⟨inner, reaches⟩ | later⟩ := others us w ms other reaches
    · obtain rfl | before := least vs w ms inner reaches
      · exact .inl rfl
      · exact .inr (before.append_left _)
    · exact .inr ((later ts v ns stored).append_left _)

variable (written : ∀ c ∈ lits, c.label ≠ []) (apart : (lits.map firstByte).Nodup)
  (below : ∀ c ∈ lits, Shaped .branch depth c) (last : ∀ h ∈ hole, Shaped .hole depth h)
  {captured : List (List UInt8)} {next : UInt8} {rest : List UInt8}

include written apart below last

theorem answer_literal {c : Node α} (mem : c ∈ lits) (same : c.firstByte = next) {found : Found α}
    (answer : c.Answer captured (next :: rest) (some found)) :
    (branch bs weight lits hole value names).Answer captured (bs ++ next :: rest) (some found) := by
  refine answer.of_child (.inl mem) fun us w ms other reaches => ?_
  obtain ⟨vs, rfl, reaches, ⟨d, hd, sameD, inner⟩ | ⟨h, hh, inner⟩⟩ :=
    reaches_beyond written below other reaches
  · obtain rfl := eq_of_firstByte apart mem hd (same.trans sameD.symm)
    exact ⟨vs, rfl, .inl ⟨inner, reaches⟩⟩
  · obtain ⟨tok, more, rfl, isHole⟩ := stores_hole (last h hh) inner
    refine ⟨_, rfl, .inr fun ts v ns stored => ?_⟩
    obtain ⟨behind, rfl⟩ := stores_first (below c mem) (written c mem) stored
    exact ⟨[], _, behind, tok, more, rfl, rfl, isHole⟩

omit apart last in
theorem answer_hole (noLit : ∀ c ∈ lits, c.firstByte = next → c.Answer captured (next :: rest) none)
    (answers : ∀ h ∈ hole, h.Answer captured (next :: rest) (h.capture captured (next :: rest))) :
    (branch bs weight lits hole value names).Answer captured (bs ++ next :: rest)
      (hole.bind fun h => h.capture captured (next :: rest)) := by
  have inHole {us : List Token} {w : α} {ms : List (List UInt8)}
      (stored : (branch bs weight lits hole value names).Stores us w ms)
      (reaches : Reaches us (bs ++ next :: rest)) : ∃ vs, us = literals bs ++ vs ∧
        Reaches vs (next :: rest) ∧ ∃ h ∈ hole, h.Stores vs w ms := by
    obtain ⟨vs, rfl, reaches, ⟨c, mem, same, inner⟩ | found⟩ :=
      reaches_beyond written below stored reaches
    · exact absurd reaches (noLit c mem same vs w ms inner)
    · exact ⟨vs, rfl, reaches, found⟩
  cases hole with
  | none =>
    intro us w ms stored reaches
    obtain ⟨_, _, _, h, absent, _⟩ := inHole stored reaches
    simp at absent
  | some h =>
    have answer := answers h rfl
    rw [Option.bind_some]
    cases captures : h.capture captured (next :: rest) with
    | none =>
      intro us w ms stored reaches
      obtain ⟨vs, rfl, reaches, g, hg, inner⟩ := inHole stored reaches
      obtain rfl : h = g := by simpa using hg
      rw [captures] at answer
      exact answer vs w ms inner reaches
    | some found =>
      rw [captures] at answer
      refine answer.of_child (.inr rfl) fun us w ms other reaches => ?_
      obtain ⟨vs, rfl, reaches, g, hg, inner⟩ := inHole other reaches
      obtain rfl : h = g := by simpa using hg
      exact ⟨vs, rfl, .inl ⟨inner, reaches⟩⟩

omit written below last in
/-- Without a match in the literal child of the next byte, none of the literal children matches. -/
theorem answer_none_of_bind (answers : ∀ c ∈ lits,
      c.Answer captured (next :: rest) (c.search captured (next :: rest)))
    (inLits : ((lits.find? fun c => c.firstByte = next).bind fun c =>
      c.search captured (next :: rest)) = none) :
    ∀ c ∈ lits, c.firstByte = next → c.Answer captured (next :: rest) none := by
  intro c mem same
  obtain ⟨d, picked⟩ : ∃ d, lits.find? (fun c => c.firstByte = next) = some d := by
    rw [← Option.isSome_iff_exists, List.find?_isSome]
    exact ⟨c, mem, by simpa using same⟩
  have sameD : d.firstByte = next := by simpa using List.find?_some picked
  obtain rfl := eq_of_firstByte apart mem (List.mem_of_find?_eq_some picked) (same.trans sameD.symm)
  rw [picked, Option.bind_some] at inLits
  rw [← inLits]
  exact answers c mem

end

section
variable {depth weight : Nat} {suffixed : Bool} {next : Option (Node α)} {value : Option α}
  {names captured : List (List UInt8)} {taken rest : List UInt8}
  (ends : ∀ c ∈ next, c.label = [plain slash])
  (below : ∀ c ∈ next, Shaped .branch (depth + 1) c) (written : taken ≠ []) (flat : slash ∉ taken)
  (closed : Text.Closed slash rest)

include written flat closed

/-- What matches from a parameter on is the parameter itself, or it matches behind its component. -/
theorem reaches_parameter {us : List Token} {w : α} {ms : List (List UInt8)}
    (stored : (parameterNode depth weight suffixed next value names).Stores us w ms)
    (reaches : Reaches us (taken ++ rest)) :
    (rest = [] ∧ value = some w ∧ us = [.parameter]) ∨
      ∃ c ∈ next, ∃ vs, us = .parameter :: vs ∧ c.Stores vs w ms ∧ Reaches vs rest := by
  obtain ⟨_, _, fits⟩ := reaches
  obtain ⟨own, _, rfl⟩ | ⟨c, hc, vs, rfl, inner⟩ := (stores_parameterNode _ _ _ _ _ _).1 stored
  · obtain ⟨_, _, behind⟩ := (fits_parameter written flat closed).1 fits
    exact .inl ⟨reaches_nil_iff.1 ⟨_, _, behind⟩, own, rfl⟩
  · obtain ⟨_, _, behind⟩ := (fits_parameter written flat closed).1 fits
    exact .inr ⟨c, hc, vs, rfl, inner, _, _, behind⟩

include ends below

theorem answer_parameter (answers : ∀ c ∈ next,
      c.Answer (captured ++ [taken]) rest (c.search (captured ++ [taken]) rest)) :
    (parameterNode depth weight suffixed next value names).Answer captured (taken ++ rest)
      (if rest = [] then value.map fun v => ⟨v, names.zip (captured ++ [taken])⟩
        else next.bind fun c => c.search (captured ++ [taken]) rest) := by
  have split {us : List Token} {w : α} {ms : List (List UInt8)}
      (stored : (parameterNode depth weight suffixed next value names).Stores us w ms)
      (reaches : Reaches us (taken ++ rest)) := reaches_parameter written flat closed stored reaches
  cases rest with
  | nil =>
    have own {us : List Token} {w : α} {ms : List (List UInt8)}
        (stored : (parameterNode depth weight suffixed next value names).Stores us w ms)
        (reaches : Reaches us (taken ++ [])) : value = some w ∧ us = [.parameter] := by
      obtain ⟨_, here⟩ | ⟨c, hc, vs, rfl, inner, reachesNil⟩ := split stored reaches
      · exact here
      · obtain ⟨_, rfl⟩ := stores_first (below c hc) (by rw [ends c hc]; simp) inner
        exact absurd reachesNil (not_reaches_nil (List.cons_ne_nil _ _))
    rw [if_pos rfl]
    cases value with
    | none =>
      intro us w ms stored reaches
      simpa using (own stored reaches).1
    | some v =>
      refine ⟨[.parameter], v, names, [taken], [], ?_, .parameter written flat closed .nil,
        by simp, ?_⟩
      · exact (stores_parameterNode _ _ _ _ _ _).2 (.inl ⟨rfl, rfl, rfl⟩)
      · intro us w ms stored reaches
        exact .inl (own stored reaches).2
  | cons b tail =>
    have behind {us : List Token} {w : α} {ms : List (List UInt8)}
        (stored : (parameterNode depth weight suffixed next value names).Stores us w ms)
        (reaches : Reaches us (taken ++ b :: tail)) :
        ∃ c ∈ next, ∃ vs, us = .parameter :: vs ∧ c.Stores vs w ms ∧ Reaches vs (b :: tail) := by
      obtain ⟨empty, _⟩ | there := split stored reaches
      · exact absurd empty (List.cons_ne_nil _ _)
      · exact there
    rw [if_neg (List.cons_ne_nil _ _)]
    cases next with
    | none =>
      intro us w ms stored reaches
      obtain ⟨c, absent, _⟩ := behind stored reaches
      simp at absent
    | some c =>
      have answer := answers c rfl
      simp only [Option.bind_some]
      cases searched : c.search (captured ++ [taken]) (b :: tail) with
      | none =>
        rw [searched] at answer
        intro us w ms stored reaches
        obtain ⟨d, hd, vs, rfl, inner, reaches⟩ := behind stored reaches
        obtain rfl : c = d := by simpa using hd
        exact answer vs w ms inner reaches
      | some found =>
        rw [searched] at answer
        obtain ⟨ts, v, ns, pieces, more, stored, fits, rfl, least⟩ := answer
        refine ⟨.parameter :: ts, v, ns, taken :: pieces, more, ?_,
          .parameter written flat closed fits, by simp, ?_⟩
        · exact (stores_parameterNode _ _ _ _ _ _).2 (.inr ⟨c, rfl, ts, rfl, stored⟩)
        · intro us w ms other reaches
          obtain ⟨d, hd, vs, rfl, inner, reaches⟩ := behind other reaches
          obtain rfl : c = d := by simpa using hd
          obtain rfl | before := least vs w ms inner reaches
          · exact .inl rfl
          · exact .inr (before.append_left [.parameter])

end

/-- A search answers from every node on. -/
theorem answer_follow {role : Role} {depth : Nat} {n : Node α} (shaped : Shaped role depth n)
    (captured : List (List UInt8)) (path : List UInt8) (ahead : role = .hole → path ≠ []) :
    Answer n captured path (follow role n captured path) := by
  induction shaped generalizing captured path with
  | @branch depth weight bs lits hole value names written apart below last alive ihBelow ihLast =>
    rw [follow, search_branch]
    cases begun : behind? bs path with
    | none =>
      intro ts v ns stored ⟨_, _, fits⟩
      have spelled : ∃ us, ts = literals bs ++ us := by
        obtain ⟨_, _, rfl⟩ | ⟨c, child, us, rfl, inner⟩ := (stores_branch _ _ _ _ _ _).1 stored
        · exact ⟨[], by simp⟩
        · exact ⟨us, rfl⟩
      obtain ⟨us, rfl⟩ := spelled
      obtain ⟨tail, rfl, _⟩ := fits_literals.1 fits
      simp [behind?_eq_some_iff.2 rfl] at begun
    | some tail =>
      obtain rfl := behind?_eq_some_iff.1 begun
      cases tail with
      | nil =>
        rw [List.append_nil] at *
        cases value with
        | none =>
          intro ts v ns stored reaches
          simpa using (reaches_label written below last stored reaches).1
        | some v =>
          refine ⟨literals bs, v, names, [], [], ?_, ?_, by simp, ?_⟩
          · exact (stores_branch _ _ _ _ _ _).2 (.inl ⟨rfl, rfl, rfl⟩)
          · simpa using fits_literals.2 ⟨[], (List.append_nil bs).symm, .nil⟩
          · intro us w ms stored reaches
            exact .inl (reaches_label written below last stored reaches).2.2
      | cons next rest =>
        have ahead : next :: rest ≠ [] := List.cons_ne_nil _ _
        have answers (c : Node α) (mem : c ∈ lits) :
            c.Answer captured (next :: rest) (c.search captured (next :: rest)) :=
          ihBelow c mem captured (next :: rest) fun _ => ahead
        simp only
        cases inLits : (lits.find? fun c => c.firstByte = next).bind fun c =>
            c.search captured (next :: rest) with
        | some found =>
          obtain ⟨c, picked, searched⟩ := Option.bind_eq_some_iff.1 inLits
          have mem := List.mem_of_find?_eq_some picked
          have answer := answers c mem
          rw [searched] at answer
          exact answer_literal written apart below last mem
            (by simpa using List.find?_some picked) answer
        | none =>
          have noLit := answer_none_of_bind apart answers inLits
          rw [Option.none_or]
          exact answer_hole written below noLit fun h hh =>
            ihLast h hh captured (next :: rest) fun _ => ahead
  | @parameter depth weight suffixed next value names ends below ih =>
    obtain ⟨taken, rest, rfl, flat, closed⟩ := Text.exists_piece slash path
    cases taken with
    | nil =>
      -- nothing stands before the next slash, so that the parameter has nothing to take
      obtain ⟨b, more, rfl⟩ := List.exists_cons_of_ne_nil (ahead rfl)
      obtain rfl : b = slash := closed b rfl
      rw [List.nil_append, follow, capture_parameterNode_slash]
      intro ts v ns stored ⟨_, _, fits⟩
      obtain ⟨_, _, rfl⟩ | ⟨_, _, _, rfl, _⟩ := (stores_parameterNode _ _ _ _ _ _).1 stored
      · exact not_fits_parameter fits
      · exact not_fits_parameter fits
    | cons b more =>
      rw [follow, capture_parameterNode _ _ _ ends _ _ _ (List.cons_ne_nil _ _) flat closed]
      exact answer_parameter ends below (List.cons_ne_nil _ _) flat closed fun c hc =>
        ih c hc (captured ++ [b :: more]) rest (fun h => Role.noConfusion h)
  | @wildcard depth weight name value names =>
    rw [follow, capture_wildcardNode]
    refine ⟨[.wildcard name], value, names, [], [(name, path)], ?_, .wildcard name (ahead rfl),
      by simp, ?_⟩
    · exact (stores_wildcardNode _ _ _ _).2 ⟨rfl, rfl, rfl⟩
    · intro us w ms stored _
      exact .inl ((stores_wildcardNode _ _ _ _).1 stored).2.2

/-- A search from the root finds a match if there is one, and no other match comes before it. -/
theorem answer_search {depth : Nat} {n : Node α} (shaped : Shaped .branch depth n)
    (path : List UInt8) :
    Answer n [] path (n.search [] path) :=
  answer_follow shaped [] path (fun h => Role.noConfusion h)

end Waymark.Routing.Node
