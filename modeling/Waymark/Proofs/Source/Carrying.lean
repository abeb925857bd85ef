import Mathlib.Data.List.Forall2
import Waymark.Proofs.Source.Repeating
import Waymark.Proofs.Source.Shape

/-!
# What a parser finds in trees of one shape

A parser that succeeds on some trees succeeds on other trees of the same shape, wherever those stand
and whatever follows them behind a horizon. That is a relation between parsers with one rule for
each way in which parsers are put together. A rule for what comes behind a parser that takes a tree
may count on fewer tokens, which is what lets rules of the grammar use each other.

* `Eats`, `Advances`: a parser takes a tree; a step of a loop that goes on does;
* `Carries`: success on one row of trees is success on another;
* `Carries.bind`, `Carries.behind`: one parser after another, the second perhaps on fewer tokens;
* `Carries.loop`, `Carries.within`, `Carries.attempt`: what is repeated, enclosed and tried.
-/

namespace Waymark.Source

variable {h : Horizon} {v w : Nat}

/-- Two inputs whose trees have one shape up to the horizon, and there no more than so many
tokens. -/
structure Horizon.Alike (h : Horizon) (w : Nat) (i i' : Input) : Prop where
  trees : ∃ ts us, i.trees = ts ++ h.left ∧ i'.trees = us ++ h.right ∧ shapes ts = shapes us ∧
    tokenCount ts ≤ w
  leftover : i.leftover = none ↔ i'.leftover = none

theorem Horizon.Alike.mono {i i' : Input} (alike : h.Alike v i i') (le : v ≤ w) :
    h.Alike w i i' := by
  obtain ⟨ts, us, left, right, same, small⟩ := alike.trees
  exact ⟨⟨ts, us, left, right, same, Nat.le_trans small le⟩, alike.leftover⟩

theorem tokenCount_cons (t : Tree) (ts : List Tree) : tokenCount ts < tokenCount (t :: ts) := by
  cases t <;> simp only [tokenCount] <;> omega

theorem tokenCount_lt {ts us : List Tree} (sub : ts <:+ us) (shorter : ts.length < us.length) :
    tokenCount ts < tokenCount us := by
  obtain ⟨front, rfl⟩ := sub
  cases front with
  | nil => exact absurd shorter (Nat.lt_irrefl _)
  | cons t more =>
    have first := tokenCount_cons t (more ++ ts)
    rw [tokenCount_append] at first
    rw [List.cons_append]
    omega

/-- Fewer trees hold fewer tokens. -/
theorem Horizon.Alike.lower {i i' j j' : Input} (before : h.Alike w i i') (behind : h.Alike w j j')
    (sub : j.trees <:+ i.trees) (shorter : j.trees.length < i.trees.length) :
    ∃ v < w, h.Alike v j j' := by
  obtain ⟨ts, us, left, -, -, small⟩ := before.trees
  obtain ⟨ts', us', left', right', same', -⟩ := behind.trees
  rw [left, left'] at sub shorter
  rw [List.length_append, List.length_append, Nat.add_lt_add_iff_right] at shorter
  obtain ⟨front, whole⟩ := sub
  rw [← List.append_assoc, List.append_cancel_right_eq] at whole
  have fewer := tokenCount_lt ⟨front, whole⟩ shorter
  exact ⟨tokenCount ts', Nat.lt_of_lt_of_le fewer small,
    ⟨ts', us', left', right', same', Nat.le_refl _⟩, behind.leftover⟩

/-- Any two values. -/
def Loose {α : Type} (_ _ : α) : Prop := True

namespace Parser

variable {α β : Type} {R : α → α → Prop} {S : β → β → Prop} {p p' : Parser α}

/-- A parser takes a tree where it succeeds. -/
class Eats (p : Parser α) : Prop where
  shorter : ∀ {i j a}, p.run i = .ok (a, j) → j.trees.length < i.trees.length

/-- A step of a loop takes a tree where it goes on. -/
class Advances (p : Parser (α ⊕ β)) : Prop where
  shorter : ∀ {i j a}, p.run i = .ok (.inl a, j) → j.trees.length < i.trees.length

instance eats_satisfying (value? : Tree → Option α) : Eats (satisfying value?) where
  shorter run := by
    obtain ⟨t, here, -⟩ := run_satisfying run
    rw [here]
    exact Nat.lt_succ_self _

instance eats_keyword (n : String) : Eats (keyword n) := inferInstanceAs (Eats (satisfying _))
instance eats_anyName : Eats anyName := inferInstanceAs (Eats (satisfying _))
instance eats_name : Eats name := inferInstanceAs (Eats (satisfying _))

instance eats_fail : Eats (fail : Parser α) where
  shorter run := by cases run

instance eats_tree : Eats tree where
  shorter {i j a} run := by
    unfold tree at run
    dsimp only at run
    split at run
    · cases run
    · next t rest here =>
      cases run
      rw [here]
      exact Nat.lt_succ_self _

instance eats_within (d : Delimiter) (p : Parser α) : Eats (within d p) where
  shorter {i j a} run := by
    obtain ⟨a, span, closing⟩ := a
    obtain ⟨content, inside, here, -⟩ := run_within run
    rw [here]
    exact Nat.lt_succ_self _

instance eats_bind [first : Eats p] (f : α → Parser β) : Eats (p >>= f) where
  shorter run := by
    obtain ⟨a, j, found, run⟩ := run_bind run
    exact Nat.lt_of_le_of_lt ((f a).rest_suffix run).length_le (first.shorter found)

instance eats_bindLast {f : α → Parser β} [next : ∀ a, Eats (f a)] : Eats (p >>= f) where
  shorter run := by
    obtain ⟨a, j, found, run⟩ := run_bind run
    exact Nat.lt_of_lt_of_le ((next a).shorter run) (p.rest_suffix found).length_le

instance eats_ite {c : Prop} [Decidable c] {q : Parser α} [yes : Eats p] [no : Eats q] :
    Eats (if c then p else q) := by
  split
  · exact yes
  · exact no

instance eats_marks (text : String) : Eats (marks text) := by
  unfold marks
  infer_instance

instance eats_comma : Eats comma := by
  unfold comma
  infer_instance

instance eats_plus : Eats plus := by
  unfold plus
  infer_instance

instance eats_skipTrees (n : Nat) : Eats (skipTrees (n + 1)) := by
  unfold skipTrees
  infer_instance

instance advances_done (b : β) : Advances (pure (.inr b) : Parser (α ⊕ β)) where
  shorter run := by cases run

instance advances_eats {p : Parser (α ⊕ β)} [eats : Eats p] : Advances p where
  shorter run := eats.shorter run

instance advances_bind {γ : Type} {p : Parser γ} {f : γ → Parser (α ⊕ β)}
    [next : ∀ c, Advances (f c)] :
    Advances (p >>= f) where
  shorter run := by
    obtain ⟨c, j, found, run⟩ := run_bind run
    exact Nat.lt_of_lt_of_le ((next c).shorter run) (p.rest_suffix found).length_le

instance advances_ite {c : Prop} [Decidable c] {p q : Parser (α ⊕ β)} [yes : Advances p]
    [no : Advances q] :
    Advances (if c then p else q) := by
  split
  · exact yes
  · exact no

/-- A parser that says whether it found something takes a tree where it did. -/
class Claims (p : Parser Bool) : Prop where
  shorter : ∀ {i j}, p.run i = .ok (true, j) → j.trees.length < i.trees.length

instance claims_optional (test : Test) [eats : Eats p] :
    Claims (do return (← optional test p).isSome) where
  shorter {i j} run := by
    obtain ⟨found, j, run, last⟩ := run_bind run
    obtain ⟨some', rfl⟩ := run_pure last
    obtain ⟨seen, k, sees, run⟩ := run_bind run
    obtain ⟨rfl, rfl⟩ := run_sees sees
    split at run
    · obtain ⟨a, l, taken, last⟩ := run_bind run
      obtain ⟨rfl, rfl⟩ := run_pure last
      exact eats.shorter taken
    · obtain ⟨rfl, rfl⟩ := run_pure run
      cases some'

instance claims_optionalMarks (text : String) : Claims (optionalMarks text) := claims_optional _
instance claims_optionalWord (n : String) : Claims (optionalWord n) := claims_optional _

/-- A loop that goes on only where something was found. -/
instance advances_ifFound {c : Parser Bool} [claims : Claims c] {p q : Parser (α ⊕ β)}
    [no : Advances q] :
    Advances (do if ← c then p else q) where
  shorter run := by
    obtain ⟨taken, j, found, run⟩ := run_bind run
    cases taken with
    | true => exact Nat.lt_of_le_of_lt (p.rest_suffix run).length_le (claims.shorter found)
    | false => exact Nat.lt_of_lt_of_le (no.shorter run) (c.rest_suffix found).length_le

/-- What the first parser finds in trees before the horizon, the second finds in trees of the same
shape: a related value, and inputs that are alike again. -/
def Carries (h : Horizon) (w : Nat) (R : α → α → Prop) (p p' : Parser α) : Prop :=
  ∀ ⦃i i' j : Input⦄ ⦃a : α⦄, h.Alike w i i' → p.run i = .ok (a, j) →
    h.left.length ≤ j.trees.length →
    ∃ a' j', p'.run i' = .ok (a', j') ∧ R a a' ∧ h.Alike w j j'

namespace Carries

theorem mono (carries : Carries h w R p p') {Q : α → α → Prop} (imp : ∀ a a', R a a' → Q a a') :
    Carries h w Q p p' := by
  intro i i' j a alike run far
  obtain ⟨a', j', run', related, alike⟩ := carries alike run far
  exact ⟨a', j', run', imp a a' related, alike⟩

theorem pure {a a' : α} (related : R a a') : Carries h w R (pure a) (pure a') := by
  intro i i' j b alike run _
  obtain ⟨rfl, rfl⟩ := run_pure run
  exact ⟨a', i', rfl, related, alike⟩

theorem fail : Carries h w R fail p' := by
  intro i i' j b alike run
  cases run

theorem failAt (place : Position) : Carries h w R (failAt place) p' := by
  intro i i' j b alike run
  cases run

theorem bind {f f' : α → Parser β} (first : Carries h w R p p')
    (next : ∀ a a', R a a' → Carries h w S (f a) (f' a')) :
    Carries h w S (p >>= f) (p' >>= f') := by
  intro i i' k b alike run far
  obtain ⟨a, j, found, run⟩ := run_bind run
  have behind := ((f a).rest_suffix run).length_le
  obtain ⟨a', j', found', related, alike⟩ := first alike found (Nat.le_trans far behind)
  rw [run_bind_ok found']
  exact next a a' related alike run far

/-- One parser behind another that takes a tree. -/
theorem behind [eats : Eats p] {f f' : α → Parser β} (first : Carries h w R p p')
    (next : ∀ v < w, ∀ a a', R a a' → Carries h v S (f a) (f' a')) :
    Carries h w S (p >>= f) (p' >>= f') := by
  intro i i' k b alike run far
  obtain ⟨a, j, found, run⟩ := run_bind run
  have enough := ((f a).rest_suffix run).length_le
  obtain ⟨a', j', found', related, alike'⟩ := first alike found (Nat.le_trans far enough)
  obtain ⟨v, fewer, alike'⟩ := alike.lower alike' (p.rest_suffix found) (eats.shorter found)
  obtain ⟨b', k', run', related', alike''⟩ := next v fewer a a' related alike' run far
  rw [run_bind_ok found']
  exact ⟨b', k', run', related', alike''.mono (Nat.le_of_lt fewer)⟩

theorem failAtThen {f : α → Parser β} (place : Position) {q : Parser β} :
    Carries h w S (Parser.failAt place >>= f) q := by
  intro i i' j b alike run
  cases run

theorem failThen {f : α → Parser β} {q : Parser β} : Carries h w S (Parser.fail >>= f) q := by
  intro i i' j b alike run
  cases run

theorem bindSame {f f' : α → Parser β} (first : Carries h w Eq p p')
    (next : ∀ a, Carries h w S (f a) (f' a)) :
    Carries h w S (p >>= f) (p' >>= f') := by
  refine bind first ?_
  rintro a _ rfl
  exact next a

theorem ite {c : Prop} [Decidable c] {q q' : Parser α} (yes : c → Carries h w R p p')
    (no : ¬ c → Carries h w R q q') :
    Carries h w R (if c then p else q) (if c then p' else q') := by
  split
  · exact yes ‹_›
  · exact no ‹_›

theorem sees (test : Test) [reads : h.Reads test] : Carries h w Eq (sees test) (sees test) := by
  intro i i' j b alike run _
  obtain ⟨rfl, rfl⟩ := run_sees run
  obtain ⟨ts, us, left, right, same, -⟩ := alike.trees
  refine ⟨test i'.trees, i', rfl, ?_, alike⟩
  rw [left, right]
  exact reads.same same

theorem ifSees {test : Test} [h.Reads test] {q q' : Parser α} (yes : Carries h w R p p')
    (no : Carries h w R q q') :
    Carries h w R (do if ← Parser.sees test then p else q)
      (do if ← Parser.sees test then p' else q') := by
  refine bind (sees test) ?_
  rintro b _ rfl
  exact ite (fun _ => yes) (fun _ => no)

/-- Two ways to one continuation, told apart by a test. -/
theorem joinSees {γ δ : Type} {test : Test} [h.Reads test] {T : γ → γ → Prop} {U : δ → δ → Prop}
    {q q' : Parser γ} {r r' : Parser δ} (yes : Carries h w T q q') (no : Carries h w U r r')
    (next : Carries h w R p p') :
    Carries h w R (do if ← Parser.sees test then (do let _ ← q; p) else (do let _ ← r; p))
      (do if ← Parser.sees test then (do let _ ← q'; p') else (do let _ ← r'; p')) :=
  ifSees (bind yes fun _ _ _ => next) (bind no fun _ _ _ => next)

/-- Two ways to one continuation, which goes on with what was found. -/
theorem joinSeesOf {γ : Type} {test : Test} [h.Reads test] {T : γ → γ → Prop} {q q' r r' : Parser γ}
    {f f' : γ → Parser α} (yes : Carries h w T q q') (no : Carries h w T r r')
    (next : ∀ c c', T c c' → Carries h w R (f c) (f' c')) :
    Carries h w R (do if ← Parser.sees test then f (← q) else f (← r))
      (do if ← Parser.sees test then f' (← q') else f' (← r')) :=
  ifSees (bind yes next) (bind no next)

theorem place : Carries h w Loose place place := by
  intro i i' j b alike run _
  cases run
  exact ⟨_, i', rfl, trivial, alike⟩

/-- What depends on the trees to come. -/
theorem bindAhead {f f' : List Tree → Parser α}
    (next : ∀ ts us, shapes ts = shapes us →
      Carries h w R (f (ts ++ h.left)) (f' (us ++ h.right))) :
    Carries h w R (ahead >>= f) (ahead >>= f') := by
  intro i i' j b alike run far
  obtain ⟨ts, us, left, right, same, -⟩ := alike.trees
  have found := next ts us same
  rw [← left, ← right] at found
  exact found alike run far

theorem ahead : Carries .closed w (fun ts us => shapes ts = shapes us) ahead ahead := by
  intro i i' j b alike run _
  cases run
  obtain ⟨ts, us, left, right, same, -⟩ := alike.trees
  refine ⟨_, i', rfl, ?_, alike⟩
  rwa [left, right, Horizon.closed, List.append_nil, List.append_nil]

/-- The first tree of an input that goes on behind the horizon, and the one that it is like. -/
theorem exists_first {i i' : Input} {t : Tree} {rest : List Tree} (alike : h.Alike w i i')
    (here : i.trees = t :: rest) (far : h.left.length ≤ rest.length) :
    ∃ ts u us, t.Like u ∧ tokenCount (t :: ts) ≤ w ∧ rest = ts ++ h.left ∧
    i'.trees = u :: (us ++ h.right) ∧
      shapes ts = shapes us := by
  obtain ⟨ts, us, left, right, same, small⟩ := alike.trees
  rw [here] at left
  cases ts with
  | nil =>
    have long := congrArg List.length left
    simp only [List.length_cons, List.nil_append] at long
    omega
  | cons t' more =>
    obtain ⟨rfl, rfl⟩ := List.cons.inj left
    obtain ⟨u, more', rfl, like, same⟩ := exists_like same
    exact ⟨more, u, more', like, small, rfl, right, same⟩

theorem satisfying {value? : Tree → Option α} (kept : ∀ {t u a}, t.Like u → value? t = some a →
    ∃ a', value? u = some a' ∧ R a a') : Carries h w R (satisfying value?) (satisfying value?) := by
  intro i i' j a alike run far
  obtain ⟨t, here, found⟩ := run_satisfying run
  obtain ⟨ts, u, us, like, small, left, right, same⟩ := exists_first alike here far
  obtain ⟨a', found', related⟩ := kept like found
  refine ⟨a', { i' with trees := us ++ h.right }, ?_, related, ⟨ts, us, left, rfl, same, ?_⟩, ?_⟩
  · simp only [Parser.satisfying, right, found']
  · exact Nat.le_trans (Nat.le_of_lt (tokenCount_cons t ts)) small
  · unfold Parser.satisfying at run
    simp only [here, found, Except.ok.injEq, Prod.mk.injEq, true_and] at run
    rw [← run]
    exact alike.leftover

theorem keyword (n : String) : Carries h w Loose (keyword n) (keyword n) :=
  satisfying fun like found => by
    cases like with
    | word m s s' =>
      dsimp only at found ⊢
      split at found
      · next same => exact ⟨s'.start, if_pos same, trivial⟩
      · cases found
    | mark | literal | group => cases found

theorem anyName : Carries h w (fun a a' => a.1 = a'.1) anyName anyName :=
  satisfying fun like found => by
    cases like with
    | word m s s' =>
      cases found
      exact ⟨(m, s'), rfl, rfl⟩
    | mark | literal | group => cases found

theorem name : Carries h w (fun a a' => a.1 = a'.1) name name :=
  satisfying fun like found => by
    cases like with
    | word m s s' =>
      dsimp only at found ⊢
      split at found
      · cases found
      · next free =>
        cases found
        exact ⟨(m, s'), if_neg free, rfl⟩
    | mark | literal | group => cases found

theorem anyGroup : Carries h w Eq anyGroup anyGroup :=
  satisfying fun like found => by
    cases like with
    | group d => exact ⟨_, found, rfl⟩
    | word | mark | literal => cases found

theorem opaqueGroup (d : Delimiter) : Carries h w Eq (opaqueGroup d) (opaqueGroup d) :=
  satisfying fun like found => by
    cases like with
    | group d' => exact ⟨_, found, rfl⟩
    | word | mark | literal => cases found

theorem tree : Carries h w Tree.Like tree tree := by
  intro i i' j t alike run far
  unfold Parser.tree at run
  dsimp only at run
  split at run
  · cases run
  · next t rest here =>
    cases run
    obtain ⟨ts, u, us, like, small, left, right, same⟩ := exists_first alike here far
    refine ⟨u, { i' with trees := us ++ h.right }, ?_, like, ⟨ts, us, left, rfl, same, ?_⟩,
      alike.leftover⟩
    · simp only [Parser.tree, right]
    · exact Nat.le_trans (Nat.le_of_lt (tokenCount_cons t ts)) small

theorem skipTrees (n : Nat) : Carries h w Eq (skipTrees n) (skipTrees n) := by
  induction n with
  | zero => exact pure rfl
  | succ n ih => exact bind tree fun _ _ _ => ih

theorem marks (text : String)
    [h.Reads (Ahead.marks text)] : Carries h w Loose (marks text) (marks text) := by
  unfold Parser.marks
  exact ifSees (bind tree fun _ _ _ => bind (skipTrees _) fun _ _ _ => pure trivial) fail

theorem comma [h.Plain] : Carries h w Eq comma comma := bind (marks ",") fun _ _ _ => pure rfl

theorem plus [h.Plain] : Carries h w Eq plus plus := bind (marks "+") fun _ _ _ => pure rfl

theorem lifetime : Carries h w Eq Parser.lifetime Parser.lifetime := ifSees (skipTrees 2) fail

theorem literal [h.Plain] : Carries h w Eq Parser.literal Parser.literal :=
  ifSees (ifSees (skipTrees 2) (skipTrees 1)) fail

theorem atEnd : Carries h w Eq atEnd atEnd := sees Ahead.nothing

theorem optional {test : Test} [h.Reads test] (item : Carries h w R p p') :
    Carries h w (Option.Rel R) (optional test p) (optional test p') :=
  ifSees (bind item fun _ _ related => pure (.some related)) (pure .none)

theorem optionalSame {test : Test} [h.Reads test] (item : Carries h w Eq p p') :
    Carries h w Eq (Parser.optional test p) (Parser.optional test p') :=
  ifSees (bindSame item fun _ => pure rfl) (pure rfl)

theorem isSome_congr {a a' : Option α} (related : Option.Rel R a a') : a.isSome = a'.isSome := by
  cases related <;> rfl

theorem optionalWord (n : String) : Carries h w Eq (optionalWord n) (optionalWord n) :=
  bind (optional (keyword n)) fun _ _ related => pure (isSome_congr related)

theorem optionalMarks (text : String) [h.Reads (Ahead.marks text)] :
    Carries h w Eq (optionalMarks text) (optionalMarks text) :=
  bind (optional (marks text)) fun _ _ related => pure (isSome_congr related)

/-- What stands behind something that was found. -/
theorem ifFound {c c' : Parser Bool} [claims : Claims c] {q q' : Parser α}
    (first : Carries h w Eq c c') (yes : ∀ v < w, Carries h v R p p') (no : Carries h w R q q') :
    Carries h w R (do if ← c then p else q) (do if ← c' then p' else q') := by
  intro i i' k b alike run far
  obtain ⟨taken, j, found, run⟩ := run_bind run
  cases taken with
  | true =>
    have enough := (p.rest_suffix run).length_le
    obtain ⟨_, j', found', rfl, alike'⟩ := first alike found (Nat.le_trans far enough)
    obtain ⟨v, fewer, alike'⟩ := alike.lower alike' (c.rest_suffix found) (claims.shorter found)
    obtain ⟨b', k', run', related, alike''⟩ := yes v fewer alike' run far
    rw [run_bind_ok found']
    exact ⟨b', k', run', related, alike''.mono (Nat.le_of_lt fewer)⟩
  | false =>
    have enough := (q.rest_suffix run).length_le
    obtain ⟨_, j', found', rfl, alike'⟩ := first alike found (Nat.le_trans far enough)
    rw [run_bind_ok found']
    exact no alike' run far

theorem ifMarks (text : String) [h.Reads (Ahead.marks text)] {q q' : Parser α}
    (yes : ∀ v < w, Carries h v R p p') (no : Carries h w R q q') :
    Carries h w R (do if ← Parser.optionalMarks text then p else q)
      (do if ← Parser.optionalMarks text then p' else q') :=
  ifFound (optionalMarks text) yes no

theorem ifWord (n : String) {q q' : Parser α} (yes : ∀ v < w, Carries h v R p p')
    (no : Carries h w R q q') :
    Carries h w R (do if ← Parser.optionalWord n then p else q)
      (do if ← Parser.optionalWord n then p' else q') :=
  ifFound (optionalWord n) yes no

/-- What stands between delimiters holds fewer tokens, and nothing follows there. -/
theorem within (d : Delimiter) (inside : ∀ v < w, Carries .closed v R p p') :
    Carries h w (fun a a' => R a.1 a'.1) (within d p) (within d p') := by
  rintro i i' j ⟨a, span, closing⟩ alike run far
  obtain ⟨content, k, here, found⟩ := run_within run
  simp only [Parser.within, here, found, if_true, Except.ok.injEq, Prod.mk.injEq, true_and] at run
  obtain ⟨ts, u, us, like, small, left, right, same⟩ := exists_first alike here far
  cases like with
  | group _ _ span' _ closing' contents =>
    rename_i content'
    have fewer : tokenCount content < w := by
      rw [tokenCount] at small
      omega
    have enclosed : Horizon.closed.Alike (tokenCount content) ⟨content, closing, i.leftover⟩
        ⟨content', closing', i'.leftover⟩ :=
      ⟨⟨content, content', by simp [Horizon.closed], by simp [Horizon.closed], contents,
        Nat.le_refl _⟩, alike.leftover⟩
    obtain ⟨a', k', found', related, alike'⟩ := inside _ fewer enclosed found (Nat.zero_le _)
    obtain ⟨more, more', rest, rest', same', -⟩ := alike'.trees
    refine ⟨(a', span', closing'),
      ⟨us ++ h.right, i'.scope, k'.leftover <|> k'.trees.head?.map fun t => t.span.start⟩,
      ?_, related, ⟨ts, us, ?_, rfl, same, ?_⟩, ?_⟩
    · simp only [Parser.within, right, found', if_true]
    · rw [← run]
      exact left
    · exact Nat.le_trans (Nat.le_of_lt (tokenCount_cons _ ts)) small
    · have unread : k.trees = [] ↔ k'.trees = [] := by
        rw [← List.length_eq_zero_iff, ← List.length_eq_zero_iff, rest, rest', List.length_append,
          List.length_append, length_congr same']
        rfl
      have seen := alike'.leftover
      rw [← run]
      simp only [Option.orElse_eq_orElse, Option.orElse_eq_or, Option.or_eq_none_iff,
        Option.map_eq_none_iff, List.head?_eq_none_iff, unread, seen]

theorem alike_symm {i i' : Input} (alike : h.Alike w i i') : h.symm.Alike w i' i := by
  obtain ⟨ts, us, left, right, same, small⟩ := alike.trees
  exact ⟨⟨us, ts, right, left, same.symm, by rwa [← tokenCount_congr same]⟩, alike.leftover.symm⟩

/-- What is tried fails on both rows or on none, if it stays before the horizon. -/
theorem attemptBefore (one : Carries h w R p p')
    (other : Carries h.symm w (fun a a' => R a' a) p' p)
    (near : ∀ {i j : Input} {us : List Tree} {a : α}, i.trees = us ++ h.right →
      p'.run i = .ok (a, j) →
      h.right.length ≤ j.trees.length) : Carries h w (Option.Rel R) (attempt p) (attempt p') := by
  intro i i' j b alike run far
  have fresh : h.Alike w { i with leftover := none } { i' with leftover := none } :=
    ⟨alike.trees, Iff.rfl⟩
  unfold Parser.attempt at run ⊢
  dsimp only at run ⊢
  split at run
  · next e failed =>
    cases run
    cases found' : p'.run { i' with leftover := none } with
    | error e' => exact ⟨none, i', rfl, .none, alike⟩
    | ok a' =>
      obtain ⟨a', j'⟩ := a'
      obtain ⟨-, us, -, right, -⟩ := fresh.trees
      obtain ⟨a, k, found, -, -⟩ := other (alike_symm fresh) found' (near right found')
      rw [found] at failed
      cases failed
  · next a k found =>
    cases run
    obtain ⟨a', k', found', related, alike'⟩ := one fresh found far
    rw [found']
    refine ⟨some a', _, rfl, .some related, alike'.trees, ?_⟩
    have outer := alike.leftover
    have inner := alike'.leftover
    simp only [Option.orElse_eq_orElse, Option.orElse_eq_or, Option.or_eq_none_iff, outer, inner]

theorem attempt (one : Carries .closed w R p p')
    (other : Carries .closed w (fun a a' => R a' a) p' p) :
    Carries .closed w (Option.Rel R) (attempt p) (attempt p') :=
  attemptBefore one other fun _ _ => Nat.zero_le _

theorem lookahead (found : Carries .closed w R p p') :
    Carries .closed w R (lookahead p) (lookahead p') := by
  intro i i' j a alike run far
  have fresh : Horizon.closed.Alike w { i with leftover := none } { i' with leftover := none } :=
    ⟨alike.trees, Iff.rfl⟩
  unfold Parser.lookahead at run ⊢
  dsimp only at run ⊢
  split at run
  · cases run
  · next a k read =>
    cases run
    obtain ⟨a', k', read', related, -⟩ := found fresh read (Nat.zero_le _)
    rw [read']
    exact ⟨a', i', rfl, related, alike⟩

/-- Loops repeat alike for so many steps as are left to both; where each step that goes on takes a
tree, those of the second need only be more than trees. -/
theorem loopFrom {step step' : α → Parser (α ⊕ β)}
    (steps : ∀ a a', R a a' → Carries h w (Sum.LiftRel R S) (step a) (step' a'))
    {n m : Nat} {s s' : α} (start : R s s') {i i' j : Input} {b : β} (alike : h.Alike w i i')
    (enough : n ≤ m ∨ (∀ a, Advances (step a)) ∧ i.trees.length < m + h.left.length)
    (run : (loopFrom step n s).run i = .ok (b, j)) (far : h.left.length ≤ j.trees.length) :
    ∃ b' j', (Parser.loopFrom step' m s').run i' = .ok (b', j') ∧ S b b' ∧ h.Alike w j j' := by
  induction n generalizing m s s' i i' with
  | zero => cases run
  | succ n ih =>
    have longer := ((Parser.loopFrom step (n + 1) s).rest_suffix run).length_le
    obtain ⟨m, rfl⟩ : ∃ l, m = l + 1 := ⟨m - 1, by omega⟩
    obtain ⟨next, i₁, stepped, goes⟩ := run_bind run
    cases next with
    | inl a =>
      have behind := ((Parser.loopFrom step n a).rest_suffix goes).length_le
      obtain ⟨_, i₁', stepped', related, alike⟩ :=
        steps s s' start alike stepped (Nat.le_trans far behind)
      cases related with
      | inl related =>
        have left : n ≤ m ∨ (∀ a, Advances (step a)) ∧ i₁.trees.length < m + h.left.length := by
          refine enough.imp Nat.le_of_succ_le_succ fun ⟨advances, more⟩ => ⟨advances, ?_⟩
          have shorter := (advances s).shorter stepped
          omega
        have found := ih related alike left goes
        rw [Parser.loopFrom, run_bind_ok stepped']
        exact found
    | inr b =>
      obtain ⟨rfl, rfl⟩ := run_pure goes
      obtain ⟨_, i₁', stepped', related, alike⟩ := steps s s' start alike stepped far
      cases related with
      | inr related =>
        rw [Parser.loopFrom, run_bind_ok stepped']
        exact ⟨_, i₁', rfl, related, alike⟩

/-- A loop repeats alike from states that are related, for each step that goes on takes a tree. -/
theorem loop {step step' : α → Parser (α ⊕ β)} [advances : ∀ a, Advances (step a)]
    {s s' : α} (start : R s s')
    (steps : ∀ a a', R a a' → Carries h w (Sum.LiftRel R S) (step a) (step' a')) :
    Carries h w S (loop step s) (loop step' s') := by
  intro i i' j b alike run far
  obtain ⟨ts, us, left, right, same, -⟩ := alike.trees
  obtain ⟨_, _, seen, run⟩ := run_bind run
  cases seen
  refine loopFrom (m := i'.trees.length + 2) steps start alike (.inr ⟨advances, ?_⟩) run far
  rw [left, right, List.length_append, List.length_append, length_congr same]
  omega

/-- Where nothing follows, any loop does. -/
theorem loopToEnd {step step' : α → Parser (α ⊕ β)} {s s' : α} (start : R s s')
    (steps : ∀ a a', R a a' → Carries .closed w (Sum.LiftRel R S) (step a) (step' a')) :
    Carries .closed w S (Parser.loop step s) (Parser.loop step' s') := by
  intro i i' j b alike run far
  obtain ⟨ts, us, left, right, same, -⟩ := alike.trees
  obtain ⟨_, _, seen, run⟩ := run_bind run
  cases seen
  refine loopFrom (m := i'.trees.length + 2) steps start alike (.inl ?_) run far
  rw [left, right, List.length_append, List.length_append, length_congr same]
  exact Nat.le_refl _

theorem many {more : Test} [h.Reads more] [Eats p] (item : Carries h w R p p') :
    Carries h w (List.Forall₂ R) (many more p) (many more p') :=
  loop .nil fun _ _ related => ifSees (bind item fun _ _ one => pure (.inl (.cons one related)))
    (pure (.inr (List.rel_reverse related)))

theorem manyToEnd {more : Test} [Horizon.closed.Reads more] (item : Carries .closed w R p p') :
    Carries .closed w (List.Forall₂ R) (Parser.many more p) (Parser.many more p') :=
  loopToEnd .nil fun _ _ related => ifSees (bind item fun _ _ one =>
    pure (.inl (.cons one related)))
    (pure (.inr (List.rel_reverse related)))

/-- Lists of equal items are equal. -/
theorem same {p p' : Parser (List α)} (found : Carries h w (List.Forall₂ Eq) p p') :
    Carries h w Eq p p' := by
  rwa [List.forall₂_eq_eq_eq] at found

theorem separated {stop : Test} [h.Reads stop] {separator : Parser Unit} [Eats separator]
    (between : Carries h w Eq separator separator) (item : Carries h w R p p') :
    Carries h w (fun a a' => List.Forall₂ R a.1 a'.1 ∧ a.2 = a'.2) (separated stop separator p)
      (Parser.separated stop separator p') := by
  refine loop .nil fun found found' related => ifSees (pure (.inr ⟨List.rel_reverse related, ?_⟩))
    ?_
  · cases related <;> rfl
  · refine bind item fun a a' one =>
      ifSees (pure (.inr ⟨List.rel_reverse (.cons one related), rfl⟩)) ?_
    exact bind between fun _ _ _ => pure (.inl (.cons one related))

theorem listed [h.Plain] (item : Carries h w R p p') :
    Carries h w (List.Forall₂ R) (listed p) (listed p') :=
  bind (separated comma item) fun _ _ related => pure related.1

end Carries

end Parser

end Waymark.Source
