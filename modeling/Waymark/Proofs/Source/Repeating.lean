import Waymark.Proofs.Source.Items

/-!
# Running a parser on given trees

What a parser makes of given trees is told step by step: one parser behind another, and a loop by
its first step and the loop behind it.

* `run_bind_ok`, `run_bind_error`: one parser behind another;
* `run_loop_stop`, `run_loop_next`: a loop by its first step;
* `run_many_nil`, `run_many_cons`, `Lists.listed`: items in a row, and items with commas between
  them.
-/

namespace Waymark.Source.Parser

variable {α β : Type}

theorem run_bind_ok {p : Parser α} {f : α → Parser β} {i j : Input} {a : α}
    (found : p.run i = .ok (a, j)) :
    (p >>= f).run i = (f a).run j := by
  change (andThen p f).run i = _
  simp only [andThen, found]

theorem run_bind_error {p : Parser α} {f : α → Parser β} {i : Input} {e : Position}
    (failed : p.run i = .error e) :
    (p >>= f).run i = .error e := by
  change (andThen p f).run i = _
  simp only [andThen, failed]

/-! ## Loops -/

section
variable {step : α → Parser (α ⊕ β)} {a c : α} {b : β} {i j k : Input}

/-- A loop that comes to an end has enough steps with any further ones. -/
theorem loopFrom_mono {n m : Nat} (run : (loopFrom step n a).run i = .ok (b, k)) (more : n ≤ m) :
    (loopFrom step m a).run i = .ok (b, k) := by
  induction n generalizing a i m with
  | zero => cases run
  | succ n ih =>
    obtain ⟨m, rfl⟩ : ∃ l, m = l + 1 := ⟨m - 1, by omega⟩
    obtain ⟨next, j, stepped, goes⟩ := run_bind run
    refine (run_bind_ok stepped).trans ?_
    cases next with
    | inl c => exact ih goes (by omega)
    | inr b' => exact goes

theorem run_loop_stop (last : (step a).run i = .ok (.inr b, j)) :
    (loop step a).run i = .ok (b, j) :=
  (run_bind_ok (p := ahead) rfl).trans (run_bind_ok last)

/-- A step that takes a tree, and the loop from there on. -/
theorem run_loop_next (goes : (step a).run i = .ok (.inl c, j))
    (shorter : j.trees.length < i.trees.length)
    (rest : (loop step c).run j = .ok (b, k)) : (loop step a).run i = .ok (b, k) := by
  obtain ⟨_, _, ahead, rest⟩ := run_bind rest
  cases ahead
  exact (run_bind_ok (p := Parser.ahead) rfl).trans
    ((run_bind_ok goes).trans (loopFrom_mono rest (by omega)))

end

/-! ## Items -/

section
variable {more : List Tree → Bool} {item : Parser α} {i j k : Input} {a : α} {as : List α}

theorem run_manyStep (asked : more i.trees = true) (found : List α) :
    (do if ← sees more then return .inl ((← item) :: found) else return .inr found.reverse :
      Parser (List α ⊕ List α)).run i =
      (item >>= fun a => pure (.inl (a :: found)) : Parser (List α ⊕ List α)).run i := by
  refine (run_bind_ok rfl).trans ?_
  rw [asked]
  rfl

theorem run_manyStep_of_not (ended : more i.trees = false) (found : List α) :
    (do if ← sees more then return .inl ((← item) :: found) else return .inr found.reverse :
      Parser (List α ⊕ List α)).run i =
      .ok (.inr found.reverse, i) := by
  refine (run_bind_ok rfl).trans ?_
  rw [ended]
  rfl

/-- Items that are asked for in a row, each of which takes a tree. -/
inductive Finds (more : List Tree → Bool) (item : Parser α) : Input → List α → Input → Prop
  | nil {i : Input} (ended : more i.trees = false) : Finds more item i [] i
  | next {i j k : Input} {a : α} {as : List α} (asked : more i.trees = true)
      (found : item.run i = .ok (a, j))
      (shorter : j.trees.length < i.trees.length) (rest : Finds more item j as k) :
      Finds more item i (a :: as) k

theorem Finds.many (finds : Finds more item i as k) : (many more item).run i = .ok (as, k) := by
  suffices steps : ∀ found : List α, (loop (fun found => do
      if ← sees more then return .inl ((← item) :: found) else return .inr found.reverse) found).run
        i =
        .ok (found.reverse ++ as, k) from steps []
  induction finds with
  | nil ended =>
    intro found
    rw [List.append_nil]
    exact run_loop_stop (run_manyStep_of_not ended found)
  | @next i j k a as asked taken shorter _ ih =>
    intro found
    have rest := ih (a :: found)
    rw [List.reverse_cons, List.append_assoc, List.singleton_append] at rest
    exact run_loop_next ((run_manyStep asked found).trans (run_bind_ok taken)) shorter rest

/-- A second item that is asked for and fails. -/
theorem run_many_error {e : Position} (asked : more i.trees = true)
    (found : item.run i = .ok (a, j))
    (asked' : more j.trees = true) (failed : item.run j = .error e) :
    (many more item).run i = .error e := by
  refine (run_bind_ok (p := ahead) rfl).trans ?_
  refine (run_bind_ok ((run_manyStep asked []).trans (run_bind_ok found))).trans ?_
  exact run_bind_error ((run_manyStep asked' [a]).trans (run_bind_error failed))

theorem run_optional_of_not {test : List Tree → Bool} {p : Parser α}
    (other : test i.trees = false) :
    (optional test p).run i = .ok (none, i) := by
  refine (run_bind_ok rfl).trans ?_
  rw [other]
  rfl

theorem run_comma {joint : Bool} {span : Span} {rest : List Tree}
    (here : i.trees = .mark ',' joint span :: rest) :
    comma.run i = .ok ((), { i with trees := rest }) := by
  obtain ⟨trees, scope, leftover⟩ := i
  obtain rfl : trees = _ := here
  rfl

/-- Items with commas between them up to the end of the trees. -/
inductive Lists (item : Parser α) : Input → List α → Input → Prop
  | nil {i : Input} (ended : i.trees = []) : Lists item i [] i
  | last {i j : Input} {a : α} (some' : i.trees ≠ []) (found : item.run i = .ok (a, j))
      (ended : j.trees = []) :
      Lists item i [a] j
  | next {i j k : Input} {a : α} {as : List α} {joint : Bool} {span : Span} {rest : List Tree}
      (found : item.run i = .ok (a, j)) (separated : j.trees = .mark ',' joint span :: rest)
      (more : Lists item { j with trees := rest } as k) : Lists item i (a :: as) k

theorem Lists.listed (lists : Lists item i as j) : (listed item).run i = .ok (as, j) := by
  suffices steps : ∀ found : List α, ∃ trailing, (loop (fun found => do
      if ← sees Ahead.nothing then return .inr (found.reverse, !found.isEmpty)
      let found := (← item) :: found
      if ← sees Ahead.nothing then return .inr (found.reverse, false)
      comma
      return .inl found) found).run i = .ok ((found.reverse ++ as, trailing), j) by
    obtain ⟨trailing, run⟩ := steps []
    exact (run_bind_ok run).trans rfl
  induction lists with
  | @nil i ended =>
    intro found
    refine ⟨!found.isEmpty, run_loop_stop ((run_bind_ok rfl).trans ?_)⟩
    rw [ended, List.append_nil]
    rfl
  | @last i j a some' taken ended =>
    intro found
    have more : Ahead.nothing i.trees = false := by simpa [Ahead.nothing] using some'
    refine ⟨false, run_loop_stop ((run_bind_ok rfl).trans ?_)⟩
    rw [more]
    refine (run_bind_ok taken).trans ((run_bind_ok rfl).trans ?_)
    rw [ended, ← List.reverse_cons]
    rfl
  | @next i j k a as joint span rest taken apart _ ih =>
    intro found
    obtain ⟨trailing, behind⟩ := ih (a :: found)
    rw [List.reverse_cons, List.append_assoc, List.singleton_append] at behind
    have fewer := (item.rest_suffix taken).length_le
    rw [apart] at fewer
    have more : Ahead.nothing i.trees = false := by
      cases trees : i.trees with
      | nil =>
        rw [trees] at fewer
        cases fewer
      | cons t more => rfl
    refine ⟨trailing, run_loop_next (j := { j with trees := rest }) ((run_bind_ok rfl).trans ?_)
      fewer behind⟩
    rw [more]
    refine (run_bind_ok taken).trans ((run_bind_ok rfl).trans ?_)
    rw [apart]
    exact (run_bind_ok (run_comma apart)).trans rfl

end

end Waymark.Source.Parser
