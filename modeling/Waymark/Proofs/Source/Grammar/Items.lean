import Waymark.Proofs.Source.Grammar.Functions

/-!
# Items of one shape
-/

namespace Waymark.Source.Grammar

open Ahead Waymark.Source.Parser

variable {g g' : Grammar} {n w : Nat} {h : Horizon}

theorem carries_signature (known : Known n g g') (back : Known n g' g) (room : 3 * w ≤ n)
    (safe : Bool) :
    Carries .closed w Loose (g.signature safe) (g'.signature safe) := by
  unfold signature
  dsimp only
  refine .bind (.optionalWord "const") fun _ _ _ => .bindSame (.optionalWord "async") fun _ => ?_
  refine .bindSame (.optionalWord "unsafe") fun isUnsafe => ?_
  refine have rest (isSafe : Bool) : Carries .closed w Loose _ _ := ?_
    .ite (fun _ => .bindSame (.optionalWord "safe") fun isSafe => rest isSafe) fun _ =>
      .bindSame (.pure rfl) fun isSafe => rest isSafe
  refine .bind (.optionalSame carries_abi) fun _ _ _ => ?_
  refine .bind (.keyword "fn") fun _ _ _ => ?_
  refine .bind .name fun _ _ _ => ?_
  refine .bindSame (carries_generics known room) fun _ => ?_
  refine .bind (.within (R := Eq) .paren fun _ _ => carries_parameters known back (by omega))
    fun _ _ _ => ?_
  refine .bindSame (carries_output known room true) fun _ => ?_
  refine .bind (carries_whereClause known room) fun _ _ _ => ?_
  exact .pure trivial

theorem carries_importTree (known : Known n g g') (room : 3 * w ≤ n) (root : Bool) :
    Carries h w Eq (g.importTreeRule root) (g'.importTreeRule root) := by
  refine .ifSees (.behind .anyName fun v fewer _ _ _ => ?_)
    (.ifMarks "*" (fun _ _ => .pure rfl) (.ifSees ?_ .fail))
  · refine .ifMarks "::" (fun u few => ?_)
      (.ifWord "as" (fun u few => .ifSees ?_ .failThen) (.pure rfl))
    · exact .bind (known.importTree (by omega) false) fun _ _ _ => .pure rfl
    · exact .bind .anyName fun _ _ _ => .pure rfl
  · refine .bind (.within (R := Eq) .brace fun v fewer => .same (.listed ?_)) fun _ _ same =>
      .pure (by rw [same])
    refine have tree (atRoot : Bool) : Carries .closed v Eq _ _ := ?_
      .ite (fun _ => .bindSame (.optionalMarks "::") tree) fun _ => .bindSame (.pure rfl) tree
    exact .bindSame (known.importTree (by omega) _) fun _ => .pure rfl

theorem carries_importItem (known : Known n g g') (room : 3 * w ≤ n)
    (attributes attributes' : List Position) :
    Carries .closed w Loose (g.importItem attributes) (g'.importItem attributes') := by
  refine .bind carries_visibility fun _ _ _ => .behind (.keyword "use") fun v fewer _ _ _ => ?_
  refine .bindSame (.optionalMarks "::") fun _ => ?_
  refine .bindSame (known.importTree (by omega) _) fun _ => ?_
  exact .bind (.marks ";") fun _ _ _ => .pure trivial

theorem carries_functionItem (known : Known n g g') (back : Known n g' g) (room : 3 * w ≤ n)
    (attributes attributes' : List Position) :
    Carries .closed w Loose (g.functionItem attributes) (g'.functionItem attributes') := by
  refine .bind carries_visibility fun _ _ _ => ?_
  refine .bind (carries_signature known back room false) fun _ _ _ => ?_
  refine .ifMarks ";" (fun _ _ => .pure trivial) ?_
  exact .bind (carries_attributedBlock known room) fun _ _ _ => .pure trivial

theorem carries_macroItem : Carries .closed w Eq macroItem macroItem := by
  refine .bind carries_plainPath fun _ _ _ => ?_
  refine .bind (.marks "!") fun _ _ _ => ?_
  refine .bind (.optional .anyName) fun _ _ _ => ?_
  exact .bindSame .anyGroup fun _ => .ite (fun _ => carries_semicolon) fun _ => .pure rfl

theorem carries_innerMacro : Carries .closed w Eq innerMacro innerMacro :=
  .bind carries_plainPath fun _ _ _ => .bindSame carries_macroRest fun _ =>
    .ite (fun _ => carries_semicolon) fun _ => .pure rfl

instance reads_seesMacro : Horizon.closed.Reads seesMacro :=
  inferInstanceAs (Horizon.closed.Reads (anyOf _))

theorem carries_constantName : Carries .closed w Eq constantName constantName :=
  .ifSees (.bind .anyName fun _ _ _ => .pure rfl) .fail

theorem carries_constantRest (known : Known n g g') (room : 3 * w ≤ n) :
    Carries .closed w Eq g.constantRest g'.constantRest := by
  refine .bind carries_constantName fun _ _ _ => .bind (carries_generics known room) fun _ _ _ => ?_
  refine .behind (.marks ":") fun v fewer _ _ _ => .bind (known.ty (by omega) true) fun _ _ _ => ?_
  refine have rest : Carries .closed v Eq _ _ := ?_
    .bindSame (.optionalMarks "=") fun _ =>
      .ite (fun _ => .bind (known.expression (by omega) true) fun _ _ _ => rest) fun _ => rest
  exact .bind (carries_whereClause known (by omega)) fun _ _ _ => carries_semicolon

theorem carries_staticItem (known : Known n g g') (room : 3 * w ≤ n) :
    Carries .closed w Eq g.staticItem g'.staticItem := by
  refine .behind (.keyword "static") fun v fewer _ _ _ => ?_
  refine .bind (.optionalWord "mut") fun _ _ _ => ?_
  refine .bind .name fun _ _ _ => ?_
  refine .bindSame (.optionalMarks "=") fun _ => .ite (fun _ => ?_) fun _ => ?_
  · exact .bind (known.expression (by omega) true) fun _ _ _ => carries_semicolon
  refine .bind (.marks ":") fun _ _ _ => ?_
  refine .bind (known.ty (by omega) true) fun _ _ _ => ?_
  refine .bindSame (.sees _) fun _ => ?_
  refine .ite (fun _ => .bind (.marks "=") fun _ _ _ => ?_) fun _ => carries_semicolon
  exact .bind (known.expression (by omega) true) fun _ _ _ => carries_semicolon

theorem carries_foreignStatic (known : Known n g g') (room : 3 * w ≤ n) :
    Carries .closed w Eq g.foreignStatic g'.foreignStatic := by
  refine have item : Carries .closed w Eq _ _ := ?_
    .bindSame (.optionalWord "unsafe") fun _ =>
      .ite (fun _ => .bind (.optionalWord "safe") fun _ _ _ => item) fun _ => item
  refine .behind (.keyword "static") fun v fewer _ _ _ => ?_
  refine .bind (.optionalWord "mut") fun _ _ _ => ?_
  refine .bind .name fun _ _ _ => ?_
  refine .bind (.marks ":") fun _ _ _ => .bind (known.ty (by omega) true) fun _ _ _ => ?_
  refine .bindSame (.optionalMarks "=") fun _ => .ite (fun _ => ?_) fun _ => carries_semicolon
  exact .bind (known.expression (by omega) true) fun _ _ _ => carries_semicolon

theorem carries_typeItem (known : Known n g g') (room : 3 * w ≤ n) (default : Bool)
    (place : WherePlace) :
    Carries .closed w Eq (g.typeItem default place) (g'.typeItem default place) := by
  unfold typeItem
  dsimp only
  refine .bind carries_visibility fun _ _ _ => ?_
  refine have item : Carries .closed w Eq _ _ := ?_
    .ite (fun _ => .bind (.optionalWord "default") fun _ _ _ => item) fun _ => item
  refine .behind (.keyword "type") fun v fewer _ _ _ => .bind .name fun _ _ _ => ?_
  refine .bind (carries_generics known (by omega)) fun _ _ _ => ?_
  refine have defined : Carries .closed v Eq _ _ := ?_
    .bindSame (.optionalMarks ":") fun _ =>
      .ite (fun _ => .bind (carries_boundsUntil known (by omega) _) fun _ _ _ => defined) fun _ =>
        defined
  have clause : Carries .closed v Eq g.whereClause g'.whereClause :=
    carries_whereClause known (by omega)
  refine have value (before : Bool) : Carries .closed v Eq _ _ := ?_
    .ite (fun _ => .bindSame (.pure rfl) value) fun _ => .bindSame clause value
  refine have last : Carries .closed v Eq _ _ := ?_
    .bindSame (.optionalMarks "=") fun _ =>
      .ite (fun _ => .bind (known.ty (by omega) true) fun _ _ _ => last) fun _ => last
  exact .ite (fun _ => .bind clause fun _ _ _ => carries_semicolon) fun _ => carries_semicolon

/-- A function with a body or without one, where either may stand. -/
theorem carries_functionOrHead (known : Known n g g') (back : Known n g' g) (room : 3 * w ≤ n)
    (safe : Bool) :
    Carries .closed w Eq
      (do
        let _ ← g.signature safe
        if ← sees (group .brace) then
          let _ ← g.attributedBlock
        else
          let _ ← Parser.marks ";")
      (do
        let _ ← g'.signature safe
        if ← sees (group .brace) then
          let _ ← g'.attributedBlock
        else
          let _ ← Parser.marks ";") :=
  .bind (carries_signature known back room safe) fun _ _ _ =>
    .ifSees (.bind (carries_attributedBlock known room) fun _ _ _ => .pure rfl) carries_semicolon

/-- Two rows of trees of one shape up to a horizon. -/
def Rows (h : Horizon) (trees trees' : List Tree) : Prop :=
  ∃ ts us, trees = ts ++ h.left ∧ trees' = us ++ h.right ∧ shapes ts = shapes us

theorem Rows.test {ts us : List Tree} (rows : Rows h ts us) (test : Test) [reads : h.Reads test] :
    test ts = test us := by
  obtain ⟨ts, us, rfl, rfl, same⟩ := rows
  exact reads.same same

/-- A tree that does not stand at the horizon is passed over on both rows. -/
theorem Rows.drop {ts us : List Tree} (rows : Rows h ts us) (test : Test)
    (off : test h.left = false) (holds : test ts = true) : Rows h (ts.drop 1) (us.drop 1) := by
  obtain ⟨ts, us, rfl, rfl, same⟩ := rows
  cases ts with
  | nil =>
    rw [List.nil_append, off] at holds
    cases holds
  | cons t more =>
    obtain ⟨u, more', rfl, -, same⟩ := exists_like same
    exact ⟨more, more', rfl, rfl, same⟩

theorem Rows.past {ts us : List Tree} (rows : Rows h ts us) (test : Test) [h.Reads test]
    (off : test h.left = false) :
    Rows h (if test ts then ts.drop 1 else ts) (if test us then us.drop 1 else us) := by
  rw [← rows.test test]
  split
  · exact rows.drop test off ‹_›
  · exact rows

theorem Rows.seesSignature {ts us : List Tree} (rows : Rows h ts us) (safe : Bool)
    (off : ∀ n, n ≠ "fn" → word n h.left = false) (bare : textLiteral h.left = false) :
    seesSignature safe ts = seesSignature safe us := by
  have safety {ts us : List Tree} (rows : Rows h ts us) :
      Rows h (if safe && word "safe" ts then ts.drop 1
        else if word "unsafe" ts then ts.drop 1 else ts)
        (if safe && word "safe" us then us.drop 1 else if word "unsafe" us then us.drop 1
          else us) := by
    rw [← rows.test (word "safe")]
    split
    · next holds =>
        exact rows.drop (word "safe") (off _ (by decide)) (Bool.and_eq_true_iff.1 holds).2
    · exact rows.past (word "unsafe") (off _ (by decide))
  have foreign {ts us : List Tree} (rows : Rows h ts us) :
      Rows h (if word "extern" ts then if textLiteral (ts.drop 1) then (ts.drop 1).drop 1
        else ts.drop 1 else ts)
        (if word "extern" us then if textLiteral (us.drop 1) then (us.drop 1).drop 1 else us.drop 1
          else us) := by
    rw [← rows.test (word "extern")]
    split
    · next holds =>
        exact (rows.drop (word "extern") (off _ (by decide)) holds).past textLiteral bare
    · exact rows
  have qualified := (rows.past (word "const") (off _ (by decide))).past (word "async")
    (off _ (by decide))
  exact (foreign (safety qualified)).test (word "fn")

theorem seesSignature_congr {safe : Bool} {ts us : List Tree} (same : shapes ts = shapes us) :
    seesSignature safe ts = seesSignature safe us := by
  refine Rows.seesSignature (h := .closed) ⟨ts, us, ?_, ?_, same⟩ safe (fun _ _ => rfl) rfl
  · exact (List.append_nil ts).symm
  · exact (List.append_nil us).symm

/-- What an item is told by: its visibility and the trees behind it. -/
theorem carries_itemStart :
    Carries .closed w (fun a a' => isInherited a.1 = isInherited a'.1 ∧ shapes a.2 = shapes a'.2)
    (lookahead (do return (← visibility, ← ahead)))
    (lookahead (do return (← visibility, ← ahead))) :=
  .lookahead (.bind carries_visibility fun _ _ inherited => .bind .ahead fun _ _ same =>
    .pure ⟨inherited, same⟩)

theorem carries_foreignItem (known : Known n g g') (back : Known n g' g) (room : 3 * w ≤ n) :
    Carries .closed w Eq g.foreignItem g'.foreignItem := by
  refine .bind (carries_outerAttributes known room) fun _ _ _ => .bind carries_itemStart ?_
  rintro ⟨visible, ts⟩ ⟨visible', us⟩ ⟨inherited, same⟩
  dsimp only at inherited same ⊢
  rw [inherited, seesSignature_congr same, test_congr (word "fn") same,
    test_congr (word "static") same, test_congr (words ["unsafe", "safe"]) same,
    test_congr (second (word "static")) same, test_congr (word "type") same,
      test_congr seesMacro same]
  refine .ite (fun _ => .bind carries_visibility fun _ _ _ =>
    carries_functionOrHead known back room true) fun _ => ?_
  refine .ite (fun _ => .bind carries_visibility fun _ _ _ => carries_foreignStatic known room)
    fun _ => ?_
  refine .ite (fun _ => carries_typeItem known room false .either) fun _ => ?_
  refine .ite (fun _ => carries_innerMacro) fun _ => ?_
  exact .bind carries_visibility fun _ _ _ => .fail

theorem carries_foreignItems (known : Known n g g') (back : Known n g' g) (room : 3 * w ≤ n) :
    Carries .closed w Eq g.foreignItems g'.foreignItems :=
  .bind (.optionalWord "unsafe") fun _ _ _ => .bind carries_abi fun _ _ _ =>
    carries_bracedItems (R := Eq) known room fun _ _ => carries_foreignItem known back (by omega)

theorem carries_externItem (known : Known n g g') (back : Known n g' g) (room : 3 * w ≤ n)
    {ts us : List Tree}
    (same : shapes ts = shapes us) : Carries .closed w Eq (g.externItem ts) (g'.externItem us) := by
  have behind := shapes_drop same 1
  unfold externItem
  dsimp only
  rw [test_congr (word "crate") behind, test_congr (group .brace) behind,
    test_congr textLiteral behind, test_congr (group .brace) (shapes_drop behind 1)]
  refine .ite (fun _ => ?_) fun _ =>
    .ite (fun _ => carries_foreignItems known back room) fun _ => ?_
  · refine .bind carries_visibility fun _ _ _ => ?_
    refine .bind (.keyword "extern") fun _ _ _ => ?_
    refine .bind (.keyword "crate") fun _ _ _ => ?_
    refine have renamed : Carries .closed w Eq _ _ := ?_
      .joinSees .anyName .name renamed
    exact .bindSame (.optionalWord "as") fun _ =>
      .ite (fun _ => .joinSees .anyName .name carries_semicolon) fun _ => carries_semicolon
  · exact .bind carries_visibility fun _ _ _ => .bind (.skipTrees _) fun _ _ _ => .fail

theorem carries_moduleItem (known : Known n g g') (room : 3 * w ≤ n) :
    Carries .closed w Eq g.moduleItem g'.moduleItem := by
  refine .bind carries_visibility fun _ _ _ => ?_
  refine .bind (.optionalWord "unsafe") fun _ _ _ => ?_
  refine .bind (.keyword "mod") fun _ _ _ => ?_
  refine .joinSees .anyName .name (.ifMarks ";" (fun _ _ => .pure rfl) ?_)
  exact carries_bracedItems (R := Loose) known room fun _ _ => known.item (by omega)

theorem carries_namedField (known : Known n g g') (room : 3 * w + 2 ≤ n)
    {fields fields' : Parser Unit} (inner : Carries .closed w Eq fields fields') :
    Carries .closed w Eq (g.namedField fields) (g'.namedField fields') := by
  refine .bind (carries_outerAttributes known (by omega)) fun _ _ _ => ?_
  refine .bind carries_visibility fun _ _ _ => ?_
  refine .bindSame (.optionalWord "_") fun unnamed => ?_
  refine have type : Carries .closed w Eq _ _ := ?_
    .ite (fun _ => .bind .name fun _ _ _ => type) fun _ => type
  refine .bind (.marks ":") fun _ _ _ => .bindSame (.sees _) fun _ => .ite (fun _ => ?_) fun _ => ?_
  · exact .bind .anyName fun _ _ _ => inner
  · exact .bind (known.ty (by omega) true) fun _ _ _ => .pure rfl

theorem carries_namedFields (known : Known n g g') (room : 3 * w ≤ n) (depth : Nat) :
    Carries .closed w Eq (g.namedFields depth) (g'.namedFields depth) := by
  induction depth generalizing w with
  | zero => exact .fail
  | succ depth ih =>
    refine .bind (.within .brace fun v fewer => .listed (carries_namedField known (by omega) ?_))
      fun _ _ _ => .pure rfl
    exact ih (by omega)

theorem carries_recordBody (known : Known n g g') (room : 3 * w ≤ n) :
    Carries .closed w Eq g.recordBody g'.recordBody := by
  refine .bind .ahead fun ts us same => ?_
  rw [tokenCount_congr same]
  exact carries_namedFields known room _

theorem carries_unnamedFields (known : Known n g g') (room : 3 * w ≤ n) :
    Carries .closed w Eq g.unnamedFields g'.unnamedFields := by
  refine .bind (.within (R := List.Forall₂ Eq) .paren fun v fewer => .listed ?_) fun _ _ _ =>
    .pure rfl
  refine .bind (carries_outerAttributes known (by omega)) fun _ _ _ => ?_
  refine .bind carries_visibility fun _ _ _ => ?_
  exact known.ty (by omega) true

theorem carries_structureBody (known : Known n g g') (room : 3 * w ≤ n) :
    Carries .closed w Eq g.structureBody g'.structureBody := by
  refine .bindSame (carries_whereClause known room) fun _ => ?_
  refine .bindSame (.sees _) fun _ => ?_
  refine .ite (fun _ => ?_) fun _ => ?_
  · exact .bind (carries_unnamedFields known room) fun _ _ _ =>
      .bind (carries_whereClause known room) fun _ _ _ => carries_semicolon
  · exact .ifSees (carries_recordBody known room) carries_semicolon

theorem carries_variant (known : Known n g g') (room : 3 * w + 2 ≤ n) :
    Carries .closed w Eq g.variant g'.variant := by
  refine .bind (carries_outerAttributes known (by omega)) fun _ _ _ => ?_
  refine .bind carries_visibility fun _ _ _ => ?_
  refine .bind .name fun _ _ _ => ?_
  refine have value : Carries .closed w Eq _ _ := ?_
    .ifSees (.bind (carries_recordBody known (by omega)) fun _ _ _ => value)
      (.ifSees (.bind (carries_unnamedFields known (by omega)) fun _ _ _ => value) value)
  exact .ifMarks "=" (fun _ _ => .bind (known.expression (by omega) true) fun _ _ _ =>
    .pure rfl) (.pure rfl)

theorem carries_dataItem (known : Known n g g') (room : 3 * w ≤ n) (word : String) :
    Carries .closed w Eq (g.dataItem word) (g'.dataItem word) := by
  refine .bind carries_visibility fun _ _ _ => ?_
  refine .bind (.keyword word) fun _ _ _ => ?_
  refine .bind .name fun _ _ _ => ?_
  refine .bind (carries_generics known room) fun _ _ _ => ?_
  refine .ite (fun _ => carries_structureBody known room) fun _ => ?_
  refine .bind (carries_whereClause known room) fun _ _ _ => ?_
  refine .ite (fun _ => ?_) fun _ => carries_recordBody known room
  refine .bind (.within .brace fun _ _ => .listed (carries_variant known (by omega)))
    fun _ _ _ => ?_
  exact .pure rfl

theorem carries_traitItem (known : Known n g g') (back : Known n g' g) (room : 3 * w ≤ n) :
    Carries .closed w Eq g.traitItem g'.traitItem := by
  refine .bind (carries_outerAttributes known room) fun _ _ _ => ?_
  refine .bind carries_visibility fun _ _ inherited => ?_
  refine .bindSame (.optionalWord "default") fun _ => .bind .ahead fun ts us same => ?_
  have function := carries_functionOrHead known back room false
  rw [inherited, seesSignature_congr same, test_congr (word "fn") same,
    test_congr (word "const") same, test_congr (second (anyOf [identifier, word "_"])) same,
    test_congr (second (words ["async", "unsafe", "extern", "fn"])) same,
    test_congr (word "type") same, test_congr seesMacro same]
  refine .ite (fun _ => function) fun _ => ?_
  refine .ite (fun _ => .ite (fun _ => ?_) fun _ => .ite (fun _ => function) fun _ => ?_)
    fun _ => ?_
  · exact .bind (.keyword "const") fun _ _ _ => carries_constantRest known room
  · exact .bind (.keyword "const") fun _ _ _ => .fail
  refine .ite (fun _ => carries_typeItem known room false .afterEquals) fun _ => ?_
  exact .ite (fun _ => carries_innerMacro) fun _ => .fail

theorem carries_traitRest (known : Known n g g') (back : Known n g' g) (room : 3 * w ≤ n) :
    Carries .closed w Eq g.traitRest g'.traitRest := by
  have items {v : Nat} (fewer : v ≤ w) :
      Carries .closed v Eq (do let _ ← g.whereClause; g.bracedItems g.traitItem)
      (do let _ ← g'.whereClause; g'.bracedItems g'.traitItem) :=
    .bind (carries_whereClause known (by omega)) fun _ _ _ =>
      carries_bracedItems (R := Eq) known (by omega)
        fun _ _ => carries_traitItem known back (by omega)
  refine .ifMarks ":" (fun v fewer => ?_) (items (Nat.le_refl w))
  exact .bind (carries_boundsUntil known (by omega) _) fun _ _ _ => items (Nat.le_of_lt fewer)

theorem carries_traitDefinition (known : Known n g g') (back : Known n g' g) (room : 3 * w ≤ n) :
    Carries .closed w Eq g.traitDefinition g'.traitDefinition := by
  refine .bind carries_visibility fun _ _ _ => ?_
  refine .bind (.optionalWord "unsafe") fun _ _ _ => ?_
  refine .bind (.optionalWord "auto") fun _ _ _ => ?_
  refine .bind (.keyword "trait") fun _ _ _ => ?_
  refine .bind .name fun _ _ _ => ?_
  refine .bind (carries_generics known room) fun _ _ _ => ?_
  exact carries_traitRest known back room

theorem carries_traitOrAlias (known : Known n g g') (back : Known n g' g) (room : 3 * w ≤ n) :
    Carries .closed w Eq g.traitOrAlias g'.traitOrAlias := by
  refine .bind carries_visibility fun _ _ _ => ?_
  refine .bind (.keyword "trait") fun _ _ _ => ?_
  refine .bind .name fun _ _ _ => ?_
  refine .bind (carries_generics known room) fun _ _ _ => ?_
  refine .ifSees (carries_traitRest known back room) ?_
  refine .behind (.marks "=") fun v fewer _ _ _ => ?_
  refine .bind (carries_boundsUntil known (by omega) _) fun _ _ _ => ?_
  exact .bind (carries_whereClause known (by omega)) fun _ _ _ => carries_semicolon

theorem carries_implementationItem (known : Known n g g') (back : Known n g' g) (room : 3 * w ≤ n) :
    Carries .closed w Eq g.implementationItem g'.implementationItem := by
  have front {w : Nat} :
      Carries .closed w (fun a a' => isInherited a.1 = isInherited a'.1 ∧ a.2 = a'.2)
      (do
        let visible ← visibility
        if ← sees (allOf [word "default", isNot (second (Ahead.marks "!"))]) then
          let _ ← keyword "default"
          return (visible, true)
        return (visible, false))
      (do
        let visible ← visibility
        if ← sees (allOf [word "default", isNot (second (Ahead.marks "!"))]) then
          let _ ← keyword "default"
          return (visible, true)
        return (visible, false)) :=
    .bind carries_visibility fun _ _ same =>
      .ifSees (.bind (.keyword "default") fun _ _ _ => .pure ⟨same, rfl⟩) (.pure ⟨same, rfl⟩)
  let Alike (a a' : (Visibility × Bool) × List Tree) : Prop :=
    (isInherited a.1.1 = isInherited a'.1.1 ∧ a.1.2 = a'.1.2) ∧ shapes a.2 = shapes a'.2
  refine .bind (carries_outerAttributes known room) fun _ _ _ => ?_
  refine .bind (R := Alike) (.lookahead (.bind front fun _ _ start => ?_)) ?_
  · exact .bind .ahead fun _ _ same => .pure ⟨start, same⟩
  rintro ⟨⟨visible, default⟩, ts⟩ ⟨⟨visible', _⟩, us⟩ ⟨⟨inherited, rfl⟩, same⟩
  dsimp only at inherited same ⊢
  rw [inherited, seesSignature_congr same, test_congr (word "fn") same,
    test_congr (word "const") same, test_congr (word "type") same, test_congr seesMacro same]
  refine .ite (fun _ => .bind carries_visibility fun _ _ _ =>
    .bind (.optionalWord "default") fun _ _ _ => ?_) fun _ => ?_
  · refine .bind (carries_signature known back room false) fun _ _ _ => ?_
    refine .ifMarks ";" (fun _ _ => .pure rfl) ?_
    exact .bind (carries_attributedBlock known room) fun _ _ _ => .pure rfl
  refine .ite (fun _ => ?_) fun _ =>
    .ite (fun _ => carries_typeItem known room true .afterEquals) fun _ => ?_
  · refine .bind front fun _ _ _ => ?_
    exact .bind (.keyword "const") fun _ _ _ => carries_constantRest known room
  exact .ite (fun _ => carries_innerMacro) fun _ => .bind front fun _ _ _ => .fail

instance reads_seesImplementationGenerics : Horizon.closed.Reads seesImplementationGenerics :=
  inferInstanceAs (Horizon.closed.Reads (allOf _))

theorem carries_implementation (known : Known n g g') (back : Known n g' g) (room : 3 * w ≤ n) :
    Carries .closed w Eq g.implementation g'.implementation := by
  refine .bind carries_visibility fun _ _ _ => ?_
  refine .bind (.optionalWord "default") fun _ _ _ => ?_
  refine .bind (.optionalWord "unsafe") fun _ _ _ => ?_
  refine .behind (.keyword "impl") fun v fewer _ _ _ => ?_
  refine have const : Carries .closed v Eq _ _ := ?_
    .ifSees (.bind (carries_generics known (by omega)) fun _ _ _ => const) const
  refine have negative : Carries .closed v Eq _ _ := ?_
    .ifSees (.bind (.optionalMarks "?") fun _ _ _ => .bind (.keyword "const") fun _ _ _ =>
      negative) negative
  refine have target : Carries .closed v Eq _ _ := ?_
    .ifSees (.bind (.marks "!") fun _ _ _ => target) target
  refine .bind (known.ty (by omega) true) fun _ _ _ => ?_
  refine have items : Carries .closed v Eq _ _ := ?_
    .bindSame (.optionalWord "for") fun _ =>
      .ite (fun _ => .bind (known.ty (by omega) true) fun _ _ _ => items) fun _ => items
  refine .bind (carries_whereClause known (by omega)) fun _ _ _ => ?_
  exact carries_bracedItems (R := Eq) known (by omega)
    fun _ _ => carries_implementationItem known back (by omega)

theorem carries_macroDefinition : Carries .closed w Eq macroDefinition macroDefinition := by
  refine .bind carries_visibility fun _ _ _ => ?_
  refine .bind (.keyword "macro") fun _ _ _ => ?_
  refine .bind .name fun _ _ _ => ?_
  exact .ifSees (.bind (.opaqueGroup .paren) fun _ _ _ => .opaqueGroup .brace) (.opaqueGroup .brace)

theorem carries_discarding {rule rule' : Parser Unit} (carries : Carries .closed w Eq rule rule') :
    Carries .closed w Loose (discarding rule) (discarding rule') :=
  .bind carries fun _ _ _ => .pure trivial

theorem carries_unsafeItem (known : Known n g g') (back : Known n g' g) (room : 3 * w ≤ n)
    {ts us : List Tree}
    (same : shapes ts = shapes us) : Carries .closed w Eq (g.unsafeItem ts) (g'.unsafeItem us) := by
  unfold unsafeItem
  rw [test_congr (second (word "trait")) same, test_congr (second (word "auto")) same,
    test_congr (third (word "trait")) same, test_congr (second (word "impl")) same,
    test_congr (second (word "extern")) same, test_congr (second (word "mod")) same]
  refine .ite (fun _ => carries_traitDefinition known back room) fun _ => ?_
  refine .ite (fun _ => carries_implementation known back room) fun _ => ?_
  refine .ite (fun _ => carries_foreignItems known back room) fun _ => ?_
  refine .ite (fun _ => carries_moduleItem known room) fun _ => ?_
  exact .bind carries_visibility fun _ _ _ => .bind (.keyword "unsafe") fun _ _ _ => .fail

theorem carries_item (known : Known n g g') (back : Known n g' g) (room : 3 * w ≤ n) :
    Carries .closed w Loose g.itemRule g'.itemRule := by
  refine .bind (carries_outerAttributes known room) fun attributes attributes' _ => ?_
  refine .bind carries_itemStart ?_
  rintro ⟨visible, ts⟩ ⟨visible', us⟩ ⟨inherited, same⟩
  dsimp only at inherited same ⊢
  rw [inherited, seesSignature_congr same, test_congr (word "fn") same,
    test_congr (word "use") same, test_congr (word "extern") same, test_congr (word "static") same,
    test_congr (word "const") same, test_congr (word "unsafe") same, test_congr (word "mod") same,
    test_congr (word "type") same, test_congr (word "struct") same, test_congr (word "enum") same,
    test_congr (word "union") same, test_congr (second identifier) same,
    test_congr (word "trait") same, test_congr (word "auto") same,
    test_congr (second (word "trait")) same, test_congr (word "impl") same,
    test_congr (word "default") same,
    test_congr (second (Ahead.marks "!")) same, test_congr (word "macro") same,
    test_congr seesMacro same]
  refine .ite (fun _ => carries_functionItem known back room _ _) fun _ => ?_
  refine .ite (fun _ => carries_importItem known room _ _) fun _ => carries_discarding ?_
  refine .ite (fun _ => carries_externItem known back room same) fun _ => ?_
  refine .ite (fun _ => ?_) fun _ => .ite (fun _ => ?_) fun _ => ?_
  · exact .bind carries_visibility fun _ _ _ => carries_staticItem known room
  · refine .bind carries_visibility fun _ _ _ => ?_
    exact .bind (.keyword "const") fun _ _ _ => carries_constantRest known room
  refine .ite (fun _ => carries_unsafeItem known back room same) fun _ => ?_
  refine .ite (fun _ => carries_moduleItem known room) fun _ => ?_
  refine .ite (fun _ => carries_typeItem known room false .beforeEquals) fun _ => ?_
  refine .ite (fun _ => carries_dataItem known room _) fun _ => ?_
  refine .ite (fun _ => carries_dataItem known room _) fun _ => ?_
  refine .ite (fun _ => carries_dataItem known room _) fun _ => ?_
  refine .ite (fun _ => carries_traitOrAlias known back room) fun _ => ?_
  refine .ite (fun _ => carries_traitDefinition known back room) fun _ => ?_
  refine .ite (fun _ => carries_implementation known back room) fun _ => ?_
  refine .ite (fun _ => carries_macroDefinition) fun _ => ?_
  exact .ite (fun _ => carries_macroItem) fun _ => .bind carries_visibility fun _ _ _ => .fail

end Waymark.Source.Grammar
