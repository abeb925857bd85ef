import Waymark.Proofs.Generate.FunctionsFile
import Waymark.Proofs.Generate.RegisteringFile

/-!
# Well-formed files

Whether the two files of a scan are files of the language. The registering file is one just if
each name of the path at which it looks for the functions can be imported. The file of functions is
one if every path that it shows stands on one line: its imports and its functions are items of the
marker files, and they are items by themselves.

* `functions_free`: no function that is registered is called by a keyword;
* `standsAlone_block`, `standsAlone_of_mem_imports`: what is copied from the marker files;
* `parse_render`: both files.
-/

namespace Waymark.Generate

open Waymark.Disk (Volume Path Node Name)
open Waymark.Routing (Segment)
open Waymark.Scan
open Waymark.Source

section
variable {disk : Volume} {root : Path} {app : Node} {s : AppScan}

/-- The functions that the registering file names are words that are no keywords. -/
theorem functions_free (there : disk.resolve root = .ok app) (tree : app.Named IsFileName)
    (scanned : scan disk root = .ok s) (shown : Option String) :
    ∀ st ∈ (Plan.ofScan s).body shown, ∀ f ∈ st.functions, IsFree f := by
  intro st hst f hf
  have planned : st ∈ (Plan.ofScan s).statements shown := by
    unfold Plan.body at hst
    split at hst
    · obtain rfl := List.mem_singleton.1 hst
      cases hf
    · exact hst
  have referred : st.functions ∈ (Plan.ofScan s).referred.map fun bs => bs.map Block.name := by
    rw [← functions_statements shown]
    exact List.mem_map_of_mem planned
  obtain ⟨bs, hbs, same⟩ := List.mem_map.1 referred
  rw [← same] at hf
  obtain ⟨b, hb, rfl⟩ := List.mem_map.1 hf
  have named : b.name ∈ (Plan.ofScan s).names :=
    (names_blocks _).mem_iff.1 (List.mem_map_of_mem (referred_subset there tree scanned hbs hb))
  simpa [IsFree] using names_ofScan_not_keyword s b.name named

/-- The registering file is a file of the language if an import can go through each name of its
path. -/
theorem parse_registrationText_iff (there : disk.resolve root = .ok app)
    (tree : app.Named IsFileName)
    (scanned : scan disk root = .ok s) {modulePath : String} (valid : validate modulePath = .ok ())
    (shown : Option String) :
    (∃ file, SourceFile.parse (registrationText shown modulePath (Plan.ofScan s)) = .ok file) ↔
      ∀ n ∈ handlersPath modulePath, Importable n := by
  have fits := fits_fileParts (named_handlersPath valid) (sound_body s shown)
  have lexes := Lexer.lexes_written fits
  have nonempty : handlersPath modulePath ≠ [] := by simp [handlersPath]
  have gathered : Lexer.gather [] []
      (Lexer.tokensOf (fileParts (handlersPath modulePath) ((Plan.ofScan s).body shown))) =
      some (shapes (fileTrees (handlersPath modulePath) ((Plan.ofScan s).body shown))) := by
    have all := yields_fileParts (handlersPath modulePath) ((Plan.ofScan s).body shown) [] [] []
    rw [List.append_nil, List.append_nil] at all
    rw [all]
    simp [Lexer.gather, Lexer.tokensOf]
  have written := writtenAs_fileParts shown modulePath (Plan.ofScan s)
  rw [written] at lexes
  rw [parse_iff_accepted (written.symm.trans rfl) lexes gathered, accepted_fileTrees nonempty
    (functions_free there tree scanned shown), List.all_eq_true]

/-- A function that is exported has a keyword of visibility. -/
theorem keyword?_of_isExported {f : FunctionItem} (exported : f.isExported = true) :
    f.visibility.keyword?.isSome := by
  unfold FunctionItem.isExported at exported
  cases visible : f.visibility with
  | everywhere keyword => rfl
  | inherited =>
    rw [visible] at exported
    cases exported
  | within keyword =>
    rw [visible] at exported
    cases exported

/-- Every function that is emitted is an item by itself, under the name that it is given. -/
theorem standsAlone_block (there : disk.resolve root = .ok app) (tree : app.Named IsFileName)
    (scanned : scan disk root = .ok s)
    (unmarked : ∀ o ∈ openedIn disk root app, o.source.text.head? ≠ some byteOrderMark) {b : Block}
    (hb : b ∈ (Plan.ofScan s).blocks) : StandsAlone (b.function.renamed b.name).toList := by
  obtain ⟨o, ho, -, contract, f, hf, accepted⟩ := exists_holds there tree scanned hb
  obtain ⟨exported, extracted⟩ := taken_of_accepted? accepted
  have read := (itemsOf_of_mem_openedIn ho).1
  have named : b.name ∈ (Plan.ofScan s).names :=
    (names_blocks _).mem_iff.1 (List.mem_map_of_mem hb)
  have identifier : IsIdentifier b.name := (names_ofScan s).2 b.name named
  have free : keywords.contains b.name = false := by
    simpa using names_ofScan_not_keyword s b.name named
  have shown : f.visibility.keyword?.isSome := keyword?_of_isExported exported
  exact standsAlone_renamed read (unmarked o ho) hf extracted shown identifier.ascii free

/-- Every import that is emitted is an item by itself. -/
theorem standsAlone_of_mem_imports (there : disk.resolve root = .ok app)
    (tree : app.Named IsFileName) (scanned : scan disk root = .ok s)
    (unmarked : ∀ o ∈ openedIn disk root app, o.source.text.head? ≠ some byteOrderMark) {t : String}
    (ht : t ∈ (Plan.ofScan s).imports) : StandsAlone t.toList := by
  obtain ⟨b, hb, written⟩ := (mem_imports_iff there tree scanned t).1 ht
  obtain ⟨o, ho, same, -⟩ := exists_holds there tree scanned hb
  rw [same] at written
  obtain ⟨read, imports⟩ := itemsOf_of_mem_openedIn ho
  rw [imports] at written
  obtain ⟨m, hm, rfl⟩ := SourceFile.mem_imports.1 written
  obtain ⟨before, text, after, whole, start, stop, between, alone⟩ :=
    exists_import read (unmarked o ho) hm
  rwa [between, String.toList_ofList]

/-- A scan is written at every module path that can be one. The registering file is a file of the
language just if an import can go through each name of the path at which it looks for the functions.
The file of functions is one if no path that it shows breaks its line, unless a marker file begins
with two byte order marks. -/
theorem parse_render (there : disk.resolve root = .ok app) (tree : app.Named IsFileName)
    (scanned : scan disk root = .ok s) {modulePath : String}
    (valid : validate modulePath = .ok ()) :
    ∃ rendered, render s modulePath = .ok rendered ∧
      ((∃ file, SourceFile.parse rendered.registration = .ok file) ↔
        ∀ n ∈ handlersPath modulePath, Importable n) ∧
      ((∀ o ∈ openedIn disk root app, o.source.text.head? ≠ some byteOrderMark) →
        (∀ b ∈ (Plan.ofScan s).blocks,
          '\n' ∉ (shownPath (s.root.fileName?.map Name.display) b.file).toList) →
        ∃ file, SourceFile.parse rendered.functions = .ok file) := by
  refine ⟨_, render_eq_ok s valid, parse_registrationText_iff there tree scanned valid _, ?_⟩
  intro unmarked unbroken
  apply parse_functionsText _ unbroken
  · exact fun b hb => standsAlone_block there tree scanned unmarked hb
  · exact fun t ht => standsAlone_of_mem_imports there tree scanned unmarked ht

theorem unbroken_quotedBesideParameter :
    ∀ o ∈ openedIn ⟨quotedBesideParameter, []⟩ (.ofString ".") quotedBesideParameter,
      '\n' ∉ (shownPath ((Path.ofString ".").fileName?.map Name.display) o.file).toList := by
  intro o ho
  obtain ⟨v, met, read⟩ := List.mem_filterMap.1 ho
  obtain ⟨node, rfl⟩ := opened?_eq_some read
  rw [visits_quotedBesideParameter] at met
  simp only [List.mem_cons, Visit.marker.injEq, List.not_mem_nil, or_false] at met
  unfold shownPath MarkerFile.displayPath
  obtain ⟨-, here, name, -⟩ | ⟨-, here, name, -⟩ | ⟨-, here, name, -⟩ := met
  all_goals
    rw [here, name]
    decide +kernel

theorem parse_render_quoted : ∃ s rendered refused,
    scan ⟨quotedBesideParameter, []⟩ (.ofString ".") = .ok s ∧
    render s "crate::generated" = .ok rendered ∧
    (∃ file, SourceFile.parse rendered.registration = .ok file) ∧
    (Plan.ofScan s).blocks ≠ [] ∧ (∃ file, SourceFile.parse rendered.functions = .ok file) ∧
    render s "crate::type" = .ok refused ∧
    ¬ ∃ file, SourceFile.parse refused.registration = .ok file := by
  obtain ⟨s, scanned, two⟩ := scan_quotedBesideParameter
  obtain ⟨rendered, written, parses, functions⟩ :=
    parse_render (resolve_current _) named_quotedBesideParameter scanned validate_generated
  have keyword : validate "crate::type" = .ok () := rfl
  obtain ⟨refused, written', parses', -⟩ :=
    parse_render (resolve_current _) named_quotedBesideParameter scanned keyword
  have importable : ∀ n ∈ handlersPath "crate::generated", Importable n := by decide +kernel
  refine ⟨s, rendered, refused, scanned, written, parses.2 importable, ?_, ?_, written', ?_⟩
  · have some' : s.found ≠ [] := List.length_pos_iff.1 (two ▸ Nat.zero_lt_two)
    exact blocks_ne_nil (resolve_current _) named_quotedBesideParameter scanned some'
  · apply functions unmarked_quotedBesideParameter
    intro b hb
    obtain ⟨o, ho, same, -⟩ :=
      exists_holds (resolve_current _) named_quotedBesideParameter scanned hb
    rw [same, (scan_adds (resolve_current _) scanned).root]
    exact unbroken_quotedBesideParameter o ho
  · intro read
    have through := parses'.1 read "type" (by decide +kernel)
    revert through
    decide

/-- A handler in a directory whose name goes on behind a line end. -/
def underBrokenName : Node :=
  .directory [(Name.ofString "a\nb", .directory [(Name.ofString "route.rs", handlerFile)])]

theorem visits_underBrokenName : visits underBrokenName =
    [.marker .route [Name.ofString "a\nb"] (Name.ofString "route.rs") handlerFile] := by
  have kind : Marker.ofFileName? (Name.ofString "route.rs").display = some .route := by
    simp only [Name.display_ofString]
    decide
  have broken : Segment.isPrivate (Name.ofString "a\nb").display = false ∧
      (Segment.classify (Name.ofString "a\nb").display).isUnroutable = false := by
    simp only [Name.display_ofString]
    decide
  have inside (here : List Name) :
      visitsOf here (.directory [(Name.ofString "route.rs", handlerFile)]) =
      [.marker .route here (Name.ofString "route.rs") handlerFile] := by
    rw [visitsOf, inNameOrder_of_sorted (by simp [entryVisits])]
    simp [entryVisits, handlerFile, Node.isDirectory, kind]
  rw [visits, underBrokenName, visitsOf, inNameOrder_of_sorted (by simp [entryVisits])]
  simp only [entryVisits, Node.isDirectory, Node.isLockedDirectory, broken, inside]
  simp

theorem functions_underBrokenName :
    ((scan ⟨underBrokenName, []⟩ (.ofString ".")).toOption.map fun s =>
      (SourceFile.parse (functionsText (s.root.fileName?.map Name.display) (Plan.ofScan s))).isOk) =
        some false := by
  rw [scan_current underBrokenName rfl, scanNode, visits_underBrokenName]
  decide +kernel

/-- Where a path breaks its line, what stands behind the line end is no comment, and it need not be
an item: the file of functions is then no file of the language. -/
theorem not_parse_underBrokenName :
    ∃ s rendered, scan ⟨underBrokenName, []⟩ (.ofString ".") = .ok s ∧
    render s "crate::generated" = .ok rendered ∧
    ¬ ∃ file, SourceFile.parse rendered.functions = .ok file := by
  obtain ⟨s, scanned, seen⟩ := exists_of_seen functions_underBrokenName
  refine ⟨s, _, scanned, render_eq_ok s validate_generated, ?_⟩
  rintro ⟨file, read⟩
  dsimp only at read
  rw [read] at seen
  cases seen

end

end Waymark.Generate
