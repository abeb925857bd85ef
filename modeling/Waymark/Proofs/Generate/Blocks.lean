import Waymark.Proofs.Generate.Registrations
import Waymark.Proofs.Scan.Origin
import Waymark.Proofs.Source.Extraction
import Waymark.Proofs.Text.Encoding

/-!
# The functions that are emitted

The file of functions is a header, the imports, and one block for each function, which is the
function as it stands in its marker file, with nothing but its name replaced.

* `Block`, `Plan.blocks`: the blocks of a plan; `functionsText_eq`: the file consists of them;
* `functions_statement`: what a statement refers to is a block of the plan;
* `imports_pairwise`, `mem_imports_iff`: the imports of all files that contribute, each once and in
  order;
* `functionsText_verbatim`: names are sound, and blocks are the functions of the marker files.
-/

namespace Waymark.Generate

open Waymark.Disk (Volume Path Name Node)
open Waymark.Routing (MountKey perm_inMountOrder)
open Waymark.Scan
open Waymark.Source (Cut byteOrderMark)

/-- A function that is emitted under a name. -/
structure Block where
  file : MarkerFile
  function : Source.Function
  name : String

/-- The text of a block. -/
def Block.text (app : Option String) (b : Block) : String :=
  functionBlock app b.file b.function b.name

/-- The block of a function that is the only one of its file. -/
def Block.ofNamed (f : FunctionFile × String) : Block := ⟨f.1.file, f.1.function, f.2⟩

/-- The blocks of a registration, a loader before its page. -/
def Registration.blocks : Registration → List Block
  | handler file h name => [⟨file, h.function, name⟩]
  | page p name loader _ => (loader.map Block.ofNamed).toList ++ [⟨p.file, p.function, name⟩]

/-- The functions of a plan that are no handlers, pages or loaders. -/
def Plan.others (plan : Plan) : List (FunctionFile × String) :=
  plan.middlewares ++ plan.layouts ++ plan.proxy.toList

/-- The blocks of a plan. -/
def Plan.blocks (plan : Plan) : List Block :=
  plan.routes.flatMap Registration.blocks ++ plan.others.map Block.ofNamed

theorem registrationBlocks_eq (app : Option String) (r : Registration) :
    registrationBlocks app r = String.join (r.blocks.map (Block.text app)) := by
  cases r with
  | handler file h name => simp [registrationBlocks, Registration.blocks, Block.text]
  | page p name loader layouts =>
    cases loader with
    | none => simp [registrationBlocks, Registration.blocks, Block.text]
    | some l => simp [registrationBlocks, Registration.blocks, Block.text, Block.ofNamed]

/-- The file of functions is a header, the imports and the blocks. -/
theorem functionsText_eq (app : Option String) (plan : Plan) :
    functionsText app plan = header ++ "#![allow(unused_imports, dead_code)]\n"
      ++ importLines plan.imports ++ String.join (plan.blocks.map (Block.text app)) := by
  have routes : String.join (plan.routes.map (registrationBlocks app)) =
      String.join ((plan.routes.flatMap Registration.blocks).map (Block.text app)) := by
    apply String.toList_injective
    rw [String.toList_join, String.toList_join]
    simp only [List.flatMap_map, List.flatMap_assoc, registrationBlocks_eq, String.toList_join,
      List.map_flatMap]
  have last : String.join (plan.others.map fun f => functionBlock app f.1.file f.1.function f.2) =
      String.join ((plan.others.map Block.ofNamed).map (Block.text app)) := by
    rw [List.map_map]
    rfl
  have split : String.join (plan.blocks.map (Block.text app)) =
      String.join ((plan.routes.flatMap Registration.blocks).map (Block.text app)) ++
        String.join ((plan.others.map Block.ofNamed).map (Block.text app)) := by
    rw [Plan.blocks, List.map_append]
    apply String.toList_injective
    rw [String.toList_append, String.toList_join, String.toList_join, String.toList_join,
      List.flatMap_append]
  rw [split, ← routes, ← last, functionsText, ← String.append_assoc]
  rfl

theorem names_registrationBlocks (r : Registration) : (r.blocks.map Block.name).Perm r.names := by
  cases r with
  | handler file h name => exact List.Perm.refl _
  | page p name loader layouts =>
    cases loader with
    | none => exact List.Perm.refl _
    | some l => exact List.Perm.swap _ _ _

/-- The blocks have the names of the plan. -/
theorem names_blocks (plan : Plan) : (plan.blocks.map Block.name).Perm plan.names := by
  have routes (rs : List Registration) :
      ((rs.flatMap Registration.blocks).map Block.name).Perm (rs.flatMap Registration.names) := by
    induction rs with
    | nil => exact List.Perm.refl _
    | cons r rest ih =>
      rw [List.flatMap_cons, List.flatMap_cons, List.map_append]
      exact (names_registrationBlocks r).append ih
  have last : (plan.others.map Block.ofNamed).map Block.name =
      plan.middlewares.map Prod.snd ++ plan.layouts.map Prod.snd
        ++ (plan.proxy.map Prod.snd).toList := by
    rw [Plan.others, List.map_map, List.map_append, List.map_append]
    cases plan.proxy <;> rfl
  rw [Plan.blocks, List.map_append, last, Plan.names, List.append_assoc, List.append_assoc,
    List.append_assoc]
  exact (routes plan.routes).append_right _

/-- The names of functions that a statement refers to. -/
def Statement.functions : Statement → List String
  | route c => [c.function]
  | page c => c.function :: (c.loader.toList ++ c.layouts)
  | middleware _ _ function | proxy function => [function]
  | idle => []

/-- The blocks that a registration refers to. Those of layouts are found by their files. -/
def Registration.referred (plan : Plan) : Registration → List Block
  | handler file h name => [⟨file, h.function, name⟩]
  | page p name loader layouts =>
    ⟨p.file, p.function, name⟩ :: ((loader.map Block.ofNamed).toList ++
      layouts.filterMap fun l => (plan.layoutName? l).map fun own => Block.ofNamed (l, own))

theorem functions_registration (app : Option String) (plan : Plan) (r : Registration) :
    (r.statement app plan).functions = (r.referred plan).map Block.name := by
  cases r with
  | handler file h name =>
    simp only [Registration.statement, Statement.functions, Registration.referred, List.map_cons,
      List.map_nil]
  | page p name loader layouts =>
    simp only [Registration.statement, Statement.functions, Registration.referred, List.map_cons,
      List.map_append, List.map_filterMap]
    congr 2
    · cases loader <;> rfl
    · congr 1
      funext l
      cases plan.layoutName? l <;> rfl

/-- The blocks that a plan refers to, statement by statement. -/
def Plan.referred (plan : Plan) : List (List Block) :=
  plan.routes.map (Registration.referred plan)
    ++ (plan.middlewares ++ plan.proxy.toList).map fun f => [Block.ofNamed f]

/-- Every statement refers to blocks by their names. -/
theorem functions_statements (app : Option String) (plan : Plan) :
    (plan.statements app).map Statement.functions =
      plan.referred.map fun blocks => blocks.map Block.name := by
  rw [Plan.statements, Plan.referred, List.map_append, List.map_append, List.map_append,
    List.map_map, List.map_map, List.map_map, List.map_map, List.map_map, List.map_append,
    List.append_assoc]
  congr 1
  apply List.map_congr_left
  intro r _
  exact functions_registration app plan r

section
variable {disk : Volume} {root : Path} {app : Node} {s : AppScan}

/-- What a plan refers to is among its blocks. -/
theorem referred_subset (there : disk.resolve root = .ok app) (tree : app.Named IsFileName)
    (scanned : scan disk root = .ok s) {bs : List Block} (h : bs ∈ (Plan.ofScan s).referred) :
    bs ⊆ (Plan.ofScan s).blocks := by
  intro b hb
  rw [Plan.blocks, List.mem_append]
  obtain h | h := List.mem_append.1 h
  · obtain ⟨r, hr, rfl⟩ := List.mem_map.1 h
    cases r with
    | handler file own name =>
      obtain rfl : b = ⟨file, own.function, name⟩ := by simpa [Registration.referred] using hb
      exact .inl (List.mem_flatMap.2 ⟨_, hr, by simp [Registration.blocks]⟩)
    | page p name loader layouts =>
      obtain rfl | hb := List.mem_cons.1 hb
      · exact .inl (List.mem_flatMap.2 ⟨_, hr, by simp [Registration.blocks]⟩)
      obtain hb | hb := List.mem_append.1 hb
      · exact .inl (List.mem_flatMap.2 ⟨_, hr, List.mem_append_left _ hb⟩)
      · obtain ⟨l, hl, found⟩ := List.mem_filterMap.1 hb
        obtain ⟨-, rfl⟩ := registerAll_complete s .empty s.entries _ hr
        have around : l ∈ s.layouts := (List.mem_filter.1 (List.mem_mergeSort.1 hl)).1
        obtain ⟨own, named, among⟩ := layoutName?_of_mem there tree scanned around
        rw [named] at found
        obtain rfl := Option.some_inj.1 found
        exact .inr (List.mem_map_of_mem (by simp [Plan.others, among]))
  · obtain ⟨f, hf, rfl⟩ := List.mem_map.1 h
    obtain rfl := List.mem_singleton.1 hb
    refine .inr (List.mem_map_of_mem ?_)
    obtain hf | hf := List.mem_append.1 hf
    · simp [Plan.others, hf]
    · simp only [Plan.others, List.mem_append]
      exact .inr hf

end

/-- Sorted texts of which each is kept once are strictly ascending. -/
theorem pairwise_eraseDups {texts : List String}
    (sorted : texts.Pairwise fun a b => (MountKey.compareText a b).isLE) :
    texts.eraseDups.Pairwise (· < ·) := by
  induction n : texts.length using Nat.strong_induction_on generalizing texts with
  | _ n ih =>
    cases texts with
    | nil => exact List.Pairwise.nil
    | cons a rest =>
      obtain ⟨first, behind⟩ := List.pairwise_cons.1 sorted
      have less := Nat.lt_succ_of_le (List.length_filter_le (fun b => !b == a) rest)
      rw [List.eraseDups_cons]
      refine List.pairwise_cons.2 ⟨?_, ih _ (n ▸ less) (behind.filter _) rfl⟩
      intro b hb
      obtain ⟨among, other⟩ := List.mem_filter.1 (List.mem_eraseDups.1 hb)
      have le := first b among
      unfold MountKey.compareText at le
      split at le
      · assumption
      · split at le
        · next same => simp [same] at other
        · cases le

theorem sortedOnce_pairwise (texts : List String) : (sortedOnce texts).Pairwise (· < ·) := by
  have trans (a b c : String) (ab : (MountKey.compareText a b).isLE)
      (bc : (MountKey.compareText b c).isLE) :
      (MountKey.compareText a c).isLE := by
    change (compare a c).isLE
    exact Std.TransCmp.isLE_trans ab bc
  have total (a b : String) :
      ((MountKey.compareText a b).isLE || (MountKey.compareText b a).isLE) = true := by
    have swap : compare b a = (compare a b).swap := Std.OrientedCmp.eq_swap
    change ((compare a b).isLE || (compare b a).isLE) = true
    rw [swap]
    cases compare a b <;> rfl
  exact pairwise_eraseDups (List.pairwise_mergeSort trans total texts)

theorem mem_sortedOnce {texts : List String} {t : String} : t ∈ sortedOnce texts ↔ t ∈ texts := by
  rw [sortedOnce, List.mem_eraseDups, List.mem_mergeSort]

section
variable {disk : Volume} {root : Path} {app : Node} {s : AppScan}

/-- The files of the blocks are the files of all that is registered, and of all other functions. -/
theorem files_blocks (there : disk.resolve root = .ok app) (tree : app.Named IsFileName)
    (scanned : scan disk root = .ok s) (file : MarkerFile) :
    (∃ b ∈ (Plan.ofScan s).blocks, b.file = file) ↔
      file ∈ s.entries.map Entry.file ++ ((Plan.ofScan s).routes.filterMap Registration.loader?
        ++ (Plan.ofScan s).others).map fun f => f.1.file := by
  rw [← entries_ofScan there tree scanned]
  have registered (r : Registration) : (∃ b ∈ r.blocks, b.file = file) ↔
      r.entry.file = file ∨ ∃ l, r.loader? = some l ∧ l.1.file = file := by
    cases r with
    | handler f own name =>
      simp [Registration.blocks, Registration.entry, Registration.loader?, Entry.file]
    | page p name loader layouts =>
      cases loader with
      | none => simp [Registration.blocks, Registration.entry, Registration.loader?, Entry.file]
      | some l =>
        simp [Registration.blocks, Registration.entry, Registration.loader?, Entry.file,
          Block.ofNamed, or_comm]
  simp only [Plan.blocks, List.map_append, List.map_map, List.mem_append, List.mem_map,
    List.mem_flatMap, List.mem_filterMap, Function.comp_apply]
  constructor
  · rintro ⟨b, ⟨r, hr, hb⟩ | ⟨f, hf, rfl⟩, rfl⟩
    · obtain entry | ⟨l, loads, same⟩ := (registered r).1 ⟨b, hb, rfl⟩
      · exact .inl ⟨r, hr, entry⟩
      · exact .inr (.inl ⟨l, ⟨r, hr, loads⟩, same⟩)
    · exact .inr (.inr ⟨f, hf, rfl⟩)
  · rintro (⟨r, hr, entry⟩ | ⟨l, ⟨r, hr, loads⟩, same⟩ | ⟨f, hf, rfl⟩)
    · obtain ⟨b, hb, same⟩ := (registered r).2 (.inl entry)
      exact ⟨b, .inl ⟨r, hr, hb⟩, same⟩
    · obtain ⟨b, hb, same⟩ := (registered r).2 (.inr ⟨l, loads, same⟩)
      exact ⟨b, .inl ⟨r, hr, hb⟩, same⟩
    · exact ⟨_, .inr ⟨f, hf, rfl⟩, rfl⟩

/-- The imports of a plan are those of the files of its blocks. -/
theorem mem_imports_iff (there : disk.resolve root = .ok app) (tree : app.Named IsFileName)
    (scanned : scan disk root = .ok s) (t : String) :
    t ∈ (Plan.ofScan s).imports ↔ ∃ b ∈ (Plan.ofScan s).blocks, t ∈ b.file.imports := by
  have all : (Plan.ofScan s).imports = sortedOnce ((s.entries.map Entry.file ++
      ((Plan.ofScan s).routes.filterMap Registration.loader? ++ (Plan.ofScan s).middlewares ++
        (Plan.ofScan s).layouts ++ (Plan.ofScan s).proxy.toList).map fun f => f.1.file).flatMap
          MarkerFile.imports) := rfl
  rw [all, mem_sortedOnce, List.mem_flatMap, List.append_assoc, List.append_assoc,
    ← List.append_assoc
    (Plan.ofScan s).middlewares]
  constructor
  · rintro ⟨file, hfile, ht⟩
    obtain ⟨b, hb, rfl⟩ := (files_blocks there tree scanned file).2 hfile
    exact ⟨b, hb, ht⟩
  · rintro ⟨b, hb, ht⟩
    exact ⟨b.file, (files_blocks there tree scanned b.file).1 ⟨b, hb, rfl⟩, ht⟩

/-- Every block holds a function that was accepted in a file that was read. -/
theorem exists_holds (there : disk.resolve root = .ok app) (tree : app.Named IsFileName)
    (scanned : scan disk root = .ok s) {b : Block} (h : b ∈ (Plan.ofScan s).blocks) :
    ∃ o ∈ openedIn disk root app, o.Holds b.file b.function := by
  have adds := scan_adds there scanned
  rw [Plan.blocks, List.mem_append] at h
  obtain h | h := h
  · obtain ⟨r, hr, hb⟩ := List.mem_flatMap.1 h
    have found : r.entry ∈ s.found := by
      rw [← (perm_inMountOrder Entry.key s.found).mem_iff]
      have entries := entries_ofScan there tree scanned
      rw [AppScan.entries] at entries
      rw [← entries]
      exact List.mem_map_of_mem hr
    cases r with
    | handler file own name =>
      obtain rfl : b = ⟨file, own.function, name⟩ := by simpa [Registration.blocks] using hb
      exact exists_of_mem_found there scanned found
    | page p name loader layouts =>
      obtain hb | hb := List.mem_append.1 hb
      · obtain ⟨l, loads, rfl⟩ := Option.map_eq_some_iff.1 (Option.mem_toList.1 hb)
        obtain ⟨own, -⟩ := registerAll_complete s .empty s.entries _ hr
        rw [loads, Option.map_some] at own
        have among : l.1 ∈ s.loaders := List.mem_of_find?_eq_some own.symm
        rw [adds.loaders] at among
        exact exists_of_mem_givenBy among
      · obtain rfl := List.mem_singleton.1 hb
        have page : p ∈ s.pages := by simpa [AppScan.found, Registration.entry] using found
        exact exists_of_mem_givenBy (pages_subset there scanned page)
  · obtain ⟨f, hf, rfl⟩ := List.mem_map.1 h
    simp only [Plan.others, List.mem_append, Option.mem_toList] at hf
    obtain (hf | hf) | hf := hf
    · have among : f.1 ∈ s.middlewares := by
        rw [← (byScope_perm s.middlewares).mem_iff, ← map_fst_middlewares]
        exact List.mem_map_of_mem hf
      rw [adds.middlewares] at among
      exact exists_of_mem_givenBy among
    · have among : f.1 ∈ s.layouts := by
        rw [← (byScope_perm s.layouts).mem_iff, ← map_fst_layouts]
        exact List.mem_map_of_mem hf
      exact exists_of_mem_givenBy (layouts_subset there scanned among)
    · obtain ⟨p, set, rfl⟩ := Option.map_eq_some_iff.1 hf
      exact exists_of_mem_givenBy (proxy_mem there scanned set)

/-- Where something is registered a function is emitted. -/
theorem blocks_ne_nil (there : disk.resolve root = .ok app) (tree : app.Named IsFileName)
    (scanned : scan disk root = .ok s) (found : s.found ≠ []) : (Plan.ofScan s).blocks ≠ [] := by
  have entries := entries_ofScan there tree scanned
  have routes : (Plan.ofScan s).routes ≠ [] := by
    intro none'
    rw [none', List.map_nil] at entries
    apply found
    have ordered := perm_inMountOrder Entry.key s.found
    rw [AppScan.entries] at entries
    rwa [← entries, List.nil_perm] at ordered
  obtain ⟨r, rest, first⟩ := List.exists_cons_of_ne_nil routes
  intro none'
  rw [Plan.blocks, first] at none'
  cases r <;> simp [Registration.blocks] at none'

/-- A text stands in another one where an import begins and ends. -/
def Imports (text : List Char) (m : Source.ImportItem) (written : String) : Prop :=
  ∃ before after, text = before ++ (written.toList ++ after) ∧
    Source.startOf m.attributes m.visibility m.keyword = Source.placeAfter before ∧
    m.stop = Source.placeAfter (before ++ written.toList)

/-- The imports of a file are the texts of its imports. -/
theorem mem_imports_of_mem_openedIn {o : Opened} (among : o ∈ openedIn disk root app)
    (unmarked : o.source.text.head? ≠ some byteOrderMark) (t : String) :
    t ∈ o.file.imports ↔ ∃ m, .import m ∈ o.source.items ∧ Imports o.source.text m t := by
  obtain ⟨read, imports⟩ := itemsOf_of_mem_openedIn among
  rw [imports, Source.SourceFile.mem_imports]
  constructor
  · rintro ⟨m, hi, rfl⟩
    obtain ⟨before, text, after, whole, start, stop, between, -⟩ :=
      Source.exists_import read unmarked hi
    refine ⟨m, hi, before, after, ?_, start, ?_⟩
    · rw [between, String.toList_ofList, whole]
    · rw [between, String.toList_ofList, stop]
  · rintro ⟨m, hi, before, after, whole, start, stop⟩
    refine ⟨m, hi, ?_⟩
    rw [start, stop, whole, Source.between_placeAfter, String.ofList_toList]

/-- A block is the function of a marker file as it stands there, with only its name replaced, behind
a comment that names the file and the line. -/
structure Block.Verbatim (b : Block) (shown : Option String) (o : Opened) : Prop where
  holds : o.Holds b.file b.function
  cut : ∃ f ∈ o.source.functions, ∃ c : Cut, c.Of o.source.text f ∧
    b.text shown = "\n// " ++ shownPath shown o.file ++ ":"
      ++ toString f.signature.nameSpan.start.line
      ++ "\n" ++ String.ofList (c.under b.name.toList) ++ "\n"

theorem verbatim_of_holds {o : Opened} (among : o ∈ openedIn disk root app)
    (unmarked : o.source.text.head? ≠ some byteOrderMark) {b : Block}
    (holds : o.Holds b.file b.function) (shown : Option String) : b.Verbatim shown o := by
  refine ⟨holds, ?_⟩
  obtain ⟨same, contract, f, hf, accepted⟩ := holds
  have extracted : o.source.extract f = .ok b.function := (taken_of_accepted? accepted).2
  obtain ⟨c, cut, -, -, renamed⟩ :=
    Source.exists_cut (itemsOf_of_mem_openedIn among).1 unmarked hf extracted
  have line : b.function.line = f.signature.nameSpan.start.line := by
    have taken := cut.extract
    rw [extracted] at taken
    rw [Except.ok.inj taken]
  refine ⟨f, hf, c, cut, ?_⟩
  rw [Block.text, functionBlock, renamed, line, same]

/-- The names that are given out are different identifiers. Every name that the registering file
refers to is that of exactly one block, each block is a function of a marker file with only its name
replaced, and the imports of all these files stand before them once and in the order of their bytes.
This holds when no marker file begins with two byte order marks. -/
theorem functionsText_verbatim (there : disk.resolve root = .ok app) (tree : app.Named IsFileName)
    (scanned : scan disk root = .ok s) {modulePath : String} (valid : validate modulePath = .ok ())
    (unmarked : ∀ o ∈ openedIn disk root app, o.source.text.head? ≠ some byteOrderMark) :
    ∃ rendered path body, render s modulePath = .ok rendered ∧
      readRegistration? rendered.registration = some (path, body) ∧
      rendered.functions = header ++ "#![allow(unused_imports, dead_code)]\n" ++
        importLines (Plan.ofScan s).imports ++ String.join
          ((Plan.ofScan s).blocks.map (Block.text (s.root.fileName?.map Name.display))) ∧
      ((Plan.ofScan s).blocks.map Block.name).Nodup ∧
      (∀ b ∈ (Plan.ofScan s).blocks, IsIdentifier b.name) ∧
      (body = [.idle] ∨
        body.map Statement.functions = (Plan.ofScan s).referred.map fun bs => bs.map Block.name) ∧
      (∀ bs ∈ (Plan.ofScan s).referred, bs ⊆ (Plan.ofScan s).blocks) ∧
      (∀ st ∈ body, ∀ n ∈ st.functions, ∃! b, b ∈ (Plan.ofScan s).blocks ∧ b.name = n) ∧
      (∀ b ∈ (Plan.ofScan s).blocks, ∃ o ∈ openedIn disk root app,
        b.Verbatim (s.root.fileName?.map Name.display) o) ∧
      ((Plan.ofScan s).imports.Pairwise fun a b =>
        Text.Utf8.encode a.toList < Text.Utf8.encode b.toList) ∧
      ∀ t, t ∈ (Plan.ofScan s).imports ↔ ∃ b ∈ (Plan.ofScan s).blocks, ∃ o ∈ openedIn disk root app,
        b.file = o.file ∧ ∃ m, .import m ∈ o.source.items ∧ Imports o.source.text m t := by
  obtain ⟨apart, identifiers⟩ := names_ofScan s
  have names := names_blocks (Plan.ofScan s)
  have distinct : ((Plan.ofScan s).blocks.map Block.name).Nodup := names.nodup_iff.2 apart
  have statements := functions_statements (s.root.fileName?.map Name.display) (Plan.ofScan s)
  refine ⟨_, _, _, render_eq_ok s valid, readRegistration?_registrationText s _ valid,
    functionsText_eq _ _, distinct, ?_, ?_, fun bs hbs =>
    referred_subset there tree scanned hbs, ?_, ?_, ?_, ?_⟩
  · intro b hb
    exact identifiers b.name (names.mem_iff.1 (List.mem_map_of_mem hb))
  · unfold Plan.body
    split
    · exact .inl rfl
    · exact .inr statements
  · intro st hst n hn
    have planned : st ∈ (Plan.ofScan s).statements (s.root.fileName?.map Name.display) := by
      unfold Plan.body at hst
      split at hst
      · obtain rfl := List.mem_singleton.1 hst
        cases hn
      · exact hst
    have referred : st.functions ∈ (Plan.ofScan s).referred.map fun bs => bs.map Block.name := by
      rw [← statements]
      exact List.mem_map_of_mem planned
    obtain ⟨bs, hbs, same⟩ := List.mem_map.1 referred
    rw [← same] at hn
    obtain ⟨b, hb, rfl⟩ := List.mem_map.1 hn
    refine ⟨b, ⟨referred_subset there tree scanned hbs hb, rfl⟩, ?_⟩
    rintro other ⟨among, same⟩
    exact List.inj_on_of_nodup_map distinct among (referred_subset there tree scanned hbs hb) same
  · intro b hb
    obtain ⟨o, ho, holds⟩ := exists_holds there tree scanned hb
    exact ⟨o, ho, verbatim_of_holds ho (unmarked o ho) holds _⟩
  · refine (sortedOnce_pairwise _).imp ?_
    intro a b less
    exact Text.Utf8.encode_lt (String.lt_iff.1 less)
  · intro t
    rw [mem_imports_iff there tree scanned]
    constructor
    · rintro ⟨b, hb, ht⟩
      obtain ⟨o, ho, holds⟩ := exists_holds there tree scanned hb
      rw [holds.file] at ht
      exact ⟨b, hb, o, ho, holds.file, (mem_imports_of_mem_openedIn ho (unmarked o ho) t).1 ht⟩
    · rintro ⟨b, hb, o, ho, same, found⟩
      refine ⟨b, hb, ?_⟩
      rw [same]
      exact (mem_imports_of_mem_openedIn ho (unmarked o ho) t).2 found

theorem unmarked_quotedBesideParameter :
    ∀ o ∈ openedIn ⟨quotedBesideParameter, []⟩ (.ofString ".") quotedBesideParameter,
      o.source.text.head? ≠ some byteOrderMark := by
  rw [openedIn, visits_quotedBesideParameter]
  decide +kernel

theorem functionsText_verbatim_quoted : ∃ s rendered,
    scan ⟨quotedBesideParameter, []⟩ (.ofString ".") = .ok s ∧
      render s "crate::generated" = .ok rendered ∧ (Plan.ofScan s).blocks ≠ [] ∧
      ((Plan.ofScan s).blocks.map Block.name).Nodup ∧
      ∀ b ∈ (Plan.ofScan s).blocks,
        ∃ o ∈ openedIn ⟨quotedBesideParameter, []⟩ (.ofString ".") quotedBesideParameter,
          b.Verbatim (s.root.fileName?.map Name.display) o := by
  obtain ⟨s, scanned, two⟩ := scan_quotedBesideParameter
  obtain ⟨rendered, _, _, written, -, -, distinct, -, -, -, -, verbatim, -, imports⟩ :=
    functionsText_verbatim (resolve_current _) named_quotedBesideParameter scanned
      validate_generated unmarked_quotedBesideParameter
  have some' : s.found ≠ [] := List.length_pos_iff.1 (two ▸ Nat.zero_lt_two)
  have blocks := blocks_ne_nil (resolve_current _) named_quotedBesideParameter scanned some'
  exact ⟨s, rendered, scanned, written, blocks, distinct, verbatim⟩

end

end Waymark.Generate
