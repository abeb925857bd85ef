import Waymark.Proofs.Generate.Destination
import Waymark.Proofs.Text.Replacing

/-!
# Directories read back from module paths

A module path is `crate` and the names of directories, and is checked as a whole. Where no name has
a double colon in it, every name is checked for itself, and the path leads back to the directory:

* `modulePieces_append`: texts are split apart, or neither way of splitting them gives names alone;
* `validate_joined_iff`: a joined text is valid if each of its parts is;
* `resolve_eq_ok_iff_names`: what is resolved, and to what;
* `resolve_inverts`: a module path names one directory.
-/

namespace Waymark.Generate

open Waymark.Disk (Volume Path Name Component)
open Waymark.Disk.Volume
open Waymark.Source.Lexer (isNameChar IsAsciiName isNameChar_iff isAlpha_iff isDigit_iff
  lt_of_isNameChar)

/-! ## Splitting at double colons -/

/-- A character that does not begin a double colon belongs to the first piece. -/
theorem modulePieces_cons {c : Char} {rest : List Char} (single : c = ':' → rest.head? ≠ some ':') :
    ∃ piece more, modulePieces rest = piece :: more ∧
    modulePieces (c :: rest) = (c :: piece) :: more := by
  obtain ⟨piece, more, pieces, -⟩ := modulePieces_joined rest
  refine ⟨piece, more, pieces, ?_⟩
  rw [modulePieces.eq_def]
  split
  · next none' => cases none'
  · next other same =>
    obtain ⟨rfl, rfl⟩ := List.cons_eq_cons.1 same
    exact absurd rfl (single rfl)
  · next d others _ same =>
    obtain ⟨rfl, rfl⟩ := List.cons_eq_cons.1 same
    rw [pieces]

theorem not_mem_of_isModuleName {piece : List Char} (named : isModuleName piece = true) :
    ':' ∉ piece := by
  intro colon
  cases isAsciiName_of_isModuleName named with
  | intro _ each => exact absurd (each _ colon) (by decide)

/-- A colon in front of a text is in the first piece, or the first piece is empty. -/
theorem exists_unnamed_colon (text : List Char) :
    ∃ piece ∈ modulePieces (':' :: text), isModuleName piece = false := by
  by_cases doubled : text.head? = some ':'
  · obtain ⟨rest, rfl⟩ := List.head?_eq_some_iff.1 doubled
    exact ⟨[], List.mem_cons_self, rfl⟩
  · obtain ⟨piece, more, -, pieces⟩ := modulePieces_cons (c := ':') fun _ => doubled
    rw [pieces]
    exact ⟨_, List.mem_cons_self, rfl⟩

/-- Two texts are split apart at a double colon between them, unless the first one ends in a colon;
then neither splitting them apart nor splitting them together gives names alone. -/
theorem modulePieces_append (front back : List Char) :
    modulePieces (front ++ ':' :: ':' :: back) = modulePieces front ++ modulePieces back ∨
      (∃ piece ∈ modulePieces front, ':' ∈ piece) ∧
        ∃ piece ∈ (modulePieces (front ++ ':' :: ':' :: back)).tail,
          isModuleName piece = false := by
  fun_induction modulePieces front with
  | case1 => exact .inl rfl
  | case2 rest ih =>
    obtain apart | ⟨colon, ⟨piece, later, unnamed⟩⟩ := ih
    · left
      rw [List.cons_append, List.cons_append, modulePieces, apart, List.cons_append]
    · right
      obtain ⟨other, among, has⟩ := colon
      exact ⟨⟨other, List.mem_cons_of_mem _ among, has⟩, piece, List.mem_of_mem_tail later, unnamed⟩
  | case3 c rest _ none' ih =>
    obtain ⟨piece, more, same, -⟩ := modulePieces_joined rest
    simp [same] at none'
  | case4 c rest single piece pieces same ih =>
    by_cases last : c = ':' ∧ rest = []
    · obtain ⟨rfl, rfl⟩ := last
      right
      exact ⟨⟨_, List.mem_cons_self, List.mem_cons_self⟩, exists_unnamed_colon back⟩
    · have single' : c = ':' → (rest ++ ':' :: ':' :: back).head? ≠ some ':' := by
        rintro rfl
        cases rest with
        | nil => exact absurd ⟨rfl, rfl⟩ last
        | cons d others =>
          rw [List.cons_append, List.head?_cons, ne_eq, Option.some.injEq]
          rintro rfl
          exact single others rfl rfl
      obtain ⟨first, more, whole, pieces'⟩ := modulePieces_cons single'
      rw [List.cons_append, pieces']
      rw [whole, same] at ih
      obtain apart | ⟨⟨other, among, has⟩, later⟩ := ih
      · obtain ⟨rfl, rfl⟩ := List.cons_eq_cons.1 apart
        exact .inl rfl
      · refine .inr ⟨?_, later⟩
        obtain rfl | behind := List.mem_cons.1 among
        · exact ⟨_, List.mem_cons_self, List.mem_cons_of_mem _ has⟩
        · exact ⟨other, List.mem_cons_of_mem _ behind, has⟩

theorem all_isModuleName_append (front back : List Char) :
    (modulePieces (front ++ ':' :: ':' :: back)).all isModuleName =
      ((modulePieces front).all isModuleName && (modulePieces back).all isModuleName) := by
  obtain apart | ⟨⟨other, among, has⟩, piece, later, unnamed⟩ := modulePieces_append front back
  · rw [apart, List.all_append]
  · have frontFails : (modulePieces front).all isModuleName = false :=
      List.all_eq_false.2 ⟨other, among, fun named => not_mem_of_isModuleName named has⟩
    rw [frontFails, Bool.false_and]
    exact List.all_eq_false.2 ⟨piece, List.mem_of_mem_tail later, by simp [unnamed]⟩

/-- The characters of a module path: what it begins with, and texts behind double colons. -/
def joinTexts (first : List Char) (texts : List (List Char)) : List Char :=
  first ++ texts.flatMap fun text => ':' :: ':' :: text

theorem joinTexts_cons (first text : List Char) (more : List (List Char)) :
    joinTexts first (text :: more) = first ++ ':' :: ':' :: joinTexts text more := rfl

/-- A joined text is valid if each of its parts is. -/
theorem all_isModuleName_joinTexts (first : List Char) (texts : List (List Char)) :
    (modulePieces (joinTexts first texts)).all isModuleName =
      (first :: texts).all fun text => (modulePieces text).all isModuleName := by
  induction texts generalizing first with
  | nil => simp [joinTexts]
  | cons text more ih =>
    rw [joinTexts_cons, all_isModuleName_append, ih, List.all_cons (a := first)]

/-- A text without a double colon is one piece. -/
theorem modulePieces_undivided {text : List Char} (undivided : ¬ [':', ':'] <:+: text) :
    modulePieces text = [text] := by
  induction text with
  | nil => rfl
  | cons c rest ih =>
    have single : c = ':' → rest.head? ≠ some ':' := by
      rintro rfl doubled
      obtain ⟨others, rfl⟩ := List.head?_eq_some_iff.1 doubled
      exact undivided ⟨[], others, rfl⟩
    obtain ⟨piece, more, whole, pieces⟩ := modulePieces_cons single
    rw [ih fun within => undivided (within.trans (List.suffix_cons c rest).isInfix)] at whole
    obtain ⟨rfl, rfl⟩ := List.cons_eq_cons.1 whole
    exact pieces

theorem undivided_of_not_mem {text : List Char} (colonless : ':' ∉ text) : ¬ [':', ':'] <:+: text :=
  fun within => colonless (within.subset List.mem_cons_self)

/-- Joined texts without colons are split apart again. -/
theorem modulePieces_joinTexts {first : List Char} {texts : List (List Char)}
    (colonless : ∀ text ∈ first :: texts, ':' ∉ text) :
    modulePieces (joinTexts first texts) = first :: texts := by
  induction texts generalizing first with
  | nil =>
    rw [joinTexts, List.flatMap_nil, List.append_nil]
    exact modulePieces_undivided (undivided_of_not_mem (colonless first List.mem_cons_self))
  | cons text more ih =>
    obtain ⟨own, others⟩ := List.forall_mem_cons.1 colonless
    have alone : modulePieces first = [first] := modulePieces_undivided (undivided_of_not_mem own)
    rw [joinTexts_cons]
    obtain apart | ⟨⟨piece, among, has⟩, -⟩ := modulePieces_append first (joinTexts text more)
    · rw [apart, alone, ih others, List.singleton_append]
    · rw [alone, List.mem_singleton] at among
      exact absurd has (among ▸ own)

/-! ## Names of directories -/

theorem isModuleName_iff (name : String) : isModuleName name.toList = true ↔ IsIdentifier name := by
  constructor
  · intro named
    refine ⟨isAsciiName_of_isModuleName named, ?_⟩
    rintro rfl
    exact absurd named (by decide)
  · rintro ⟨ascii, visible⟩
    have other : name.toList ≠ ['_'] := fun same => visible (String.toList_inj.1 same)
    generalize name.toList = chars at ascii other
    cases ascii with
    | @intro c rest first each =>
      simp only [isModuleName, Bool.and_eq_true, Bool.or_eq_true, decide_eq_true_eq,
        List.all_eq_true]
      refine ⟨⟨?_, fun d hd => ?_⟩, other⟩
      · obtain letter | digit | rfl := isNameChar_iff.1 (each c List.mem_cons_self)
        · exact .inl letter
        · rw [first] at digit
          cases digit
        · exact .inr rfl
      · simpa [isNameChar] using each d (List.mem_cons_of_mem _ hd)

/-- A text is an identifier if it is valid, and has no double colon in it. -/
theorem isIdentifier_iff (name : String) :
    IsIdentifier name ↔ validate name = .ok () ∧ ¬ [':', ':'] <:+: name.toList := by
  rw [← isModuleName_iff, validate_eq_ok_iff]
  constructor
  · intro named
    have undivided := undivided_of_not_mem (not_mem_of_isModuleName named)
    rw [modulePieces_undivided undivided]
    exact ⟨by simp [named], undivided⟩
  · rintro ⟨valid, undivided⟩
    rw [modulePieces_undivided undivided] at valid
    simpa using valid

theorem isSign_of_isNameChar {c : Char} (h : isNameChar c) : Text.Utf8.IsSign c := by
  refine ⟨?_, lt_of_isNameChar h⟩
  obtain letter | digit | rfl := isNameChar_iff.1 h
  · have codes := isAlpha_iff.1 letter
    omega
  · have codes := isDigit_iff.1 digit
    omega
  · decide

/-- The directory of a name. -/
def directoryOf (name : String) : Component := .name (Name.ofString name)

theorem componentText_directoryOf (name : String) : componentText (directoryOf name) = name :=
  Name.display_ofString name

/-- A component whose text is valid is the directory of that text. -/
theorem directoryOf_componentText {c : Component} (valid : validate (componentText c) = .ok ()) :
    directoryOf (componentText c) = c := by
  have signs : ∀ d ∈ (componentText c).toList, Text.Utf8.IsSign d := by
    intro d hd
    obtain rfl | named := isNameChar_of_validate valid hd
    · exact ⟨by decide, by decide⟩
    · exact isSign_of_isNameChar named
  have named := validate_eq_ok_iff.1 valid
  cases c with
  | root | current | parent => exact absurd named (by decide)
  | name n =>
    have written : n = Text.Utf8.encode n.display.toList := Text.Utf8.eq_encode_of_signs signs
    rw [directoryOf, Name.ofString_eq_encode]
    exact congrArg Component.name written.symm

/-- The module path to directories below `src`, the outermost first. -/
def modulePathTo (names : List String) : String :=
  "crate" ++ String.join (names.map fun name => "::" ++ name)

theorem toList_modulePathTo (names : List String) :
    (modulePathTo names).toList = joinTexts "crate".toList (names.map String.toList) := by
  rw [modulePathTo, String.toList_append, String.toList_join, joinTexts, List.flatMap_map,
    List.flatMap_map]
  congr 2
  funext name
  rw [String.toList_append]
  rfl

theorem modulePathOf_eq (below : Path) :
    modulePathOf below = modulePathTo (below.components.map componentText) := by
  rw [modulePathOf, modulePathTo, List.map_map]
  rfl

theorem validate_modulePathTo_iff (names : List String) :
    validate (modulePathTo names) = .ok () ↔ ∀ name ∈ names, validate name = .ok () := by
  have crate : (modulePieces "crate".toList).all isModuleName = true := by decide
  rw [validate_eq_ok_iff, toList_modulePathTo, all_isModuleName_joinTexts, List.all_cons, crate,
    Bool.true_and, List.all_map, List.all_eq_true]
  exact forall₂_congr fun name _ => validate_eq_ok_iff.symm

/-! ## Resolving -/

/-- The output directory lies below `src`, under some names, or is `src` itself. -/
def LiesUnder (project output : Path) (names : List String) : Prop :=
  (project.join output).components =
    (project.join (.ofString "src")).components ++ names.map directoryOf

/-- No name of the output directory below `src` has a double colon in it. -/
def Undivided (project output : Path) : Prop :=
  ∀ below, (project.join output).components = (project.join (.ofString "src")).components ++ below →
    ∀ n, Component.name n ∈ below → ¬ [':', ':'] <:+: n.display.toList

theorem LiesUnder.undivided {project output : Path} {names : List String}
    (lies : LiesUnder project output names)
    (identifiers : ∀ name ∈ names, IsIdentifier name) : Undivided project output := by
  intro below split n among
  rw [lies] at split
  rw [← List.append_cancel_left split] at among
  obtain ⟨name, given, same⟩ := List.mem_map.1 among
  obtain rfl : Name.ofString name = n := Component.name.inj same
  rw [Name.display_ofString]
  exact ((isIdentifier_iff name).1 (identifiers name given)).2

section
variable {d : Volume} {project : Path} {text : String} {manifest : Toml}
  (reads : d.readText (project.join (.ofString "Cargo.toml")) = .ok text)
  (parses : Toml.read text = .ok manifest) (named : namesPackage manifest = true)
include reads parses named

/-- Of a project with a manifest, a directory is resolved if the names that it lies under are valid,
each for itself. -/
theorem resolve_eq_ok_iff_names {output : Path} {modulePath : String} :
    resolve d project output = .ok modulePath ↔ ∃ names, LiesUnder project output names ∧
      (∀ name ∈ names, validate name = .ok ()) ∧ modulePath = modulePathTo names := by
  have names : (project.join (.ofString "src")).names = project.names ++ [Name.ofString "src"] :=
    isEntryName_source.names_join project
  have source : (project.join (.ofString "src")).names ≠ [] := by simp [names]
  rw [resolve_eq_ok_iff]
  constructor
  · rintro ⟨_, _, below, -, -, -, found, valid, rfl⟩
    rw [modulePathOf_eq, validate_modulePathTo_iff] at valid
    refine ⟨below.components.map componentText, ?_, valid, modulePathOf_eq below⟩
    have directories : (below.components.map componentText).map directoryOf = below.components := by
      rw [List.map_map]
      refine (List.map_congr_left fun c hc => ?_).trans (List.map_id _)
      exact directoryOf_componentText (valid _ (List.mem_map_of_mem hc))
    rw [LiesUnder, directories]
    exact Path.components_of_withoutPrefix source found
  · rintro ⟨names, lies, valid, rfl⟩
    obtain ⟨below, found⟩ := Path.exists_withoutPrefix source ⟨_, lies.symm⟩
    have directories : below.components = names.map directoryOf := by
      have split := Path.components_of_withoutPrefix source found
      rw [lies] at split
      exact (List.append_cancel_left split).symm
    have path : modulePathOf below = modulePathTo names := by
      rw [modulePathOf_eq, directories, List.map_map]
      congr 1
      exact (List.map_congr_left fun name _ => componentText_directoryOf name).trans (List.map_id _)
    refine ⟨text, manifest, below, reads, parses, named, found, ?_, path.symm⟩
    rw [path]
    exact (validate_modulePathTo_iff names).2 valid

/-- **A module path names one directory.** Of a project with a manifest, an output directory without
double colons in its names is resolved exactly if it is `src` or lies below it under identifiers,
and then to `crate` and these identifiers behind double colons. Splitting the module path gives them
back, so that no other directory is resolved to it. -/
theorem resolve_inverts :
    (∀ output modulePath, Undivided project output → (resolve d project output = .ok modulePath ↔
      ∃ names, LiesUnder project output names ∧ (∀ name ∈ names, IsIdentifier name) ∧
        modulePath = modulePathTo names)) ∧
    (∀ names, (∀ name ∈ names, IsIdentifier name) →
      modulePieces (modulePathTo names).toList = ("crate" :: names).map String.toList) ∧
    ∀ output other modulePath, Undivided project output → Undivided project other →
      resolve d project output = .ok modulePath → resolve d project other = .ok modulePath →
      (project.join output).components = (project.join other).components := by
  have resolved {output : Path} {modulePath : String} (undivided : Undivided project output) :
      resolve d project output = .ok modulePath ↔ ∃ names, LiesUnder project output names ∧
        (∀ name ∈ names, IsIdentifier name) ∧ modulePath = modulePathTo names := by
    rw [resolve_eq_ok_iff_names reads parses named]
    refine exists_congr fun names => and_congr_right fun lies => ?_
    refine and_congr_left fun _ => forall₂_congr fun name among => ?_
    have whole : ¬ [':', ':'] <:+: name.toList := by
      have apart := undivided _ lies (Name.ofString name) (List.mem_map_of_mem among)
      rwa [Name.display_ofString] at apart
    rw [isIdentifier_iff]
    exact ⟨fun valid => ⟨valid, whole⟩, And.left⟩
  have split {names : List String} (identifiers : ∀ name ∈ names, IsIdentifier name) :
      modulePieces (modulePathTo names).toList = ("crate" :: names).map String.toList := by
    rw [toList_modulePathTo, modulePieces_joinTexts, List.map_cons]
    refine List.forall_mem_cons.2 ⟨by decide, List.forall_mem_map.2 fun name among => ?_⟩
    exact not_mem_of_isModuleName ((isModuleName_iff name).2 (identifiers name among))
  refine ⟨fun output modulePath => resolved, fun names => split, ?_⟩
  intro output other modulePath undivided undivided' first second
  obtain ⟨names, lies, identifiers, path⟩ := (resolved undivided).1 first
  obtain ⟨names', lies', identifiers', path'⟩ := (resolved undivided').1 second
  have pieces := split identifiers
  rw [← path, path', split identifiers'] at pieces
  have texts : Function.Injective String.toList := fun a b same => String.toList_inj.1 same
  have same : names' = names := (List.cons.inj (texts.list_map pieces)).2
  rw [lies, lies', same]

end

/-- A project with nothing but its manifest. -/
def manifestOnly : Volume where
  top := .directory [(Name.ofString "Cargo.toml", .file "[package]\nname = \"demo\"\n".toUTF8)]
  current := []

theorem plain_manifestOnly : manifestOnly.Plain where
  once := .directory _ (by simp) (by simp) (by simpa using Disk.Node.Named.file _)
  linkless names target := by
    refine Disk.Node.linkless_directory (by simp) ?_ names target
    simp only [List.mem_singleton, forall_eq]
    intro names target
    rw [Disk.Node.standing?_file]
    split <;> simp

theorem reads_manifestOnly :
    manifestOnly.readText ((Path.ofString "/").join (.ofString "Cargo.toml")) =
    .ok "[package]\nname = \"demo\"\n" := by
  have names : (Path.ofString "/").names = [] := by decide +kernel
  have start : manifestOnly.start (.ofString "/") = [] := by decide +kernel
  refine (readText_child_iff plain_manifestOnly isEntryName_manifest).2 ?_
  rw [Volume.Enters, home, names, start]
  exact ⟨trivial, by decide +kernel⟩

theorem exists_manifest : ∃ manifest,
    Toml.read "[package]\nname = \"demo\"\n" = .ok manifest ∧ namesPackage manifest = true := by
  have named : (Toml.read "[package]\nname = \"demo\"\n").toOption.map namesPackage =
      some true := by
    decide +kernel
  cases parsed : Toml.read "[package]\nname = \"demo\"\n" with
  | error fault => simp [parsed, Except.toOption] at named
  | ok manifest =>
    rw [parsed] at named
    exact ⟨manifest, rfl, Option.some.inj named⟩

/-- Separators and dots are left out, and no other directory is called the same. -/
theorem resolve_inverts_manifestOnly :
    Undivided (.ofString "/") (.ofString "src//gen/./routes") ∧
    resolve manifestOnly (.ofString "/") (.ofString "src//gen/./routes") =
      .ok "crate::gen::routes" ∧
    ∀ other, Undivided (.ofString "/") other →
      resolve manifestOnly (.ofString "/") other = .ok "crate::gen::routes" →
      ((Path.ofString "/").join other).components =
        (Path.ofString "/src/gen/routes").components := by
  obtain ⟨manifest, parses, named⟩ := exists_manifest
  obtain ⟨resolved, -, same⟩ := resolve_inverts reads_manifestOnly parses named
  have lies : LiesUnder (.ofString "/") (.ofString "src//gen/./routes") ["gen", "routes"] := by
    unfold LiesUnder
    decide +kernel
  have identifiers : ∀ name ∈ ["gen", "routes"], IsIdentifier name := by
    simp only [← isModuleName_iff]
    decide
  have undivided := lies.undivided identifiers
  have here := (resolved _ "crate::gen::routes" undivided).2 ⟨_, lies, identifiers, by decide⟩
  refine ⟨undivided, here, fun other undivided' there => ?_⟩
  rw [same _ _ _ undivided' undivided there here]
  decide +kernel

/-- A name with a double colon in it passes for two directories. -/
theorem resolve_divided :
    LiesUnder (.ofString "/") (.ofString "src/a::b") ["a::b"] ∧ ¬ IsIdentifier "a::b" ∧
    resolve manifestOnly (.ofString "/") (.ofString "src/a::b") = .ok "crate::a::b" ∧
    resolve manifestOnly (.ofString "/") (.ofString "src/a/b") = .ok "crate::a::b" ∧
    ((Path.ofString "/").join (.ofString "src/a::b")).components ≠
      ((Path.ofString "/").join (.ofString "src/a/b")).components := by
  obtain ⟨manifest, parses, named⟩ := exists_manifest
  have lies : LiesUnder (.ofString "/") (.ofString "src/a::b") ["a::b"] := by
    unfold LiesUnder
    decide +kernel
  have lies' : LiesUnder (.ofString "/") (.ofString "src/a/b") ["a", "b"] := by
    unfold LiesUnder
    decide +kernel
  refine ⟨lies, ?_, ?_, ?_, by decide +kernel⟩
  · rw [← isModuleName_iff]
    decide
  · exact (resolve_eq_ok_iff_names reads_manifestOnly parses named).2
      ⟨_, lies, by simpa [validate_eq_ok_iff] using by decide, by decide⟩
  · exact (resolve_eq_ok_iff_names reads_manifestOnly parses named).2
      ⟨_, lies', by simp [validate_eq_ok_iff]; decide, by decide⟩

end Waymark.Generate
