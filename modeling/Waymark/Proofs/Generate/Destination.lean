import Waymark.Proofs.Disk.Below
import Waymark.Proofs.Disk.Making
import Waymark.Proofs.Generate.Registering

/-!
# Where generated files go

An output directory that is a module lies below the project, whatever way it was written:

* `modular_names`: the names below `src` neither lead upwards nor are patterns;
* `resolve_eq_ok_iff`: what makes a directory a module;
* `descends_of_resolve`: the way from the project to its output directory.
-/

namespace Waymark.Generate

open Waymark.Disk (Volume Path Name Component upName counts)
open Waymark.Disk.Volume
open Waymark.Source.Lexer (isNameChar)

variable {d d' : Volume}

/-! ## Names of modules -/

/-- A name that leads downwards, to a directory that is not called as a pattern would be. -/
structure IsModular (n : Name) : Prop where
  down : n ≠ upName
  literal : n.display ≠ "*"

theorem validate_eq_ok_iff {text : String} :
    validate text = .ok () ↔ (modulePieces text.toList).all isModuleName = true := by
  unfold validate
  split <;> simp_all

/-- A text that is names joined by double colons has their characters, and colons. -/
theorem isNameChar_of_validate {text : String} (valid : validate text = .ok ()) {c : Char}
    (h : c ∈ text.toList) : c = ':' ∨ isNameChar c = true := by
  have named := validate_eq_ok_iff.1 valid
  obtain ⟨first, more, pieces, joined⟩ := modulePieces_joined text.toList
  rw [pieces] at named
  have each {piece : List Char} (hp : piece ∈ first :: more) (hc : c ∈ piece) :
      isNameChar c = true := by
    cases isAsciiName_of_isModuleName (List.all_eq_true.1 named piece hp) with
    | intro _ each => exact each c hc
  rw [← joined, List.mem_append, List.mem_flatMap] at h
  obtain front | ⟨piece, hp, back⟩ := h
  · exact .inr (each List.mem_cons_self front)
  · rw [List.mem_cons, List.mem_cons] at back
    obtain colon | colon | inner := back
    · exact .inl colon
    · exact .inl colon
    · exact .inr (each (List.mem_cons_of_mem _ hp) inner)

/-- The text of each name below `src` stands in the module path. -/
theorem mem_modulePathOf {below : Path} {n : Name} (h : n ∈ below.names) {c : Char}
    (hc : c ∈ (componentText (.ofName n)).toList) : c ∈ (modulePathOf below).toList := by
  rw [modulePathOf, String.toList_append, String.toList_join, List.mem_append, List.mem_flatMap]
  refine .inr ⟨"::" ++ componentText (.ofName n), ?_, ?_⟩
  · rw [Path.components_eq, List.map_append, List.mem_append]
    exact .inr (List.mem_map_of_mem (List.mem_map_of_mem h))
  · rw [String.toList_append]
    exact List.mem_append_right _ hc

/-- The names of a module neither lead upwards nor are patterns. -/
theorem modular_names {below : Path} (valid : validate (modulePathOf below) = .ok ()) :
    ∀ n ∈ below.names, IsModular n := by
  intro n hn
  have written {c : Char} (hc : c ∈ (componentText (.ofName n)).toList) : c = ':' ∨
      isNameChar c = true :=
    isNameChar_of_validate valid (mem_modulePathOf hn hc)
  have down : n ≠ upName := by
    rintro rfl
    exact absurd (written (c := '.') (by decide)) (by decide)
  refine ⟨down, fun pattern => ?_⟩
  have shown : componentText (.ofName n) = "*" := by
    rw [Component.ofName, if_neg down, componentText, pattern]
  exact absurd (written (c := '*') (by rw [shown]; decide)) (by decide)

/-! ## Resolving -/

theorem isEntryName_manifest : IsEntryName (Name.ofString "Cargo.toml")  := by
  rw [Name.ofString_eq_encode]
  exact ⟨by decide, by decide, by decide, by decide⟩

theorem isEntryName_source : IsEntryName (Name.ofString "src")  := by
  rw [Name.ofString_eq_encode]
  exact ⟨by decide, by decide, by decide, by decide⟩

/-- A directory is a module if the project names its package, and the path below `src` is a
module's. -/
theorem resolve_eq_ok_iff {project output : Path} {modulePath : String} :
    resolve d project output = .ok modulePath ↔ ∃ text manifest below,
      d.readText (project.join (.ofString "Cargo.toml")) = .ok text ∧
      Toml.read text = .ok manifest ∧
        namesPackage manifest = true ∧
        (project.join output).withoutPrefix? (project.join (.ofString "src")) = some below ∧
        validate (modulePathOf below) = .ok () ∧ modulePath = modulePathOf below := by
  unfold resolve
  simp only [bind, Except.bind, pure, Except.pure, throw, throwThe, MonadExceptOf.throw]
  cases d.readText (project.join (.ofString "Cargo.toml")) with
  | error fault => simp
  | ok text =>
    dsimp only
    cases parsed : Toml.read text with
    | error fault => simp [parsed]
    | ok manifest =>
      cases named : namesPackage manifest with
      | false => simp [parsed, named]
      | true =>
        cases (project.join output).withoutPrefix? (project.join (.ofString "src")) with
        | none => simp [named]
        | some below =>
          cases valid : validate (modulePathOf below) <;> simp [parsed, named, valid,
            @eq_comm _ modulePath]

/-- A directory stays a module while the manifest reads as it did. -/
theorem resolve_congr {project output : Path} {modulePath : String}
    (manifest : ∀ text, d.readText (project.join (.ofString "Cargo.toml")) = .ok text →
      d'.readText (project.join (.ofString "Cargo.toml")) = .ok text)
    (resolved : resolve d project output = .ok modulePath) :
    resolve d' project output = .ok modulePath := by
  obtain ⟨text, document, below, reads, rest⟩ := resolve_eq_ok_iff.1 resolved
  exact resolve_eq_ok_iff.2 ⟨text, document, below, manifest text reads, rest⟩

/-- The names of an output directory that is a module are those of the project, and further ones
that are modular. -/
theorem names_of_below {project output below : Path}
    (found : (project.join (project.join output)).withoutPrefix? (project.join (.ofString "src")) =
      some below)
    (modular : ∀ n ∈ below.names, IsModular n) :
    (project.join output).isAbsolute = project.isAbsolute ∧ ∃ behind,
      (project.join output).names = project.names ++ behind ∧ (project.join output).names ≠ [] ∧
        ∀ n ∈ behind, IsModular n := by
  have source : (project.join (.ofString "src")).names = project.names ++ [Name.ofString "src"] :=
    isEntryName_source.names_join project
  have sourceRelative : (Path.ofString "src").isAbsolute = false := isEntryName_source.relative
  obtain ⟨names, first⟩ := Path.names_of_withoutPrefix (by simp [source]) found
  rw [source, List.append_assoc, List.singleton_append] at names
  rw [Path.isAbsolute_join, Path.isAbsolute_join project (.ofString "src"), sourceRelative,
    Bool.false_or] at first
  have all : ∀ n ∈ Name.ofString "src" :: below.names, IsModular n := by
    refine List.forall_mem_cons.2 ⟨⟨isEntryName_source.down, ?_⟩, modular⟩
    rw [Name.display_ofString]
    decide
  cases absolute : (project.join output).isAbsolute with
  | true =>
    -- an absolute path stands alone, and lies below `src` itself
    rw [Path.join, if_pos absolute] at names
    rw [absolute, Bool.true_or] at first
    exact ⟨first, _, names, by simp [names], all⟩
  | false =>
    -- a relative one is taken from the project once more
    rw [Path.names_join project absolute] at names
    have twice := List.append_cancel_left names
    rw [Path.isAbsolute_join, Bool.or_eq_false_iff] at absolute
    rw [Path.names_join project absolute.1] at twice ⊢
    refine ⟨absolute.2.symm, _, rfl, by simp [twice], fun n hn => all n ?_⟩
    rw [← twice]
    exact List.mem_append_right _ hn

/-- The way to an output directory that is a module goes down from the project. -/
theorem descends_of_resolve (plain : d.Plain) {project output : Path} {modulePath : String}
    (resolved : resolve d project (project.join output) = .ok modulePath) :
    (project.join output).names ≠ [] ∧
    ∃ behind, d.Descends (project.join output) project.names behind ∧
      ∀ n ∈ behind, IsModular n := by
  obtain ⟨text, -, below, reads, -, -, found, valid, -⟩ := resolve_eq_ok_iff.1 resolved
  obtain ⟨same, behind, names, some', modular⟩ := names_of_below found (modular_names valid)
  have start : d.start (project.join output) = d.start project := start_eq rfl same
  -- the manifest is read in the directory of the project
  obtain ⟨enters, there⟩ := (readText_child_iff plain isEntryName_manifest).1 reads
  exact ⟨some', behind,
    ⟨names, by rw [start]; exact enters, by rw [start]; exact directory_of_child there,
      fun n hn => (modular n hn).down⟩, modular⟩

end Waymark.Generate
