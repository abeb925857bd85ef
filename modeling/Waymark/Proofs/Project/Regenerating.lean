import Waymark.Project.Regeneration
import Waymark.Proofs.Generate.Destination
import Waymark.Proofs.Generate.Writing
import Waymark.Proofs.Routing.Pattern
import Waymark.Proofs.Scan.Discovery
import Waymark.Proofs.Scan.Undisturbed

/-!
# Regenerating once more

A project is regenerated from what its scan finds, and the generated files may lie in the scanned
directory. Neither they nor the directories made for them are seen by a scan, so that the next one
finds the same:

* `alike_of_delivered`: what was generated is not noticed;
* `readText_manifest_of_delivered`: the manifest is not touched;
* `regenerate_idempotent`: regenerating leaves the generated files, and does nothing where they are.
-/

namespace Waymark.Project

open Waymark.Disk (Volume Path Name Node Standing arrive)
open Waymark.Disk.Volume
open Waymark.Generate
open Waymark.Routing (Segment)
open Waymark.Scan (AppScan Marker Noticed Alike handlerFile visits visitsOf entryVisits
      inNameOrder_of_sorted)

variable {d d' : Volume} {output : Path} {rendered : Rendered} {generated : Generated}

/-! ## What was generated -/

/-- Nothing is noticed under the name of a generated file, but that a directory cannot be read. -/
theorem not_noticed_file {f : Name × String} (hf : f ∈ rendered.files) {s : Standing}
    (other : s ≠ .lockedDirectory) :
    ¬ Noticed f.1 s := by
  have unmarked : ∀ n ∈ [Name.ofString "handlers.rs", Name.ofString "routes.rs"],
      Marker.ofFileName? n.display = none ∧ (Segment.classify n.display).isUnroutable = false := by
    simp only [List.forall_mem_cons, Name.display_ofString]
    decide
  have here := unmarked f.1 (rendered.fst_mem hf)
  cases s with
  | lockedDirectory => exact absurd rfl other
  | file | directory | link | lockedFile => simp [Noticed, here.1, here.2]

/-- A directory whose name is no pattern is not noticed. -/
theorem not_noticed_directory {n : Name} (modular : IsModular n) : ¬ Noticed n .directory := by
  intro noticed
  rw [Noticed, Segment.isUnroutable, Bool.and_eq_true, decide_eq_true_eq, decide_eq_true_eq,
    Segment.classify_raw] at noticed
  exact modular.literal noticed.2

/-- A directory keeps standing when files are generated. -/
theorem directory_of_delivered (delivered : Delivered d d' output rendered generated)
    {names : List Name}
    (there : d.standing? names = some .directory) : d'.standing? names = some .directory := by
  have apart : ∀ f ∈ rendered.files, names ≠ d.home output ++ [f.1] := by
    rintro f hf rfl
    exact (delivered.writable f hf).ne_directory there
  rw [delivered.elsewhere names apart, if_neg (by simp [there]), there]

/-- What is made on the way down from a directory has one of the names on the way. -/
theorem mem_of_made {front below : List Name} (descends : d.Descends output front below)
    {names : List Name}
    {n : Name} (missing : d.standing? (names ++ [n]) = none)
    (onTheWay : names ++ [n] <+: d.home output) :
    n ∈ below := by
  rw [descends.home_eq] at onTheWay
  have there : d.standing? (arrive (d.start output) front).reverse ≠ none := by
    rw [descends.inside]
    exact nofun
  obtain within | beyond := List.prefix_or_prefix_of_prefix onTheWay (List.prefix_append _ _)
  · exact absurd missing (standing?_of_isPrefix there within)
  · obtain same | ⟨rest, rfl⟩ := List.prefix_concat_iff.1 beyond
    · exact absurd missing (same ▸ there)
    · rw [List.append_assoc, List.prefix_append_right_inj] at onTheWay
      exact onTheWay.subset (by simp)

/-- A generated file holds its text. -/
theorem standing?_of_delivered (plain' : d'.Plain)
    (delivered : Delivered d d' output rendered generated) :
    ∀ f ∈ rendered.files, d'.standing? (d.home output ++ [f.1]) = some (.file f.2.toUTF8) := by
  have home := home_eq delivered.current output
  have functions := delivered.functions
  have registration := delivered.registration
  rw [delivered.functionsPath] at functions
  rw [delivered.registrationPath] at registration
  rw [rendered.forall_files, ← home]
  exact ⟨((read_child_iff plain' isEntryName_functions).1 functions).2,
    ((read_child_iff plain' isEntryName_registration).1 registration).2⟩

/-- A scan sees nothing of generated files, nor of the directories made for them. -/
theorem alike_of_delivered (plain' : d'.Plain) {front below : List Name}
    (descends : d.Descends output front below)
    (modular : ∀ n ∈ below, IsModular n) (delivered : Delivered d d' output rendered generated) :
    Alike d d' where
  current := delivered.current
  directories _ there := directory_of_delivered delivered there
  noticed names n s noticed := by
    by_cases generated : ∃ f ∈ rendered.files, names ++ [n] = d.home output ++ [f.1]
    · obtain ⟨f, hf, same⟩ := generated
      have name : n = f.1 := List.singleton_inj.1 (List.append_inj' same rfl).2
      -- only a locked directory is noticed under this name, and the file is none, neither before
      -- nor afterwards
      have locked : s = .lockedDirectory := by
        by_contra other
        exact not_noticed_file hf other (name ▸ noticed)
      rw [same, standing?_of_delivered plain' delivered f hf, locked]
      obtain missing | ⟨content, file⟩ := delivered.writable f hf
      · simp [missing]
      · simp [file]
    · have apart : ∀ f ∈ rendered.files, names ++ [n] ≠ d.home output ++ [f.1] :=
        fun f hf same => generated ⟨f, hf, same⟩
      rw [delivered.elsewhere _ apart]
      split
      · next made =>
        rw [made.1]
        refine ⟨nofun, fun same => ?_⟩
        obtain rfl := Option.some.inj same
        exact absurd noticed
          (not_noticed_directory (modular n (mem_of_made descends made.1 made.2)))
      · exact Iff.rfl

/-- The manifest reads as it did. -/
theorem readText_manifest_of_delivered (plain : d.Plain) (plain' : d'.Plain)
    (delivered : Delivered d d' output rendered generated) {project : Path} {text : String}
    (h : d.readText (project.join (.ofString "Cargo.toml")) = .ok text) :
    d'.readText (project.join (.ofString "Cargo.toml")) = .ok text := by
  obtain ⟨enters, there⟩ := (readText_child_iff plain isEntryName_manifest).1 h
  refine (readText_child_iff plain' isEntryName_manifest).2 ⟨?_, ?_⟩
  · rw [Volume.Enters, start_eq delivered.current rfl]
    exact enters.mono fun _ => directory_of_delivered delivered
  · have other : ∀ n ∈ [Name.ofString "handlers.rs", Name.ofString "routes.rs"],
        Name.ofString "Cargo.toml" ≠ n := by
      simp [Name.ofString_inj]
    have apart : ∀ f ∈ rendered.files,
        d.home project ++ [Name.ofString "Cargo.toml"] ≠ d.home output ++ [f.1] := by
      intro f hf same
      exact other f.1 (rendered.fst_mem hf) (List.singleton_inj.1 (List.append_inj' same rfl).2)
    rw [home_eq delivered.current, delivered.elsewhere _ apart, if_neg (by simp [there]), there]

/-! ## Regenerating -/

/-- What regenerating gives: the scan of the application directory, and what is generated from
it. -/
theorem regenerate_eq_ok_iff {project : Path} {config : Config} {scan : AppScan} :
    regenerate d project config = (.ok (scan, generated), d') ↔ ∃ modulePath,
      scanApp d project config = .ok scan ∧
        Generate.resolve d project (config.outputDirectory project) = .ok modulePath ∧
        generate d scan modulePath (config.outputDirectory project) = (.ok generated, d') := by
  unfold regenerate
  constructor
  · intro h
    split at h
    · cases h
    · next found scanned =>
      dsimp only at h
      split at h
      · cases h
      · next modulePath resolved =>
        split at h
        · cases h
        · next given disk ran =>
          cases h
          exact ⟨modulePath, scanned, resolved, ran⟩
  · rintro ⟨modulePath, scanned, resolved, ran⟩
    simp only [scanned, resolved, ran]

/-- A project that is regenerated has the generated files of its scan, of which those were written
that did not hold their texts, and else what it had. Regenerating it once more gives the same and
changes nothing. -/
theorem regenerate_idempotent (plain : d.Plain) {project : Path} {config : Config} {scan : AppScan}
    (done : regenerate d project config = (.ok (scan, generated), d')) : ∃ modulePath rendered,
      scanApp d project config = .ok scan ∧
      Generate.resolve d project (config.outputDirectory project) = .ok modulePath ∧
      Generate.render scan modulePath = .ok rendered ∧
      Delivered d d' (config.outputDirectory project) rendered generated ∧
      regenerate d' project config = (.ok (scan, { generated with written := [] }), d') := by
  obtain ⟨modulePath, scanned, resolved, ran⟩ := regenerate_eq_ok_iff.1 done
  obtain ⟨some', below, descends, modular⟩ := descends_of_resolve plain resolved
  obtain ⟨plain', rendered, texts, delivered⟩ := delivered_of_generate plain some' descends ran
  refine ⟨modulePath, rendered, scanned, resolved, texts, delivered, ?_⟩
  refine regenerate_eq_ok_iff.2 ⟨modulePath, ?_, ?_, ?_⟩
  · exact Scan.scan_undisturbed plain plain' (alike_of_delivered plain' descends modular delivered)
      scanned
  · exact resolve_congr (fun _ => readText_manifest_of_delivered plain plain' delivered) resolved
  · exact generate_of_delivered plain' texts delivered

/-- A directory with a handler. -/
def sourceDirectory : Node := .directory [(Name.ofString "route.rs", handlerFile)]

/-- A project whose application directory is to hold the generated files. -/
def nested : Volume where
  top := .directory [
    (Name.ofString "Cargo.toml", .file "[package]\nname = \"demo\"\n".toUTF8),
    (Name.ofString "src", sourceDirectory)]
  current := []

/-- Its configuration, by which the output directory is below the application directory. -/
def nestedConfig : Config := { Config.default with appDir := "src" }

theorem plain_nested : nested.Plain where
  once := by
    have source : sourceDirectory.Named fun _ => True :=
      .directory _ (by simp) (by simp)
        (by simpa using show handlerFile.Named _ from Node.Named.file _)
    exact .directory _ (by simp [Name.ofString_inj]) (by simp) (by simpa using ⟨Node.Named.file _,
      source⟩)
  linkless names target := by
    have leaf (content : ByteArray) (names : List Name) (target : List UInt8) :
        (Node.file content).standing? names ≠ some (.link target) := by
      rw [Node.standing?_file]
      split <;> simp
    have source (names : List Name) (target : List UInt8) :
        sourceDirectory.standing? names ≠ some (.link target) :=
      Node.linkless_directory (by simp) (by simpa [handlerFile] using leaf _) names target
    exact Node.linkless_directory
      (by simp [Name.ofString_inj]) (by simpa using ⟨leaf _, source⟩) names target

theorem enters_nested : nested.Enters (.ofString "/") ∧ nested.home (.ofString "/") = [] := by
  have names : (Path.ofString "/").names = [] := by decide +kernel
  have start : nested.start (.ofString "/") = [] := by decide +kernel
  rw [Volume.Enters, home, names, start]
  exact ⟨trivial, rfl⟩

theorem enters_source_nested :
    nested.Enters (.ofString "/src") ∧ nested.home (.ofString "/src") = [Name.ofString "src"] := by
  have names : (Path.ofString "/src").names = [Name.ofString "src"] := by decide +kernel
  have start : nested.start (.ofString "/src") = [] := by decide +kernel
  have down : Name.ofString "src" ≠ Disk.upName := by decide +kernel
  rw [Volume.Enters, home, names, start, Passes, arrive, if_neg down, if_neg down]
  exact ⟨⟨by decide +kernel, by decide +kernel, trivial⟩, rfl⟩

theorem scan_nested : ∃ s, scanApp nested (.ofString "/") nestedConfig = .ok s := by
  have root : nestedConfig.appDirectory (.ofString "/") = .ofString "/src" := by decide +kernel
  have marks : Marker.ofFileName? (Name.ofString "route.rs").display = some .route := by
    simp only [Name.display_ofString]
    decide
  have met : visits sourceDirectory =
      [.marker .route [] (Name.ofString "route.rs") handlerFile] := by
    rw [visits, sourceDirectory, visitsOf, inNameOrder_of_sorted (by simp [entryVisits])]
    simp [entryVisits, handlerFile, Node.isDirectory, marks]
  have resolved : nested.resolve (.ofString "/src") = .ok sourceDirectory := by
    refine (resolve_directory_iff plain_nested).2 ⟨by decide +kernel, enters_source_nested.1, ?_⟩
    rw [enters_source_nested.2, nested, Scan.at?_cons_directory,
      (Node.find_eq_some_iff (by decide +kernel) _ sourceDirectory).2 (by simp)]
    rfl
  have run : scanApp nested (.ofString "/") nestedConfig =
      Scan.scanNode nested (.ofString "/src") sourceDirectory := by
    rw [scanApp, root, Scan.scan, resolved]
    rfl
  have found : (scanApp nested (.ofString "/") nestedConfig).toOption.isSome = true := by
    rw [run, Scan.scanNode, met]
    decide +kernel
  cases scanned : scanApp nested (.ofString "/") nestedConfig with
  | error fault => simp [scanned, Except.toOption] at found
  | ok s => exact ⟨s, rfl⟩

theorem resolve_nested : Generate.resolve nested (.ofString "/") (.ofString "/src/generated") =
    .ok "crate::generated" := by
  obtain ⟨enters, home⟩ := enters_nested
  have named : (Toml.read "[package]\nname = \"demo\"\n").toOption.map namesPackage =
      some true := by
    decide +kernel
  have there : nested.standing? [Name.ofString "Cargo.toml"] =
      some (.file "[package]\nname = \"demo\"\n".toUTF8) := by
    decide +kernel
  have reads := (readText_child_iff plain_nested isEntryName_manifest).2 ⟨enters,
    by rw [home]; exact there⟩
  cases parsed : Toml.read "[package]\nname = \"demo\"\n" with
  | error fault => simp [parsed, Except.toOption] at named
  | ok manifest =>
    rw [parsed] at named
    exact resolve_eq_ok_iff.2 ⟨_, manifest, .ofString "generated", reads, parsed,
      Option.some.inj named, by decide +kernel, validate_eq_ok_iff.2 (by decide +kernel),
      by decide +kernel⟩

theorem makeDirectories_nested : ∃ d', nested.makeDirectory (.ofString "/src/generated") = .ok d' ∧
    nested.makeDirectories (.ofString "/src/generated") = .ok d' := by
  have name : IsEntryName (Name.ofString "generated") :=
    ⟨by decide +kernel, by decide +kernel, by decide +kernel, by decide +kernel⟩
  obtain ⟨enters, home⟩ := enters_source_nested
  have joined : withoutTrailing (.ofString "/src/generated") =
      (Path.ofString "/src").join ⟨Name.ofString "generated"⟩ := by
    decide +kernel
  have missing : nested.top.at? [Name.ofString "src", Name.ofString "generated"] = none := by
    rw [← Node.standing?_eq_none_iff]
    decide +kernel
  have written : (Path.ofString "/src/generated").bytes ≠ [] := by decide +kernel
  have made : nested.makeDirectory (.ofString "/src/generated") =
      .ok (nested.putAt (Name.ofString "generated" ::
      arrive (nested.start (.ofString "/src")) (Path.ofString "/src").names) .emptyDirectory) := by
    rw [makeDirectory, joined, place_child plain_nested enters name, home]
    simp only [List.singleton_append, missing]
  refine ⟨_, made, ?_⟩
  rw [makeDirectories, makeDirectoriesWithin, if_neg written, made]

theorem regenerate_nested : ∃ scan generated d',
    regenerate nested (.ofString "/") nestedConfig = (.ok (scan, generated), d') := by
  have output : nestedConfig.outputDirectory (.ofString "/") =
      .ofString "/src/generated" := by decide +kernel
  have joined : (Path.ofString "/").join (.ofString "src/generated") =
      .ofString "/src/generated" := by
    decide +kernel
  obtain ⟨scan, scanned⟩ := scan_nested
  obtain ⟨d₁, last, made⟩ := makeDirectories_nested
  obtain ⟨-, below, descends, -⟩ := descends_of_resolve plain_nested (joined ▸ resolve_nested)
  rw [joined] at descends
  have texts : ∃ rendered, Generate.render scan "crate::generated" = .ok rendered := by
    rw [Generate.render, validate_eq_ok_iff.2 (by decide +kernel)]
    exact ⟨_, rfl⟩
  obtain ⟨rendered, texts⟩ := texts
  have free : ∀ n ∈ [Name.ofString "handlers.rs", Name.ofString "routes.rs"],
      nested.standing? (nested.home (.ofString "/src/generated") ++ [n]) = none := by
    decide +kernel
  have madeFor := madeFor_of_makeDirectory plain_nested descends last
  obtain ⟨generated, d', ran⟩ :=
    exists_generate texts made madeFor fun f hf => .inl (free f.1 (rendered.fst_mem hf))
  exact ⟨scan, generated, d',
    regenerate_eq_ok_iff.2 ⟨_, scanned, output ▸ resolve_nested, output ▸ ran⟩⟩

/-- The generated files are written into the application directory, and found there the next
time. -/
theorem regenerate_idempotent_nested : nested.Plain ∧ ∃ scan generated d' rendered,
    regenerate nested (.ofString "/") nestedConfig = (.ok (scan, generated), d') ∧
    Delivered nested d' (.ofString "/src/generated") rendered generated ∧
    regenerate d' (.ofString "/") nestedConfig =
      (.ok (scan, { generated with written := [] }), d') := by
  have output : nestedConfig.outputDirectory (.ofString "/") =
      .ofString "/src/generated" := by decide +kernel
  obtain ⟨scan, generated, d', done⟩ := regenerate_nested
  obtain ⟨-, rendered, -, -, -, delivered, again⟩ := regenerate_idempotent plain_nested done
  exact ⟨plain_nested, scan, generated, d', rendered, done, output ▸ delivered, again⟩

end Waymark.Project
