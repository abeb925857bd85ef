import Waymark.Proofs.Project.Regenerating

/-!
# What is not regenerated

A project is not regenerated where its application directory is missing or cannot be read or
scanned, or its output directory is no module of it. All of this is looked into before the first
directory is made:

* `NoModule`: why a directory is no module;
* `Obstacle`: why a project is not regenerated, with the fault that says so;
* `refused_untouched`: where there is an obstacle the disk stays as it is, and every failure that is
  not one of the disk itself comes from an obstacle.
-/

namespace Waymark.Project

open Waymark.Disk (Volume Path Name Node)
open Waymark.Generate
open Waymark.Scan (AppScan)

variable {d d' : Volume} {project output : Path} {config : Config}

/-! ## Modules -/

/-- Why a directory is no module of a project. Several of this may hold at once. -/
inductive NoModule (d : Volume) (project output : Path) : ModuleFault → Prop
  | unread {fault : Disk.DiskFault}
      (fails : d.readText (project.join (.ofString "Cargo.toml")) = .error fault) :
      NoModule d project output (.cannotRead (project.join (.ofString "Cargo.toml")) fault)
  | unparsed {text : String} {fault : Toml.Fault}
      (reads : d.readText (project.join (.ofString "Cargo.toml")) = .ok text)
      (fails : Toml.read text = .error fault) :
      NoModule d project output (.cannotParse (project.join (.ofString "Cargo.toml")) fault)
  | unnamed {text : String} {manifest : Toml}
      (reads : d.readText (project.join (.ofString "Cargo.toml")) = .ok text)
      (parsed : Toml.read text = .ok manifest) (nameless : namesPackage manifest = false) :
      NoModule d project output (.unnamed (project.join (.ofString "Cargo.toml")))
  | outside (apart : (project.join output).withoutPrefix? (project.join (.ofString "src")) = none) :
      NoModule d project output (.outside (project.join output) (project.join (.ofString "src")))
  | misnamed {below : Path} {piece : List Char}
      (inside : (project.join output).withoutPrefix? (project.join (.ofString "src")) = some below)
      (among : piece ∈ modulePieces (modulePathOf below).toList)
      (wrong : isModuleName piece = false) :
      NoModule d project output (.invalid (modulePathOf below))

/-- A module path is refused if and only if one of its pieces cannot name a module. -/
theorem validate_eq_error_iff {modulePath : String} {fault : ModuleFault} :
    validate modulePath = .error fault ↔
      fault = .invalid modulePath ∧
      ∃ piece ∈ modulePieces modulePath.toList, isModuleName piece = false := by
  have refused : (∃ piece ∈ modulePieces modulePath.toList, isModuleName piece = false) ↔
      (modulePieces modulePath.toList).all isModuleName = false := by
    simp
  rw [refused, validate]
  split
  · next valid => simp [valid]
  · next invalid =>
    rw [Bool.not_eq_true] at invalid
    simp [invalid, eq_comm]

/-- A directory that is no module is not resolved. -/
theorem NoModule.refused {fault : ModuleFault} (why : NoModule d project output fault) :
    ∃ first, resolve d project output = .error first := by
  cases resolved : resolve d project output with
  | error first => exact ⟨first, rfl⟩
  | ok modulePath =>
    exfalso
    obtain ⟨text, manifest, below, reads, parsed, named, found, valid, -⟩ :=
      resolve_eq_ok_iff.1 resolved
    cases why with
    | unread fails => cases reads.symm.trans fails
    | unparsed reads' fails =>
      cases reads.symm.trans reads'
      cases parsed.symm.trans fails
    | unnamed reads' parsed' nameless =>
      cases reads.symm.trans reads'
      cases parsed.symm.trans parsed'
      cases named.symm.trans nameless
    | outside apart => cases found.symm.trans apart
    | misnamed inside among wrong =>
      cases found.symm.trans inside
      cases valid.symm.trans (validate_eq_error_iff.2 ⟨rfl, _, among, wrong⟩)

/-- A directory that is not resolved is no module, and the fault says why. -/
theorem noModule_of_resolve {fault : ModuleFault} (h : resolve d project output = .error fault) :
    NoModule d project output fault := by
  unfold resolve at h
  simp only [bind, Except.bind, pure, Except.pure, throw, throwThe, MonadExceptOf.throw] at h
  cases reads : d.readText (project.join (.ofString "Cargo.toml")) with
  | error trouble =>
    simp only [reads] at h
    cases h
    exact .unread reads
  | ok text =>
    simp only [reads] at h
    cases parsed : Toml.read text with
    | error trouble =>
      simp only [parsed] at h
      cases h
      exact .unparsed reads parsed
    | ok manifest =>
      simp only [parsed] at h
      cases named : namesPackage manifest with
      | false =>
        simp only [named] at h
        cases h
        exact .unnamed reads parsed named
      | true =>
        simp only [named] at h
        cases found : (project.join output).withoutPrefix? (project.join (.ofString "src")) with
        | none =>
          simp only [found] at h
          cases h
          exact .outside found
        | some below =>
          simp only [found] at h
          cases valid : validate (modulePathOf below) with
          | ok _ =>
            simp only [valid] at h
            cases h
          | error trouble =>
            simp only [valid] at h
            cases h
            obtain ⟨rfl, piece, among, wrong⟩ := validate_eq_error_iff.1 valid
            exact .misnamed found among wrong

/-! ## Scans -/

/-- There is no scan where there is no directory. -/
theorem scanApp_of_missing (missing : d.isDirectory (config.appDirectory project) = false) :
    scanApp d project config = .error (.notFound (config.appDirectory project)) := by
  rw [Volume.isDirectory] at missing
  rw [scanApp, Scan.scan]
  cases found : d.resolve (config.appDirectory project) with
  | error fault => rfl
  | ok node =>
    rw [found] at missing
    cases node with
    | directory | lockedDirectory => cases missing
    | file | link | lockedFile => rfl

/-- There is no scan where the directory cannot be read. -/
theorem scanApp_of_locked
    (locked : d.resolve (config.appDirectory project) = .ok .lockedDirectory) :
    scanApp d project config = .error (.walk (config.appDirectory project) .permissionDenied) := by
  rw [scanApp, Scan.scan, locked]

/-! ## Regenerating -/

/-- Why a project is not regenerated, with the fault that says so. Several of this may hold at
once. -/
inductive Obstacle (d : Volume) (project : Path) (config : Config) : RegenerateFault → Prop
  | missing (absent : d.isDirectory (config.appDirectory project) = false) :
      Obstacle d project config (.scan (.notFound (config.appDirectory project)))
  | unreadable (locked : d.resolve (config.appDirectory project) = .ok .lockedDirectory) :
      Obstacle d project config (.scan (.walk (config.appDirectory project) .permissionDenied))
  | unscanned {fault : Scan.ScanFault} {entries : List (Name × Node)}
      (there : d.resolve (config.appDirectory project) = .ok (.directory entries))
      (fails : scanApp d project config = .error fault) : Obstacle d project config (.scan fault)
  | noModule {fault : ModuleFault}
      (why : NoModule d project (config.outputDirectory project) fault) :
      Obstacle d project config (.generate (.module fault))

/-- A scan that fails is an obstacle, whatever it fails of. -/
theorem obstacle_of_scanApp {fault : Scan.ScanFault} (h : scanApp d project config = .error fault) :
    Obstacle d project config (.scan fault) := by
  cases there : d.isDirectory (config.appDirectory project) with
  | false =>
    cases h.symm.trans (scanApp_of_missing there)
    exact .missing there
  | true =>
    unfold Volume.isDirectory at there
    split at there
    · next node resolved =>
      cases node with
      | directory entries => exact .unscanned resolved h
      | lockedDirectory =>
        cases h.symm.trans (scanApp_of_locked resolved)
        exact .unreadable resolved
      | file | link | lockedFile => cases there
    · cases there

/-- Nothing is generated under a module path that is refused. -/
theorem generate_of_refused {scan : AppScan} {modulePath : String} {fault : ModuleFault}
    (refused : validate modulePath = .error fault) (output : Path) :
    generate d scan modulePath output = (.error (.module fault), d) := by
  have texts : render scan modulePath = .error fault := by
    rw [render, refused]
    rfl
  rw [generate, texts]

/-- Writing files fails of the disk only. -/
theorem disk_of_writeAll {files : List (Path × String)} {fault : GenerateFault}
    (h : writeAll d files = (.error fault, d')) : ∃ path trouble, fault = .disk path trouble := by
  induction files generalizing d d' with
  | nil => cases h
  | cons file rest ih =>
    rw [writeAll] at h
    by_cases reads : d.readText file.1 = .ok file.2
    · -- the file holds its text, and the others are written
      simp only [writeIfChanged, reads, decide_true, if_true] at h
      rcases more : writeAll d rest with ⟨trouble | written, disk⟩
      · rw [more] at h
        cases h
        exact ih more
      · rw [more] at h
        cases h
    · rw [writeIfChanged_of_ne reads] at h
      cases wrote : d.write file.1 file.2.toUTF8 with
      | error trouble =>
        simp only [wrote, Except.mapError, Except.map] at h
        cases h
        exact ⟨file.1, trouble, rfl⟩
      | ok inner =>
        simp only [wrote, Except.mapError, Except.map] at h
        rcases more : writeAll inner rest with ⟨trouble | written, disk⟩
        · rw [more] at h
          cases h
          exact ih more
        · rw [more] at h
          cases h

/-- Generating under a module path that stands fails of the disk only. -/
theorem disk_of_generate {scan : AppScan} {modulePath : String} {fault : GenerateFault}
    (valid : validate modulePath = .ok ())
    (h : generate d scan modulePath output = (.error fault, d')) :
    ∃ path trouble, fault = .disk path trouble := by
  have texts : ∃ rendered, render scan modulePath = .ok rendered := by
    rw [render, valid]
    exact ⟨_, rfl⟩
  obtain ⟨rendered, texts⟩ := texts
  rw [generate, texts] at h
  cases made : d.makeDirectories output with
  | error trouble =>
    simp only [made] at h
    cases h
    exact ⟨output, trouble, rfl⟩
  | ok inner =>
    simp only [made] at h
    rcases ran : writeAll inner [(output.join (.ofString "handlers.rs"), rendered.functions),
      (output.join (.ofString "routes.rs"), rendered.registration)] with ⟨trouble | written, disk⟩
    · rw [ran] at h
      cases h
      exact disk_of_writeAll ran
    · rw [ran] at h
      cases h

/-- The ways in which a project is not regenerated: its scan fails, or its output directory is no
module, and then nothing is written; or generating fails. -/
theorem regenerate_eq_error_iff {fault : RegenerateFault} :
    regenerate d project config = (.error fault, d') ↔
      (∃ trouble, scanApp d project config = .error trouble ∧ fault = .scan trouble ∧ d' = d) ∨
      ∃ scan, scanApp d project config = .ok scan ∧
        ((∃ trouble, resolve d project (config.outputDirectory project) = .error trouble ∧
            fault = .generate (.module trouble) ∧ d' = d) ∨
          ∃ modulePath trouble, resolve d project (config.outputDirectory project) =
            .ok modulePath ∧
            generate d scan modulePath (config.outputDirectory project) = (.error trouble, d') ∧
            fault = .generate trouble) := by
  unfold regenerate
  cases scanned : scanApp d project config with
  | error trouble => simp [eq_comm]
  | ok scan =>
    cases resolved : resolve d project (config.outputDirectory project) with
    | error trouble => simp [resolved, eq_comm]
    | ok modulePath =>
      rcases ran : generate d scan modulePath
        (config.outputDirectory project) with ⟨trouble | generated, disk⟩
      · simp [resolved, ran, and_comm, eq_comm]
      · simp [resolved, ran]

/-- Where anything stands in the way, regenerating fails of something that does, and the disk is
what it was. -/
theorem Obstacle.refused {fault : RegenerateFault} (obstacle : Obstacle d project config fault) :
    ∃ first, Obstacle d project config first ∧ regenerate d project config = (.error first, d) := by
  cases scanned : scanApp d project config with
  | error trouble =>
    refine ⟨.scan trouble, obstacle_of_scanApp scanned, regenerate_eq_error_iff.2 ?_⟩
    exact .inl ⟨trouble, scanned, rfl, rfl⟩
  | ok scan =>
    cases obstacle with
    | missing absent => cases scanned.symm.trans (scanApp_of_missing absent)
    | unreadable locked => cases scanned.symm.trans (scanApp_of_locked locked)
    | unscanned there fails => cases scanned.symm.trans fails
    | noModule why =>
      obtain ⟨first, refused⟩ := why.refused
      refine ⟨.generate (.module first), .noModule (noModule_of_resolve refused),
        regenerate_eq_error_iff.2 ?_⟩
      exact .inr ⟨scan, scanned, .inl ⟨first, refused, rfl, rfl⟩⟩

/-- Nothing in the way is a fault of the disk. -/
theorem Obstacle.ne_disk {fault : RegenerateFault} (obstacle : Obstacle d project config fault)
    (path : Path) (trouble : Disk.DiskFault) : fault ≠ .generate (.disk path trouble) := by
  rintro rfl
  cases obstacle

/-- A project with an obstacle is not regenerated, for a reason that is one, and its disk is as it
was: nothing is made, written or taken away. Every failure is of this kind, unless the disk itself
fails where nothing is in the way. Nor is anything written where the generated files are asked for
under a path that names no module. -/
theorem refused_untouched (d : Volume) (project : Path) (config : Config) :
    (∀ fault, Obstacle d project config fault →
      ∃ first, Obstacle d project config first ∧ regenerate d project config = (.error first, d)) ∧
    (∀ fault d', regenerate d project config = (.error fault, d') →
      (Obstacle d project config fault ∧ d' = d) ∨
      ((∃ path trouble, fault = .generate (.disk path trouble)) ∧
        ∀ other, ¬ Obstacle d project config other)) ∧
    ∀ (scan : AppScan) (modulePath : String) (output : Path),
      (∃ piece ∈ modulePieces modulePath.toList, isModuleName piece = false) →
        generate d scan modulePath output = (.error (.module (.invalid modulePath)), d) := by
  refine ⟨fun _ => Obstacle.refused, ?_, ?_⟩
  · intro fault d' failed
    obtain ⟨trouble, scanned, rfl, rfl⟩ | ⟨scan, scanned,
      ⟨trouble, refused, rfl, rfl⟩ | ⟨modulePath, trouble, resolved, ran, rfl⟩⟩ :=
        regenerate_eq_error_iff.1 failed
    · exact .inl ⟨obstacle_of_scanApp scanned, rfl⟩
    · exact .inl ⟨.noModule (noModule_of_resolve refused), rfl⟩
    · right
      obtain ⟨-, -, below, -, -, -, -, valid, rfl⟩ := resolve_eq_ok_iff.1 resolved
      obtain ⟨path, fault, rfl⟩ := disk_of_generate valid ran
      refine ⟨⟨path, fault, rfl⟩, fun other obstacle => ?_⟩
      -- with an obstacle it would have failed of that instead
      obtain ⟨first, among, failed'⟩ := obstacle.refused
      cases failed.symm.trans failed'
      exact among.ne_disk path fault rfl
  · intro scan modulePath output wrong
    exact generate_of_refused (validate_eq_error_iff.2 ⟨rfl, wrong⟩) output

/-- A project that was generated before its output directory was configured to lie elsewhere. -/
def stale : Volume where
  top := .directory [
    (Name.ofString "Cargo.toml", .file "[package]\nname = \"demo\"\n".toUTF8),
    (Name.ofString "app", sourceDirectory),
    (Name.ofString "src", .directory [
      (Name.ofString "generated", .directory [
        (Name.ofString "handlers.rs", .file "// earlier".toUTF8),
        (Name.ofString "routes.rs", .file "// earlier".toUTF8)])])]
  current := []

/-- Its configuration, by which the output directory is beside `src`. -/
def staleConfig : Config := { Config.default with outputDir := "generated" }

/-- A project whose application directory may not be read. -/
def closedProject : Volume where
  top := .directory [
    (Name.ofString "Cargo.toml", .file "[package]\nname = \"demo\"\n".toUTF8),
    (Name.ofString "app", .lockedDirectory)]
  current := []

theorem resolve_closedProject :
    closedProject.resolve (.ofString "/app") = .ok .lockedDirectory := by
  have written : (Path.ofString "/app").bytes ≠ [] := by decide +kernel
  have absolute : (Path.ofString "/app").isAbsolute = true := by decide +kernel
  have names : Disk.steps (Path.ofString "/app").bytes = [Name.ofString "app"] := by decide +kernel
  have counted : (Name.ofString "app" = [] || Name.ofString "app" = Disk.selfName) =
      false := by decide +kernel
  have down : Name.ofString "app" ≠ Disk.upName := by decide +kernel
  have short : ¬ Disk.longestName < (Name.ofString "app").length := by decide +kernel
  have there : closedProject.top.at? [Name.ofString "app"] = some .lockedDirectory :=
    Node.standing?_eq_lockedDirectory_iff.1 (by decide +kernel)
  rw [Volume.resolve, Volume.place, if_neg written, absolute, if_pos rfl, names,
    Volume.follow, counted, if_neg Bool.false_ne_true, if_neg down, if_neg short]
  simp only [List.reverse_singleton, there]
  rfl

/-- The files that were generated earlier stay, and no directory is made beside `src`. Nor is one
made where the application directory may not be read. -/
theorem refused_untouched_stale :
    (Obstacle stale (.ofString "/") staleConfig
        (.generate (.module (.outside (.ofString "/generated") (.ofString "/src")))) ∧
      ∃ first, regenerate stale (.ofString "/") staleConfig = (.error first, stale)) ∧
    Obstacle closedProject (.ofString "/") Config.default
      (.scan (.walk (.ofString "/app") .permissionDenied)) ∧
      ∃ first, regenerate closedProject (.ofString "/") Config.default =
        (.error first, closedProject) := by
  have joined : (Path.ofString "/").join (staleConfig.outputDirectory (.ofString "/")) =
      .ofString "/generated" := by
    decide +kernel
  have source : (Path.ofString "/").join (.ofString "src") = .ofString "/src" := by decide +kernel
  have obstacle : Obstacle stale (.ofString "/") staleConfig
      (.generate (.module (.outside (.ofString "/generated") (.ofString "/src")))) := by
    rw [← joined, ← source]
    exact .noModule (.outside (by decide +kernel))
  have app : Config.default.appDirectory (.ofString "/") = .ofString "/app" := by decide +kernel
  have closed : Obstacle closedProject (.ofString "/") Config.default
      (.scan (.walk (.ofString "/app") .permissionDenied)) := by
    rw [← app]
    exact .unreadable (by rw [app]; exact resolve_closedProject)
  obtain ⟨first, -, failed⟩ := (refused_untouched stale (.ofString "/") staleConfig).1 _ obstacle
  obtain ⟨second, -, unread⟩ :=
    (refused_untouched closedProject (.ofString "/") Config.default).1 _ closed
  exact ⟨⟨obstacle, first, failed⟩, closed, second, unread⟩

end Waymark.Project
