import Waymark.Generate.Output
import Waymark.Proofs.Disk.Making

/-!
# Writing what changed

Files in one directory are written unless they hold their text already:

* `writeIfChanged_eq_ok`: one file, which then holds its text;
* `writeAll_eq_ok`: several files, of which those are written that held something else or were
  missing;
* `writeAll_of_held`: nothing is written where all hold their texts;
* `delivered_of_generate`: what generating leaves on a disk;
* `generate_of_delivered`: generating once more writes nothing.
-/

namespace Waymark.Generate

open Waymark.Disk (Volume Path Name Standing)
open Waymark.Disk.Volume

variable {d d' : Volume} {p : Path}

/-- A path leads to a directory. -/
structure Inside (d : Volume) (p : Path) : Prop where
  plain : d.Plain
  enters : d.Enters p
  directory : d.standing? (d.home p) = some .directory

/-- A file that is written leaves the way to its directory as it is. -/
theorem Inside.filled (inside : Inside d p) {n : Name} {content : ByteArray}
    (writable : d.IsWritable (d.home p ++ [n])) (filled : Filled d d' (d.home p ++ [n]) content) :
    Inside d' p ∧ d'.home p = d.home p := by
  have kept (names : List Name) (there : d.standing? names = some .directory) :
      d'.standing? names = some .directory := by
    have apart : names ≠ d.home p ++ [n] := by
      rintro rfl
      exact writable.ne_directory there
    rw [filled.standing, if_neg apart, there]
  have home := home_eq filled.current p
  refine ⟨⟨filled.plain, ?_, by rw [home]; exact kept _ inside.directory⟩, home⟩
  rw [Volume.Enters, start_eq filled.current rfl]
  exact inside.enters.mono kept

/-- The file holds the text. -/
def Holds (d : Volume) (p : Path) (f : Name × String) : Prop :=
  d.standing? (d.home p ++ [f.1]) = some (.file f.2.toUTF8)

instance (d : Volume) (p : Path) (f : Name × String) : Decidable (Holds d p f) :=
  inferInstanceAs (Decidable (_ = _))

/-- A file is read as its text if and only if it holds it. -/
theorem readText_iff_holds (inside : Inside d p) {f : Name × String} (name : IsEntryName f.1) :
    d.readText (p.join ⟨f.1⟩) = .ok f.2 ↔ Holds d p f := by
  rw [readText_child_iff inside.plain name, and_iff_right inside.enters, Holds]

/-- A file that holds its text is not touched. -/
theorem writeIfChanged_of_holds (inside : Inside d p) {f : Name × String} (name : IsEntryName f.1)
    (holds : Holds d p f) : writeIfChanged d (p.join ⟨f.1⟩) f.2 = .ok (false, d) := by
  simp [writeIfChanged, (readText_iff_holds inside name).2 holds]

/-- A file that reads as anything else is written. -/
theorem writeIfChanged_of_ne {path : Path} {text : String} (differs : d.readText path ≠ .ok text) :
    writeIfChanged d path text =
      ((d.write path text.toUTF8).mapError (GenerateFault.disk path)).map (Prod.mk true) := by
  unfold writeIfChanged
  cases reads : d.readText path with
  | error fault => cases d.write path text.toUTF8 <;> rfl
  | ok found =>
    have other : found ≠ text := fun same => differs (same ▸ reads)
    simp only [other, decide_false]
    cases d.write path text.toUTF8 <;> rfl

/-- A file that does not hold its text is written. -/
theorem write_of_not_holds (inside : Inside d p) {f : Name × String} (name : IsEntryName f.1)
    (differs : ¬ Holds d p f) {changed : Bool}
    (h : writeIfChanged d (p.join ⟨f.1⟩) f.2 = .ok (changed, d')) :
    changed = true ∧ d.write (p.join ⟨f.1⟩) f.2.toUTF8 = .ok d' := by
  rw [writeIfChanged_of_ne ((readText_iff_holds inside name).not.2 differs)] at h
  cases wrote : d.write (p.join ⟨f.1⟩) f.2.toUTF8 with
  | error fault =>
    rw [wrote] at h
    cases h
  | ok disk =>
    rw [wrote] at h
    cases h
    exact ⟨rfl, rfl⟩

/-- A file is written if it does not hold its text, and holds it then. -/
theorem writeIfChanged_eq_ok (inside : Inside d p) {f : Name × String} (name : IsEntryName f.1)
    {changed : Bool} (h : writeIfChanged d (p.join ⟨f.1⟩) f.2 = .ok (changed, d')) :
    changed = !decide (Holds d p f) ∧ d.IsWritable (d.home p ++ [f.1]) ∧
      Filled d d' (d.home p ++ [f.1]) f.2.toUTF8 := by
  by_cases holds : Holds d p f
  · rw [writeIfChanged_of_holds inside name holds] at h
    cases h
    exact ⟨by rw [decide_eq_true holds]; rfl, .inr ⟨_, holds⟩, .refl inside.plain holds⟩
  · obtain ⟨rfl, written⟩ := write_of_not_holds inside name holds h
    obtain ⟨writable, filled⟩ :=
      filled_of_write inside.plain inside.enters inside.directory name written
    exact ⟨by rw [decide_eq_false holds]; rfl, writable, filled⟩

/-- A file that is written, or found to hold its text, is in a directory that its path enters. -/
theorem enters_of_writeIfChanged (plain : d.Plain) {f : Name × String} (name : IsEntryName f.1)
    {changed : Bool}
    (h : writeIfChanged d (p.join ⟨f.1⟩) f.2 = .ok (changed, d')) : d.Enters p := by
  by_cases reads : d.readText (p.join ⟨f.1⟩) = .ok f.2
  · obtain ⟨place, placed⟩ := exists_place_of_readText reads
    exact enters_of_place plain name placed
  · rw [writeIfChanged_of_ne reads] at h
    cases wrote : d.write (p.join ⟨f.1⟩) f.2.toUTF8 with
    | error fault =>
      rw [wrote] at h
      cases h
    | ok disk =>
      obtain ⟨place, placed⟩ := exists_place_of_write wrote
      exact enters_of_place plain name placed

/-- A file can be written where one stands that may be, or nothing does. -/
theorem exists_writeIfChanged (inside : Inside d p) {f : Name × String} (name : IsEntryName f.1)
    (writable : d.IsWritable (d.home p ++ [f.1])) :
    ∃ changed d', writeIfChanged d (p.join ⟨f.1⟩) f.2 = .ok (changed, d') := by
  by_cases holds : Holds d p f
  · exact ⟨false, d, writeIfChanged_of_holds inside name holds⟩
  · obtain ⟨d', written⟩ := exists_write inside.plain inside.enters name writable f.2.toUTF8
    refine ⟨true, d', ?_⟩
    rw [writeIfChanged_of_ne ((readText_iff_holds inside name).not.2 holds), written]
    rfl

/-- Files in a directory were given their texts, and nothing else was changed. -/
structure Wrote (d d' : Volume) (p : Path) (files : List (Name × String)) : Prop where
  inside : Inside d' p
  current : d'.current = d.current
  held : ∀ f ∈ files, Holds d' p f
  writable : ∀ f ∈ files, d.IsWritable (d.home p ++ [f.1])
  elsewhere : ∀ names, (∀ f ∈ files, names ≠ d.home p ++ [f.1]) →
      d'.standing? names = d.standing? names

/-- The files of a directory that do not hold their texts. -/
def changing (d : Volume) (p : Path) (files : List (Name × String)) : List (Name × String) :=
  files.filter fun f => ¬ Holds d p f

/-- The paths to some files of a directory. -/
def pathsOf (p : Path) (files : List (Name × String)) : List Path := files.map fun f => p.join ⟨f.1⟩

/-- Files with other names are in other places. -/
theorem apart_of_once {f g : Name × String} {rest : List (Name × String)}
    (once : f.1 ∉ rest.map Prod.fst)
    (hg : g ∈ rest) {home : List Name} : home ++ [g.1] ≠ home ++ [f.1] := by
  intro same
  have names : g.1 = f.1 := List.singleton_inj.1 (List.append_cancel_left same)
  exact once (names ▸ List.mem_map_of_mem hg)

theorem changing_of_filled (inside : Inside d p) {f : Name × String} {d₁ : Volume}
    (writable : d.IsWritable (d.home p ++ [f.1]))
    (filled : Filled d d₁ (d.home p ++ [f.1]) f.2.toUTF8) {rest : List (Name × String)}
    (once : f.1 ∉ rest.map Prod.fst) : changing d₁ p rest = changing d p rest := by
  refine List.filter_congr fun g hg => ?_
  have same : Holds d₁ p g ↔ Holds d p g := by
    rw [Holds, Holds, (inside.filled writable filled).2, filled.standing,
      if_neg (apart_of_once once hg)]
  simp only [same]

/-- A file is given its text before the others are given theirs. -/
theorem Wrote.cons {f : Name × String} {rest : List (Name × String)} {d₁ : Volume}
    (inside : Inside d p)
    (writable : d.IsWritable (d.home p ++ [f.1]))
    (filled : Filled d d₁ (d.home p ++ [f.1]) f.2.toUTF8) (once : f.1 ∉ rest.map Prod.fst)
    (wrote : Wrote d₁ d' p rest) : Wrote d d' p (f :: rest) := by
  obtain ⟨insideEnd, current, held, others, elsewhere⟩ := wrote
  have home := (inside.filled writable filled).2
  rw [home] at others elsewhere
  -- the files behind the first one are others, and hold what they held before it was written
  have apart : ∀ g ∈ rest, d.home p ++ [g.1] ≠ d.home p ++ [f.1] :=
    fun g hg => apart_of_once once hg
  have first : Holds d' p f := by
    have homeEnd : d'.home p = d.home p := (home_eq current p).trans home
    rw [Holds, homeEnd, elsewhere _ fun g hg => (apart g hg).symm, filled.standing, if_pos rfl]
  refine ⟨insideEnd, current.trans filled.current, List.forall_mem_cons.2 ⟨first, held⟩,
    List.forall_mem_cons.2 ⟨writable, fun g hg => ?_⟩, fun names apartAll => ?_⟩
  · have before := others g hg
    rwa [IsWritable, filled.standing, if_neg (apart g hg)] at before
  · rw [List.forall_mem_cons] at apartAll
    rw [elsewhere names apartAll.2, filled.standing, if_neg apartAll.1]

/-- All files are written that do not hold their texts, and hold them then. -/
theorem writeAll_eq_ok (inside : Inside d p) {files : List (Name × String)}
    (names : ∀ f ∈ files, IsEntryName f.1) (once : (files.map Prod.fst).Nodup) {written : List Path}
    (h : writeAll d (files.map fun f => (p.join ⟨f.1⟩, f.2)) = (.ok written, d')) :
    written = pathsOf p (changing d p files) ∧ Wrote d d' p files := by
  induction files generalizing d written with
  | nil =>
    cases h
    exact ⟨rfl, inside, rfl, nofun, nofun, fun _ _ => rfl⟩
  | cons f rest ih =>
    rw [List.forall_mem_cons] at names
    rw [List.map_cons, List.nodup_cons] at once
    rw [List.map_cons, writeAll] at h
    split at h
    · cases h
    · next changed d₁ first =>
      obtain ⟨same, writable, filled⟩ := writeIfChanged_eq_ok inside names.1 first
      cases ran : writeAll d₁ (rest.map fun f => (p.join ⟨f.1⟩, f.2)) with
      | mk more d₂ =>
        rw [ran] at h
        cases more with
        | error fault => cases h
        | ok more =>
          obtain ⟨all, rfl⟩ := Prod.mk.inj h
          obtain rfl := Except.ok.inj all
          obtain ⟨rfl, wrote⟩ := ih (inside.filled writable filled).1 names.2 once.2 ran
          refine ⟨?_, .cons inside writable filled once.1 wrote⟩
          rw [same, changing_of_filled inside writable filled once.1]
          by_cases holds : Holds d p f
          · simp [changing, holds]
          · simp [changing, holds, pathsOf]

/-- The first of some files that are written is in a directory that their path enters. -/
theorem enters_of_writeAll (plain : d.Plain) {f : Name × String} {rest : List (Name × String)}
    (name : IsEntryName f.1) {written : List Path}
    (h : writeAll d ((f :: rest).map fun f => (p.join ⟨f.1⟩, f.2)) = (.ok written, d')) :
    d.Enters p := by
  rw [List.map_cons, writeAll] at h
  split at h
  · cases h
  · next changed d₁ first => exact enters_of_writeIfChanged plain name first

/-- Files can be written in the places of files that may be, or where nothing is. -/
theorem exists_writeAll (inside : Inside d p) {files : List (Name × String)}
    (names : ∀ f ∈ files, IsEntryName f.1) (once : (files.map Prod.fst).Nodup)
    (writable : ∀ f ∈ files, d.IsWritable (d.home p ++ [f.1])) :
    ∃ written d', writeAll d (files.map fun f => (p.join ⟨f.1⟩, f.2)) = (.ok written, d') := by
  induction files generalizing d with
  | nil => exact ⟨[], d, rfl⟩
  | cons f rest ih =>
    rw [List.forall_mem_cons] at names writable
    rw [List.map_cons, List.nodup_cons] at once
    obtain ⟨changed, d₁, first⟩ := exists_writeIfChanged inside names.1 writable.1
    obtain ⟨-, -, filled⟩ := writeIfChanged_eq_ok inside names.1 first
    obtain ⟨inside₁, home⟩ := inside.filled writable.1 filled
    have others : ∀ g ∈ rest, d₁.IsWritable (d₁.home p ++ [g.1]) := by
      intro g hg
      rw [IsWritable, home, filled.standing, if_neg (apart_of_once once.1 hg)]
      exact writable.2 g hg
    obtain ⟨more, d₂, ran⟩ := ih inside₁ names.2 once.2 others
    exact ⟨_, d₂, by rw [List.map_cons, writeAll, first]; simp only [ran]; rfl⟩

/-- Where all files hold their texts, nothing is written. -/
theorem writeAll_of_held (inside : Inside d p) {files : List (Name × String)}
    (names : ∀ f ∈ files, IsEntryName f.1) (held : ∀ f ∈ files, Holds d p f) :
    writeAll d (files.map fun f => (p.join ⟨f.1⟩, f.2)) = (.ok [], d) := by
  induction files with
  | nil => rfl
  | cons f rest ih =>
    rw [List.forall_mem_cons] at names held
    rw [List.map_cons, writeAll, writeIfChanged_of_holds inside names.1 held.1]
    dsimp only
    rw [ih names.2 held.2]
    rfl

/-! ## Both files -/

/-- The files of a rendered scan, with their names. -/
def Rendered.files (r : Rendered) : List (Name × String) :=
  [(Name.ofString "handlers.rs", r.functions), (Name.ofString "routes.rs", r.registration)]

theorem isEntryName_functions : IsEntryName (Name.ofString "handlers.rs")  := by
  rw [Name.ofString_eq_encode]
  exact ⟨by decide, by decide, by decide, by decide⟩

theorem isEntryName_registration : IsEntryName (Name.ofString "routes.rs")  := by
  rw [Name.ofString_eq_encode]
  exact ⟨by decide, by decide, by decide, by decide⟩

theorem Rendered.isEntryName (r : Rendered) : ∀ f ∈ r.files, IsEntryName f.1 := by
  simpa [files] using ⟨isEntryName_functions, isEntryName_registration⟩

theorem Rendered.forall_files (r : Rendered) {P : Name × String → Prop} : (∀ f ∈ r.files, P f) ↔
    P (Name.ofString "handlers.rs", r.functions) ∧
    P (Name.ofString "routes.rs", r.registration) := by
  rw [files, List.forall_mem_cons, List.forall_mem_singleton]

/-- The names of the files. -/
theorem Rendered.fst_mem (r : Rendered) {f : Name × String} (hf : f ∈ r.files) :
    f.1 ∈ [Name.ofString "handlers.rs", Name.ofString "routes.rs"] :=
  List.mem_map_of_mem (f := Prod.fst) hf

theorem Rendered.files_once (r : Rendered) : (r.files.map Prod.fst).Nodup := by
  have apart : [Name.ofString "handlers.rs",
      Name.ofString "routes.rs"].Nodup := by simp [Name.ofString_inj]
  exact apart

/-- What generating gives: the rendered files, written into a directory that was made for them. -/
theorem generate_eq_ok_iff {scan : Scan.AppScan} {modulePath : String} {output : Path}
    {generated : Generated} :
    generate d scan modulePath output = (.ok generated, d') ↔
      ∃ rendered d₁ written, render scan modulePath = .ok rendered ∧
      d.makeDirectories output = .ok d₁ ∧
        writeAll d₁ (rendered.files.map fun f => (output.join ⟨f.1⟩, f.2)) = (.ok written, d') ∧
        generated = ⟨output.join ⟨Name.ofString "handlers.rs"⟩,
          output.join ⟨Name.ofString "routes.rs"⟩,
          written, rendered.routeCount⟩ := by
  unfold generate
  cases render scan modulePath with
  | error fault => simp
  | ok rendered =>
    cases d.makeDirectories output with
    | error fault => simp
    | ok d₁ =>
      have files : rendered.files.map (fun f => (output.join ⟨f.1⟩, f.2)) =
          [(output.join (.ofString "handlers.rs"), rendered.functions),
            (output.join (.ofString "routes.rs"), rendered.registration)] := rfl
      simp only [Except.ok.injEq, exists_and_left, exists_eq_left', files]
      obtain ⟨result, d₂⟩ :=
        writeAll d₁ [(output.join (.ofString "handlers.rs"), rendered.functions),
          (output.join (.ofString "routes.rs"), rendered.registration)]
      cases result with
      | error fault => simp [Except.map]
      | ok written =>
        constructor
        · intro h
          cases h
          exact ⟨written, rfl, rfl⟩
        · rintro ⟨_, same, rfl⟩
          cases same
          rfl

/-- The generated files hold the texts of a rendered scan, and those were written that did not
before. Nothing else was changed, but that directories were made on the way to them where nothing
was. -/
structure Delivered (d d' : Volume) (output : Path) (rendered : Rendered) (generated : Generated) :
    Prop where
  functionsPath : generated.functionsPath = output.join (.ofString "handlers.rs")
  registrationPath : generated.registrationPath = output.join (.ofString "routes.rs")
  routeCount : generated.routeCount = rendered.routeCount
  functions : d'.read generated.functionsPath = .ok rendered.functions.toUTF8
  registration : d'.read generated.registrationPath = .ok rendered.registration.toUTF8
  written : generated.written =
    pathsOf output (rendered.files.filter fun f => d.read (output.join ⟨f.1⟩) ≠ .ok f.2.toUTF8)
  /-- The place of the output directory, from the top. -/
  place : ∃ entries, d'.place true output = .ok ⟨(d.home output).reverse, some (.directory entries)⟩
  /-- The files take the places of files that may be written, and no directory's. -/
  writable : ∀ f ∈ rendered.files, d.IsWritable (d.home output ++ [f.1])
  current : d'.current = d.current
  elsewhere : ∀ names, (∀ f ∈ rendered.files, names ≠ d.home output ++ [f.1]) →
    d'.standing? names =
      if d.standing? names = none ∧
      names <+: d.home output then some .directory else d.standing? names

section
variable {scan : Scan.AppScan} {modulePath : String} {output : Path} {rendered : Rendered}
    {generated : Generated}

/-- A file holds its text before a directory is made for it if and only if it does afterwards. -/
theorem read_iff_holds (plain : d.Plain) {d₁ : Volume} (made : MadeFor d d₁ output)
    {f : Name × String}
    (name : IsEntryName f.1) : d.read (output.join ⟨f.1⟩) = .ok f.2.toUTF8 ↔ Holds d₁ output f := by
  rw [read_child_iff plain name, Holds, home_eq made.made.current, made.made.child,
    and_iff_right_iff_imp]
  intro there
  have all := made.made.unchanged (by rw [directory_of_child there]; exact nofun)
  have enters := made.enters
  rw [Volume.Enters, start_eq made.made.current rfl] at enters
  exact enters.mono fun names directory => by rw [← all, directory]

/-- Generated files are on the disk afterwards. -/
theorem delivered_of_generate (plain : d.Plain) {front below : List Name}
    (some' : output.names ≠ [])
    (descends : d.Descends output front below)
    (h : generate d scan modulePath output = (.ok generated, d')) :
    d'.Plain ∧ ∃ rendered, render scan modulePath = .ok rendered ∧
      Delivered d d' output rendered generated := by
  obtain ⟨rendered, d₁, written, texts, ran, wrote, rfl⟩ := generate_eq_ok_iff.1 h
  have made := makeDirectories_ok plain descends ran
  have madeFor := made.madeFor descends (enters_of_writeAll made.plain isEntryName_functions wrote)
  have home₁ : d₁.home output = d.home output := home_eq made.current output
  have inside₁ : Inside d₁ output := ⟨made.plain, madeFor.enters, by rw [home₁, madeFor.inside]⟩
  obtain ⟨rfl, inside, current, held, writable, elsewhere⟩ :=
    writeAll_eq_ok inside₁ rendered.isEntryName rendered.files_once wrote
  have home' : d'.home output = d.home output := (home_eq current output).trans home₁
  rw [home₁] at writable elsewhere
  have reads : ∀ f ∈ rendered.files, d'.read (output.join ⟨f.1⟩) = .ok f.2.toUTF8 := fun f hf =>
    (read_child_iff inside.plain (rendered.isEntryName f hf)).2 ⟨inside.enters, held f hf⟩
  obtain ⟨functions, registration⟩ := rendered.forall_files.1 reads
  refine ⟨inside.plain, rendered, texts, rfl, rfl, rfl, functions, registration, ?_, ?_, ?_,
    current.trans made.current, ?_⟩
  · have kept : changing d₁ output rendered.files =
        rendered.files.filter fun f => d.read (output.join ⟨f.1⟩) ≠ .ok f.2.toUTF8 :=
      List.filter_congr fun f hf => by
        simp only [Ne, read_iff_holds plain madeFor (rendered.isEntryName f hf)]
    rw [← kept]
  · have written : output.bytes ≠ [] :=
      fun blank => some' (by rw [Path.names, blank, Path.namesIn_nil])
    obtain ⟨entries, there⟩ := Disk.Node.standing?_eq_directory_iff.1 inside.directory
    refine ⟨entries, ?_⟩
    rw [place_of_enters written inside.enters, there, ← home', home, List.reverse_reverse]
  · intro f hf
    have after := writable f hf
    rwa [IsWritable, made.child] at after
  · intro names apart
    rw [elsewhere names apart, made.standing]

/-- Files are generated if their directory can be made, and nothing is in their places that may not
be written. -/
theorem exists_generate (texts : render scan modulePath = .ok rendered) {d₁ : Volume}
    (ran : d.makeDirectories output = .ok d₁) (madeFor : MadeFor d d₁ output)
    (writable : ∀ f ∈ rendered.files, d.IsWritable (d.home output ++ [f.1])) :
    ∃ generated d', generate d scan modulePath output = (.ok generated, d') := by
  obtain ⟨made, enters, inside⟩ := madeFor
  have home₁ : d₁.home output = d.home output := home_eq made.current output
  have writable₁ : ∀ f ∈ rendered.files, d₁.IsWritable (d₁.home output ++ [f.1]) := by
    intro f hf
    rw [IsWritable, home₁, made.child]
    exact writable f hf
  obtain ⟨written, d', wrote⟩ := exists_writeAll ⟨made.plain, enters, by rw [home₁, inside]⟩
    rendered.isEntryName rendered.files_once writable₁
  exact ⟨_, d', generate_eq_ok_iff.2 ⟨rendered, d₁, written, texts, ran, wrote, rfl⟩⟩

/-- Generating once more writes nothing. -/
theorem generate_of_delivered (plain' : d'.Plain) (texts : render scan modulePath = .ok rendered)
    (delivered : Delivered d d' output rendered generated) :
    generate d' scan modulePath output = (.ok { generated with written := [] }, d') := by
  obtain ⟨functionsPath, registrationPath, written, routeCount⟩ := generated
  obtain ⟨rfl, rfl, rfl, functions, registration⟩ := delivered
  have held : ∀ f ∈ rendered.files, d'.Enters output ∧ Holds d' output f := by
    rw [rendered.forall_files]
    exact ⟨(read_child_iff plain' isEntryName_functions).1 functions,
      (read_child_iff plain' isEntryName_registration).1 registration⟩
  have inside : Inside d' output := by
    obtain ⟨⟨enters, there⟩, -⟩ := rendered.forall_files.1 held
    exact ⟨plain', enters, directory_of_child there⟩
  exact generate_eq_ok_iff.2 ⟨rendered, d', [], texts,
    makeDirectories_of_enters plain' inside.enters inside.directory,
    writeAll_of_held inside rendered.isEntryName fun f hf => (held f hf).2, rfl⟩

end

end Waymark.Generate
