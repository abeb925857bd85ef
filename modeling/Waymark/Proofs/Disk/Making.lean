import Waymark.Proofs.Disk.Following

/-!
# Making directories and files

What a change leaves on a disk without links, name by name:

* `Made`: directories were made on the way to a place, where nothing was;
* `makeDirectories_ok`: a path that goes down from a directory is made so;
* `makeDirectories_of_enters`: nothing is made where all is there;
* `Filled`, `filled_of_write`, `exists_write`: a file was given a content.
-/

namespace Waymark.Disk.Volume

variable {d d' : Volume}

/-- What is there is there with all that stands above it. -/
theorem standing?_of_isPrefix {names behind : List Name} (there : d.standing? behind ≠ none)
    (front : names <+: behind) : d.standing? names ≠ none := by
  obtain ⟨rest, rfl⟩ := front
  cases rest with
  | nil => simpa using there
  | cons n rest =>
    have directory : d.standing? names = some .directory := Node.directory_of_standing? there
    simp [directory]

/-- Directories were made on the way to a place, where nothing was, and nothing else was changed. -/
structure Made (d d' : Volume) (home : List Name) : Prop where
  plain : d'.Plain
  current : d'.current = d.current
  standing : ∀ names, d'.standing? names =
    if d.standing? names = none ∧ names <+: home then some .directory else d.standing? names

theorem Made.refl (plain : d.Plain) {home : List Name} (there : d.standing? home ≠ none) :
    Made d d home where
  plain := plain
  current := rfl
  standing names := by
    rw [if_neg]
    rintro ⟨missing, front⟩
    exact standing?_of_isPrefix there front missing

theorem Made.trans {d₁ d₂ : Volume} {front home : List Name} (first : Made d d₁ front)
    (second : Made d₁ d₂ home) (onTheWay : front <+: home) : Made d d₂ home where
  plain := second.plain
  current := second.current.trans first.current
  standing names := by
    rw [second.standing, first.standing]
    by_cases missing : d.standing? names = none
    · by_cases before : names <+: front
      · simp [missing, before, before.trans onTheWay]
      · simp [missing, before]
    · simp [missing]

theorem Made.directory {home : List Name} (made : Made d d' home) {names : List Name}
    (there : d.standing? names = some .directory) : d'.standing? names = some .directory := by
  rw [made.standing, if_neg (by simp [there]), there]

/-- Where all is there, nothing is made. -/
theorem Made.unchanged {home : List Name} (made : Made d d' home) (there : d.standing? home ≠ none)
    (names : List Name) : d'.standing? names = d.standing? names := by
  rw [made.standing, if_neg]
  rintro ⟨missing, front⟩
  exact standing?_of_isPrefix there front missing

/-- What is in the place itself stays. -/
theorem Made.child {home : List Name} (made : Made d d' home) (n : Name) :
    d'.standing? (home ++ [n]) = d.standing? (home ++ [n]) := by
  rw [made.standing, if_neg]
  rintro ⟨-, front⟩
  exact absurd front.length_le (by simp)

theorem start_eq {p q : Path} (current : d'.current = d.current)
    (first : q.isAbsolute = p.isAbsolute) :
    d'.start q = d.start p := by
  rw [start, start, current, first]

theorem home_eq (current : d'.current = d.current) (p : Path) : d'.home p = d.home p := by
  rw [home, home, start_eq current rfl]

/-! ## Directories -/

/-- A path goes down from a directory that is there. -/
structure Descends (d : Volume) (p : Path) (front below : List Name) : Prop where
  names : p.names = front ++ below
  passes : d.Passes (d.start p) front
  inside : d.standing? (arrive (d.start p) front).reverse = some .directory
  down : ∀ n ∈ below, n ≠ upName

theorem Descends.mono {p : Path} {front below home : List Name}
    (descends : d.Descends p front below) (made : Made d d' home) : d'.Descends p front below where
  names := descends.names
  passes := by
    rw [start_eq made.current rfl]
    exact descends.passes.mono fun _ => made.directory
  inside := by
    rw [start_eq made.current rfl]
    exact made.directory descends.inside
  down := descends.down

theorem Descends.home_eq {p : Path} {front below : List Name}
    (descends : d.Descends p front below) :
    d.home p = (arrive (d.start p) front).reverse ++ below := by
  rw [home, descends.names, arrive_append, arrive_of_down descends.down]

/-- A path that goes down from a directory and has nothing below it leads to that directory. -/
theorem Descends.enters {p : Path} {front : List Name} (descends : d.Descends p front []) :
    d.Enters p ∧ d.standing? (d.home p) = some .directory := by
  have names := descends.names
  rw [List.append_nil] at names
  exact ⟨by rw [Enters, names]; exact descends.passes, by rw [home, names]; exact descends.inside⟩

/-- The directory of a path was made, where nothing was. -/
theorem makeDirectory_eq_ok (plain : d.Plain) {p : Path} {front below : List Name}
    (descends : d.Descends p front below) (h : d.makeDirectory p = .ok d') :
    ∃ above n, below = above ++ [n] ∧ n.length ≤ longestName ∧
    d.Passes (d.start p) (front ++ above) ∧
      d.standing? (d.home p) = none ∧
      d' = d.putAt (n :: arrive (d.start p) (front ++ above)) .emptyDirectory := by
  unfold makeDirectory at h
  split at h
  · cases h
  · cases h
  · next reversed placed =>
    cases h
    obtain ⟨written, followed⟩ := place_ok plain placed
    have some' : p.bytes ≠ [] := fun none' => written (by simp [withoutTrailing, none'])
    obtain ⟨-, names, first⟩ := Path.withoutTrailing_spec some'
    rw [start_eq rfl first, names] at followed
    have missing : d.standing? (d.home p) = none := by
      have none' : none = d.top.at? reversed.reverse := followed.node
      rw [home, ← followed.reversed, standing?, Node.standing?_eq_none_iff, ← none']
    rcases followed.passes with passes | ⟨zs, n, whole, down, short, passes, other⟩
    · -- names that pass lead to a directory, and nothing is there
      rw [descends.names] at passes
      have there := (passes_append.1 passes).2.directory descends.inside
      rw [← arrive_append, ← descends.names, ← home, missing] at there
      cases there
    · rw [descends.names] at whole
      rcases List.eq_nil_or_concat below with rfl | ⟨above, m, rfl⟩
      · rw [List.append_nil] at whole
        have inside := descends.inside
        rw [whole, arrive_append, arrive, if_neg down, arrive, List.reverse_cons] at inside
        exact absurd inside other
      · rw [List.concat_eq_append, ← List.append_assoc] at whole
        obtain ⟨rfl, last⟩ := List.append_inj' whole rfl
        obtain rfl := List.singleton_inj.1 last
        have there : reversed = m :: arrive (d.start p) (front ++ above) := by
          refine followed.reversed.trans ?_
          rw [descends.names, List.concat_eq_append, ← List.append_assoc, arrive_append, arrive,
            if_neg down, arrive]
        exact ⟨above, m, List.concat_eq_append, short, passes, missing, by rw [there]⟩

/-- A path leads to a directory of a disk that was made for it. -/
structure MadeFor (d d' : Volume) (p : Path) : Prop where
  made : Made d d' (d.home p)
  enters : d'.Enters p
  inside : d'.standing? (d.home p) = some .directory

theorem madeFor_of_makeDirectory (plain : d.Plain) {p : Path} {front below : List Name}
    (descends : d.Descends p front below) (h : d.makeDirectory p = .ok d') : MadeFor d d' p := by
  obtain ⟨above, n, rfl, short, passes, missing, rfl⟩ := makeDirectory_eq_ok plain descends h
  have down : n ≠ upName := descends.down n (by simp)
  have names : p.names = front ++ above ++ [n] := by rw [descends.names, List.append_assoc]
  have there : d.home p = (arrive (d.start p) (front ++ above)).reverse ++ [n] := by
    rw [home, names, arrive_append, arrive, if_neg down, arrive, List.reverse_cons]
  have inside : d.standing? (arrive (d.start p) (front ++ above)).reverse = some .directory := by
    rw [arrive_append]
    exact (passes_append.1 passes).2.directory descends.inside
  have alone : d.standing? ((arrive (d.start p) (front ++ above)).reverse ++ [n]) ≠
      some .directory := by
    simp [← there, missing]
  have changed := standing?_putAt Node.isLeaf_emptyDirectory inside alone
  rw [← there] at changed
  have made : Made d (d.putAt (n :: arrive (d.start p) (front ++ above)) .emptyDirectory)
      (d.home p) := by
    have empty : Node.emptyDirectory.Named fun _ => True := .directory [] .nil (by simp) (by simp)
    have unlinked (target : List UInt8) : Node.emptyDirectory.standing ≠ .link target := by
      simp [Node.emptyDirectory, Node.standing]
    refine ⟨plain_putAt plain Node.isLeaf_emptyDirectory empty unlinked inside alone,
      rfl, fun names => ?_⟩
    rw [changed]
    by_cases same : names = d.home p
    · rw [if_pos same, if_pos ⟨same ▸ missing, same ▸ List.prefix_rfl⟩]
      rfl
    · rw [if_neg same, if_neg]
      rintro ⟨absent, before⟩
      rw [there] at before same
      rcases List.prefix_concat_iff.1 before with whole | within
      · exact same whole
      · exact standing?_of_isPrefix (by simp [inside]) within absent
  have last : (d.putAt (n :: arrive (d.start p) (front ++ above)) .emptyDirectory).standing?
      (d.home p) =
      some .directory := by
    rw [changed, if_pos rfl]
    rfl
  refine ⟨made, ?_, last⟩
  rw [Enters, start_eq made.current rfl, names, passes_append]
  refine ⟨passes.mono fun _ => made.directory, ?_⟩
  rw [Passes, if_neg down, List.reverse_cons, ← there]
  exact ⟨short, last, trivial⟩

/-- Where a path enters a directory that it goes down to, it was made for the path. -/
theorem Made.madeFor {p : Path} (made : Made d d' (d.home p)) {front below : List Name}
    (descends : d.Descends p front below) (enters : d'.Enters p) : MadeFor d d' p where
  made := made
  enters := enters
  inside := by
    have descends' := descends.mono made
    rw [Enters, descends'.names] at enters
    have inside := (passes_append.1 enters).2.directory descends'.inside
    rwa [← arrive_append, ← descends'.names, ← home, home_eq made.current] at inside

/-- A disk on which a path was made behind one on which what is above it was made. -/
theorem Made.behind {d₁ : Volume} {p above : Path} (first : Made d d₁ (d.home above))
    (second : Made d₁ d' (d₁.home p)) (onTheWay : d.home above <+: d.home p) :
    Made d d' (d.home p) := by
  rw [home_eq first.current] at second
  exact first.trans second onTheWay

/-- Where all of a path is there, no directory is made for it. -/
theorem makeDirectory_of_enters {p : Path} (written : p.bytes ≠ []) (enters : d.Enters p)
    (inside : d.standing? (d.home p) = some .directory) :
    d.makeDirectory p = .error .alreadyExists := by
  obtain ⟨some', names, first⟩ := Path.withoutTrailing_spec written
  have start : d.start (withoutTrailing p) = d.start p := start_eq rfl first
  have home : d.home (withoutTrailing p) = d.home p := by rw [home, home, start, names]
  have enters' : d.Enters (withoutTrailing p) := by rw [Enters, start, names]; exact enters
  obtain ⟨entries, found⟩ := Node.standing?_eq_directory_iff.1 inside
  rw [makeDirectory, place_of_enters some' enters', home, found]

/-- What is above a path that goes down from a directory goes down from it, too. -/
theorem Descends.parent {p : Path} {front above : List Name} {n : Name}
    (descends : d.Descends p front (above ++ [n])) : ∃ parent, p.parent? = some parent ∧
      d.Descends parent front above ∧ d.home parent <+: d.home p := by
  have names : p.names = (front ++ above) ++ [n] := by rw [descends.names, List.append_assoc]
  obtain ⟨parent, isParent, names', first⟩ := Path.exists_parent (p := p) (by simp [names])
  rw [names, List.dropLast_concat] at names'
  have start : d.start parent = d.start p := start_eq rfl first
  have upper : d.Descends parent front above :=
    ⟨names', by rw [start]; exact descends.passes, by rw [start]; exact descends.inside,
      fun m hm => descends.down m (List.mem_append_left _ hm)⟩
  refine ⟨parent, isParent, upper, ?_⟩
  rw [upper.home_eq, descends.home_eq, start, ← List.append_assoc]
  exact List.prefix_append _ _

theorem makeDirectoriesWithin_ok (fuel : Nat) (plain : d.Plain) {p : Path} {front below : List Name}
    (descends : d.Descends p front below) (h : makeDirectoriesWithin fuel d p = .ok d') :
    Made d d' (d.home p) := by
  induction fuel generalizing p below d' with
  | zero => cases h
  | succ fuel ih =>
    unfold makeDirectoriesWithin at h
    split at h
    · next blank =>
      cases h
      have none' : front ++ below =
          [] := by rw [← descends.names, Path.names, blank, Path.namesIn_nil]
      obtain ⟨rfl, rfl⟩ := List.append_eq_nil_iff.1 none'
      exact .refl plain (by rw [descends.enters.2]; exact Option.some_ne_none _)
    · next written =>
      split at h
      · next changed made =>
        cases h
        exact (madeFor_of_makeDirectory plain descends made).made
      · next missing =>
        -- something is missing above the last name, which is therefore not the directory that is
        -- there
        rcases List.eq_nil_or_concat below with rfl | ⟨above, n, rfl⟩
        · rw [makeDirectory_of_enters written descends.enters.1 descends.enters.2] at missing
          cases missing
        · rw [List.concat_eq_append] at descends
          obtain ⟨parent, isParent, upper, onTheWay⟩ := descends.parent
          simp only [isParent] at h
          split at h
          · cases h
          · next d₁ within =>
            have before := ih upper within
            split at h
            · next changed made =>
              cases h
              have last := (madeFor_of_makeDirectory before.plain (descends.mono before) made).made
              exact before.behind last onTheWay
            · split at h
              · next directory =>
                cases h
                have there := standing?_of_isDirectory before.plain directory
                exact before.behind (.refl before.plain there) onTheWay
              · cases h
      · split at h
        · next directory =>
          cases h
          exact .refl plain (standing?_of_isDirectory plain directory)
        · cases h

/-- A path that goes down from a directory is made name by name, unless it is there and perhaps
locked. -/
theorem makeDirectories_ok (plain : d.Plain) {p : Path} {front below : List Name}
    (descends : d.Descends p front below) (h : d.makeDirectories p = .ok d') :
    Made d d' (d.home p) :=
  makeDirectoriesWithin_ok _ plain descends h

/-- Where all of a path is there, the disk stays as it is. -/
theorem makeDirectories_of_enters (plain : d.Plain) {p : Path} (enters : d.Enters p)
    (inside : d.standing? (d.home p) = some .directory) : d.makeDirectories p = .ok d := by
  unfold makeDirectories makeDirectoriesWithin
  split
  · rfl
  · next written =>
    have directory := isDirectory_of_enters plain written enters inside
    rw [makeDirectory_of_enters written enters inside]
    dsimp only
    rw [if_pos directory]

/-! ## Files -/

/-- A file was given a content, and nothing else was changed. -/
structure Filled (d d' : Volume) (names : List Name) (content : ByteArray) : Prop where
  plain : d'.Plain
  current : d'.current = d.current
  standing : ∀ other, d'.standing? other = if other = names then some (.file content)
      else d.standing? other

theorem Filled.refl (plain : d.Plain) {names : List Name} {content : ByteArray}
    (there : d.standing? names = some (.file content)) : Filled d d names content where
  plain := plain
  current := rfl
  standing other := by
    split
    · next same => rw [same, there]
    · rfl

/-- A file is there that may be written, or nothing is. -/
def IsWritable (d : Volume) (names : List Name) : Prop :=
  d.standing? names = none ∨ ∃ content, d.standing? names = some (.file content)

theorem IsWritable.ne_directory {names : List Name} (writable : d.IsWritable names) :
    d.standing? names ≠ some .directory := by
  intro there
  obtain missing | ⟨content, file⟩ := writable
  · cases there.symm.trans missing
  · cases there.symm.trans file

/-- A file in a directory that a path enters is written. -/
theorem filled_of_write (plain : d.Plain) {p : Path} (enters : d.Enters p)
    (inside : d.standing? (d.home p) = some .directory) {n : Name} (name : IsEntryName n)
    {content : ByteArray} (h : d.write (p.join ⟨n⟩) content = .ok d') :
    d.IsWritable (d.home p ++ [n]) ∧ Filled d d' (d.home p ++ [n]) content := by
  have filled (writable : d.IsWritable (d.home p ++ [n])) :
      Filled d (d.putAt (n :: arrive (d.start p) p.names) (.file content)) (d.home p ++ [n])
        content := by
    have alone := writable.ne_directory
    exact ⟨plain_putAt plain (Node.isLeaf_file content) (.file content)
      (by simp [Node.standing]) inside alone, rfl,
        standing?_putAt (Node.isLeaf_file content) inside alone⟩
  rw [write, place_child plain enters name] at h
  cases found : d.top.at? (d.home p ++ [n]) with
  | none =>
    simp only [found] at h
    rw [if_neg (name.last_ne p)] at h
    cases h
    have writable : d.IsWritable (d.home p ++ [n]) := .inl (Node.standing?_eq_none_iff.2 found)
    exact ⟨writable, filled writable⟩
  | some node =>
    cases node with
    | directory entries => simp [found] at h
    | file old =>
      simp only [found, Except.ok.injEq] at h
      have writable : d.IsWritable (d.home p ++ [n]) :=
        .inr ⟨old, Node.standing?_eq_file_iff.2 found⟩
      exact ⟨writable, h ▸ filled writable⟩
    | link target => exact absurd (Node.standing?_eq_link_iff.2 found) (plain.linkless _ target)
    | lockedFile | lockedDirectory => simp [found] at h

/-- A file can be written where one stands that may be, or nothing does. -/
theorem exists_write (plain : d.Plain) {p : Path} (enters : d.Enters p) {n : Name}
    (name : IsEntryName n) (writable : d.IsWritable (d.home p ++ [n])) (content : ByteArray) :
    ∃ d', d.write (p.join ⟨n⟩) content = .ok d' := by
  rw [write, place_child plain enters name]
  obtain missing | ⟨old, file⟩ := writable
  · rw [standing?, Node.standing?_eq_none_iff] at missing
    rw [missing]
    dsimp only
    rw [if_neg (name.last_ne p)]
    exact ⟨_, rfl⟩
  · rw [standing?, Node.standing?_eq_file_iff] at file
    rw [file]
    exact ⟨_, rfl⟩

/-- What can be written has a place. -/
theorem exists_place_of_write {p : Path} {content : ByteArray} (h : d.write p content = .ok d') :
    ∃ place, d.place true p = .ok place := by
  cases placed : d.place true p with
  | error fault => simp [write, placed] at h
  | ok place => exact ⟨place, rfl⟩

/-- What can be read has a place. -/
theorem exists_place_of_readText {p : Path} {text : String} (h : d.readText p = .ok text) :
    ∃ place, d.place true p = .ok place := by
  cases placed : d.place true p with
  | error fault => simp [readText, read, resolve, placed, Except.bind] at h
  | ok place => exact ⟨place, rfl⟩

end Waymark.Disk.Volume
