import Waymark.Proofs.Scan.Discovery

/-!
# The warnings of a scan

What a scan warns about depends on one marker file at a time, and on its loaders at the end:

* `complaint?`: the warning about a function that is not accepted;
* `Opened.complaints`: the warnings about a file that was read;
* `complaintsOf`: the warnings about what is met on a walk;
* `scan_warnings`: these are the warnings of a scan, and those about loaders without a page.
-/

namespace Waymark.Scan

open Waymark.Disk (Volume Path Name Node DiskFault)
open Waymark.Http (Method)
open Waymark.Source (SourceFile FunctionItem)

/-- The line on which the name of a function stands. -/
def lineOf (f : FunctionItem) : Nat := f.signature.nameSpan.start.line

/-- The warning about a function that is hidden or differs from the shape that is asked for. -/
def complaint? (path : Path) (contract : Contract) (f : FunctionItem) : Option Warning :=
  if f.isExported then
    match contract.check f.signature with
    | .error mismatch => some ⟨path, some (lineOf f), .misshapen f.signature.name mismatch contract⟩
    | .ok () => none
  else some ⟨path, some (lineOf f), .notExported f.signature.name⟩

/-- A verdict is the warning about a function, or the function's text where there is none. -/
theorem judge_eq_ok {path : Path} {source : SourceFile} {contract : Contract} {f : FunctionItem}
    {verdict : Except Warning Source.Function} (h : judge path source contract f = .ok verdict) :
    (∃ w, verdict = .error w ∧ complaint? path contract f = some w ∧
      accepted? source contract f = none) ∨
      ∃ function, verdict = .ok function ∧ complaint? path contract f = none ∧
        accepted? source contract f = some function := by
  have spec := (judge_spec h).1
  unfold judge at h
  split at h
  · next hidden =>
    have closed : f.isExported = false := by simpa using hidden
    cases h
    exact .inl ⟨_, rfl, by simp [complaint?, closed, lineOf], spec.symm⟩
  · next shown =>
    have exported : f.isExported = true := by simpa using shown
    split at h
    · next mismatch differs =>
      cases h
      exact .inl ⟨_, rfl, by simp [complaint?, exported, differs, lineOf], spec.symm⟩
    · next agrees =>
      split at h
      · next function cut =>
        cases h
        exact .inr ⟨function, rfl, by simp [complaint?, exported, agrees], spec.symm⟩
      · cases h

/-- A complaint is about the line of its function. -/
theorem eq_of_complaint? {path : Path} {contract : Contract} {f : FunctionItem} {w : Warning}
    (h : complaint? path contract f = some w) : w.path = path ∧ w.line = some (lineOf f) := by
  unfold complaint? at h
  split at h
  · split at h
    · cases h
      exact ⟨rfl, rfl⟩
    · cases h
  · cases h
    exact ⟨rfl, rfl⟩

/-- The text of an accepted function has its name and its line. -/
theorem eq_of_accepted? {source : SourceFile} {contract : Contract} {f : FunctionItem}
    {function : Source.Function} (h : accepted? source contract f = some function) :
    function.name = f.signature.name ∧ function.line = lineOf f := by
  have taken := (taken_of_accepted? h).2
  unfold SourceFile.extract at taken
  dsimp only at taken
  split at taken
  · cases taken
  · cases taken
    exact ⟨rfl, rfl⟩

/-- The warnings of a file that has to give one function under a fixed name. -/
def missingOr (path : Path) (source : SourceFile) (name : String) (contract : Contract) :
    List Warning :=
  match source.function? name with
  | none => [⟨path, none, .missing name⟩]
  | some f => (complaint? path contract f).toList

/-- The warnings about some functions, of which the first that is accepted is kept. -/
def overruled (path : Path) (source : SourceFile) (contract : Contract) :
    Option Source.Function → List FunctionItem → List Warning
  | _, [] => []
  | found, f :: rest =>
    match accepted? source contract f, found with
    | none, _ => (complaint? path contract f).toList ++ overruled path source contract found rest
    | some function, none => overruled path source contract (some function) rest
    | some function, some first =>
      ⟨path, some function.line, .alreadyRendered function.name first.name⟩
        :: overruled path source contract found rest

/-- The warnings of a file whose function is named by the rule for a word. -/
def noneOr (path : Path) (source : SourceFile) (word : String) (contract : Contract) :
    List Warning :=
  overruled path source contract none (namedFor source word)
    ++ if (namedFor source word).isEmpty then [⟨path, none, .noneNamed word⟩] else []

/-- The functions of a file that answer methods, in the order of the methods. -/
def answering (source : SourceFile) : List FunctionItem :=
  Method.all.filterMap fun m => source.function? m.handlerName

/-- The warnings about a file that was read. -/
def Opened.complaints (o : Opened) : List Warning :=
  match o.kind with
  | .route => (answering o.source).filterMap (complaint? o.file.path .handler)
      ++ if (answering o.source).isEmpty then [⟨o.file.path, none, .noHandler⟩] else []
  | .middleware => missingOr o.file.path o.source "middleware" .middleware
  | .loader => missingOr o.file.path o.source "load" .loader
  | .proxy => missingOr o.file.path o.source "proxy" .proxy
  | .page => noneOr o.file.path o.source "page" .page
  | .layout => noneOr o.file.path o.source "layout" .layout

/-- A problem with the functions of a file that was read. -/
def Problem.IsOfFunctions : Problem → Prop
  | .noHandler | .missing _ | .noneNamed _ | .notExported _ => True
  | .misshapen _ _ _ | .alreadyRendered _ _ => True
  | .unroutable | .cannotEnter _ _ | .nestedProxy | .cannotRead _ | .cannotParse | .orphanLoader =>
    False

/-- The warning is about a file, and a problem with its functions. -/
def Warning.IsOf (path : Path) (w : Warning) : Prop := w.path = path ∧ w.problem.IsOfFunctions

theorem isOf_of_complaint? {path : Path} {contract : Contract} {f : FunctionItem} {w : Warning}
    (h : complaint? path contract f = some w) : w.IsOf path := by
  unfold complaint? at h
  split at h
  · split at h
    · cases h
      exact ⟨rfl, trivial⟩
    · cases h
  · cases h
    exact ⟨rfl, trivial⟩

theorem isOf_of_mem_missingOr {path : Path} {source : SourceFile} {name : String}
    {contract : Contract}
    {w : Warning} (h : w ∈ missingOr path source name contract) : w.IsOf path := by
  unfold missingOr at h
  split at h
  · obtain rfl := List.mem_singleton.1 h
    exact ⟨rfl, trivial⟩
  · exact isOf_of_complaint? (Option.mem_toList.1 h)

theorem isOf_of_mem_overruled {path : Path} {source : SourceFile} {contract : Contract}
    {fs : List FunctionItem} {w : Warning} (found : Option Source.Function)
    (h : w ∈ overruled path source contract found fs) : w.IsOf path := by
  induction fs generalizing found with
  | nil => cases h
  | cons f rest ih =>
    unfold overruled at h
    split at h
    · obtain here | later := List.mem_append.1 h
      · exact isOf_of_complaint? (Option.mem_toList.1 here)
      · exact ih _ later
    · exact ih _ h
    · obtain rfl | later := List.mem_cons.1 h
      · exact ⟨rfl, trivial⟩
      · exact ih _ later

theorem isOf_of_mem_noneOr {path : Path} {source : SourceFile} {word : String} {contract : Contract}
    {w : Warning} (h : w ∈ noneOr path source word contract) : w.IsOf path := by
  obtain told | alone := List.mem_append.1 h
  · exact isOf_of_mem_overruled none told
  · split at alone
    · obtain rfl := List.mem_singleton.1 alone
      exact ⟨rfl, trivial⟩
    · cases alone

/-- What is complained about in a file that was read is a problem with its functions. -/
theorem Opened.isOf_of_mem_complaints {o : Opened} {w : Warning} (h : w ∈ o.complaints) :
    w.IsOf o.file.path := by
  unfold Opened.complaints at h
  split at h
  case h_1 =>
    obtain told | alone := List.mem_append.1 h
    · obtain ⟨f, -, complaint⟩ := List.mem_filterMap.1 told
      exact isOf_of_complaint? complaint
    · split at alone
      · obtain rfl := List.mem_singleton.1 alone
        exact ⟨rfl, trivial⟩
      · cases alone
  case h_2 | h_3 | h_4 => exact isOf_of_mem_missingOr h
  case h_5 | h_6 => exact isOf_of_mem_noneOr h

/-- Nothing that is read is complained about as a loader without a page. -/
theorem Opened.problem_ne {o : Opened} {w : Warning} (h : w ∈ o.complaints) :
    w.problem ≠ .orphanLoader := by
  intro orphan
  have about := (isOf_of_mem_complaints h).2
  rw [orphan] at about
  exact about

section
variable {file : MarkerFile} {source : SourceFile} {contract : Contract} {s t : AppScan}

theorem warnings_single {name : String} {found : Option FunctionFile}
    (h : single file source name contract s = .ok (found, t)) :
    t.warnings = s.warnings ++ missingOr file.path source name contract := by
  unfold single at h
  split at h
  · next missing =>
    cases h
    simp [missingOr, missing, AppScan.warn]
  · next f there =>
    cases judged : judge file.path source contract f with
    | error fault => simp [judged, bind, Except.bind] at h
    | ok verdict =>
      obtain ⟨w, rfl, warned, -⟩ | ⟨function, rfl, calm, -⟩ := judge_eq_ok judged
      · simp only [judged, bind, Except.bind, pure, Except.pure] at h
        cases h
        simp [missingOr, there, warned, AppScan.addWarning]
      · simp only [judged, bind, Except.bind, pure, Except.pure] at h
        cases h
        simp [missingOr, there, calm]

theorem warnings_firstAccepted {fs : List FunctionItem} {found result : Option Source.Function}
    (h : firstAccepted file source contract fs found s = .ok (result, t)) :
    t.warnings = s.warnings ++ overruled file.path source contract found fs := by
  induction fs generalizing found s with
  | nil =>
    cases h
    simp [overruled]
  | cons f rest ih =>
    rw [firstAccepted] at h
    cases judged : judge file.path source contract f with
    | error fault => simp [judged, bind, Except.bind] at h
    | ok verdict =>
      obtain ⟨w, rfl, warned, passed⟩ | ⟨function, rfl, -, kept⟩ := judge_eq_ok judged
      · simp only [judged, bind, Except.bind] at h
        simp [ih h, overruled, passed, warned, AppScan.addWarning]
      · simp only [judged, bind, Except.bind] at h
        cases found with
        | none => simp [ih h, overruled, kept]
        | some first => simp [ih h, overruled, kept, AppScan.warn]

theorem matching_eq (file : MarkerFile) (source : SourceFile) (word : String) (contract : Contract)
    (s : AppScan) : matching file source word contract s = (do
      let (found, u) ← firstAccepted file source contract (namedFor source word) none s
      return (found.map (⟨file, ·⟩),
        if (namedFor source word).isEmpty then u.warn file.path none (.noneNamed word) else u)) :=
  rfl

theorem warnings_matching {word : String} {found : Option FunctionFile}
    (h : matching file source word contract s = .ok (found, t)) :
    t.warnings = s.warnings ++ noneOr file.path source word contract := by
  rw [matching_eq] at h
  cases ran : firstAccepted file source contract (namedFor source word) none s with
  | error fault => simp [ran, bind, Except.bind] at h
  | ok result =>
    obtain ⟨function, u⟩ := result
    have warnings := warnings_firstAccepted ran
    simp only [ran, bind, Except.bind, pure, Except.pure] at h
    cases h
    rw [noneOr, ← List.append_assoc, ← warnings]
    split
    · rfl
    · exact (List.append_nil _).symm

/-- The warnings among some verdicts. -/
def warningsIn (found : List (Method × Except Warning Source.Function)) : List Warning :=
  found.filterMap fun
    | (_, .error w) => some w
    | (_, .ok _) => none

theorem warningsIn_candidates {path : Path} {ms : List Method}
    {found : List (Method × Except Warning Source.Function)}
    (h : candidates path source ms = .ok found) :
    warningsIn found =
        (ms.filterMap fun m =>
          source.function? m.handlerName).filterMap (complaint? path .handler) ∧
      found.length = (ms.filterMap fun m => source.function? m.handlerName).length := by
  induction ms generalizing found with
  | nil =>
    cases h
    exact ⟨rfl, rfl⟩
  | cons m rest ih =>
    rw [candidates] at h
    split at h
    · next missing =>
      rw [List.filterMap_cons_none (by exact missing)]
      exact ih h
    · next f there =>
      rw [List.filterMap_cons_some (by exact there)]
      cases judged : judge path source .handler f with
      | error fault => simp [judged, bind, Except.bind] at h
      | ok verdict =>
        cases more : candidates path source rest with
        | error fault => simp [judged, more, bind, Except.bind] at h
        | ok others =>
          simp only [judged, more, bind, Except.bind, pure, Except.pure] at h
          cases h
          obtain ⟨warned, counted⟩ := ih more
          obtain ⟨w, rfl, complaint, -⟩ | ⟨function, rfl, calm, -⟩ := judge_eq_ok judged
          · rw [List.filterMap_cons_some complaint, ← warned]
            exact ⟨rfl, congrArg Nat.succ counted⟩
          · rw [List.filterMap_cons_none calm, ← warned]
            exact ⟨rfl, congrArg Nat.succ counted⟩

theorem warnings_claim (s : AppScan) (pattern : String) (m : Method) (path : Path) :
    (s.claim pattern m path).2.warnings = s.warnings := by
  unfold AppScan.claim
  split <;> rfl

theorem warnings_settle (file : MarkerFile) (found : List (Method × Except Warning Source.Function))
    (s : AppScan) : (settle file found s).2.warnings = s.warnings ++ warningsIn found := by
  induction found generalizing s with
  | nil => simp [settle, warningsIn]
  | cons v rest ih =>
    obtain ⟨m, _ | function⟩ := v
    · simp [settle, ih, warningsIn, AppScan.addWarning]
    · simp [settle, ih, warningsIn, warnings_claim]

theorem warnings_addRoute {o : Opened} (kind : o.kind = .route) {s t : AppScan}
    (h : addRoute o.file o.source s = .ok t) : t.warnings = s.warnings ++ o.complaints := by
  unfold addRoute at h
  cases judged : candidates o.file.path o.source Method.all with
  | error fault => simp [judged, bind, Except.bind] at h
  | ok found =>
    obtain ⟨warned, counted⟩ := warningsIn_candidates judged
    have empty : found.isEmpty = (answering o.source).isEmpty := by
      rw [Bool.eq_iff_iff, List.isEmpty_iff_length_eq_zero,
        List.isEmpty_iff_length_eq_zero, counted]
      rfl
    have settled := warnings_settle o.file found s
    simp only [judged, bind, Except.bind, pure, Except.pure] at h
    cases h
    have complaints : o.complaints = warningsIn found ++
        if found.isEmpty then [⟨o.file.path, none, .noHandler⟩] else [] := by
      rw [Opened.complaints, kind, warned, empty]
      rfl
    rw [complaints, ← List.append_assoc, ← settled]
    split <;> split <;> simp [AppScan.warn]

theorem warnings_addPage (page : FunctionFile) (s : AppScan) :
    (addPage page s).warnings = s.warnings := by
  have claimed := warnings_claim s page.file.pattern .get page.file.path
  unfold addPage
  dsimp only
  split <;> exact claimed

/-- A step whose result is put away without a word adds the warnings of the step. -/
theorem warnings_put {step : Scanned (Option FunctionFile × AppScan)} {ws : List Warning}
    (put : Option FunctionFile → AppScan → AppScan)
    (silent : ∀ found u, (put found u).warnings = u.warnings)
    (told : ∀ r, step = .ok r → r.2.warnings = s.warnings ++ ws)
    (h : (step >>= fun r => pure (put r.1 r.2)) = .ok t) : t.warnings = s.warnings ++ ws := by
  cases ran : step with
  | error fault => simp [ran, bind, Except.bind] at h
  | ok r =>
    simp only [ran, bind, Except.bind, pure, Except.pure] at h
    cases h
    rw [silent, told r ran]

/-- A file that is read adds the warnings about it. -/
theorem warnings_addFile {o : Opened} {s t : AppScan}
    (h : addFile o.kind o.file o.source s = .ok t) :
    t.warnings = s.warnings ++ o.complaints := by
  cases kind : o.kind with
  | route => exact warnings_addRoute kind (by simpa [addFile, kind] using h)
  | middleware =>
    rw [kind, addFile] at h
    simp only [Opened.complaints, kind]
    exact warnings_put (fun found u => { u with middlewares := u.middlewares ++ found.toList })
      (fun _ _ => rfl) (fun _ => warnings_single) h
  | loader =>
    rw [kind, addFile] at h
    simp only [Opened.complaints, kind]
    exact warnings_put (fun found u => { u with loaders := u.loaders ++ found.toList })
      (fun _ _ => rfl) (fun _ => warnings_single) h
  | proxy =>
    rw [kind, addFile] at h
    simp only [Opened.complaints, kind]
    exact warnings_put (fun found u => { u with proxy := found <|> u.proxy })
      (fun _ _ => rfl) (fun _ => warnings_single) h
  | layout =>
    rw [kind, addFile] at h
    simp only [Opened.complaints, kind]
    exact warnings_put (fun found u => { u with layouts := u.layouts ++ found.toList })
      (fun _ _ => rfl) (fun _ => warnings_matching) h
  | page =>
    rw [kind, addFile] at h
    have complaints : o.complaints = noneOr o.file.path o.source "page" .page := by
      simp only [Opened.complaints, kind]
    cases ran : matching o.file o.source "page" .page s with
    | error fault => simp [ran, bind, Except.bind] at h
    | ok result =>
      obtain ⟨found, u⟩ := result
      simp only [ran, bind, Except.bind, pure, Except.pure] at h
      rw [complaints, ← warnings_matching ran]
      cases found with
      | none =>
        cases h
        rfl
      | some page =>
        cases h
        exact warnings_addPage page u

/-- The warnings about what is met on a walk. -/
def complaintsOf (disk : Volume) (root : Path) : Visit → List Warning
  | .unroutable directories => [⟨directories.foldl Path.joinName root, none, .unroutable⟩]
  | .unreadable directories =>
    let path := directories.foldl Path.joinName root
    [⟨path, none, .cannotEnter path .permissionDenied⟩]
  | .marker kind directories fileName node =>
    let path := (directories ++ [fileName]).foldl Path.joinName root
    if kind = .proxy && !directories.isEmpty then [⟨path, none, .nestedProxy⟩]
    else match contentOf disk path node with
      | .error fault => [⟨path, none, .cannotRead fault⟩]
      | .ok text =>
        match SourceFile.parse text with
        | .error failure => [⟨path, some failure.line, .cannotParse⟩]
        | .ok source =>
          Opened.complaints ⟨kind, ⟨path, directories, fileName, source.imports⟩, source⟩

/-- Nothing that is met on a walk is complained about as a loader without a page. -/
theorem problem_ne_of_mem_complaintsOf {disk : Volume} {root : Path} {v : Visit} {w : Warning}
    (h : w ∈ complaintsOf disk root v) : w.problem ≠ .orphanLoader := by
  have single {w' : Warning} (h : w ∈ [w']) (other : w'.problem ≠ .orphanLoader) :
      w.problem ≠ .orphanLoader := by
    rw [List.mem_singleton.1 h]
    exact other
  unfold complaintsOf at h
  split at h
  · exact single h nofun
  · exact single h nofun
  · dsimp only at h
    split at h
    · exact single h nofun
    · split at h
      · exact single h nofun
      · split at h
        · exact single h nofun
        · exact Opened.problem_ne h

/-- A step of a walk adds the warnings about what it meets. -/
theorem warnings_addVisit {disk : Volume} {s t : AppScan} {v : Visit}
    (h : addVisit disk s v = .ok t) :
    t.warnings = s.warnings ++ complaintsOf disk s.root v := by
  cases v with
  | unroutable | unreadable =>
    cases h
    rfl
  | marker kind directories fileName node =>
    simp only [addVisit, complaintsOf] at h ⊢
    generalize (directories ++ [fileName]).foldl Path.joinName s.root = path at h ⊢
    by_cases nested : (kind = .proxy && !directories.isEmpty) = true
    · rw [if_pos nested] at h ⊢
      cases h
      rfl
    · rw [if_neg nested] at h ⊢
      cases content : contentOf disk path node with
      | error fault =>
        simp only [content] at h ⊢
        cases h
        rfl
      | ok text =>
        simp only [content] at h ⊢
        cases parsed : SourceFile.parse text with
        | error failure =>
          simp only [parsed] at h ⊢
          cases h
          rfl
        | ok source =>
          simp only [parsed] at h ⊢
          exact warnings_addFile
            (o := ⟨kind, ⟨path, directories, fileName, source.imports⟩, source⟩) h

theorem warnings_foldlM {disk : Volume} {vs : List Visit} {s t : AppScan}
    (h : vs.foldlM (addVisit disk) s = .ok t) :
    t.warnings = s.warnings ++ vs.flatMap (complaintsOf disk s.root) := by
  induction vs generalizing s with
  | nil =>
    cases h
    simp
  | cons v rest ih =>
    rw [List.foldlM_cons] at h
    cases step : addVisit disk s v with
    | error fault => simp [step, bind, Except.bind] at h
    | ok u =>
      have more : rest.foldlM (addVisit disk) u = .ok t := by
        simpa [step, bind, Except.bind] using h
      rw [ih more, warnings_addVisit step, root_of_addVisit step, List.flatMap_cons,
        List.append_assoc]

/-- The loaders of a scan that no page belongs to. -/
def AppScan.orphans (s : AppScan) : List FunctionFile :=
  s.loaders.filter fun l => !s.pages.any fun p => p.file.scope = l.file.scope

/-- A scan warns about what its walk meets, one after the other, and then about loaders without a
page. -/
theorem scan_warnings {disk : Volume} {root : Path} {app : Node} {s : AppScan}
    (there : disk.resolve root = .ok app) (scanned : scan disk root = .ok s) :
    s.warnings = (visits app).flatMap (complaintsOf disk root)
      ++ s.orphans.map fun l => ⟨l.file.path, none, .orphanLoader⟩ := by
  obtain ⟨t, ran, rfl⟩ := exists_walk_of_scan there scanned
  have walked := warnings_foldlM ran
  simp only [warnOrphans, walked, AppScan.orphans]
  rfl

end

end Waymark.Scan
