import Mathlib.Data.List.Basic
import Waymark.Generate.Plan
import Waymark.Scan.Collect

/-!
# What a marker file contributes

Whether a function is accepted depends on its file alone, never on what was found before:

* `opened?`: the marker file that a step of a walk reads, unless it is passed over;
* `Opened.offers`: the handlers and pages that a file offers;
* `Opened.gives`: the functions that a file gives when it is of some kind;
* `addVisit_spec`: what a step of a walk does to a scan, each list apart.
-/

namespace Waymark.Scan

open Waymark.Disk (Volume Path Name Node DiskFault)
open Waymark.Http (Method)
open Waymark.Source (SourceFile FunctionItem)

/-- A function is exported and has the shape that is asked for. -/
def Contract.admits (contract : Contract) (f : FunctionItem) : Bool :=
  f.isExported && (contract.check f.signature).isOk

/-- The text of a function that is exported and has the shape that is asked for. -/
def accepted? (source : SourceFile) (contract : Contract) (f : FunctionItem) :
    Option Source.Function :=
  if contract.admits f then (source.extract f).toOption else none

/-- An accepted function is exported, and its text is what is taken out of its file. -/
theorem taken_of_accepted? {source : SourceFile} {contract : Contract} {f : FunctionItem}
    {function : Source.Function} (h : accepted? source contract f = some function) :
    f.isExported = true ∧ source.extract f = .ok function := by
  unfold accepted? at h
  split at h
  · next admitted =>
    refine ⟨(Bool.and_eq_true_iff.1 admitted).1, ?_⟩
    cases taken : source.extract f with
    | error fault =>
      rw [taken] at h
      cases h
    | ok own =>
      rw [taken] at h
      rw [Option.some_inj.1 h]
  · cases h

/-- The text of a function can be cut out if the function is to be accepted. -/
def IsCut (source : SourceFile) (contract : Contract) (f : FunctionItem) : Prop :=
  contract.admits f = true → (source.extract f).isOk = true

theorem judge_spec {path : Path} {source : SourceFile} {contract : Contract} {f : FunctionItem}
    {verdict : Except Warning Source.Function} (h : judge path source contract f = .ok verdict) :
    verdict.toOption = accepted? source contract f ∧ IsCut source contract f := by
  unfold judge at h
  split at h
  · next hidden =>
    simp only [Except.ok.injEq] at h
    subst h
    have closed : f.isExported = false := by simpa using hidden
    simp [accepted?, IsCut, Contract.admits, closed, Except.toOption]
  · next shown =>
    have exported : f.isExported = true := by simpa using shown
    split at h
    · next mismatch differs =>
      simp only [Except.ok.injEq] at h
      subst h
      simp [accepted?, IsCut, Contract.admits, differs, Except.toOption, Except.isOk, Except.toBool]
    · next agrees =>
      split at h
      · next function cut =>
        simp only [Except.ok.injEq] at h
        subst h
        simp [accepted?, IsCut, Contract.admits, exported, agrees, cut, Except.toOption,
          Except.isOk, Except.toBool]
      · simp at h

/-- Nothing but warnings was added. -/
def OnlyWarned (s t : AppScan) : Prop := ∃ added, t = { s with warnings := s.warnings ++ added }

theorem OnlyWarned.refl (s : AppScan) : OnlyWarned s s := ⟨[], by simp⟩

theorem OnlyWarned.trans {s t u : AppScan} (h : OnlyWarned s t) (k : OnlyWarned t u) :
    OnlyWarned s u := by
  obtain ⟨added, rfl⟩ := h
  obtain ⟨more, rfl⟩ := k
  exact ⟨added ++ more, by simp⟩

theorem onlyWarned_warn (s : AppScan) (path : Path) (line : Option Nat) (problem : Problem) :
    OnlyWarned s (s.warn path line problem) := ⟨_, rfl⟩

theorem onlyWarned_addWarning (s : AppScan) (w : Warning) :
    OnlyWarned s (s.addWarning w) := ⟨_, rfl⟩

theorem single_spec {file : MarkerFile} {source : SourceFile} {name : String} {contract : Contract}
    {s : AppScan} {found : Option FunctionFile} {t : AppScan}
    (h : single file source name contract s = .ok (found, t)) :
    found = ((source.function? name).bind (accepted? source contract)).map (⟨file, ·⟩) ∧
      OnlyWarned s t ∧ ∀ f ∈ source.function? name, IsCut source contract f := by
  unfold single at h
  split at h
  · next missing =>
    simp only [Except.ok.injEq, Prod.mk.injEq] at h
    obtain ⟨rfl, rfl⟩ := h
    exact ⟨by simp [missing], onlyWarned_warn _ _ _ _, by simp [missing]⟩
  · next f there =>
    cases judged : judge file.path source contract f with
    | error fault => simp [judged, bind, Except.bind] at h
    | ok verdict =>
      obtain ⟨spec, cut⟩ := judge_spec judged
      cases verdict with
      | ok function =>
        simp only [judged, bind, Except.bind, pure, Except.pure, Except.ok.injEq,
          Prod.mk.injEq] at h
        obtain ⟨rfl, rfl⟩ := h
        exact ⟨by simp [there, ← spec, Except.toOption], OnlyWarned.refl _,
          by simpa [there] using cut⟩
      | error w =>
        simp only [judged, bind, Except.bind, pure, Except.pure, Except.ok.injEq,
          Prod.mk.injEq] at h
        obtain ⟨rfl, rfl⟩ := h
        exact ⟨by simp [there, ← spec, Except.toOption], onlyWarned_addWarning _ _,
          by simpa [there] using cut⟩

theorem firstAccepted_spec {file : MarkerFile} {source : SourceFile} {contract : Contract}
    {fs : List FunctionItem} {found result : Option Source.Function} {s t : AppScan}
    (h : firstAccepted file source contract fs found s = .ok (result, t)) :
    result = (found <|> fs.findSome? (accepted? source contract)) ∧ OnlyWarned s t ∧
      ∀ f ∈ fs, IsCut source contract f := by
  induction fs generalizing found s with
  | nil =>
    simp only [firstAccepted, Except.ok.injEq, Prod.mk.injEq] at h
    obtain ⟨rfl, rfl⟩ := h
    exact ⟨by simp, OnlyWarned.refl _, by simp⟩
  | cons f rest ih =>
    rw [firstAccepted] at h
    cases judged : judge file.path source contract f with
    | error fault => simp [judged, bind, Except.bind] at h
    | ok verdict =>
      obtain ⟨spec, cut⟩ := judge_spec judged
      cases verdict with
      | error w =>
        simp only [judged, bind, Except.bind] at h
        obtain ⟨same, warned, cuts⟩ := ih h
        refine ⟨?_, (onlyWarned_addWarning _ _).trans warned, by simpa using ⟨cut, cuts⟩⟩
        simp [same, ← spec, Except.toOption]
      | ok function =>
        simp only [judged, bind, Except.bind] at h
        cases found with
        | none =>
          obtain ⟨same, warned, cuts⟩ := ih h
          refine ⟨?_, warned, by simpa using ⟨cut, cuts⟩⟩
          simp [same, ← spec, Except.toOption]
        | some first =>
          obtain ⟨same, warned, cuts⟩ := ih h
          exact ⟨by simp [same], (onlyWarned_warn _ _ _ _).trans warned, by simpa using ⟨cut, cuts⟩⟩

/-- The functions of a file whose name follows the rule for a word. -/
def namedFor (source : SourceFile) (word : String) : List FunctionItem :=
  source.functions.filter fun f => isNamedFor word f.signature.name

/-- The first accepted function of a file whose name follows the rule for a word. -/
def firstNamed? (source : SourceFile) (word : String) (contract : Contract) :
    Option Source.Function :=
  (namedFor source word).findSome? (accepted? source contract)

theorem matching_spec {file : MarkerFile} {source : SourceFile} {word : String}
    {contract : Contract} {s : AppScan} {found : Option FunctionFile} {t : AppScan}
    (h : matching file source word contract s = .ok (found, t)) :
    found = (firstNamed? source word contract).map (⟨file, ·⟩) ∧ OnlyWarned s t ∧
      ∀ f ∈ namedFor source word, IsCut source contract f := by
  unfold matching at h
  cases ran : firstAccepted file source contract
      (source.functions.filter fun f => isNamedFor word f.signature.name) none s with
  | error fault => simp [ran, bind, Except.bind] at h
  | ok result =>
    obtain ⟨function, u⟩ := result
    obtain ⟨rfl, warned, cuts⟩ := firstAccepted_spec ran
    simp only [ran, bind, Except.bind, pure, Except.pure, Except.ok.injEq, Prod.mk.injEq] at h
    obtain ⟨rfl, rfl⟩ := h
    refine ⟨by simp [firstNamed?, namedFor], warned.trans ?_, cuts⟩
    split
    · exact onlyWarned_warn _ _ _ _
    · exact OnlyWarned.refl _

/-- The accepted function that answers a method in a file. -/
def handlerOf? (source : SourceFile) (m : Method) : Option Source.Function :=
  (source.function? m.handlerName).bind (accepted? source .handler)

/-- The handlers among some verdicts. -/
def handlersIn (found : List (Method × Except Warning Source.Function)) : List RouteHandler :=
  found.filterMap fun v => v.2.toOption.map (⟨v.1, ·⟩)

theorem candidates_spec {path : Path} {source : SourceFile} {ms : List Method}
    {found : List (Method × Except Warning Source.Function)}
    (h : candidates path source ms = .ok found) :
    handlersIn found = (ms.filterMap fun m => (handlerOf? source m).map (⟨m, ·⟩)) ∧
      ∀ m ∈ ms, ∀ f ∈ source.function? m.handlerName, IsCut source .handler f := by
  induction ms generalizing found with
  | nil =>
    simp only [candidates, Except.ok.injEq] at h
    subst h
    exact ⟨rfl, by simp⟩
  | cons m rest ih =>
    rw [candidates] at h
    split at h
    · next missing =>
      obtain ⟨behind, cuts⟩ := ih h
      exact ⟨by simp [handlerOf?, missing, behind], by simpa [missing] using cuts⟩
    · next f there =>
      cases judged : judge path source .handler f with
      | error fault => simp [judged, bind, Except.bind] at h
      | ok verdict =>
        cases more : candidates path source rest with
        | error fault => simp [judged, more, bind, Except.bind] at h
        | ok others =>
          simp only [judged, more, bind, Except.bind, pure, Except.pure, Except.ok.injEq] at h
          subst h
          obtain ⟨spec, cut⟩ := judge_spec judged
          obtain ⟨behind, cuts⟩ := ih more
          simp only [handlersIn] at behind
          refine ⟨?_, by simpa [there] using ⟨cut, cuts⟩⟩
          simp [handlersIn, handlerOf?, there, List.filterMap_cons, spec, behind]

/-- The handlers and pages that a scan has accepted so far, each list apart. -/
def AppScan.handlerEntries (s : AppScan) : List Entry :=
  s.routes.flatMap fun r => r.handlers.map (Entry.handler r.file)

/-- The entries of the accepted pages, in the order in which they were found. -/
def AppScan.pageEntries (s : AppScan) : List Entry := s.pages.map Entry.page

/-- The entry is a handler and no page. -/
def Entry.isHandler : Entry → Bool
  | .handler _ _ => true
  | .page _ => false

/-- Nothing holds the pattern and method of an entry. -/
def AppScan.isFree (s : AppScan) (e : Entry) : Bool := (s.holder? e.file.pattern e.method).isNone

/-- The conflict of an entry with the holder of its pattern and method. -/
def AppScan.clash? (s : AppScan) (e : Entry) : Option Conflict :=
  (s.holder? e.file.pattern e.method).map fun first =>
    ⟨e.file.pattern, e.method, first, e.file.path⟩

@[simp] theorem handlersIn_error (m : Method) (w : Warning)
    (rest : List (Method × Except Warning Source.Function)) :
    handlersIn ((m, .error w) :: rest) = handlersIn rest := rfl

@[simp] theorem handlersIn_ok (m : Method) (function : Source.Function)
    (rest : List (Method × Except Warning Source.Function)) :
    handlersIn ((m, .ok function) :: rest) = ⟨m, function⟩ :: handlersIn rest := rfl

/-- Who holds what does not hang on warnings and conflicts. -/
theorem holder?_congr {s t : AppScan} (routes : t.routes = s.routes) (pages : t.pages = s.pages) :
    t.holder? = s.holder? := by
  funext pattern m
  simp only [AppScan.holder?, AppScan.routeHolder?, AppScan.pageHolder?, routes, pages]

theorem isFree_congr {s t : AppScan} (routes : t.routes = s.routes) (pages : t.pages = s.pages) :
    t.isFree = s.isFree := by
  funext e
  simp only [AppScan.isFree, holder?_congr routes pages]

theorem clash?_congr {s t : AppScan} (routes : t.routes = s.routes) (pages : t.pages = s.pages) :
    t.clash? = s.clash? := by
  funext e
  simp only [AppScan.clash?, holder?_congr routes pages]

theorem settle_spec (file : MarkerFile) (found : List (Method × Except Warning Source.Function))
    (s : AppScan) : ∃ added,
      settle file found s =
        ((handlersIn found).filter fun h => s.isFree (.handler file h),
          { s with
            warnings := s.warnings ++ added
            conflicts := s.conflicts ++
              (handlersIn found).filterMap fun h => s.clash? (.handler file h) }) := by
  induction found generalizing s with
  | nil => exact ⟨[], by simp [settle, handlersIn]⟩
  | cons v rest ih =>
    obtain ⟨m, verdict⟩ := v
    cases verdict with
    | error w =>
      have free : (s.addWarning w).isFree = s.isFree := isFree_congr rfl rfl
      have clash : (s.addWarning w).clash? = s.clash? := clash?_congr rfl rfl
      obtain ⟨added, h⟩ := ih (s.addWarning w)
      refine ⟨w :: added, ?_⟩
      rw [free, clash] at h
      rw [settle, h]
      simp [AppScan.addWarning]
    | ok function =>
      cases held : s.holder? file.pattern m with
      | none =>
        obtain ⟨added, h⟩ := ih s
        refine ⟨added, ?_⟩
        have free : s.isFree (.handler file ⟨m, function⟩) = true := by
          simp [AppScan.isFree, Entry.file, Entry.method, held]
        have calm : s.clash? (.handler file ⟨m, function⟩) = none := by
          simp [AppScan.clash?, Entry.file, Entry.method, held]
        simp [settle, AppScan.claim, held, h, free, calm]
      | some first =>
        have taken : s.isFree (.handler file ⟨m, function⟩) = false := by
          simp [AppScan.isFree, Entry.file, Entry.method, held]
        have clash : s.clash? (.handler file ⟨m, function⟩)
            = some ⟨file.pattern, m, first, file.path⟩ := by
          simp [AppScan.clash?, Entry.file, Entry.method, held]
        let t : AppScan :=
          { s with conflicts := s.conflicts ++ [⟨file.pattern, m, first, file.path⟩] }
        have claimed : s.claim file.pattern m file.path = (false, t) := by
          simp [AppScan.claim, held, t]
        have sameFree : t.isFree = s.isFree := isFree_congr rfl rfl
        have sameClash : t.clash? = s.clash? := clash?_congr rfl rfl
        obtain ⟨added, h⟩ := ih t
        rw [sameFree, sameClash] at h
        refine ⟨added, ?_⟩
        simp [settle, claimed, h, taken, clash, t]

/-- A marker file that was read: its kind, where it lies, and what stands in it. -/
structure Opened where
  kind : Marker
  file : MarkerFile
  source : SourceFile

/-- The marker file that a step of a walk reads, unless it is passed over. -/
def opened? (disk : Volume) (root : Path) : Visit → Option Opened
  | .unroutable _ | .unreadable _ => none
  | .marker kind directories fileName node =>
    let path := (directories ++ [fileName]).foldl Path.joinName root
    if kind = .proxy && !directories.isEmpty then none
    else
      ((contentOf disk path node).toOption.bind fun text => (SourceFile.parse text).toOption).map
        fun source => ⟨kind, ⟨path, directories, fileName, source.imports⟩, source⟩

namespace Opened

/-- The one function that a file gives; a file of handlers gives none. -/
def function? (o : Opened) : Option Source.Function :=
  match o.kind with
  | .route => none
  | .middleware => (o.source.function? "middleware").bind (accepted? o.source .middleware)
  | .loader => (o.source.function? "load").bind (accepted? o.source .loader)
  | .proxy => (o.source.function? "proxy").bind (accepted? o.source .proxy)
  | .page => firstNamed? o.source "page" .page
  | .layout => firstNamed? o.source "layout" .layout

/-- The handlers of a file, in the order of the methods. -/
def handlers (o : Opened) : List RouteHandler :=
  Method.all.filterMap fun m => (handlerOf? o.source m).map (⟨m, ·⟩)

/-- The handlers and pages that a file offers. -/
def offers (o : Opened) : List Entry :=
  match o.kind with
  | .route => o.handlers.map (Entry.handler o.file)
  | .page => (o.function?.map fun function => Entry.page ⟨o.file, function⟩).toList
  | _ => []

/-- The functions that are judged in a file, each by the shape that is asked for. -/
def judged (o : Opened) : List (Contract × FunctionItem) :=
  match o.kind with
  | .route =>
    (Method.all.filterMap fun m => o.source.function? m.handlerName).map (Contract.handler, ·)
  | .middleware => (o.source.function? "middleware").toList.map (Contract.middleware, ·)
  | .loader => (o.source.function? "load").toList.map (Contract.loader, ·)
  | .proxy => (o.source.function? "proxy").toList.map (Contract.proxy, ·)
  | .page => (namedFor o.source "page").map (Contract.page, ·)
  | .layout => (namedFor o.source "layout").map (Contract.layout, ·)

/-- The functions that a file gives when it is of the kind asked for. -/
def gives (o : Opened) (asked : Marker) : List FunctionFile :=
  if o.kind = asked then (o.function?.map (⟨o.file, ·⟩)).toList else []

/-- Adding a file has turned a scan into another one, warnings apart. -/
structure Added (o : Opened) (s t : AppScan) : Prop where
  root : t.root = s.root
  handlers : t.handlerEntries = s.handlerEntries
      ++ (o.offers.filter s.isFree).filter Entry.isHandler
  pages : t.pageEntries = s.pageEntries ++ (o.offers.filter s.isFree).filter (!·.isHandler)
  conflicts : t.conflicts = s.conflicts ++ o.offers.filterMap s.clash?
  middlewares : t.middlewares = s.middlewares ++ o.gives .middleware
  layouts : t.layouts = s.layouts ++ o.gives .layout
  loaders : t.loaders = s.loaders ++ o.gives .loader
  cuts : ∀ q ∈ o.judged, IsCut o.source q.1 q.2

end Opened

theorem filter_isHandler_map (file : MarkerFile) (hs : List RouteHandler) :
    (hs.map (Entry.handler file)).filter Entry.isHandler = hs.map (Entry.handler file) := by
  simp [List.filter_eq_self, Entry.isHandler]

theorem filter_isPage_map (file : MarkerFile) (hs : List RouteHandler) :
    (hs.map (Entry.handler file)).filter (!·.isHandler) = [] := by
  simp [Entry.isHandler]

theorem addRoute_spec {o : Opened} (kind : o.kind = .route) {s t : AppScan}
    (h : addRoute o.file o.source s = .ok t) : o.Added s t := by
  unfold addRoute at h
  cases judged : candidates o.file.path o.source Method.all with
  | error fault => simp [judged, bind, Except.bind] at h
  | ok found =>
    obtain ⟨warned, settled⟩ := settle_spec o.file found s
    obtain ⟨offered, cuts⟩ := candidates_spec judged
    change handlersIn found = o.handlers at offered
    simp only [judged, bind, Except.bind, settled, offered, pure, Except.pure, Except.ok.injEq] at h
    have offers : o.offers = o.handlers.map (Entry.handler o.file) := by simp [Opened.offers, kind]
    have kept : o.offers.filter s.isFree =
        (o.handlers.filter fun h => s.isFree (.handler o.file h)).map (Entry.handler o.file) := by
      rw [offers, List.filter_map]
      rfl
    have accepted : (o.offers.filter s.isFree).filter Entry.isHandler =
        (o.handlers.filter fun h => s.isFree (.handler o.file h)).map (Entry.handler o.file) := by
      rw [kept, filter_isHandler_map]
    have noPage : (o.offers.filter s.isFree).filter (!·.isHandler) = [] := by
      rw [kept, filter_isPage_map]
    have gives (asked : Marker) (other : asked ≠ .route) : o.gives asked = [] := by
      simp [Opened.gives, kind, Ne.symm other]
    have allCut : ∀ q ∈ o.judged, IsCut o.source q.1 q.2 := by
      simp only [Opened.judged, kind, List.mem_map, List.mem_filterMap]
      rintro _ ⟨f, ⟨m, hm, there⟩, rfl⟩
      exact cuts m hm f there
    subst h
    cases found.isEmpty <;>
      cases none' : (o.handlers.filter fun h => s.isFree (.handler o.file h)) <;>
      exact {
        root := by simp [AppScan.warn]
        handlers := by rw [accepted, none']; simp [AppScan.handlerEntries, AppScan.warn]
        pages := by rw [noPage]; simp [AppScan.pageEntries, AppScan.warn]
        conflicts := by simp [offers, List.filterMap_map, AppScan.warn]
        middlewares := by simp [gives, AppScan.warn]
        layouts := by simp [gives, AppScan.warn]
        loaders := by simp [gives, AppScan.warn]
        cuts := allCut }

theorem addPage_spec {o : Opened} (kind : o.kind = .page) {page : FunctionFile}
    (found : o.function?.map (⟨o.file, ·⟩) = some page)
    (cuts : ∀ q ∈ o.judged, IsCut o.source q.1 q.2) (s : AppScan) : o.Added s (addPage page s) := by
  obtain ⟨function, is, rfl⟩ := Option.map_eq_some_iff.1 found
  have offers : o.offers = [Entry.page ⟨o.file, function⟩] := by simp [Opened.offers, kind, is]
  have gives (asked : Marker) (other : asked ≠ .page) : o.gives asked = [] := by
    simp [Opened.gives, kind, Ne.symm other]
  cases held : s.holder? o.file.pattern .get with
  | none =>
    have free : s.isFree (.page ⟨o.file, function⟩) = true := by
      simp [AppScan.isFree, Entry.file, Entry.method, held]
    have calm : s.clash? (.page ⟨o.file, function⟩) = none := by
      simp [AppScan.clash?, Entry.file, Entry.method, held]
    have added : addPage ⟨o.file, function⟩ s =
        { s with pages := s.pages ++ [⟨o.file, function⟩] } := by
      simp [addPage, AppScan.claim, held]
    rw [added]
    exact {
      root := rfl
      handlers := by simp [offers, free, AppScan.handlerEntries, Entry.isHandler]
      pages := by simp [offers, free, AppScan.pageEntries, Entry.isHandler]
      conflicts := by simp [offers, calm]
      middlewares := by simp [gives]
      layouts := by simp [gives]
      loaders := by simp [gives]
      cuts := cuts }
  | some first =>
    have taken : s.isFree (.page ⟨o.file, function⟩) = false := by
      simp [AppScan.isFree, Entry.file, Entry.method, held]
    have clash : s.clash? (.page ⟨o.file, function⟩)
        = some ⟨o.file.pattern, .get, first, o.file.path⟩ := by
      simp [AppScan.clash?, Entry.file, Entry.method, held]
    have added : addPage ⟨o.file, function⟩ s =
        { s with conflicts := s.conflicts ++ [⟨o.file.pattern, .get, first, o.file.path⟩] } := by
      simp [addPage, AppScan.claim, held]
    rw [added]
    exact {
      root := rfl
      handlers := by simp [offers, taken, AppScan.handlerEntries]
      pages := by simp [offers, taken, AppScan.pageEntries]
      conflicts := by simp [offers, clash]
      middlewares := by simp [gives]
      layouts := by simp [gives]
      loaders := by simp [gives]
      cuts := cuts }

/-- Warnings stand apart from all that a file adds. -/
theorem Opened.Added.of_onlyWarned {o : Opened} {s t u : AppScan} (warned : OnlyWarned s t)
    (added : o.Added t u) : o.Added s u := by
  obtain ⟨more, rfl⟩ := warned
  have free : AppScan.isFree { s with warnings := s.warnings ++ more } = s.isFree :=
    isFree_congr rfl rfl
  have clash : AppScan.clash? { s with warnings := s.warnings ++ more } = s.clash? :=
    clash?_congr rfl rfl
  exact {
    root := added.root
    handlers := by rw [added.handlers, free]; rfl
    pages := by rw [added.pages, free]; rfl
    conflicts := by rw [added.conflicts, clash]
    middlewares := added.middlewares
    layouts := added.layouts
    loaders := added.loaders
    cuts := added.cuts }

theorem Opened.Added.of_silent {o : Opened} (silent : o.offers = []) {s t : AppScan}
    (root : t.root = s.root) (routes : t.routes = s.routes) (pages : t.pages = s.pages)
    (conflicts : t.conflicts = s.conflicts)
    (middlewares : t.middlewares = s.middlewares ++ o.gives .middleware)
    (layouts : t.layouts = s.layouts ++ o.gives .layout)
    (loaders : t.loaders = s.loaders ++ o.gives .loader)
    (cuts : ∀ q ∈ o.judged, IsCut o.source q.1 q.2) : o.Added s t where
  root := root
  handlers := by simp [silent, AppScan.handlerEntries, routes]
  pages := by simp [silent, AppScan.pageEntries, pages]
  conflicts := by simp [silent, conflicts]
  middlewares := middlewares
  layouts := layouts
  loaders := loaders
  cuts := cuts

theorem of_single {file : MarkerFile} {source : SourceFile} {name : String} {contract : Contract}
    {s t : AppScan} (put : Option FunctionFile → AppScan → AppScan)
    (h : (do let (found, u) ← single file source name contract s; return put found u) = .ok t) :
    ∃ u, OnlyWarned s u ∧ (∀ f ∈ source.function? name, IsCut source contract f) ∧
      t = put (((source.function? name).bind (accepted? source contract)).map (⟨file, ·⟩)) u := by
  cases ran : single file source name contract s with
  | error fault => simp [ran, bind, Except.bind] at h
  | ok result =>
    obtain ⟨found, u⟩ := result
    obtain ⟨rfl, warned, cuts⟩ := single_spec ran
    simp only [ran, bind, Except.bind, pure, Except.pure, Except.ok.injEq] at h
    exact ⟨u, warned, cuts, h.symm⟩

theorem of_matching {file : MarkerFile} {source : SourceFile} {word : String} {contract : Contract}
    {s t : AppScan} (put : Option FunctionFile → AppScan → AppScan)
    (h : (do let (found, u) ← matching file source word contract s; return put found u) = .ok t) :
    ∃ u, OnlyWarned s u ∧ (∀ f ∈ namedFor source word, IsCut source contract f) ∧
      t = put ((firstNamed? source word contract).map (⟨file, ·⟩)) u := by
  cases ran : matching file source word contract s with
  | error fault => simp [ran, bind, Except.bind] at h
  | ok result =>
    obtain ⟨found, u⟩ := result
    obtain ⟨rfl, warned, cuts⟩ := matching_spec ran
    simp only [ran, bind, Except.bind, pure, Except.pure, Except.ok.injEq] at h
    exact ⟨u, warned, cuts, h.symm⟩

/-- A page file warns and adds the function that is its page, if it has one. -/
theorem addFile_page {file : MarkerFile} {source : SourceFile} {s t : AppScan}
    (h : addFile .page file source s = .ok t) :
    ∃ u, OnlyWarned s u ∧ (∀ f ∈ namedFor source "page", IsCut source .page f) ∧
      t = ((firstNamed? source "page" .page).map (⟨file, ·⟩)).elim u (addPage · u) := by
  rw [addFile] at h
  cases ran : matching file source "page" .page s with
  | error fault => simp [ran, bind, Except.bind] at h
  | ok result =>
    obtain ⟨found, u⟩ := result
    obtain ⟨rfl, warned, cuts⟩ := matching_spec ran
    simp only [ran, bind, Except.bind, pure, Except.pure, Except.ok.injEq] at h
    refine ⟨u, warned, cuts, ?_⟩
    cases first : firstNamed? source "page" .page <;> simpa [first] using h.symm

theorem addFile_spec {o : Opened} {s t : AppScan} (h : addFile o.kind o.file o.source s = .ok t) :
    o.Added s t := by
  cases kind : o.kind with
  | route => exact addRoute_spec kind (by simpa [addFile, kind] using h)
  | middleware =>
    rw [kind, addFile] at h
    obtain ⟨u, warned, cuts, rfl⟩ := of_single
      (fun found u => { u with middlewares := u.middlewares ++ found.toList }) h
    refine Opened.Added.of_onlyWarned warned
      (.of_silent ?_ rfl rfl rfl rfl ?_ ?_ ?_ (by simpa [Opened.judged, kind] using cuts)) <;>
      simp [Opened.offers, Opened.gives, Opened.function?, kind]
  | loader =>
    rw [kind, addFile] at h
    obtain ⟨u, warned, cuts, rfl⟩ := of_single
      (fun found u => { u with loaders := u.loaders ++ found.toList }) h
    refine Opened.Added.of_onlyWarned warned
      (.of_silent ?_ rfl rfl rfl rfl ?_ ?_ ?_ (by simpa [Opened.judged, kind] using cuts)) <;>
      simp [Opened.offers, Opened.gives, Opened.function?, kind]
  | proxy =>
    rw [kind, addFile] at h
    obtain ⟨u, warned, cuts, rfl⟩ :=
      of_single (fun found u => { u with proxy := found <|> u.proxy }) h
    refine Opened.Added.of_onlyWarned warned
      (.of_silent ?_ rfl rfl rfl rfl ?_ ?_ ?_ (by simpa [Opened.judged, kind] using cuts)) <;>
      simp [Opened.offers, Opened.gives, kind]
  | layout =>
    rw [kind, addFile] at h
    obtain ⟨u, warned, cuts, rfl⟩ := of_matching
      (fun found u => { u with layouts := u.layouts ++ found.toList }) h
    refine Opened.Added.of_onlyWarned warned
      (.of_silent ?_ rfl rfl rfl rfl ?_ ?_ ?_ (by simpa [Opened.judged, kind] using cuts)) <;>
      simp [Opened.offers, Opened.gives, Opened.function?, kind]
  | page =>
    rw [kind] at h
    obtain ⟨u, warned, cuts, rfl⟩ := addFile_page h
    have function : o.function? = firstNamed? o.source "page" .page := by
      simp [Opened.function?, kind]
    have allCut : ∀ q ∈ o.judged, IsCut o.source q.1 q.2 := by
      simpa [Opened.judged, kind] using cuts
    refine Opened.Added.of_onlyWarned warned ?_
    rw [← function]
    cases found : o.function? with
    | some f => exact addPage_spec kind (by rw [found]; rfl) allCut u
    | none =>
      refine .of_silent ?_ rfl rfl rfl rfl ?_ ?_ ?_ allCut <;>
        simp [Opened.offers, Opened.gives, kind, found]

/-- A step of a walk adds the file that it reads, or there are only warnings. -/
theorem addVisit_cases {disk : Volume} {s t : AppScan} {v : Visit} (h : addVisit disk s v = .ok t) :
    (opened? disk s.root v = none ∧ OnlyWarned s t) ∨
      ∃ o, opened? disk s.root v = some o ∧ addFile o.kind o.file o.source s = .ok t := by
  cases v with
  | unroutable | unreadable =>
    cases h
    exact .inl ⟨rfl, onlyWarned_warn _ _ _ _⟩
  | marker kind directories fileName node =>
    unfold addVisit at h
    unfold opened?
    dsimp only at h ⊢
    split at h
    · next nested =>
      cases h
      rw [if_pos nested]
      exact .inl ⟨rfl, onlyWarned_warn _ _ _ _⟩
    · next read =>
      rw [if_neg read]
      split at h
      · next fault unread =>
        cases h
        rw [unread]
        exact .inl ⟨rfl, onlyWarned_warn _ _ _ _⟩
      · next text content =>
        rw [content]
        split at h
        · next failure unparsed =>
          cases h
          exact .inl ⟨by simp [unparsed, Except.toOption], onlyWarned_warn _ _ _ _⟩
        · next source parsed =>
          refine .inr ⟨⟨kind, ⟨_, directories, fileName, source.imports⟩, source⟩, ?_, h⟩
          simp [parsed, Except.toOption]

/-- What a step of a walk does: a file that is read is added, and else there are only warnings. -/
theorem addVisit_spec {disk : Volume} {s t : AppScan} {v : Visit} (h : addVisit disk s v = .ok t) :
    match opened? disk s.root v with
    | none => OnlyWarned s t
    | some o => o.Added s t := by
  obtain ⟨unread, warned⟩ | ⟨o, read, added⟩ := addVisit_cases h
  · rw [unread]
    exact warned
  · rw [read]
    exact addFile_spec added

end Waymark.Scan
