import Waymark.Proofs.Scan.Complaints
import Waymark.Proofs.Scan.Origin

/-!
# Every function is accounted for

A function that a marker file asks for is accepted, warned about at its line, or has lost its claim
to another file:

* `found_or_loses`: what is offered is accepted or loses a conflict;
* `accepted_or_complaint`: a function is accepted or complained about;
* `handler_accounted`, `named_accounted`: the functions of files of handlers, of pages and of
  layouts;
* `opened_accounted`, `marker_accounted`: whole files;
* `proxy_below_root`: the proxies that are not honoured.
-/

namespace Waymark.Scan

open Waymark.Disk (Volume Path Name Node)
open Waymark.Http (Method)
open Waymark.Source (SourceFile FunctionItem)

/-- A scan warns about a line of a file. -/
def AppScan.WarnsAt (s : AppScan) (path : Path) (line : Nat) : Prop :=
  ∃ w ∈ s.warnings, w.path = path ∧ w.line = some line

/-- An entry is the losing side of a conflict. -/
def AppScan.Loses (s : AppScan) (e : Entry) : Prop :=
  ∃ c ∈ s.conflicts, c.pattern = e.file.pattern ∧ c.method = e.method ∧ c.second = e.file.path

/-- Something of a file was accepted. -/
def AppScan.Keeps (s : AppScan) (path : Path) : Prop :=
  (∃ e ∈ s.found, e.file.path = path) ∨
    ∃ g ∈ s.middlewares ++ s.layouts ++ s.loaders ++ s.proxy.toList, g.file.path = path

/-- A candidate is the first of its claim or loses to it. -/
theorem mem_firsts_or_clashes {es : List Entry} {e : Entry} (h : e ∈ es) :
    e ∈ firsts es ∨ ∃ holder : Entry, holder.conflict e ∈ clashes es := by
  induction es using List.reverseRecOn with
  | nil => cases h
  | append_singleton es last ih =>
    rw [firsts_concat, clashes_concat]
    obtain before | here := List.mem_append.1 h
    · obtain first | ⟨holder, lost⟩ := ih before
      · exact .inl (List.mem_append_left _ first)
      · exact .inr ⟨holder, List.mem_append_left _ lost⟩
    · obtain rfl := List.mem_singleton.1 here
      cases earlier : claimant? es e.claim with
      | none => exact .inl (by simp)
      | some holder => exact .inr ⟨holder, by simp⟩

section
variable {disk : Volume} {root : Path} {app : Node} {s : AppScan}

/-- What a file offers is accepted or loses a conflict. -/
theorem found_or_loses (there : disk.resolve root = .ok app) (scanned : scan disk root = .ok s)
    {o : Opened} (read : o ∈ openedIn disk root app) {e : Entry} (offered : e ∈ o.offers) :
    e ∈ s.found ∨ s.Loses e := by
  obtain first | ⟨holder, lost⟩ := mem_firsts_or_clashes (List.mem_flatMap.2 ⟨o, read, offered⟩)
  · exact .inl ((mem_found_iff there scanned e).2 first)
  · rw [← offeredIn, ← (scan_holds there scanned).conflicts] at lost
    exact .inr ⟨_, lost, rfl, rfl, rfl⟩

theorem complaintsOf_of_opened? {v : Visit} {o : Opened} (h : opened? disk root v = some o) :
    complaintsOf disk root v = o.complaints := by
  cases v with
  | unroutable | unreadable => cases h
  | marker kind directories fileName node =>
    unfold opened? at h
    unfold complaintsOf
    dsimp only at h ⊢
    split at h
    · cases h
    · next read =>
      rw [if_neg read]
      generalize (directories ++ [fileName]).foldl Path.joinName root = path at h ⊢
      cases content : contentOf disk path node with
      | error fault =>
        rw [content] at h
        cases h
      | ok text =>
        cases parsed : SourceFile.parse text with
        | error failure =>
          simp only [content, Except.toOption, Option.bind_some, parsed] at h
          cases h
        | ok source =>
          simp only [content, Except.toOption, Option.bind_some, parsed, Option.map_some,
            Option.some.injEq] at h
          subst h
          simp only [parsed]

/-- A scan warns of all that is to be complained about in the files that it reads. -/
theorem complaints_subset (there : disk.resolve root = .ok app) (scanned : scan disk root = .ok s)
    {o : Opened} (read : o ∈ openedIn disk root app) : o.complaints ⊆ s.warnings := by
  obtain ⟨v, met, opened⟩ := List.mem_filterMap.1 read
  rw [scan_warnings there scanned, ← complaintsOf_of_opened? opened]
  exact fun w hw => List.mem_append_left _ (List.mem_flatMap.2 ⟨v, met, hw⟩)

/-- A function whose text can be cut out is accepted or complained about. -/
theorem accepted_or_complaint {source : SourceFile} {contract : Contract} {f : FunctionItem}
    (cut : IsCut source contract f) (path : Path) :
    (∃ function, accepted? source contract f = some function) ∨
      ∃ w, complaint? path contract f = some w := by
  cases admitted : contract.admits f with
  | true =>
    left
    have extracted := cut admitted
    unfold accepted?
    rw [if_pos admitted]
    cases given : source.extract f with
    | ok function => exact ⟨function, rfl⟩
    | error fault => simp [given, Except.isOk, Except.toBool] at extracted
  | false =>
    right
    unfold complaint?
    split
    · next exported =>
      split
      · exact ⟨_, rfl⟩
      · next agrees =>
          simp [Contract.admits, exported, agrees, Except.isOk, Except.toBool] at admitted
    · exact ⟨_, rfl⟩

/-- The functions of a file can be cut out where they are to be accepted. -/
theorem isCut_of_judged (there : disk.resolve root = .ok app) (scanned : scan disk root = .ok s)
    {o : Opened} (read : o ∈ openedIn disk root app) {contract : Contract} {f : FunctionItem}
    (judged : (contract, f) ∈ o.judged) : IsCut o.source contract f :=
  (scan_adds there scanned).cuts o read (contract, f) judged

theorem mem_answering {source : SourceFile} {m : Method} {f : FunctionItem}
    (found : source.function? m.handlerName = some f) : f ∈ answering source :=
  List.mem_filterMap.2 ⟨m, by cases m <;> decide, found⟩

/-- The first function of a file of handlers that has the name of a method is accepted, warned about
at its line, or loses to another file. -/
theorem handler_accounted (there : disk.resolve root = .ok app) (scanned : scan disk root = .ok s)
    {o : Opened} (read : o ∈ openedIn disk root app) (kind : o.kind = .route) {m : Method}
    {f : FunctionItem} (found : o.source.function? m.handlerName = some f) :
    (∃ function, accepted? o.source .handler f = some function ∧
      (Entry.handler o.file ⟨m, function⟩ ∈ s.found ∨ s.Loses (.handler o.file ⟨m, function⟩))) ∨
    s.WarnsAt o.file.path (lineOf f) := by
  have judged : (Contract.handler, f) ∈ o.judged := by
    simp only [Opened.judged, kind]
    exact List.mem_map_of_mem (mem_answering found)
  obtain ⟨function, kept⟩ | ⟨w, warned⟩ :=
    accepted_or_complaint (isCut_of_judged there scanned read judged) o.file.path
  · left
    have handled : handlerOf? o.source m =
        some function := by rw [handlerOf?, found, Option.bind_some, kept]
    have among : RouteHandler.mk m function ∈ o.handlers :=
      List.mem_filterMap.2 ⟨m, by cases m <;> decide, by rw [handled]; rfl⟩
    refine ⟨function, kept, found_or_loses there scanned read ?_⟩
    simp only [Opened.offers, kind]
    exact List.mem_map_of_mem among
  · right
    refine ⟨w, complaints_subset there scanned read ?_, eq_of_complaint? warned⟩
    simp only [Opened.complaints, kind]
    exact List.mem_append_left _ (List.mem_filterMap.2 ⟨f, mem_answering found, warned⟩)

/-- The function that a file gives for a word: of those whose names follow the rule, the first that
is accepted. -/
def chosen? (source : SourceFile) (word : String) (contract : Contract) : Option FunctionItem :=
  (namedFor source word).find? fun f => (accepted? source contract f).isSome

/-- The text that a file gives for a word is that of the chosen function. -/
theorem firstNamed?_of_chosen? {source : SourceFile} {word : String} {contract : Contract}
    {f : FunctionItem} {function : Source.Function} (chosen : chosen? source word contract = some f)
    (kept : accepted? source contract f = some function) :
    firstNamed? source word contract = some function := by
  obtain ⟨-, before, behind, split, passed⟩ := List.find?_eq_some_iff_append.1 chosen
  have refused : before.findSome? (accepted? source contract) = none := by
    rw [List.findSome?_eq_none_iff]
    intro g hg
    simpa using passed g hg
  rw [firstNamed?, split, List.findSome?_append, refused, Option.none_or, List.findSome?_cons, kept]

/-- Of some functions the first that is accepted is kept, and about every other one there is a
warning. -/
theorem overruled_accounted {source : SourceFile} {contract : Contract} {fs : List FunctionItem}
    (cuts : ∀ f ∈ fs, IsCut source contract f) (path : Path) (found : Option Source.Function)
    {f : FunctionItem} (among : f ∈ fs) :
    (found = none ∧ fs.find? (fun g => (accepted? source contract g).isSome) = some f) ∨
    ∃ w ∈ overruled path source contract found fs, w.path = path ∧ w.line = some (lineOf f) := by
  induction fs generalizing found with
  | nil => cases among
  | cons g rest ih =>
    have later := ih fun h mem => cuts h (List.mem_cons_of_mem g mem)
    cases kept : accepted? source contract g with
    | none =>
      simp only [overruled, kept]
      obtain rfl | behind := List.mem_cons.1 among
      · obtain ⟨function, other⟩ | ⟨w, warned⟩ := accepted_or_complaint (cuts f (by simp)) path
        · rw [kept] at other
          cases other
        · exact .inr ⟨w, by simp [warned], eq_of_complaint? warned⟩
      · obtain ⟨none', first⟩ | ⟨w, warned, about⟩ := later found behind
        · exact .inl ⟨none', by rwa [List.find?_cons_of_neg (by simp [kept])]⟩
        · exact .inr ⟨w, List.mem_append_right _ warned, about⟩
    | some function =>
      cases found with
      | none =>
        simp only [overruled, kept]
        obtain rfl | behind := List.mem_cons.1 among
        · exact .inl ⟨trivial, List.find?_cons_of_pos (by simp [kept])⟩
        · obtain ⟨none', -⟩ | warned := later (some function) behind
          · cases none'
          · exact .inr warned
      | some first =>
        simp only [overruled, kept]
        obtain rfl | behind := List.mem_cons.1 among
        · exact .inr ⟨_, List.mem_cons_self, rfl, congrArg some (eq_of_accepted? kept).2⟩
        · obtain ⟨none', -⟩ | ⟨w, warned, about⟩ := later (some first) behind
          · cases none'
          · exact .inr ⟨w, List.mem_cons_of_mem _ warned, about⟩

/-- A function whose name follows the rule for a word is the one that is taken, or warned about. -/
theorem noneOr_accounted {source : SourceFile} {word : String} {contract : Contract}
    (cuts : ∀ f ∈ namedFor source word, IsCut source contract f) (path : Path) {f : FunctionItem}
    (named : f ∈ namedFor source word) :
    chosen? source word contract = some f ∨
    ∃ w ∈ noneOr path source word contract, w.path = path ∧ w.line = some (lineOf f) := by
  obtain ⟨-, kept⟩ | ⟨w, warned, about⟩ := overruled_accounted cuts path none named
  · exact .inl kept
  · exact .inr ⟨w, List.mem_append_left _ warned, about⟩

/-- A function of a page or a layout whose name follows the rule for its kind is the one that is
taken, or warned about at its line. -/
theorem named_accounted (there : disk.resolve root = .ok app) (scanned : scan disk root = .ok s)
    {o : Opened} (read : o ∈ openedIn disk root app) {word : String} {contract : Contract}
    (judged : ∀ f ∈ namedFor o.source word, (contract, f) ∈ o.judged)
    (complaints : o.complaints = noneOr o.file.path o.source word contract)
    {f : FunctionItem} (named : f ∈ namedFor o.source word) :
    (chosen? o.source word contract = some f ∧
      ∃ function, accepted? o.source contract f = some function) ∨
      s.WarnsAt o.file.path (lineOf f) := by
  have cuts : ∀ f ∈ namedFor o.source word, IsCut o.source contract f := fun f mem =>
    isCut_of_judged there scanned read (judged f mem)
  obtain chosen | ⟨w, warned, about⟩ := noneOr_accounted cuts o.file.path named
  · exact .inl ⟨chosen, Option.isSome_iff_exists.1 (List.find?_eq_some_iff_append.1 chosen).1⟩
  · rw [← complaints] at warned
    exact .inr ⟨w, complaints_subset there scanned read warned, about⟩

/-- The functions of a page: the chosen one, and no other, renders the page or loses to another
file; every other one is warned about. -/
theorem page_accounted (there : disk.resolve root = .ok app) (scanned : scan disk root = .ok s)
    {o : Opened} (read : o ∈ openedIn disk root app) (kind : o.kind = .page) {f : FunctionItem}
    (named : f ∈ namedFor o.source "page") :
    (chosen? o.source "page" .page = some f ∧
      ∃ function, accepted? o.source .page f = some function ∧
      (⟨o.file, function⟩ ∈ s.pages ∨ s.Loses (.page ⟨o.file, function⟩))) ∨
    s.WarnsAt o.file.path (lineOf f) := by
  have judged : ∀ f ∈ namedFor o.source "page", (Contract.page, f) ∈ o.judged := by
    simp only [Opened.judged, kind]
    exact fun f mem => List.mem_map_of_mem mem
  have complaints : o.complaints = noneOr o.file.path o.source "page" .page := by
    simp only [Opened.complaints, kind]
  obtain ⟨chosen, function, kept⟩ | warned :=
    named_accounted there scanned read judged complaints named
  · refine .inl ⟨chosen, function, kept, ?_⟩
    have offered : Entry.page ⟨o.file, function⟩ ∈ o.offers := by
      simp [Opened.offers, Opened.function?, kind, firstNamed?_of_chosen? chosen kept]
    refine (found_or_loses there scanned read offered).imp (fun found => ?_) id
    simpa [AppScan.found] using found
  · exact .inr warned

/-- The functions of a layout. -/
theorem layout_accounted (there : disk.resolve root = .ok app) (scanned : scan disk root = .ok s)
    {o : Opened} (read : o ∈ openedIn disk root app) (kind : o.kind = .layout) {f : FunctionItem}
    (named : f ∈ namedFor o.source "layout") :
    (chosen? o.source "layout" .layout = some f ∧
      ∃ function, accepted? o.source .layout f = some function ∧
      ⟨o.file, function⟩ ∈ s.layouts) ∨
    s.WarnsAt o.file.path (lineOf f) := by
  have judged : ∀ f ∈ namedFor o.source "layout", (Contract.layout, f) ∈ o.judged := by
    simp only [Opened.judged, kind]
    exact fun f mem => List.mem_map_of_mem mem
  have complaints : o.complaints = noneOr o.file.path o.source "layout" .layout := by
    simp only [Opened.complaints, kind]
  obtain ⟨chosen, function, kept⟩ | warned :=
    named_accounted there scanned read judged complaints named
  · refine .inl ⟨chosen, function, kept, ?_⟩
    rw [(scan_adds there scanned).layouts]
    refine List.mem_append_right _ (List.mem_flatMap.2 ⟨o, read, ?_⟩)
    simp [Opened.gives, Opened.function?, kind, firstNamed?_of_chosen? chosen kept]
  · exact .inr warned

/-- Only the proxy at the top is read. -/
theorem directories_of_proxy {o : Opened} (read : o ∈ openedIn disk root app)
    (kind : o.kind = .proxy) :
    o.file.directories = [] := by
  obtain ⟨v, -, opened⟩ := List.mem_filterMap.1 read
  cases v with
  | unroutable | unreadable => cases opened
  | marker k directories fileName node =>
    unfold opened? at opened
    dsimp only at opened
    split at opened
    · cases opened
    · next top =>
      obtain ⟨source, -, rfl⟩ := Option.map_eq_some_iff.1 opened
      obtain rfl : k = .proxy := kind
      simpa using top

/-- The proxy that a file gives is that of the scan, for there is one at most. -/
theorem proxy_eq (there : disk.resolve root = .ok app) (tree : app.Named IsTextName)
    (scanned : scan disk root = .ok s) {g : FunctionFile}
    (given : g ∈ givenBy .proxy (openedIn disk root app)) : s.proxy = some g := by
  have top {h : FunctionFile} (mem : h ∈ givenBy .proxy (openedIn disk root app)) :
      h.file.directories = [] := by
    obtain ⟨o, read, gives⟩ := List.mem_flatMap.1 mem
    obtain ⟨kind, file⟩ := file_of_mem_gives gives
    rw [file]
    exact directories_of_proxy read kind
  rw [scan_proxy there scanned]
  cases last : (givenBy .proxy (openedIn disk root app)).getLast? with
  | none =>
    rw [List.getLast?_eq_none_iff] at last
    rw [last] at given
    cases given
  | some h =>
    have mem := List.mem_of_getLast? last
    rw [List.inj_on_of_nodup_map (givenBy_directories_nodup tree .proxy) mem given
      ((top mem).trans (top given).symm)]

/-- Something of a file is accepted, or the scan warns about it, or it loses a conflict. -/
def AppScan.Accounts (s : AppScan) (path : Path) : Prop :=
  s.Keeps path ∨ (∃ w ∈ s.warnings, w.path = path) ∨ ∃ c ∈ s.conflicts, c.second = path

theorem AppScan.WarnsAt.accounts {path : Path} {line : Nat} (warned : s.WarnsAt path line) :
    s.Accounts path := by
  obtain ⟨w, mem, about, -⟩ := warned
  exact .inr (.inl ⟨w, mem, about⟩)

theorem AppScan.Loses.accounts {e : Entry} (lost : s.Loses e) : s.Accounts e.file.path := by
  obtain ⟨c, mem, -, -, second⟩ := lost
  exact .inr (.inr ⟨c, mem, second⟩)

/-- A function that a file gives is kept. -/
theorem keeps_of_function? (there : disk.resolve root = .ok app) (tree : app.Named IsTextName)
    (scanned : scan disk root = .ok s) {o : Opened} (read : o ∈ openedIn disk root app)
    {function : Source.Function} (given : o.function? = some function) (other : o.kind ≠ .page) :
    s.Keeps o.file.path := by
  have adds := scan_adds there scanned
  have mem : ⟨o.file, function⟩ ∈ givenBy o.kind (openedIn disk root app) :=
    List.mem_flatMap.2 ⟨o, read, by simp [Opened.gives, given]⟩
  refine .inr ⟨⟨o.file, function⟩, ?_, rfl⟩
  simp only [List.mem_append, or_assoc]
  cases kind : o.kind with
  | route => simp [Opened.function?, kind] at given
  | page => exact absurd kind other
  | middleware =>
    rw [kind] at mem
    exact .inl (by rw [adds.middlewares]; exact List.mem_append_right _ mem)
  | layout =>
    rw [kind] at mem
    exact .inr (.inl (by rw [adds.layouts]; exact List.mem_append_right _ mem))
  | loader =>
    rw [kind] at mem
    exact .inr (.inr (.inl (by rw [adds.loaders]; exact List.mem_append_right _ mem)))
  | proxy =>
    rw [kind] at mem
    exact .inr (.inr (.inr (by simp [proxy_eq there tree scanned mem])))

/-- A file that has to give one function under a fixed name gives it, or there is a warning. -/
theorem missingOr_accounted {source : SourceFile} {name : String} {contract : Contract}
    (cuts : ∀ f ∈ source.function? name, IsCut source contract f) (path : Path) :
    (∃ function, (source.function? name).bind (accepted? source contract) = some function) ∨
      ∃ w ∈ missingOr path source name contract, w.path = path := by
  unfold missingOr
  cases found : source.function? name with
  | none => exact .inr ⟨_, List.mem_singleton_self _, rfl⟩
  | some f =>
    obtain ⟨function, kept⟩ | ⟨w, warned⟩ := accepted_or_complaint (cuts f found) path
    · exact .inl ⟨function, by rw [Option.bind_some, kept]⟩
    · exact .inr ⟨w, by simp [warned], (eq_of_complaint? warned).1⟩

/-- Every file that a walk has read is accounted for. -/
theorem opened_accounted (there : disk.resolve root = .ok app) (tree : app.Named IsTextName)
    (scanned : scan disk root = .ok s) {o : Opened} (read : o ∈ openedIn disk root app) :
    s.Accounts o.file.path := by
  have complained {w : Warning} (mem : w ∈ o.complaints) (about : w.path = o.file.path) :
      s.Accounts o.file.path := .inr (.inl ⟨w, complaints_subset there scanned read mem, about⟩)
  have fixed {name : String} {contract : Contract} (other : o.kind ≠ .page)
      (function : o.function? = (o.source.function? name).bind (accepted? o.source contract))
      (judged : ∀ f ∈ o.source.function? name, (contract, f) ∈ o.judged)
      (complaints : o.complaints = missingOr o.file.path o.source name contract) :
      s.Accounts o.file.path := by
    obtain ⟨given, kept⟩ | ⟨w, mem, about⟩ := missingOr_accounted
      (fun f found => isCut_of_judged there scanned read (judged f found)) o.file.path
    · exact .inl (keeps_of_function? there tree scanned read (function.trans kept) other)
    · exact complained (by rw [complaints]; exact mem) about
  cases kind : o.kind with
  | route =>
    cases functions : answering o.source with
    | nil =>
      exact complained (w := ⟨o.file.path, none, .noHandler⟩)
        (by simp [Opened.complaints, kind, functions]) rfl
    | cons f rest =>
      have first : f ∈ answering o.source := by simp [functions]
      obtain ⟨m, -, found⟩ := List.mem_filterMap.1 first
      obtain ⟨function, -, accepted | lost⟩ | warned :=
        handler_accounted there scanned read kind found
      · exact .inl (.inl ⟨_, accepted, rfl⟩)
      · exact lost.accounts
      · exact warned.accounts
  | middleware =>
    exact @fixed "middleware" .middleware (by simp [kind]) (by simp [Opened.function?, kind])
      (by simp [Opened.judged, kind]) (by simp [Opened.complaints, kind])
  | loader =>
    exact @fixed "load" .loader (by simp [kind]) (by simp [Opened.function?, kind])
      (by simp [Opened.judged, kind]) (by simp [Opened.complaints, kind])
  | proxy =>
    exact @fixed "proxy" .proxy (by simp [kind]) (by simp [Opened.function?, kind])
      (by simp [Opened.judged, kind]) (by simp [Opened.complaints, kind])
  | page =>
    cases functions : namedFor o.source "page" with
    | nil =>
      exact complained (w := ⟨o.file.path, none, .noneNamed "page"⟩)
        (by simp [Opened.complaints, kind, noneOr, functions]) rfl
    | cons f rest =>
      have named : f ∈ namedFor o.source "page" := by simp [functions]
      obtain ⟨-, function, -, accepted | lost⟩ | warned :=
        page_accounted there scanned read kind named
      · exact .inl (.inl ⟨.page ⟨o.file, function⟩, by simpa [AppScan.found] using accepted, rfl⟩)
      · exact lost.accounts
      · exact warned.accounts
  | layout =>
    cases functions : namedFor o.source "layout" with
    | nil =>
      exact complained (w := ⟨o.file.path, none, .noneNamed "layout"⟩)
        (by simp [Opened.complaints, kind, noneOr, functions]) rfl
    | cons f rest =>
      have named : f ∈ namedFor o.source "layout" := by simp [functions]
      obtain ⟨-, function, -, accepted⟩ | warned := layout_accounted there scanned read kind named
      · exact .inl (.inr ⟨⟨o.file, function⟩, by simp [accepted], rfl⟩)
      · exact warned.accounts

/-- The path of what a walk meets. -/
def pathOf (root : Path) (directories : List Name) (fileName : Name) : Path :=
  (directories ++ [fileName]).foldl Path.joinName root

/-- A marker file is read or complained about. -/
theorem opened_or_complaint (disk : Volume) (root : Path) (kind : Marker) (directories : List Name)
    (fileName : Name) (node : Node) :
    (∃ o, opened? disk root (.marker kind directories fileName node) = some o ∧
      o.file.path = pathOf root directories fileName) ∨
    ∃ w ∈ complaintsOf disk root (.marker kind directories fileName node),
      w.path = pathOf root directories fileName := by
  unfold opened? complaintsOf
  dsimp only
  split
  · exact .inr ⟨_, List.mem_singleton_self _, rfl⟩
  · rw [← pathOf]
    cases content : contentOf disk (pathOf root directories fileName) node with
    | error fault => exact .inr ⟨_, List.mem_singleton_self _, rfl⟩
    | ok text =>
      cases parsed : SourceFile.parse text with
      | error failure =>
        simp only [parsed]
        exact .inr ⟨_, List.mem_singleton_self _, rfl⟩
      | ok source =>
        left
        simp only [Except.toOption, Option.bind_some, parsed, Option.map_some]
        exact ⟨_, rfl, rfl⟩

/-- Every marker file that a walk meets is accounted for. -/
theorem marker_accounted (there : disk.resolve root = .ok app) (tree : app.Named IsTextName)
    (scanned : scan disk root = .ok s) {kind : Marker} {directories : List Name} {fileName : Name}
    {node : Node} (met : .marker kind directories fileName node ∈ visits app) :
    s.Accounts (pathOf root directories fileName) := by
  obtain ⟨o, opened, path⟩ | ⟨w, mem, about⟩ :=
    opened_or_complaint disk root kind directories fileName node
  · rw [← path]
    exact opened_accounted there tree scanned (List.mem_filterMap.2 ⟨_, met, opened⟩)
  · refine .inr (.inl ⟨w, ?_, about⟩)
    rw [scan_warnings there scanned]
    exact List.mem_append_left _ (List.mem_flatMap.2 ⟨_, met, mem⟩)

/-- A proxy below the top is warned about, and no proxy. -/
theorem proxy_below_root (there : disk.resolve root = .ok app) (scanned : scan disk root = .ok s)
    {directories : List Name} {fileName : Name} {node : Node}
    (met : .marker .proxy directories fileName node ∈ visits app) (below : directories ≠ []) :
    ⟨pathOf root directories fileName, none, .nestedProxy⟩ ∈ s.warnings ∧
      ∀ p, s.proxy = some p → p.file.directories = [] := by
  constructor
  · rw [scan_warnings there scanned]
    refine List.mem_append_left _ (List.mem_flatMap.2 ⟨_, met, ?_⟩)
    simp [complaintsOf, pathOf, below]
  · intro p set
    obtain ⟨o, read, gives⟩ := List.mem_flatMap.1 (proxy_mem there scanned set)
    obtain ⟨kind, file⟩ := file_of_mem_gives gives
    rw [file]
    exact directories_of_proxy read kind

end

end Waymark.Scan
