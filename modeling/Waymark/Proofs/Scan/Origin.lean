import Waymark.Proofs.Scan.Address

/-!
# Where accepted functions come from

Every function that a scan keeps stands in a marker file that its walk has read, and it was accepted
there.

* `Opened.Holds`: a function of a file that was read;
* `proxy_of_addFile`, `proxy_mem`: the proxy of a scan is what a file gives;
* `exists_of_mem_found`, `exists_of_mem_givenBy`: the file of an accepted function.
-/

namespace Waymark.Scan

open Waymark.Disk (Volume Path Name Node)
open Waymark.Source (SourceFile FunctionItem)

/-- A function was accepted in a file that was read. -/
structure Opened.Holds (o : Opened) (file : MarkerFile) (function : Source.Function) : Prop where
  file : file = o.file
  accepted : ∃ contract, ∃ f ∈ o.source.functions, accepted? o.source contract f = some function

theorem mem_functions_of_function? {source : SourceFile} {name : String} {f : FunctionItem}
    (h : source.function? name = some f) : f ∈ source.functions :=
  List.mem_of_find?_eq_some h

section
variable {o : Opened} {function : Source.Function}

theorem holds_of_handlerOf? {m : Http.Method} (h : handlerOf? o.source m = some function) :
    o.Holds o.file function := by
  obtain ⟨f, named, accepted⟩ := Option.bind_eq_some_iff.1 h
  exact ⟨rfl, .handler, f, mem_functions_of_function? named, accepted⟩

theorem holds_of_firstNamed? {word : String} {contract : Contract}
    (h : firstNamed? o.source word contract = some function) : o.Holds o.file function := by
  obtain ⟨before, f, behind, split, accepted, -⟩ := List.findSome?_eq_some_iff.1 h
  have among : f ∈ namedFor o.source word := by
    rw [split]
    simp
  exact ⟨rfl, contract, f, (List.mem_filter.1 among).1, accepted⟩

theorem holds_of_function? (h : o.function? = some function) : o.Holds o.file function := by
  have named {name : String} {contract : Contract}
      (h : (o.source.function? name).bind (accepted? o.source contract) = some function) :
      o.Holds o.file function := by
    obtain ⟨f, found, accepted⟩ := Option.bind_eq_some_iff.1 h
    exact ⟨rfl, contract, f, mem_functions_of_function? found, accepted⟩
  unfold Opened.function? at h
  split at h
  · cases h
  · exact named h
  · exact named h
  · exact named h
  · exact holds_of_firstNamed? h
  · exact holds_of_firstNamed? h

theorem holds_of_mem_gives {asked : Marker} {g : FunctionFile} (h : g ∈ o.gives asked) :
    o.Holds g.file g.function := by
  unfold Opened.gives at h
  split at h
  · rw [Option.mem_toList] at h
    obtain ⟨function, found, rfl⟩ := Option.map_eq_some_iff.1 h
    exact holds_of_function? found
  · cases h

theorem holds_of_mem_offers {file : MarkerFile} {h : RouteHandler}
    (offered : Entry.handler file h ∈ o.offers) : o.Holds file h.function := by
  unfold Opened.offers at offered
  split at offered
  · obtain ⟨h', among, same⟩ := List.mem_map.1 offered
    cases same
    obtain ⟨m, -, found⟩ := List.mem_filterMap.1 among
    obtain ⟨function, handled, rfl⟩ := Option.map_eq_some_iff.1 found
    exact holds_of_handlerOf? handled
  · rw [Option.mem_toList] at offered
    obtain ⟨_, -, other⟩ := Option.map_eq_some_iff.1 offered
    cases other
  · cases offered

end

/-- Adding a file keeps the proxy or sets the one that the file gives. -/
theorem proxy_of_addFile {o : Opened} {s t : AppScan}
    (h : addFile o.kind o.file o.source s = .ok t) :
    t.proxy = (o.gives .proxy).head?.or s.proxy := by
  have other (none' : o.kind ≠ .proxy) : o.gives .proxy = [] := if_neg none'
  cases kind : o.kind with
  | route =>
    rw [other (by simp [kind])]
    rw [kind, addFile] at h
    unfold addRoute at h
    cases judged : candidates o.file.path o.source Http.Method.all with
    | error fault => simp [judged, bind, Except.bind] at h
    | ok found =>
      obtain ⟨warned, settled⟩ := settle_spec o.file found s
      simp only [judged, bind, Except.bind, settled, pure, Except.pure, Except.ok.injEq] at h
      subst h
      split <;> split <;> rfl
  | middleware =>
    rw [other (by simp [kind])]
    rw [kind, addFile] at h
    obtain ⟨u, ⟨_, rfl⟩, -, rfl⟩ := of_single
      (fun found u => { u with middlewares := u.middlewares ++ found.toList }) h
    rfl
  | loader =>
    rw [other (by simp [kind])]
    rw [kind, addFile] at h
    obtain ⟨u, ⟨_, rfl⟩, -, rfl⟩ := of_single
      (fun found u => { u with loaders := u.loaders ++ found.toList }) h
    rfl
  | proxy =>
    rw [kind, addFile] at h
    obtain ⟨u, ⟨_, rfl⟩, -, rfl⟩ :=
      of_single (fun found u => { u with proxy := found <|> u.proxy }) h
    have given : (o.gives .proxy).head? = ((o.source.function? "proxy").bind
        (accepted? o.source .proxy)).map (FunctionFile.mk o.file ·) := by
      simp [Opened.gives, Opened.function?, kind]
    rw [given]
    exact Option.orElse_eq_or
  | layout =>
    rw [other (by simp [kind])]
    rw [kind, addFile] at h
    obtain ⟨u, ⟨_, rfl⟩, -, rfl⟩ := of_matching
      (fun found u => { u with layouts := u.layouts ++ found.toList }) h
    rfl
  | page =>
    rw [other (by simp [kind])]
    rw [kind] at h
    obtain ⟨u, ⟨_, rfl⟩, -, rfl⟩ := addFile_page h
    cases (firstNamed? o.source "page" .page).map (FunctionFile.mk o.file ·) with
    | none => rfl
    | some page =>
      unfold Option.elim addPage AppScan.claim
      dsimp only
      split <;> rfl

theorem routes_addPage (page : FunctionFile) (s : AppScan) :
    (addPage page s).routes = s.routes := by
  unfold addPage AppScan.claim
  dsimp only
  split <;> rfl

/-- Adding a file adds no files of handlers but this one. -/
theorem routes_of_addFile {o : Opened} {s t : AppScan}
    (h : addFile o.kind o.file o.source s = .ok t)
    {r : RouteFile} (mem : r ∈ t.routes) : r ∈ s.routes ∨ r.file = o.file := by
  cases kind : o.kind with
  | route =>
    rw [kind, addFile] at h
    unfold addRoute at h
    cases judged : candidates o.file.path o.source Http.Method.all with
    | error fault => simp [judged, bind, Except.bind] at h
    | ok found =>
      obtain ⟨warned, settled⟩ := settle_spec o.file found s
      simp only [judged, bind, Except.bind, settled, pure, Except.pure, Except.ok.injEq] at h
      have same : t.routes = s.routes ∨
          ∃ handlers, t.routes = s.routes ++ [⟨o.file, handlers⟩] := by
        subst h
        split <;> split
        · exact .inl rfl
        · exact .inl rfl
        · exact .inr ⟨_, rfl⟩
        · exact .inr ⟨_, rfl⟩
      obtain same | ⟨handlers, same⟩ := same
      · exact .inl (same ▸ mem)
      · rw [same, List.mem_append, List.mem_singleton] at mem
        exact mem.imp_right fun here => congrArg RouteFile.file here
  | middleware =>
    rw [kind, addFile] at h
    obtain ⟨u, ⟨_, rfl⟩, -, rfl⟩ := of_single
      (fun found u => { u with middlewares := u.middlewares ++ found.toList }) h
    exact .inl mem
  | loader =>
    rw [kind, addFile] at h
    obtain ⟨u, ⟨_, rfl⟩, -, rfl⟩ := of_single
      (fun found u => { u with loaders := u.loaders ++ found.toList }) h
    exact .inl mem
  | proxy =>
    rw [kind, addFile] at h
    obtain ⟨u, ⟨_, rfl⟩, -, rfl⟩ :=
      of_single (fun found u => { u with proxy := found <|> u.proxy }) h
    exact .inl mem
  | layout =>
    rw [kind, addFile] at h
    obtain ⟨u, ⟨_, rfl⟩, -, rfl⟩ := of_matching
      (fun found u => { u with layouts := u.layouts ++ found.toList }) h
    exact .inl mem
  | page =>
    rw [kind] at h
    obtain ⟨u, ⟨_, rfl⟩, -, rfl⟩ := addFile_page h
    left
    cases given : (firstNamed? o.source "page" .page).map (FunctionFile.mk o.file ·) with
    | none => simpa [given] using mem
    | some page =>
      rw [given, Option.elim_some, routes_addPage] at mem
      exact mem

/-- The files of handlers of a walk are among those that it reads. -/
theorem routes_of_foldlM {disk : Volume} {vs : List Visit} {s t : AppScan}
    (h : vs.foldlM (addVisit disk) s = .ok t) {r : RouteFile} (mem : r ∈ t.routes) :
    r ∈ s.routes ∨ ∃ o ∈ vs.filterMap (opened? disk s.root), r.file = o.file := by
  induction vs generalizing s with
  | nil =>
    cases h
    exact .inl mem
  | cons v rest ih =>
    rw [List.foldlM_cons] at h
    cases step : addVisit disk s v with
    | error fault => simp [step, bind, Except.bind] at h
    | ok u =>
      have more : rest.foldlM (addVisit disk) u = .ok t := by
        simpa [step, bind, Except.bind] using h
      rw [List.filterMap_cons, ← root_of_addVisit step]
      obtain before | ⟨o, read, same⟩ := ih more
      · rw [root_of_addVisit step]
        obtain ⟨-, _, rfl⟩ | ⟨o, read, added⟩ := addVisit_cases step
        · exact .inl before
        · rw [read]
          exact (routes_of_addFile added before).imp_right fun here => ⟨o, by simp, here⟩
      · refine .inr ⟨o, ?_, same⟩
        split
        · exact read
        · exact List.mem_cons_of_mem _ read

/-- What the file that a step of a walk reads gives as the proxy. -/
def proxyIn (disk : Volume) (root : Path) (v : Visit) : Option FunctionFile :=
  (opened? disk root v).bind fun o => (o.gives .proxy).head?

theorem proxy_of_addVisit {disk : Volume} {s t : AppScan} {v : Visit}
    (h : addVisit disk s v = .ok t) : t.proxy = (proxyIn disk s.root v).or s.proxy := by
  obtain ⟨unread, _, rfl⟩ | ⟨o, read, added⟩ := addVisit_cases h
  · rw [proxyIn, unread]
    rfl
  · rw [proxyIn, read]
    exact proxy_of_addFile added

theorem proxy_of_foldlM {disk : Volume} {vs : List Visit} {s t : AppScan}
    (h : vs.foldlM (addVisit disk) s = .ok t) :
    t.proxy = (givenBy .proxy (vs.filterMap (opened? disk s.root))).getLast?.or s.proxy := by
  induction vs generalizing s with
  | nil =>
    cases h
    rfl
  | cons v rest ih =>
    rw [List.foldlM_cons] at h
    cases step : addVisit disk s v with
    | error fault => simp [step, bind, Except.bind] at h
    | ok u =>
      have more : rest.foldlM (addVisit disk) u = .ok t := by
        simpa [step, bind, Except.bind] using h
      rw [ih more, root_of_addVisit step, proxy_of_addVisit step, proxyIn]
      cases read : opened? disk s.root v with
      | none => rw [List.filterMap_cons_none read]; rfl
      | some o =>
        have once : (o.gives .proxy).head? = (o.gives .proxy).getLast? := by
          unfold Opened.gives
          split
          · cases o.function? <;> rfl
          · rfl
        have whole : givenBy .proxy (o :: rest.filterMap (opened? disk s.root)) =
            o.gives .proxy ++ givenBy .proxy (rest.filterMap (opened? disk s.root)) :=
              List.flatMap_cons
        rw [List.filterMap_cons_some read, whole, List.getLast?_append, ← once, Option.bind_some,
          Option.or_assoc]

section
variable {disk : Volume} {root : Path} {app : Node} {s : AppScan}

/-- The proxy of a scan is the last one that a file gives. -/
theorem scan_proxy (there : disk.resolve root = .ok app) (scanned : scan disk root = .ok s) :
    s.proxy = (givenBy .proxy (openedIn disk root app)).getLast? := by
  obtain ⟨t, ran, rfl⟩ := exists_walk_of_scan there scanned
  exact (proxy_of_foldlM ran).trans Option.or_none

theorem proxy_mem (there : disk.resolve root = .ok app) (scanned : scan disk root = .ok s)
    {p : FunctionFile} (set : s.proxy = some p) : p ∈ givenBy .proxy (openedIn disk root app) := by
  rw [scan_proxy there scanned] at set
  exact List.mem_of_getLast? set

theorem exists_of_mem_givenBy {asked : Marker} {files : List Opened} {g : FunctionFile}
    (h : g ∈ givenBy asked files) : ∃ o ∈ files, o.Holds g.file g.function := by
  obtain ⟨o, ho, given⟩ := List.mem_flatMap.1 h
  exact ⟨o, ho, holds_of_mem_gives given⟩

/-- An accepted handler stands in a file that was read. -/
theorem exists_of_mem_found (there : disk.resolve root = .ok app) (scanned : scan disk root = .ok s)
    {file : MarkerFile} {h : RouteHandler} (accepted : Entry.handler file h ∈ s.found) :
    ∃ o ∈ openedIn disk root app, o.Holds file h.function := by
  have offered := firsts_subset _ ((mem_found_iff there scanned _).1 accepted)
  obtain ⟨o, ho, offers⟩ := List.mem_flatMap.1 offered
  exact ⟨o, ho, holds_of_mem_offers offers⟩

end

/-- A file that was read is what its text says. -/
theorem itemsOf_of_mem_openedIn {disk : Volume} {root : Path} {app : Node} {o : Opened}
    (h : o ∈ openedIn disk root app) :
    Source.itemsOf o.source.text = .ok o.source.items ∧ o.file.imports = o.source.imports := by
  obtain ⟨v, -, read⟩ := List.mem_filterMap.1 h
  cases v with
  | unroutable | unreadable => cases read
  | marker kind directories fileName node =>
    simp only [opened?] at read
    split at read
    · cases read
    · obtain ⟨source, found, rfl⟩ := Option.map_eq_some_iff.1 read
      obtain ⟨text, -, parsed⟩ := Option.bind_eq_some_iff.1 found
      refine ⟨?_, rfl⟩
      unfold SourceFile.parse at parsed
      dsimp only at parsed
      split at parsed
      · next items ok =>
        cases parsed
        exact ok
      · cases parsed

end Waymark.Scan
