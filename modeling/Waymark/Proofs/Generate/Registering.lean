import Waymark.Generate.Output
import Waymark.Proofs.Generate.Names
import Waymark.Proofs.Generate.ReadBack

/-!
# The registering file of a plan

What a plan is rendered to is written part by part, so that it can be read back:

* `writtenAs_registration`, `writtenAs_middleware`, `writtenAs_proxy`: each statement is written as
  its parts;
* `writtenAs_fileParts`: and so is the whole file;
* `fits_fileParts`: no part goes on into the next one where the functions have names;
* `Registration.sound_statement`, `sound_body`: the functions of a plan do;
* `readRegistration?_registrationText`: the text of a plan is read back as its path and its
  statements.
-/

namespace Waymark.Generate

open Waymark.Http (Method)
open Waymark.Scan
open Waymark.Source.Lexer
open Waymark.Text (quoted Quoted.encode)

section
variable (p : Part) (parts more : List Part)

theorem writtenAs_cons : writtenAs (p :: parts) = p.written ++ writtenAs parts := rfl

theorem writtenAs_append : writtenAs (parts ++ more) = writtenAs parts ++ writtenAs more :=
  List.flatMap_append

end

/-- The argument of a call as a text. -/
def Call.argumentText : Call → String
  | file s | scope s | catchAll s => quoted s
  | optional flag => if flag then "true" else "false"
  | priority value => toString value
  | loader f | layout f => handlerRef f

theorem toList_quoted (s : String) : (quoted s).toList = Quoted.encode s.toList :=
  String.toList_ofList

theorem writtenAs_indent (n : Nat) : writtenAs (indent n) = List.replicate n ' ' := by
  induction n with
  | zero => rfl
  | succ n ih => 
    rw [List.replicate_succ, ← ih]
    rfl

theorem writtenAs_functionParts (f : String) :
    writtenAs (functionParts f) = (handlerRef f).toList := by
  simp [functionParts, writtenAs, Part.written, handlerRef]

theorem writtenAs_call (c : Call) :
    writtenAs c.parts = (callLine c.name c.argumentText).toList := by
  have argument : writtenAs c.argument = c.argumentText.toList := by
    cases c with
    | file s | scope s | catchAll s =>
      simp [Call.argument, writtenAs, Part.written, Call.argumentText, quoted]
    | optional flag => simp [Call.argument, writtenAs, Part.written, Call.argumentText]
    | priority n => simp [Call.argument, writtenAs, Part.written, Call.argumentText]
    | loader f | layout f => exact writtenAs_functionParts f
  rw [Call.parts, writtenAs_append, writtenAs_indent, Call.body, writtenAs_cons, writtenAs_cons,
    writtenAs_cons, writtenAs_append, argument]
  simp [callLine, callIndent, Part.written, opener, writtenAs, closer, List.replicate]

theorem writtenAs_lines (cs : List Call) :
    writtenAs (lines (cs.map Call.parts)) =
      (Text.joinStrings '\n' (cs.map fun c => callLine c.name c.argumentText)).toList := by
  induction cs with
  | nil => rfl
  | cons c more ih =>
    cases more with
    | nil => simp [lines, Text.joinStrings, Text.join, writtenAs_call]
    | cons next others =>
      rw [List.map_cons, List.map_cons, lines, writtenAs_append, writtenAs_cons, writtenAs_call,
        ← List.map_cons, ih]
      simp [Text.joinStrings, Text.join, Part.written]

theorem writtenAs_addParts {function : String} {constructed : List Part} {constructor : String} 
    (same : writtenAs constructed = constructor.toList) (cs : List Call) :
    writtenAs (addParts function constructed cs) =
      (addStatement function constructor (cs.map fun c =>
        callLine c.name c.argumentText)).toList := by
  unfold addStatement
  simp only [addParts, writtenAs_append, writtenAs_indent, writtenAs_lines, same,
    String.toList_append]
  simp [writtenAs, Part.written, opener, closer, List.replicate]

section
variable (app : Option String) (plan : Plan)

theorem written_commonCalls (file : MarkerFile) :
    commonCalls app file = ([Call.file (shownPath app file), Call.scope file.scope]
      ++ (catchAllOf file).toList.map Call.catchAll
      ++ (if isOptional file then [Call.optional true] else [])).map
        fun c => callLine c.name c.argumentText := by
  unfold commonCalls catchAllOf isOptional
  split
  · next h => simp [h, Call.name, Call.argumentText]
  · next name h => simp [h, Call.name, Call.argumentText]
  · next name h => simp [h, Call.name, Call.argumentText]

theorem writtenAs_registration (r : Registration) :
    writtenAs (r.statement app plan).parts = (registrationStatement app plan r).toList := by
  cases r with
  | handler file h name =>
    have constructed : writtenAs (RouteCall.constructed ⟨h.method, file.pattern, name,
        some (shownPath app file), file.scope, catchAllOf file, isOptional file,
        Routing.priority file.pattern⟩) =
        ("Route::new(" ++ h.method.variantPath ++ ", " ++ quoted file.pattern ++ ", "
          ++ handlerRef name ++ ")").toList := by
      simp only [RouteCall.constructed, writtenAs_append, writtenAs_functionParts,
        String.toList_append, Method.variantPath, toList_quoted]
      simp [writtenAs, Part.written, opener, closer]
    have calls : callsOf app plan (.handler file h name) =
        (RouteCall.calls ⟨h.method, file.pattern, name, some (shownPath app file), file.scope,
          catchAllOf file, isOptional file, Routing.priority file.pattern⟩).map
            fun c => callLine c.name c.argumentText := by
      rw [callsOf, written_commonCalls]
      simp [RouteCall.calls, Call.name, Call.argumentText]
    rw [registrationStatement, calls]
    exact writtenAs_addParts constructed _
  | page p name loader layouts =>
    have constructed : writtenAs (PageCall.constructed ⟨p.file.pattern, name,
        some (shownPath app p.file), p.file.scope, catchAllOf p.file, isOptional p.file,
        loader.map Prod.snd, layouts.filterMap plan.layoutName?⟩) =
        ("Page::new(" ++ quoted p.file.pattern ++ ", " ++ handlerRef name ++ ")").toList := by
      simp only [PageCall.constructed, writtenAs_append, writtenAs_functionParts,
        String.toList_append, toList_quoted]
      simp [writtenAs, Part.written, opener, closer]
    have calls : callsOf app plan (.page p name loader layouts) =
        (PageCall.calls ⟨p.file.pattern, name, some (shownPath app p.file), p.file.scope,
          catchAllOf p.file, isOptional p.file, loader.map Prod.snd,
          layouts.filterMap plan.layoutName?⟩).map fun c => callLine c.name c.argumentText := by
      rw [callsOf, written_commonCalls]
      cases loader <;> simp [PageCall.calls, Call.name, Call.argumentText, Function.comp_def]
    rw [registrationStatement, calls]
    exact writtenAs_addParts constructed _

theorem writtenAs_middleware (m : FunctionFile × String) :
    writtenAs (Statement.middleware m.1.file.pattern m.1.file.scope m.2).parts =
      (middlewareStatement m).toList := by
  unfold middlewareStatement
  simp only [Statement.parts, writtenAs_append, writtenAs_functionParts, writtenAs_indent,
    String.toList_append, toList_quoted]
  simp [writtenAs, Part.written, opener, closer, List.replicate]

theorem writtenAs_proxy (p : FunctionFile × String) :
    writtenAs (Statement.proxy p.2).parts = (proxyStatement p).toList := by
  unfold proxyStatement
  simp only [Statement.parts, writtenAs_append, writtenAs_functionParts, writtenAs_indent,
    String.toList_append]
  simp [writtenAs, Part.written, opener, closer, List.replicate]

/-- The statements of the body: those that a plan asks for, or one that does nothing. -/
def Plan.body : List Statement :=
  if plan.statements app = [] then [.idle] else plan.statements app

theorem writtenAs_flatMap {α : Type} (items : List α) (parts : α → List Part) :
    writtenAs (items.flatMap parts) = items.flatMap fun item => writtenAs (parts item) := by
  rw [writtenAs, List.flatMap_assoc]
  rfl

theorem writtenAs_statements :
    writtenAs ((plan.statements app).flatMap Statement.parts) =
      (String.join (plan.routes.map (registrationStatement app plan)
        ++ plan.middlewares.map middlewareStatement
        ++ plan.proxy.toList.map proxyStatement)).toList := by
  rw [writtenAs_flatMap, String.toList_join, Plan.statements]
  simp only [List.flatMap_append, List.flatMap_map, writtenAs_registration, writtenAs_middleware,
    writtenAs_proxy]

theorem writtenAs_body :
    writtenAs ((plan.body app).flatMap Statement.parts) = (statementsText app plan).toList := by
  have none' : plan.statements app = [] ↔
      (plan.routes.map (registrationStatement app plan) ++ plan.middlewares.map middlewareStatement
        ++ plan.proxy.toList.map proxyStatement).isEmpty = true := by
    simp [Plan.statements]
  unfold Plan.body statementsText
  by_cases empty : plan.statements app = []
  · simp only [none'.1 empty, if_pos empty, List.flatMap_singleton, Statement.parts,
      writtenAs_append, writtenAs_indent]
    simp [writtenAs, Part.written, List.replicate]
  · simp only [if_neg empty, mt none'.2 empty]
    exact writtenAs_statements app plan

end

/-- The path at which a module has the emitted functions. -/
def handlersPath (modulePath : String) : List String :=
  (modulePieces modulePath.toList).map String.ofList ++ ["handlers"]

theorem modulePieces_joined (text : List Char) :
    ∃ piece more, modulePieces text = piece :: more ∧
      piece ++ more.flatMap (fun p => ':' :: ':' :: p) = text := by
  fun_induction modulePieces text with
  | case1 => exact ⟨[], [], rfl, rfl⟩
  | case2 rest ih =>
    obtain ⟨piece, more, same, joined⟩ := ih
    exact ⟨[], piece :: more, by rw [same], by simp [joined]⟩
  | case3 c rest _ none' ih =>
    obtain ⟨piece, more, same, -⟩ := ih
    simp [same] at none'
  | case4 c rest _ piece pieces same ih =>
    obtain ⟨piece', more, same', joined⟩ := ih
    rw [same] at same'
    cases same'
    exact ⟨c :: piece, pieces, rfl, by simp [joined]⟩

theorem writtenAs_pathParts (first : String) (more : List String) :
    writtenAs (pathParts (first :: more)) =
      first.toList ++ more.flatMap fun n => ':' :: ':' :: n.toList := by
  induction more generalizing first with
  | nil => simp [pathParts, writtenAs, Part.written]
  | cons next others ih =>
    rw [pathParts, writtenAs_cons, writtenAs_cons, writtenAs_cons, ih]
    simp [Part.written]

theorem writtenAs_handlersPath (modulePath : String) :
    writtenAs (pathParts (handlersPath modulePath)) = (modulePath ++ "::handlers").toList := by
  obtain ⟨piece, more, same, joined⟩ := modulePieces_joined modulePath.toList
  rw [handlersPath, same, List.map_cons, List.cons_append, writtenAs_pathParts,
    String.toList_append, ← joined]
  simp [List.flatMap_map]

theorem writtenAs_frontParts :
    writtenAs frontParts =
      (header ++ "#![allow(unused_imports)]\n\n" ++ "use trellis::" ++ openBrace
      ++ "Method, Page, Route, RouteTree" ++ closeBrace ++ ";\n\n" ++ "use ").toList := by
  simp [frontParts, writtenAs, Part.written, opener, closer, header, openBrace, closeBrace]

theorem writtenAs_headParts :
    writtenAs headParts = ("/// Registers every discovered route, page, middleware and proxy.\n"
      ++ "pub fn register(tree: &mut RouteTree) " ++ openBrace ++ "\n").toList := by
  simp [headParts, writtenAs, Part.written, opener, closer, openBrace]

/-- The registering file of a plan is written as its parts. -/
theorem writtenAs_fileParts (app : Option String) (modulePath : String) (plan : Plan) :
    writtenAs (fileParts (handlersPath modulePath) (plan.body app)) =
      (registrationText app modulePath plan).toList := by
  have gap : writtenAs [.mark ';', .blank '\n', .blank '\n'] = ";\n\n".toList := rfl
  have ending : "::handlers;\n\n".toList = "::handlers".toList ++ ";\n\n".toList := by decide
  have last : writtenAs [.closing .brace, .blank '\n'] = (closeBrace ++ "\n").toList := rfl
  unfold registrationText
  simp only [fileParts, writtenAs_append, writtenAs_frontParts, writtenAs_handlersPath, gap,
    writtenAs_headParts, writtenAs_body, last, ending, String.toList_append, List.append_assoc]

/-- All functions that a statement names can be names, and its precedence is one that patterns
have. -/
def Statement.Sound : Statement → Prop
  | route c => IsAsciiName c.function.toList ∧
      (c.priority.toNat = 5 ∨ c.priority.toNat = 50 ∨ c.priority.toNat = 100)
  | page c => IsAsciiName c.function.toList ∧ (∀ f ∈ c.loader, IsAsciiName f.toList) ∧
      ∀ f ∈ c.layouts, IsAsciiName f.toList
  | middleware _ _ f | proxy f => IsAsciiName f.toList
  | idle => True

theorem isAsciiName_cons {c : Char} {rest : List Char} :
    IsAsciiName (c :: rest) ↔ c.isDigit = false ∧ ∀ d ∈ c :: rest, isNameChar d := by
  constructor
  · rintro ⟨first, each⟩
    exact ⟨first, each⟩
  · rintro ⟨first, each⟩
    exact .intro first each

theorem fits_cons (p : Part) (rest : List Part) :
    Fits (p :: rest) ↔ p.Sound ∧ p.EndsBefore rest ∧ Fits rest := Iff.rfl

theorem fits_indent (n : Nat) (rest : List Part) : Fits (indent n ++ rest) ↔ Fits rest := by
  induction n with
  | zero => rfl
  | succ n ih =>
    rw [indent, List.replicate_succ, List.cons_append, fits_cons, ← indent, ih]
    simp [Part.Sound]

theorem fits_functionParts {f : String} (named : IsAsciiName f.toList) {rest : List Part}
    (fits : Fits rest) : Fits (functionParts f ++ .closing .paren :: rest) := by
  simp [functionParts, fits_cons, Part.Sound, partMarks, isAsciiName_cons, isNameChar,
    named, fits]

/-- The functions that a call names can be names, and its number is a precedence. -/
def Call.Sound : Call → Prop
  | file _ | scope _ | catchAll _ | optional _ => True
  | priority value => value = 5 ∨ value = 50 ∨ value = 100
  | loader f | layout f => IsAsciiName f.toList

theorem fits_call {c : Call} (sound : c.Sound) {rest : List Part} (fits : Fits rest) :
    Fits (c.parts ++ rest) := by
  rw [Call.parts, List.append_assoc, fits_indent]
  cases c with
  | file s | scope s | catchAll s =>
    simp [Call.body, Call.name, Call.argument, fits_cons, Part.Sound, partMarks,
      isAsciiName_cons, isNameChar, fits]
  | optional flag =>
    cases flag <;>
      simp [Call.body, Call.name, Call.argument, fits_cons, Part.Sound, partMarks,
        isAsciiName_cons, isNameChar, fits]
  | priority value =>
    have number : value = 5 ∨ value = 50 ∨ value = 100 := sound
    simp [Call.body, Call.name, Call.argument, fits_cons, Part.Sound, partMarks,
      isAsciiName_cons, isNameChar, number, fits]
  | loader f | layout f =>
    have inner : Fits (functionParts f ++ .closing .paren :: rest) :=
      fits_functionParts sound fits
    simp [Call.body, Call.name, Call.argument, fits_cons, Part.Sound, partMarks,
      isAsciiName_cons, isNameChar, inner]
    simp [functionParts]

theorem fits_lines {cs : List Call} (sound : ∀ c ∈ cs, c.Sound) {rest : List Part}
    (fits : Fits rest) :
    Fits (lines (cs.map Call.parts) ++ rest) := by
  induction cs with
  | nil => exact fits
  | cons c more ih =>
    have behind := ih fun d hd => sound d (List.mem_cons_of_mem _ hd)
    have first := sound c (by simp)
    cases more with
    | nil => exact fits_call first fits
    | cons next others =>
      rw [List.map_cons, List.map_cons, lines, List.append_assoc]
      exact fits_call first ⟨Or.inr rfl, trivial, behind⟩

theorem isAsciiName_variantName (m : Method) : IsAsciiName m.variantName.toList := by
  cases m <;> exact .intro rfl (List.all_eq_true.1 (by decide))

theorem RouteCall.sound_calls {c : RouteCall}
    (known : c.priority.toNat = 5 ∨ c.priority.toNat = 50 ∨ c.priority.toNat = 100) :
    ∀ call ∈ c.calls, call.Sound := by
  intro call among
  simp only [calls, List.mem_append, List.mem_map, List.mem_singleton] at among
  obtain (((⟨f, -, rfl⟩ | rfl) | ⟨n, -, rfl⟩) | flag) | rfl := among
  · trivial
  · trivial
  · trivial
  · split at flag
    · rw [List.mem_singleton.1 flag]
      trivial
    · cases flag
  · exact known

theorem PageCall.sound_calls {c : PageCall} (loader : ∀ f ∈ c.loader, IsAsciiName f.toList)
    (layouts : ∀ f ∈ c.layouts, IsAsciiName f.toList) : ∀ call ∈ c.calls, call.Sound := by
  intro call among
  simp only [calls, List.mem_append, List.mem_map, List.mem_singleton] at among
  obtain ((((⟨f, -, rfl⟩ | rfl) | ⟨n, -, rfl⟩) | flag) | ⟨f, hf, rfl⟩) | ⟨f, hf, rfl⟩ := among
  · trivial
  · trivial
  · trivial
  · split at flag
    · rw [List.mem_singleton.1 flag]
      trivial
    · cases flag
  · exact loader f (Option.mem_toList.1 hf)
  · exact layouts f hf

theorem fits_end {rest : List Part} (fits : Fits rest) :
    Fits (.mark ';' :: .blank '\n' :: rest) := by
  simp [fits_cons, Part.Sound, partMarks, fits]

theorem fits_addParts {function : String} (named : IsAsciiName function.toList)
    {constructed : List Part}
    (built : ∀ rest, Fits rest → Fits (constructed ++ rest)) {cs : List Call}
    (sound : ∀ c ∈ cs, c.Sound) {rest : List Part} (fits : Fits rest) :
    Fits (addParts function constructed cs ++ rest) := by
  have ended : Fits (.mark ',' :: .blank '\n' ::
      (indent 4 ++ .closing .paren :: .mark ';' :: .blank '\n' :: rest)) := by
    have closed : Fits (.closing .paren :: .mark ';' :: .blank '\n' :: rest) :=
      ⟨trivial, trivial, fits_end fits⟩
    rw [fits_cons, fits_cons, fits_indent]
    simp [Part.Sound, partMarks, closed]
  have made := built _
    (show Fits (.blank '\n' :: _) from ⟨Or.inr rfl, trivial, fits_lines sound ended⟩)
  simp [addParts, fits_indent, fits_cons, Part.Sound, partMarks, isAsciiName_cons,
    isNameChar, named, made]

/-- No part of a statement goes on into the next one. -/
theorem fits_statement {st : Statement} (sound : st.Sound) {rest : List Part} (fits : Fits rest) :
    Fits (st.parts ++ rest) := by
  cases st with
  | route c =>
    obtain ⟨named, known⟩ := sound
    have word : IsAsciiName "add_route".toList := .intro rfl (List.all_eq_true.1 (by decide))
    refine fits_addParts word ?_ (RouteCall.sound_calls known) fits
    intro more behind
    have inner : Fits (functionParts c.function ++ .closing .paren :: more) :=
      fits_functionParts named behind
    simp [RouteCall.constructed, fits_cons, Part.Sound, partMarks, isAsciiName_cons,
      isNameChar, inner]
    exact isAsciiName_variantName c.method
  | page c =>
    obtain ⟨named, loader, layouts⟩ := sound
    have word : IsAsciiName "add_page".toList := .intro rfl (List.all_eq_true.1 (by decide))
    refine fits_addParts word ?_ (PageCall.sound_calls loader layouts) fits
    intro more behind
    have inner : Fits (functionParts c.function ++ .closing .paren :: more) :=
      fits_functionParts named behind
    simp [PageCall.constructed, fits_cons, Part.Sound, partMarks, isAsciiName_cons,
      isNameChar, inner]
  | middleware pattern scope f =>
    have inner := fits_functionParts sound (fits_end fits)
    simp [Statement.parts, fits_indent, fits_cons, Part.Sound, partMarks,
      isAsciiName_cons, isNameChar, inner]
  | proxy f =>
    have inner := fits_functionParts sound (fits_end fits)
    simp [Statement.parts, fits_indent, fits_cons, Part.Sound, partMarks,
      isAsciiName_cons, isNameChar, inner]
    simp [functionParts]
  | idle =>
    simp [Statement.parts, fits_indent, fits_cons, Part.Sound, partMarks,
      isAsciiName_cons, isNameChar, fits]

theorem fits_body {sts : List Statement} (sound : ∀ st ∈ sts, st.Sound) {rest : List Part}
    (fits : Fits rest) : Fits (sts.flatMap Statement.parts ++ rest) := by
  induction sts with
  | nil => exact fits
  | cons st more ih =>
    rw [List.flatMap_cons, List.append_assoc]
    exact fits_statement (sound st (by simp)) (ih fun x hx => sound x (List.mem_cons_of_mem _ hx))

theorem fits_pathParts {names : List String} (named : ∀ n ∈ names, IsAsciiName n.toList)
    {rest : List Part}
    (fits : Fits (.mark ';' :: rest)) : Fits (pathParts names ++ .mark ';' :: rest) := by
  induction names with
  | nil => exact fits
  | cons first more ih =>
    have behind := ih fun n hn => named n (List.mem_cons_of_mem _ hn)
    have here := named first (by simp)
    cases more with
    | nil => exact ⟨here, by simp, fits⟩
    | cons next others =>
      simp only [pathParts, List.cons_append, fits_cons]
      simp [Part.Sound, partMarks, here, behind]

theorem fits_frontParts {rest : List Part} (fits : Fits rest) : Fits (frontParts ++ rest) := by
  simp [frontParts, fits_cons, Part.Sound, partMarks, isAsciiName_cons, isNameChar, fits]

theorem fits_headParts {rest : List Part} (fits : Fits rest) : Fits (headParts ++ rest) := by
  simp [headParts, fits_cons, Part.Sound, partMarks, isAsciiName_cons, isNameChar, fits]

/-- No part of a registering file goes on into the next one. -/
theorem fits_fileParts {path : List String} (named : ∀ n ∈ path, IsAsciiName n.toList)
    {body : List Statement} (sound : ∀ st ∈ body, st.Sound) : Fits (fileParts path body) := by
  have last : Fits [.closing .brace, .blank '\n'] := by
    simp [Fits, Part.Sound]
  have gap {rest : List Part} (fits : Fits rest) :
      Fits (.mark ';' :: .blank '\n' :: .blank '\n' :: rest) := by
    simp [fits_cons, Part.Sound, partMarks, fits]
  have whole := fits_frontParts (fits_pathParts named (gap (fits_headParts (fits_body sound last))))
  simpa [fileParts] using whole

theorem isDigit_of_isAlpha {c : Char} (h : c.isAlpha) : c.isDigit = false := by
  have codes := isAlpha_iff.1 h
  cases digit : c.isDigit with
  | false => rfl
  | true =>
    have others := isDigit_iff.1 digit
    omega

theorem isAsciiName_of_isModuleName {name : List Char} (h : isModuleName name) :
    IsAsciiName name := by
  cases name with
  | nil => cases h
  | cons c rest =>
    simp only [isModuleName, Bool.and_eq_true, Bool.or_eq_true, decide_eq_true_eq,
      List.all_eq_true] at h
    obtain ⟨⟨first, each⟩, -⟩ := h
    apply IsAsciiName.intro
    · rcases first with letter | rfl
      · exact isDigit_of_isAlpha letter
      · rfl
    · intro d hd
      simp only [isNameChar, Bool.or_eq_true, decide_eq_true_eq]
      obtain rfl | later := List.mem_cons.1 hd
      · refine first.imp (fun letter => ?_) id
        simp [Char.isAlphanum, letter]
      · exact each d later

theorem named_handlersPath {modulePath : String} (valid : validate modulePath = .ok ()) :
    ∀ n ∈ handlersPath modulePath, IsAsciiName n.toList := by
  unfold validate at valid
  split at valid
  · next pieces =>
    intro n hn
    obtain piece | last := List.mem_append.1 hn
    · obtain ⟨p, hp, rfl⟩ := List.mem_map.1 piece
      rw [String.toList_ofList]
      exact isAsciiName_of_isModuleName (List.all_eq_true.1 pieces p hp)
    · rw [List.mem_singleton.1 last]
      exact .intro rfl (List.all_eq_true.1 (by decide))
  · cases valid

theorem priority_cases (pattern : String) :
    (Routing.priority pattern).toNat = 5 ∨ (Routing.priority pattern).toNat = 50 ∨
      (Routing.priority pattern).toNat = 100 := by
  unfold Routing.priority
  dsimp only
  split
  · exact Or.inl rfl
  · split
    · exact Or.inr (Or.inl rfl)
    · exact Or.inr (Or.inr rfl)

theorem Registration.sound_statement {app : Option String} {plan : Plan} {r : Registration}
    (names : ∀ n ∈ r.names, IsAsciiName n.toList)
    (layouts : ∀ l ∈ plan.layouts, IsAsciiName l.2.toList) : (r.statement app plan).Sound := by
  cases r with
  | handler file h name =>
    simp only [Registration.statement, Statement.Sound]
    exact ⟨names name (by simp [Registration.names]), priority_cases file.pattern⟩
  | page p name loader given =>
    refine ⟨names name (by simp [Registration.names]), ?_, ?_⟩
    · intro f hf
      obtain ⟨l, hl, rfl⟩ := Option.map_eq_some_iff.1 hf
      exact names l.2 (by simp [Registration.names, hl])
    · intro f hf
      obtain ⟨layout, -, found⟩ := List.mem_filterMap.1 hf
      obtain ⟨l, hl, rfl⟩ := Option.map_eq_some_iff.1 found
      exact layouts l (List.mem_of_find?_eq_some hl)

/-- All functions that the body of a plan names can be names. -/
theorem sound_body (scan : AppScan) (app : Option String) :
    ∀ st ∈ (Plan.ofScan scan).body app, st.Sound := by
  obtain ⟨-, identifiers⟩ := names_ofScan scan
  have named : ∀ n ∈ (Plan.ofScan scan).names, IsAsciiName n.toList := fun n hn =>
    (identifiers n hn).ascii
  generalize Plan.ofScan scan = plan at named
  simp only [Plan.names, List.mem_append, List.mem_flatMap, List.mem_map,
    Option.mem_toList] at named
  have asked : ∀ st ∈ plan.statements app, st.Sound := by
    intro st among
    simp only [Plan.statements, List.mem_append, List.mem_map, Option.mem_toList] at among
    obtain (⟨r, hr, rfl⟩ | ⟨m, hm, rfl⟩) | ⟨p, hp, rfl⟩ := among
    · apply Registration.sound_statement
      · intro n hn
        exact named n (Or.inl (Or.inl (Or.inl ⟨r, hr, hn⟩)))
      · intro l hl
        exact named l.2 (Or.inl (Or.inr ⟨l, hl, rfl⟩))
    · exact named m.2 (Or.inl (Or.inl (Or.inr ⟨m, hm, rfl⟩)))
    · exact named p.2 (Or.inr (by simp [hp]))
  unfold Plan.body
  split
  · simp [Statement.Sound]
  · exact asked

/-- The registering file of a plan reads as the statements that the plan asks for. -/
theorem readRegistration?_registrationText (scan : AppScan) (app : Option String)
    {modulePath : String} (valid : validate modulePath = .ok ()) :
    readRegistration? (registrationText app modulePath (Plan.ofScan scan)) =
      some (handlersPath modulePath, (Plan.ofScan scan).body app) := by
  have fits := fits_fileParts (named_handlersPath valid) (sound_body scan app)
  have tokens := tokens?_written fits
  rw [writtenAs_fileParts] at tokens
  have nonempty : handlersPath modulePath ≠ [] := by simp [handlersPath]
  simp [readRegistration?, tokens, Reader.file_parts nonempty]

end Waymark.Generate
