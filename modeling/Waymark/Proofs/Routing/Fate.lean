import Waymark.Proofs.Routing.Handled

/-!
# What becomes of a request

Behind a mux without proxy, a request is served by a route of its method, or for HEAD by one of GET,
or it is not found, or its method is not allowed. Look-up, fallback and the list of allowed methods
are separate questions to the indexes; together they leave exactly one answer:

* `Fate`, `Fate.answer`: what may become of a request, and how it is answered then;
* `Comes`: what it takes for each fate;
* `exists_comes`, `comes_unique`: every request comes to one fate;
* `dispatch_of_comes`: the fate decides the answer;
* `normalize_slashes`: trailing slashes do not matter;
* `one_fate`: all of that, after any run of registrations.
-/

namespace Waymark.Routing

open Waymark.Handling
open Waymark.Http (Method Request Response)
open Waymark.Text (Bindings)
open Table (Registration)

/-- That many slashes. -/
def slashes (n : Nat) : String := String.ofList (List.replicate n '/')

namespace Mux

/-- What becomes of a request. -/
inductive Fate where
  /-- A route of the method is run with the captures of the path. -/
  | served (method : Method) (handler : Handler) (params : Bindings String)
  | notFound
  /-- Only other methods have a route. -/
  | notAllowed (allow : List Method)

/-- A text as an answer; HEAD gets no body. -/
def refusal (request : Request) (status : UInt16) (message : String) : Response :=
  if request.method = .head then (Response.text status message).withBody ByteArray.empty
  else Response.text status message

/-- How a request is answered. -/
def Fate.answer (request : Request) : Fate → Except String Response
  | served _ handler params =>
    answered request (handler.on ((Context.new request).setParams params))
  | notFound => .ok (refusal request 404 ("no route for " ++ normalize request.path))
  | notAllowed allow =>
    let message := request.method.wireName ++ " is not allowed for " ++ normalize request.path
    .ok ((refusal request 405 message).withHeader "allow"
      (", ".intercalate (allow.map Method.wireName)))

/-- What it takes for a request to come to a fate, by its method and its path without trailing
slashes. -/
inductive Comes (state : Mux × List Registration) (own : Method) (path : String) : Fate → Prop
  | served {method : Method} {handler : Handler} {params : Bindings String}
      (serves : method = own ∨ own = .head ∧ method = .get ∧ state.1.lookup .head path = none)
      (found : state.1.lookup method path = some (handler, params))
      (taken : ∃ r ∈ state.2, r.method = method ∧ r.handler = handler) :
      Comes state own path (.served method handler params)
  | notFound (unmatched : ∀ method, state.1.lookup method path = none) :
      Comes state own path .notFound
  | notAllowed {allow : List Method}
      (matching : allow = Method.all.filter fun method => (state.1.lookup method path).isSome)
      (others : allow ≠ []) (notOwn : own ∉ allow) (notGet : own = .head → .get ∉ allow)
      (taken : ∀ method ∈ allow, ∃ r ∈ state.2, r.method = method) :
      Comes state own path (.notAllowed allow)

/-- A request comes to a fate and is answered accordingly. -/
def HasFate (state : Mux × List Registration) (request : Request) (fate : Fate) : Prop :=
  Comes state request.method (normalize request.path) fate ∧
    state.1.dispatch request = fate.answer request

theorem mem_all (method : Method) : method ∈ Method.all := by cases method <;> decide

theorem normalize_slashes (base : String) (n k : Nat) :
    normalize (base ++ slashes n) = normalize (base ++ slashes k) := by
  have trimmed (n : Nat) : (base ++ slashes n).toList.reverse.dropWhile (· = '/') =
      base.toList.reverse.dropWhile (· = '/') := by
    rw [slashes, String.toList_append, String.toList_ofList, List.reverse_append,
      List.reverse_replicate]
    induction n with
    | zero => rfl
    | succ n ih =>
      rw [List.replicate_succ, List.cons_append, List.dropWhile_cons_of_pos rfl]
      exact ih
  rw [normalize, normalize, trimmed, trimmed]

variable {state : Mux × List Registration} {own : Method} {path : String}

theorem isSome_at?_eq (m : Mux) (method : Method) (path : String) :
    ((m.indexOf method).at? path).isSome = (m.lookup method path).isSome := by
  rw [lookup, Option.isSome_map]

theorem allowed_eq (m : Mux) (path : String) :
    m.allowed path = Method.all.filter fun method => (m.lookup method (normalize path)).isSome := by
  simp only [allowed, isSome_at?_eq]

theorem mem_matching {m : Mux} {method : Method} :
    method ∈ Method.all.filter (fun method => (m.lookup method path).isSome) ↔
      (m.lookup method path).isSome = true := by
  simp [mem_all]

theorem route?_eq_none_iff {m : Mux} : m.route? own path = none ↔
    m.lookup own path = none ∧ (own = .head → m.lookup .get path = none) := by
  rw [route?]
  cases m.lookup own path with
  | some found => simp
  | none => by_cases head : own = .head <;> simp [head]

/-- A request comes to some fate. -/
theorem exists_comes (accounted : Accounted state) (own : Method) (path : String) :
    ∃ fate, Comes state own path fate := by
  cases mine : state.1.lookup own path with
  | some found =>
    obtain ⟨handler, params⟩ := found
    exact ⟨_, .served (.inl rfl) mine (accounted.exists_taken mine)⟩
  | none =>
    by_cases fallback : own = .head ∧ (state.1.lookup .get path).isSome
    · obtain ⟨rfl, there⟩ := fallback
      obtain ⟨⟨handler, params⟩, found⟩ := Option.isSome_iff_exists.1 there
      exact ⟨_, .served (.inr ⟨rfl, rfl, mine⟩) found (accounted.exists_taken found)⟩
    · by_cases others : ∃ method, (state.1.lookup method path).isSome
      · obtain ⟨method, there⟩ := others
        refine ⟨_, .notAllowed rfl ?_ ?_ ?_ ?_⟩
        · exact List.ne_nil_of_mem (mem_matching.2 there)
        · rw [mem_matching, mine]
          exact Bool.false_ne_true
        · intro head
          rw [mem_matching]
          exact fun get => fallback ⟨head, get⟩
        · intro method among
          obtain ⟨⟨handler, params⟩, found⟩ := Option.isSome_iff_exists.1 (mem_matching.1 among)
          obtain ⟨r, taken, same, -⟩ := accounted.exists_taken found
          exact ⟨r, taken, same⟩
      · refine ⟨_, .notFound fun method => ?_⟩
        rw [← Option.not_isSome_iff_eq_none]
        exact fun there => others ⟨method, there⟩

/-- A request whose fate is to be served has a route, and this is the one. -/
theorem route?_of_served {method : Method} {handler : Handler} {params : Bindings String}
    (comes : Comes state own path (.served method handler params)) :
    state.1.route? own path = some (handler, params) := by
  cases comes with
  | served serves found taken =>
    obtain rfl | ⟨rfl, rfl, bare⟩ := serves
    · exact route?_of_lookup found
    · rw [route?, bare]
      exact found

/-- A request whose method is not allowed has no route. -/
theorem route?_of_notAllowed {allow : List Method}
    (comes : Comes state own path (.notAllowed allow)) :
    state.1.route? own path = none := by
  cases comes with
  | notAllowed matching others notOwn notGet taken =>
    subst matching
    rw [mem_matching, Option.not_isSome_iff_eq_none] at notOwn
    simp only [mem_matching, Option.not_isSome_iff_eq_none] at notGet
    exact route?_eq_none_iff.2 ⟨notOwn, notGet⟩

theorem route?_of_notFound (comes : Comes state own path .notFound) :
    state.1.route? own path = none := by
  cases comes with
  | notFound unmatched => exact route?_eq_none_iff.2 ⟨unmatched own, fun _ => unmatched .get⟩

/-- A request comes to one fate only. -/
theorem comes_unique {fate fate' : Fate} (comes : Comes state own path fate)
    (comes' : Comes state own path fate') : fate = fate' := by
  cases fate with
  | served method handler params =>
    have route := route?_of_served comes
    cases fate' with
    | served method' handler' params' =>
      have same := route.symm.trans (route?_of_served comes')
      obtain ⟨rfl, rfl⟩ := Prod.mk.inj (Option.some.inj same)
      -- The method is the request's own, unless that has no route of its own.
      cases comes with
      | served serves found taken =>
        cases comes' with
        | served serves' found' taken' =>
          obtain rfl | ⟨rfl, rfl, bare⟩ := serves
          · obtain rfl | ⟨rfl, rfl, bare'⟩ := serves'
            · rfl
            · rw [bare'] at found
              cases found
          · obtain rfl | ⟨-, rfl, -⟩ := serves'
            · rw [bare] at found'
              cases found'
            · rfl
    | notFound => simp [route?_of_notFound comes'] at route
    | notAllowed allow => simp [route?_of_notAllowed comes'] at route
  | notFound =>
    cases fate' with
    | served method handler params =>
      have route := route?_of_served comes'
      simp [route?_of_notFound comes] at route
    | notFound => rfl
    | notAllowed allow =>
      cases comes with
      | notFound unmatched =>
        cases comes' with
        | notAllowed matching others => simp [matching, unmatched] at others
  | notAllowed allow =>
    cases fate' with
    | served method handler params =>
      have route := route?_of_served comes'
      simp [route?_of_notAllowed comes] at route
    | notFound =>
      cases comes' with
      | notFound unmatched =>
        cases comes with
        | notAllowed matching others => simp [matching, unmatched] at others
    | notAllowed allow' =>
      cases comes with
      | notAllowed matching =>
        cases comes' with
        | notAllowed matching' => rw [matching, matching']

/-- The fate of a request decides its answer. -/
theorem dispatch_of_comes {m : Mux} {taken : List Registration} (noProxy : m.proxy = none)
    {request : Request}
    {fate : Fate} (comes : Comes (m, taken) request.method (normalize request.path) fate) :
    m.dispatch request = fate.answer request := by
  have own : (Context.new request).method = request.method := rfl
  have path : (Context.new request).path = request.path := rfl
  have allowed : m.allowed (normalize request.path) =
      Method.all.filter fun method => (m.lookup method (normalize request.path)).isSome := by
    rw [allowed_eq, normalize_normalize]
  cases fate with
  | served method handler params => exact dispatch_of_route noProxy (route?_of_served comes)
  | notFound =>
    have nowhere := route?_of_notFound comes
    cases comes with
    | notFound unmatched =>
      have nothing : m.allowed (normalize request.path) = [] := by simp [allowed, unmatched]
      rw [dispatch_eq noProxy, run]
      simp only [own, path, nowhere, nothing]
      rfl
  | notAllowed allow =>
    have nowhere := route?_of_notAllowed comes
    cases comes with
    | notAllowed matching others =>
      rw [← allowed] at matching
      obtain ⟨method, rest, spelled⟩ := List.exists_cons_of_ne_nil others
      rw [spelled] at matching ⊢
      rw [dispatch_eq noProxy, run]
      simp only [own, path, nowhere, ← matching]
      unfold Fate.answer refusal answered.finished
      by_cases head : request.method = .head
      · simp only [head, ↓reduceIte, Except.map]
        rfl
      · simp only [head, ↓reduceIte, Except.map]
        rfl

/-- **One fate.** After any run of registrations, some taken in and the others refused, a request
comes to exactly one fate, and trailing slashes do not change it. For documented patterns, a method
has a route for a path exactly when a registration of it that was taken in takes the path. -/
theorem one_fate (calls : List Registration) (request : Request) :
    (attemptAll calls).2.Sublist calls ∧
    (∃! fate, HasFate (attemptAll calls) request fate) ∧
    (∀ base n k fate, HasFate (attemptAll calls) { request with path := base ++ slashes n } fate ↔
      HasFate (attemptAll calls) { request with path := base ++ slashes k } fate) ∧
    ((∀ r ∈ calls, IsPattern r.pattern) → ∀ method path,
      ((attemptAll calls).1.lookup method path = none ↔
        ∀ r ∈ (attemptAll calls).2, r.method = method → ∀ params, ¬ r.Takes path params) ∧
      ∀ handler params, (attemptAll calls).1.lookup method path = some (handler, params) →
        ∃ r ∈ (attemptAll calls).2, r.method = method ∧ r.handler = handler ∧
          r.Takes path params) := by
  have accounted := accounted_attemptAll calls
  have decided {request : Request} {fate : Fate} :
      HasFate (attemptAll calls) request fate ↔
        Comes (attemptAll calls) request.method (normalize request.path) fate := by
    constructor
    · exact And.left
    · intro comes
      exact ⟨comes, dispatch_of_comes accounted.unguarded comes⟩
  refine ⟨taken_sublist calls, ?_, ?_, ?_⟩
  · obtain ⟨fate, comes⟩ := exists_comes accounted request.method (normalize request.path)
    refine ⟨fate, decided.2 comes, fun other has => ?_⟩
    exact comes_unique (decided.1 has) comes
  · intro base n k fate
    rw [decided, decided, normalize_slashes base n k]
  · intro isPattern method path
    obtain ⟨parts, written⟩ := Table.exists_parts isPattern
    have faithful := faithful_attemptAll written
    exact ⟨faithful.lookup_eq_none_iff method path, fun handler params => faithful.takes_of_lookup⟩

/-- A user is read and written; a second handler for reading it is refused. -/
def userCalls : List Registration :=
  [⟨.get, "/users/{id}", modify (·.text 200 "user")⟩, ⟨.post, "/users/{id}", modify (·.status 201)⟩,
    ⟨.get, "/users/{name}", modify (·.text 200 "other")⟩]

theorem isPattern_userCalls : ∀ r ∈ userCalls, IsPattern r.pattern := by
  have id : IsPattern "/users/{id}" :=
    ⟨[.literal "users", .parameter "id"], .cons (by decide) rfl (.cons (by decide) rfl .nil),
      by decide +kernel⟩
  have name : IsPattern "/users/{name}" :=
    ⟨[.literal "users", .parameter "name"], .cons (by decide) rfl (.cons (by decide) rfl .nil),
      by decide +kernel⟩
  simp only [userCalls, List.mem_cons, List.not_mem_nil, or_false, forall_eq_or_imp, forall_eq]
  exact ⟨id, id, name⟩

/-- PUT is not allowed, and HEAD is served by GET, with slashes behind the path or without. -/
theorem one_fate_users :
    (∀ r ∈ userCalls, IsPattern r.pattern) ∧ (attemptAll userCalls).2.length = 2 ∧
    HasFate (attemptAll userCalls) (.new .put "/users/7//") (.notAllowed [.get, .post]) ∧
    (∃ handler params, HasFate (attemptAll userCalls) (.new .head "/users/7/")
      (.served .get handler params)) ∧
    ∃ r ∈ (attemptAll userCalls).2, r.method = .get ∧ ∃ params, r.Takes "/users/7" params := by
  have path : normalize "/users/7" = "/users/7" := by decide +kernel
  have found : Method.all.filter (fun method =>
      ((attemptAll userCalls).1.lookup method "/users/7").isSome) =
      [.get, .post] := by
    decide +kernel
  have onlyThese (method : Method) :
      ((attemptAll userCalls).1.lookup method "/users/7").isSome = true ↔
      method = .get ∨ method = .post := by
    rw [← mem_matching, found]
    simp
  obtain ⟨-, ⟨put, isPut, -⟩, slashed, documented⟩ := one_fate userCalls (.new .put "/users/7")
  obtain ⟨-, ⟨head, isHead, -⟩, slashedHead, -⟩ := one_fate userCalls (.new .head "/users/7")
  refine ⟨isPattern_userCalls, by decide +kernel, ?_, ?_, ?_⟩
  · have fate : put = .notAllowed [.get, .post] := by
      obtain ⟨comes, -⟩ := isPut
      have requested : (Request.new .put "/users/7").path = "/users/7" := rfl
      rw [requested, path] at comes
      cases comes with
      | served serves there _ =>
        have some := (onlyThese _).1 (Option.isSome_iff_exists.2 ⟨_, there⟩)
        obtain rfl | ⟨head, -⟩ := serves
        · exact absurd some (by decide)
        · cases head
      | notFound unmatched =>
        have none := (onlyThese .get).2 (.inl rfl)
        simp [unmatched] at none
      | notAllowed matching => rw [matching, found]
    subst fate
    exact (slashed "/users/7" 0 2 _).1 isPut
  · have comes := isHead.1
    have requested : (Request.new .head "/users/7").path = "/users/7" := rfl
    rw [requested, path] at comes
    cases comes with
    | @served method handler params serves there _ =>
      have some := (onlyThese _).1 (Option.isSome_iff_exists.2 ⟨_, there⟩)
      obtain rfl | ⟨-, rfl, -⟩ := serves
      · exact absurd some (by decide)
      · exact ⟨handler, params, (slashedHead "/users/7" 0 1 _).1 isHead⟩
    | notFound unmatched =>
      have none := (onlyThese .get).2 (.inl rfl)
      simp [unmatched] at none
    | notAllowed matching _ _ notGet =>
      rw [matching, found] at notGet
      exact absurd (notGet rfl) (by decide)
  · obtain ⟨⟨handler, params⟩, there⟩ := Option.isSome_iff_exists.1 ((onlyThese .get).2 (.inl rfl))
    obtain ⟨-, takes⟩ := documented isPattern_userCalls .get "/users/7"
    obtain ⟨r, taken, method, -, takesPath⟩ := takes handler params there
    exact ⟨r, taken, method, params, takesPath⟩

end Mux

end Waymark.Routing
