import Waymark.Routing.Page

/-!
# What a page does with a request

A page loads, renders its markup and wraps it, one step after the other, until a step fails or a
response is there. What a run comes to is said without the program:

* `Page.stages`, `Page.Passes`: the renderer and the layouts in the order in which they run, and
  runs of them that all succeed;
* `Page.Begins`: the contexts with which a page comes to be rendered;
* `Page.Ends`: everything that can come of a page, one constructor for each way to end;
* `through_on_eq_ok_iff`, `through_on_eq_error_iff`: stages succeed as a whole or end at the first
  that fails;
* `lowered_page_iff`: the handler of a page ends as `Ends` says, and what is behind the end is never
  run.
-/

namespace Waymark.Routing.Page

open Waymark.Handling

/-- The steps by which the markup of a page comes about: its renderer, which is given none, and then
its layouts from the innermost one outwards. -/
def stages (p : Page) : List Layout := (fun _ => p.render) :: p.layouts.reverse

/-- Steps that succeed one after the other, each given the markup and the context that the one
before it has left. -/
inductive Passes : List Layout → String → Context → String → Context → Prop
  | nil (markup : String) (c : Context) : Passes [] markup c markup c
  | cons {stage : Layout} {rest : List Layout} {markup next last : String} {c d e : Context}
      (ran : (stage markup).on c = (.ok next, d)) (more : Passes rest next d last e) :
      Passes (stage :: rest) markup c last e

/-- The contexts with which a page comes to be rendered: where it has no loader the one that it is
given, and else what a loader has left that neither failed nor wrote a response. -/
inductive Begins (p : Page) (c : Context) : Context → Prop
  | directly (bare : p.loader = none) : Begins p c c
  | loaded {load : Handler} {d : Context} (loads : p.loader = some load)
      (ran : load.on c = (.ok (), d)) (silent : d.isWritten = false) : Begins p c d

/-- The context that a page leaves when its markup is done: the markup is the response where there
is none yet. -/
def sent (markup : String) (c : Context) : Context :=
  if c.isWritten then c
  else { c with response := some ⟨200, [("content-type", "text/html; charset=utf-8")],
    markup.toUTF8⟩ }

/-- How a page ends, and the context that it leaves. -/
inductive Ends (p : Page) (c : Context) : Except Stop Unit → Context → Prop
  | unloaded {load : Handler} {stop : Stop} {d : Context} (loads : p.loader = some load)
      (ran : load.on c = (.error stop, d)) : Ends p c (.error stop) d
  | answered {load : Handler} {d : Context} (loads : p.loader = some load)
      (ran : load.on c = (.ok (), d)) (written : d.isWritten = true) : Ends p c (.ok ()) d
  | failed {before after : List Layout} {stage : Layout} {markup : String}
      {stop : Stop} {d e left : Context}
      (begins : p.Begins c d) (steps : p.stages = before ++ stage :: after)
      (passed : Passes before "" d markup e)
      (ran : (stage markup).on e = (.error stop, left)) : Ends p c (.error stop) left
  | rendered {markup : String} {d e : Context} (begins : p.Begins c d)
      (passed : Passes p.stages "" d markup e) :
      Ends p c (.ok ()) (sent markup e)

/-! ## Runs of stages -/

theorem on_bind_of_ok {α β : Type} {first : Action α} {more : α → Action β} {a : α} {c d : Context}
    (ran : first.on c = (.ok a, d)) : (first >>= more).on c = (more a).on d := by
  change first c = (.ok a, d) at ran
  change (first >>= more) c = more a d
  simp only [bind, ExceptT.bind, ExceptT.mk, StateT.bind, ran]
  rfl

theorem on_bind_of_error {α β : Type} {first : Action α} {more : α → Action β} {stop : Stop}
    {c d : Context}
    (ran : first.on c = (.error stop, d)) : (first >>= more).on c = (.error stop, d) := by
  change first c = (.error stop, d) at ran
  change (first >>= more) c = (.error stop, d)
  simp only [bind, ExceptT.bind, ExceptT.mk, StateT.bind, ran]
  rfl

/-- Markup through all of some stages. -/
def through (stages : List Layout) (markup : String) : Action String :=
  stages.foldlM (fun markup stage => stage markup) markup

/-- Stages give markup if all of them do. -/
theorem through_on_eq_ok_iff {stages : List Layout} {markup last : String} {c e : Context} :
    (through stages markup).on c = (.ok last, e) ↔ Passes stages markup c last e := by
  induction stages generalizing markup c with
  | nil =>
    constructor
    · intro ran
      cases ran
      exact .nil _ _
    · intro passed
      cases passed
      rfl
  | cons stage rest ih =>
    rw [through, List.foldlM_cons]
    constructor
    · intro ran
      rcases first : (stage markup).on c with ⟨result, d⟩
      cases result with
      | error stop =>
        rw [on_bind_of_error first] at ran
        cases ran
      | ok next =>
        rw [on_bind_of_ok first] at ran
        exact .cons first (ih.1 ran)
    · intro passed
      cases passed with
      | cons first more =>
        rw [on_bind_of_ok first]
        exact ih.2 more

/-- Stages fail as the first of them that does, behind others that have succeeded. -/
theorem through_on_eq_error_iff {stages : List Layout} {markup : String} {stop : Stop}
    {c left : Context} :
    (through stages markup).on c = (.error stop, left) ↔
      ∃ before stage after given d, stages = before ++ stage :: after ∧
      Passes before markup c given d ∧
        (stage given).on d = (.error stop, left) := by
  induction stages generalizing markup c with
  | nil =>
    constructor
    · intro ran
      cases ran
    · rintro ⟨before, stage, after, -, -, none', -, -⟩
      simp at none'
  | cons stage rest ih =>
    rw [through, List.foldlM_cons]
    rcases first : (stage markup).on c with ⟨result, d⟩
    constructor
    · intro ran
      cases result with
      | error other =>
        rw [on_bind_of_error first] at ran
        cases ran
        exact ⟨[], stage, rest, markup, c, rfl, .nil _ _, first⟩
      | ok next =>
        rw [on_bind_of_ok first] at ran
        obtain ⟨before, failing, after, given, e, rfl, passed, fails⟩ := ih.1 ran
        exact ⟨stage :: before, failing, after, given, e, rfl, .cons first passed, fails⟩
    · rintro ⟨before, failing, after, given, e, steps, passed, fails⟩
      cases passed with
      | nil =>
        cases steps
        rw [fails] at first
        cases first
        exact on_bind_of_error fails
      | cons ran more =>
        cases steps
        rw [on_bind_of_ok ran]
        exact ih.2 ⟨_, failing, after, given, e, rfl, more, fails⟩

/-! ## The handler of a page -/

variable {p : Page} {c : Context}

theorem html_eq_sent (markup : String) (c : Context) :
    (if c.isWritten then c else c.html 200 markup) = sent markup c := by
  unfold sent
  split
  · rfl
  · next silent =>
    have none' : c.response = none := by simpa [Context.isWritten] using silent
    simp [Context.html, Context.write, none', Http.Response.html, Http.Response.new,
      Http.Response.withHeader, Http.Response.withBody]

/-- Rendering runs the stages and sends what they give. -/
theorem rendered_eq (p : Page) :
    p.rendered = through p.stages "" >>= fun markup => modify (sent markup) := by
  have stages : through p.stages "" = p.render >>= through p.layouts.reverse := by
    rw [through, Page.stages, List.foldlM_cons]
    rfl
  rw [stages, bind_assoc, rendered]
  simp only [html_eq_sent]
  rfl

theorem rendered_on_of_passes {markup : String} {d e : Context}
    (passed : Passes p.stages "" d markup e) :
    p.rendered.on d = (.ok (), sent markup e) := by
  rw [rendered_eq, on_bind_of_ok (through_on_eq_ok_iff.2 passed)]
  rfl

theorem rendered_on_of_fails {before after : List Layout} {stage : Layout} {markup : String}
    {stop : Stop}
    {d e left : Context} (steps : p.stages = before ++ stage :: after)
    (passed : Passes before "" d markup e)
    (ran : (stage markup).on e = (.error stop, left)) : p.rendered.on d = (.error stop, left) := by
  rw [rendered_eq]
  exact on_bind_of_error
    (through_on_eq_error_iff.2 ⟨before, stage, after, markup, e, steps, passed, ran⟩)

/-- Where a page begins to be rendered it ends as its rendering does. -/
theorem endpoint_on_of_begins {d : Context} (begins : p.Begins c d) :
    p.endpoint.on c = p.rendered.on d := by
  cases begins with
  | directly bare => simp only [endpoint, bare]
  | loaded loads ran silent =>
    simp only [endpoint, loads]
    rw [on_bind_of_ok ran]
    change (if d.isWritten then pure () else p.rendered : Handler).on d = p.rendered.on d
    rw [silent]
    rfl

/-- A page ends in every way that is said of it. -/
theorem endpoint_on_of_ends {result : Except Stop Unit} {left : Context}
    (ends : p.Ends c result left) :
    p.endpoint.on c = (result, left) := by
  cases ends with
  | unloaded loads ran =>
    simp only [endpoint, loads]
    exact on_bind_of_error ran
  | answered loads ran written =>
    simp only [endpoint, loads]
    rw [on_bind_of_ok ran]
    change (if left.isWritten then pure () else p.rendered : Handler).on left = (.ok (), left)
    rw [written]
    rfl
  | failed begins steps passed ran =>
    rw [endpoint_on_of_begins begins, rendered_on_of_fails steps passed ran]
  | rendered begins passed => rw [endpoint_on_of_begins begins, rendered_on_of_passes passed]

/-- Rendering comes to an end, whatever it begins with. -/
theorem exists_ends_of_begins {d : Context} (begins : p.Begins c d) :
    ∃ result left, p.Ends c result left := by
  rcases ran : (through p.stages "").on d with ⟨stop | markup, e⟩
  · obtain ⟨before, stage, after, given, _, steps, passed, fails⟩ := through_on_eq_error_iff.1 ran
    exact ⟨_, _, .failed begins steps passed fails⟩
  · exact ⟨_, _, .rendered begins (through_on_eq_ok_iff.1 ran)⟩

/-- Every page ends in one of the ways, whatever context it is given. -/
theorem exists_ends (p : Page) (c : Context) : ∃ result left, p.Ends c result left := by
  cases loads : p.loader with
  | none => exact exists_ends_of_begins (.directly loads)
  | some load =>
    rcases ran : load.on c with ⟨stop | _, d⟩
    · exact ⟨_, _, .unloaded loads ran⟩
    · cases written : d.isWritten with
      | true => exact ⟨_, _, .answered loads ran written⟩
      | false => exact exists_ends_of_begins (.loaded loads ran written)

/-- A page with the same loader begins to be rendered with the same contexts. -/
theorem Begins.congr {q : Page} (same : q.loader = p.loader) {d : Context} (begins : p.Begins c d) :
    q.Begins c d := by
  cases begins with
  | directly bare => exact .directly (same.trans bare)
  | loaded loads ran silent => exact .loaded (same.trans loads) ran silent

/-- The GET handler of a page ends exactly as `Ends` says. Where its loader fails or writes a
response, neither the renderer nor the layouts are run: whatever they are, the handler does the
same. Where a stage fails, none of those behind it is run. -/
theorem lowered_page_iff (p : Page) (c : Context) :
    p.toRoute.method = .get ∧
    (∀ result left, p.toRoute.handler.on c = (result, left) ↔ p.Ends c result left) ∧
    (∀ load d, p.loader = some load →
      (∃ stop, load.on c = (.error stop, d)) ∨ load.on c = (.ok (), d) ∧ d.isWritten = true →
      ∀ q : Page, q.loader = p.loader → q.toRoute.handler.on c = p.toRoute.handler.on c) ∧
    ∀ before stage after markup stop d e left, p.Begins c d → p.stages = before ++ stage :: after →
      Passes before "" d markup e → (stage markup).on e = (.error stop, left) →
      ∀ q : Page, q.loader = p.loader → before ++ [stage] <+: q.stages →
        q.toRoute.handler.on c = p.toRoute.handler.on c := by
  have handler (q : Page) : q.toRoute.handler = q.endpoint := rfl
  refine ⟨rfl, ?_, ?_, ?_⟩
  · intro result left
    rw [handler]
    constructor
    · intro ran
      obtain ⟨result', left', ends⟩ := exists_ends p c
      cases ran.symm.trans (endpoint_on_of_ends ends)
      exact ends
    · exact endpoint_on_of_ends
  · intro load d loads stops q same
    rw [handler, handler]
    have loads' : q.loader = some load := same.trans loads
    obtain ⟨stop, ran⟩ | ⟨ran, written⟩ := stops
    · rw [endpoint_on_of_ends (.unloaded loads ran), endpoint_on_of_ends (.unloaded loads' ran)]
    · rw [endpoint_on_of_ends (.answered loads ran written),
        endpoint_on_of_ends (.answered loads' ran written)]
  · intro before stage after markup stop d e left begins steps passed ran q same within
    rw [handler, handler]
    obtain ⟨others, rest⟩ := within
    have steps' : q.stages = before ++ stage :: others := by rw [← rest]; simp
    rw [endpoint_on_of_ends (.failed begins steps passed ran),
      endpoint_on_of_ends (.failed (begins.congr same) steps' passed ran)]

end Waymark.Routing.Page
