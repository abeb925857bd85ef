import Waymark.Handling.Handler

/-!
# Operations on a context

The code of an application reaches the context of a request through a few operations. Whatever it
does with them, it leaves behind what the operations it has done leave behind, one after the other:

* `Operation`: what can be done with a context, and `Operation.perform` what becomes of it;
* `Operation.answer`: the first writing operation, and all headers set beside it;
* `intoResponse_performAll`: a run of operations is answered so, in whatever order they come;
* `Code`: code made of operations, `Code.run` what it has done, and `Code.action` what it is to
  others.
-/

namespace Waymark.Handling

open Waymark.Http (Request Response Fault)

/-- An operation on the context of a request. -/
inductive Operation where
  | write (response : Response)
  | text (status : UInt16) (body : String)
  | html (status : UInt16) (markup : String)
  | json (status : UInt16) (value : Json)
  | redirect (status : UInt16) (location : String)
  | status (status : UInt16)
  | fail (fault : Fault)
  | setHeader (name value : String)
  | setLocal (name : String) (value : Json)
  /-- Reads a parameter, a header, the body or anything else; what is there may be malformed. -/
  | read (look : Context → Except Fault Json)
  /-- The router copies a wildcard capture to the route's own name. -/
  | expose (name : String)

namespace Operation

/-- What becomes of a context. -/
def perform (c : Context) : Operation → Context
  | write response => c.write response
  | text s body => c.text s body
  | html s markup => c.html s markup
  | json s value => c.json s value
  | redirect s location => c.redirect s location
  | status s => c.status s
  | fail fault => c.fail fault
  | setHeader name value => c.setHeader name value
  | setLocal name value => c.setLocal name value
  | read _ => c
  | expose name => c.exposeWildcard name

/-- What the code gets from an operation; only reading gives a value or fails. -/
def result (c : Context) : Operation → Except Stop Json
  | read look =>
    match look c with
    | .ok value => .ok value
    | .error fault => .error (.fault fault)
  | _ => .ok .null

/-- Does operations one after the other. -/
def performAll (ops : List Operation) (c : Context) : Context := ops.foldl perform c

/-- The response that an operation writes. -/
def written? : Operation → Option Response
  | write response => some response
  | text s body => some (.text s body)
  | html s markup => some (.html s markup)
  | json s value => some (.json s value)
  | redirect s location => some (.redirect s location)
  | status s => some (.new s)
  | fail fault => some (.text fault.status fault.message)
  | setHeader _ _ | setLocal _ _ | read _ | expose _ => none

/-- The header that an operation sets beside the response. -/
def header? : Operation → Option (String × String)
  | setHeader name value => some (name, value)
  | _ => none

/-- The answer after some operations: that of the first that writes, or an empty 200 if none does,
and behind its headers all those that were set, before or after it. -/
def answer (ops : List Operation) : Response :=
  let first := (ops.findSome? written?).getD (.new 200)
  ⟨first.status, first.headers ++ ops.filterMap header?, first.body⟩

end Operation

open Operation

/-- A context has become another one by operations, as far as the answer goes. -/
structure Writes (ops : List Operation) (c c' : Context) : Prop where
  response : c'.response = c.response.or (ops.findSome? written?)
  headers : c'.extraHeaders = c.extraHeaders ++ ops.filterMap header?

theorem Writes.refl (c : Context) : Writes [] c c := ⟨by simp, by simp⟩

theorem Writes.trans {ops more : List Operation} {c d e : Context} (h : Writes ops c d)
    (k : Writes more d e) : Writes (ops ++ more) c e where
  response := by
    rw [k.response, h.response, Option.or_assoc, List.findSome?_append]
  headers := by
    rw [k.headers, h.headers, List.append_assoc, List.filterMap_append]

/-- A fresh context is answered by what was done with it. -/
theorem Writes.intoResponse {ops : List Operation} {request : Request} {c : Context}
    (h : Writes ops (.new request) c) : c.intoResponse = answer ops := by
  have response : c.response = ops.findSome? written? := by simp [h.response, Context.new]
  have headers : c.extraHeaders = ops.filterMap header? := by simp [h.headers, Context.new]
  simp [Context.intoResponse, answer, response, headers]

/-- Something was written if and only if one of the operations writes. -/
theorem Writes.isWritten_iff {ops : List Operation} {request : Request} {c : Context}
    (h : Writes ops (.new request) c) : c.isWritten = true ↔ ∃ op ∈ ops, op.written?.isSome := by
  have response : c.response = ops.findSome? written? := by simp [h.response, Context.new]
  rw [Context.isWritten, response, List.findSome?_isSome_iff]

/-- A failure is a response like any other. -/
theorem fail_eq_write (c : Context) (fault : Fault) :
    c.fail fault = c.write (.text fault.status fault.message) := by
  unfold Context.fail Context.isWritten Context.write
  cases c.response <;> rfl

/-- An operation that writes does nothing else. -/
theorem perform_of_written {op : Operation} {response : Response}
    (writes : op.written? = some response)
    (c : Context) : op.perform c = c.write response ∧ op.header? = none := by
  cases op with
  | fail fault =>
    cases writes
    exact ⟨fail_eq_write c fault, rfl⟩
  | setHeader | setLocal | read | expose => cases writes
  | _ =>
    cases writes
    exact ⟨rfl, rfl⟩

/-- An operation that writes nothing leaves the response alone. -/
theorem perform_of_silent {op : Operation} (silent : op.written? = none) (c : Context) :
    (op.perform c).response = c.response ∧
      (op.perform c).extraHeaders = c.extraHeaders ++ op.header?.toList := by
  cases op with
  | setHeader name value => exact ⟨rfl, rfl⟩
  | setLocal | read | expose => exact ⟨rfl, (List.append_nil _).symm⟩
  | _ => cases silent

/-- What one operation does to the answer: a response is written only where there is none. -/
theorem writes_perform (op : Operation) (c : Context) : Writes [op] c (op.perform c) := by
  cases writes : op.written? with
  | some response =>
    obtain ⟨same, noHeader⟩ := perform_of_written writes c
    rw [same]
    unfold Context.write
    split
    · next there => exact ⟨by simp [there], by simp [noHeader]⟩
    · next none => exact ⟨by simp [none, writes], by simp [noHeader]⟩
  | none =>
    obtain ⟨response, headers⟩ := perform_of_silent writes c
    exact ⟨by simp [response, writes], by cases named : op.header? <;> simp [headers, named]⟩

/-- What a whole run does to it. -/
theorem writes_performAll (ops : List Operation) (c : Context) :
    Writes ops c (performAll ops c) := by
  induction ops generalizing c with
  | nil => exact .refl c
  | cons op rest ih => exact (writes_perform op c).trans (ih (op.perform c))

/-- A run of operations on a fresh context is answered by the first that writes, with all headers
that were set. -/
theorem intoResponse_performAll (ops : List Operation) (request : Request) :
    (performAll ops (.new request)).intoResponse = answer ops :=
  (writes_performAll ops (.new request)).intoResponse

/-- Code that touches a context through operations alone. It may go on by what it read, stop early,
and catch what stopped a part of it. -/
inductive Code : Type → Type 1 where
  | done {α : Type} (a : α) : Code α
  | stop {α : Type} (s : Stop) : Code α
  | operation (op : Operation) : Code Json
  | next {α β : Type} (first : Code α) (more : α → Code β) : Code β
  | caught {α : Type} (first : Code α) (more : Stop → Code α) : Code α

/-- What has come of some code. -/
structure Outcome (α : Type) where
  /-- The operations that were done, in order. -/
  done : List Operation
  result : Except Stop α
  context : Context

namespace Code

/-- Runs code on a context. -/
def run {α : Type} : Code α → Context → Outcome α
  | done a, c => ⟨[], .ok a, c⟩
  | stop s, c => ⟨[], .error s, c⟩
  | operation op, c => ⟨[op], op.result c, op.perform c⟩
  | next first more, c =>
    match first.run c with
    | ⟨ops, .error s, c⟩ => ⟨ops, .error s, c⟩
    | ⟨ops, .ok a, c⟩ =>
      let behind := (more a).run c
      ⟨ops ++ behind.done, behind.result, behind.context⟩
  | caught first more, c =>
    match first.run c with
    | ⟨ops, .ok a, c⟩ => ⟨ops, .ok a, c⟩
    | ⟨ops, .error s, c⟩ =>
      let behind := (more s).run c
      ⟨ops ++ behind.done, behind.result, behind.context⟩

/-- Code as others call it. -/
def action {α : Type} (code : Code α) : Action α :=
  .of fun c => ((code.run c).result, (code.run c).context)

/-- Code leaves what the operations it has done leave. -/
theorem context_run {α : Type} (code : Code α) (c : Context) :
    (code.run c).context = performAll (code.run c).done c := by
  induction code generalizing c with
  | done a => rfl
  | stop s => rfl
  | operation op => rfl
  | next first more ihFirst ihMore =>
    have before := ihFirst c
    unfold run
    generalize first.run c = outcome at before
    obtain ⟨ops, result, c'⟩ := outcome
    obtain rfl : c' = performAll ops c := before
    cases result with
    | error s => rfl
    | ok a =>
      show ((more a).run (performAll ops c)).context = performAll (ops ++ _) c
      rw [ihMore a, performAll, performAll, performAll, List.foldl_append]
  | caught first more ihFirst ihMore =>
    have before := ihFirst c
    unfold run
    generalize first.run c = outcome at before
    obtain ⟨ops, result, c'⟩ := outcome
    obtain rfl : c' = performAll ops c := before
    cases result with
    | ok a => rfl
    | error s =>
      show ((more s).run (performAll ops c)).context = performAll (ops ++ _) c
      rw [ihMore s, performAll, performAll, performAll, List.foldl_append]

theorem writes_run {α : Type} (code : Code α) (c : Context) :
    Writes (code.run c).done c (code.run c).context := by
  rw [code.context_run c]
  exact writes_performAll _ c

theorem on_action {α : Type} (code : Code α) (c : Context) :
    code.action.on c = ((code.run c).result, (code.run c).context) := rfl

theorem action_next {α β : Type} (first : Code α) (more : α → Code β) :
    (next first more).action = first.action >>= fun a => (more a).action := by
  funext c
  have begins : first.action c = ((first.run c).result, (first.run c).context) := rfl
  show ((run (next first more) c).result, (run (next first more) c).context) =
    (first.action >>= fun a => (more a).action) c
  simp only [run, bind, ExceptT.bind, ExceptT.mk, StateT.bind]
  rw [begins]
  generalize first.run c = outcome
  obtain ⟨ops, result, c'⟩ := outcome
  cases result <;> rfl

end Code

end Waymark.Handling
