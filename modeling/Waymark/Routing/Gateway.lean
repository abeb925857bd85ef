import Waymark.Routing.Mux

/-!
# The gateway

Requests as they come over the wire, answered by a mux. The method is checked before the size of the
body. A panic of a handler, a status outside three digits and a header that the wire cannot carry
all become the gateway's own answer 500.

* `Target.ofText`: path and query of a request target;
* `answer`: the answer to one request, with its length added.
-/

namespace Waymark.Routing.Gateway

open Waymark.Http (Method Request Response)

/-- A request on the wire. -/
structure Incoming where
  /-- Any token. -/
  method : String
  target : String
  headers : List (String × ByteArray)
  body : ByteArray

/-- What a request target names. -/
structure Target where
  path : String
  query : String

namespace Target

/-- A target that begins with a path. -/
def ofPath (text : List Char) : Target :=
  let text := text.takeWhile (· ≠ '#')
  let path := text.takeWhile (· ≠ '?')
  ⟨if path.isEmpty then "/" else String.ofList path,
    String.ofList ((text.dropWhile (· ≠ '?')).drop 1)⟩

/-- What stands behind `://`. -/
def behindScheme? : List Char → Option (List Char)
  | [] => none
  | ':' :: '/' :: '/' :: rest => some rest
  | _ :: rest => behindScheme? rest

/-- Reads a target: a path, an address with a scheme, or the name of a host alone. -/
def ofText (target : String) : Target :=
  match target.toList with
  | '/' :: rest => ofPath ('/' :: rest)
  | ['*'] => ⟨"*", ""⟩
  | text =>
    match behindScheme? text with
    | some rest => ofPath (rest.dropWhile fun c => c ≠ '/' && c ≠ '?' && c ≠ '#')
    | none => ⟨"", ""⟩

end Target

/-- The largest body that is accepted, in bytes. -/
def maxBodySize : Nat := 1024 * 1024

/-- A byte of a header value that is passed on to handlers. -/
def isPlainByte (b : UInt8) : Bool := (0x20 ≤ b && b < 0x7F) || b = 0x09

/-- The headers that handlers see: those with plain values, the last of a name counting. -/
def withHeaders (request : Request) (headers : List (String × ByteArray)) : Request :=
  headers.foldl (fun request (name, value) =>
    if value.toList.all isPlainByte then
      match Text.Utf8.decode? value with
      | some text => request.withHeader name text
      | none => request
    else request) request

/-- A character of a header name. -/
def isTokenChar (c : Char) : Bool := c.isAlphanum || "!#$%&'*+-.^_`|~".toList.contains c

/-- A name the wire can carry. -/
def isHeaderName (name : String) : Bool := name ≠ "" && name.toList.all isTokenChar

/-- A value the wire can carry. -/
def isHeaderValue (value : String) : Bool :=
  value.toList.all fun c => (0x20 ≤ c.toNat && c.toNat ≠ 0x7F) || c = '\t'

/-- An answer the wire can carry. -/
def isSendable (r : Response) : Bool :=
  100 ≤ r.status && r.status ≤ 999 && r.headers.all fun h => isHeaderName h.1 && isHeaderValue h.2

/-- The gateway's own answer to what went wrong inside. -/
def internalError : Response := .text 500 "Internal Server Error"

/-- The answer before its length is added. -/
def respond (mux : Mux) (request : Incoming) : Response :=
  match Method.ofName? request.method with
  | none => .text 405 "Unsupported method"
  | some method =>
    if maxBodySize < request.body.size then .text 413 "Body too large"
    else
      let target := Target.ofText request.target
      let inner := withHeaders
        (((Request.new method target.path).withQueryString target.query).withBody request.body)
        request.headers
      match mux.dispatch inner with
      | .error _ => internalError
      | .ok response => if isSendable response then response else internalError

/-- The answer to one request: names in lower case and sorted, the length of the body added unless
it is given, and no body for HEAD. -/
def answer (mux : Mux) (request : Incoming) : Response :=
  let response := respond mux request
  let headers := response.headers.map fun h => (Http.lower h.1, h.2)
  let headers :=
    if headers.any fun h => h.1 = "content-length" then headers
    else headers ++ [("content-length", toString response.body.size)]
  { status := response.status
    headers := headers.mergeSort fun a b => a.1 ≤ b.1
    body := if request.method = "HEAD" then ByteArray.empty else response.body }

end Waymark.Routing.Gateway
