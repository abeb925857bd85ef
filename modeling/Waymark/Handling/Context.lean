import Waymark.Http.Fault
import Waymark.Http.Message
import Waymark.Json.Reader

/-!
# The state of one request

A context accepts exactly one response. `write` keeps the first response and ignores every later
one, `fail` writes a failure only while nothing has been written, and headers set on the side are
added behind those of the response whenever they were set.
-/

namespace Waymark.Handling

open Waymark.Http (Request Response Fault Method)
open Waymark.Text (Bindings)

/-- The state handed to handlers, middleware, loaders and pages. -/
structure Context where
  request : Request
  /-- Path parameters. -/
  params : Bindings String
  /-- Values left for later handlers. -/
  locals : Bindings Json
  /-- Headers for whatever response is written. -/
  extraHeaders : List (String × String)
  response : Option Response

namespace Context

/-- The name under which a wildcard capture is stored. -/
def wildcardParam : String := "*"

/-- A request at its beginning. -/
def new (request : Request) : Context := ⟨request, .empty, .empty, [], none⟩

/-- The method of the request. -/
def method (c : Context) : Method := c.request.method

/-- The path of the request, after the proxy changed it. -/
def path (c : Context) : String := c.request.path

/-- A path parameter. -/
def param? (c : Context) (name : String) : Option String := c.params.get? name

/-- A query parameter. -/
def query? (c : Context) (name : String) : Option String := c.request.query.get? name

/-- A request header. -/
def header? (c : Context) (name : String) : Option String := c.request.header? name

/-- A value left by an earlier handler. -/
def local? (c : Context) (name : String) : Option Json := c.locals.get? name

/-- The body as text. -/
def bodyText (c : Context) : Except Fault String :=
  match Text.Utf8.decode c.request.body with
  | .ok s => .ok s
  | .error flaw => .error (.badRequest ("body is not valid UTF-8: " ++ flaw.message))

/-- The body as a JSON value. -/
def bodyJson (c : Context) : Except Fault Json :=
  match Json.read c.request.body with
  | .ok v => .ok v
  | .error fault => .error (.badRequest ("invalid JSON body: " ++ fault.message))

/-- Leaves a value for later handlers. -/
def setLocal (c : Context) (name : String) (value : Json) : Context :=
  { c with locals := c.locals.set name value }

/-- Adds a header to whatever response is written. -/
def setHeader (c : Context) (name value : String) : Context :=
  { c with extraHeaders := c.extraHeaders ++ [(name, value)] }

/-- Something has been written. -/
def isWritten (c : Context) : Bool := c.response.isSome

/-- Writes a response; only the first one of a request counts. -/
def write (c : Context) (response : Response) : Context :=
  match c.response with
  | some _ => c
  | none => { c with response := some response }

/-- Writes an empty response. -/
def status (c : Context) (status : UInt16) : Context := c.write (.new status)

/-- Writes a plain text. -/
def text (c : Context) (status : UInt16) (body : String) : Context := c.write (.text status body)

/-- Writes a page of markup. -/
def html (c : Context) (status : UInt16) (markup : String) : Context :=
  c.write (.html status markup)

/-- Writes a value as JSON. -/
def json (c : Context) (status : UInt16) (value : Json) : Context := c.write (.json status value)

/-- Writes a redirect. -/
def redirect (c : Context) (status : UInt16) (location : String) : Context :=
  c.write (.redirect status location)

/-- Writes a failure as a plain text, unless a response is there already. -/
def fail (c : Context) (fault : Fault) : Context :=
  if c.isWritten then c else c.write (.text fault.status fault.message)

/-- The answer of a finished request; one that wrote nothing is an empty 200. -/
def intoResponse (c : Context) : Response :=
  let response := c.response.getD (.new 200)
  { response with headers := response.headers ++ c.extraHeaders }

/-- Sets all path parameters. -/
def setParams (c : Context) (params : Bindings String) : Context := { c with params := params }

/-- Goes on as if the request had been made to another path. -/
def reroute (c : Context) (path : String) : Context :=
  { c with request := { c.request with path := path } }

/-- Copies the wildcard capture to the route's own name; without a capture that is empty. -/
def exposeWildcard (c : Context) (name : String) : Context :=
  { c with params := c.params.set name ((c.params.get? wildcardParam).getD "") }

end Context

end Waymark.Handling
