import Waymark.Http.Method
import Waymark.Http.Query
import Waymark.Json.Printer
import Waymark.Text.Bindings

/-!
# Requests and responses

A request binds query parameters and headers to names, the last of several with one name counting.
A response lists its headers in the order in which they were added.
-/

namespace Waymark.Http

open Waymark.Text (Bindings)

/-- An ASCII letter in lower case; every other character as it is. -/
def lower (name : String) : String := String.ofList (name.toList.map Char.toLower)

/-- A request as the router sees it. -/
structure Request where
  method : Method
  path : String
  /-- Query parameters. -/
  query : Bindings String
  /-- Headers by lower-case name. -/
  headers : Bindings String
  body : ByteArray

namespace Request

/-- A request without parameters, headers and body. -/
def new (method : Method) (path : String) : Request :=
  ⟨method, path, .empty, .empty, ByteArray.empty⟩

/-- The request with the parameters of a raw query string. -/
def withQueryString (r : Request) (query : String) : Request :=
  { r with query := Bindings.ofList (Query.pairs query) }

/-- The request with one more header. -/
def withHeader (r : Request) (name value : String) : Request :=
  { r with headers := r.headers.set (lower name) value }

/-- The request with a body. -/
def withBody (r : Request) (body : ByteArray) : Request := { r with body := body }

/-- A header by name, letter case ignored. -/
def header? (r : Request) (name : String) : Option String := r.headers.get? (lower name)

end Request

/-- An answer. -/
structure Response where
  status : UInt16
  /-- Headers in the order in which they were added. -/
  headers : List (String × String)
  body : ByteArray

namespace Response

/-- An empty answer with a status. -/
def new (status : UInt16) : Response := ⟨status, [], ByteArray.empty⟩

/-- The answer with one more header at the end. -/
def withHeader (r : Response) (name value : String) : Response :=
  { r with headers := r.headers ++ [(name, value)] }

/-- The answer with another body. -/
def withBody (r : Response) (body : ByteArray) : Response := { r with body := body }

/-- A plain text. -/
def text (status : UInt16) (body : String) : Response :=
  ((new status).withHeader "content-type" "text/plain; charset=utf-8").withBody body.toUTF8

/-- A page of markup. -/
def html (status : UInt16) (markup : String) : Response :=
  ((new status).withHeader "content-type" "text/html; charset=utf-8").withBody markup.toUTF8

/-- A value as JSON. -/
def json (status : UInt16) (value : Json) : Response :=
  ((new status).withHeader "content-type" "application/json").withBody value.compact.toUTF8

/-- A redirect to another place. -/
def redirect (status : UInt16) (location : String) : Response :=
  (new status).withHeader "location" location

/-- The first header of a name, letter case ignored. -/
def header? (r : Response) (name : String) : Option String :=
  (r.headers.find? (fun h => lower h.1 = lower name)).map (·.2)

/-- The body as text, if it is UTF-8. -/
def bodyText? (r : Response) : Option String := Text.Utf8.decode? r.body

end Response

end Waymark.Http
