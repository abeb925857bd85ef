/-!
# Failures of a handler

A failure carries the status it turns into and the text of the answer.
-/

namespace Waymark.Http

/-- A failure with the status it should produce. -/
structure Fault where
  status : UInt16
  message : String
deriving DecidableEq

namespace Fault

/-- 400 Bad Request. -/
def badRequest (message : String) : Fault := ⟨400, message⟩

/-- 401 Unauthorized. -/
def unauthorized (message : String) : Fault := ⟨401, message⟩

/-- 403 Forbidden. -/
def forbidden (message : String) : Fault := ⟨403, message⟩

/-- 404 Not Found. -/
def notFound (message : String) : Fault := ⟨404, message⟩

/-- 500 Internal Server Error. -/
def internal (message : String) : Fault := ⟨500, message⟩

/-- The status and the message on one line. -/
def display (f : Fault) : String := toString f.status ++ " " ++ f.message

end Fault

end Waymark.Http
