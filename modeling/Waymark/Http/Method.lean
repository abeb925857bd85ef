import Waymark.Text.Padded

/-!
# Request methods

The seven methods a route can answer, in the order in which handlers are looked up. Each has its
name on the wire and the name of the function that answers it in a `route.rs` file.
-/

namespace Waymark.Http

/-- A method a route can be registered for. -/
inductive Method where
  | get
  | post
  | put
  | patch
  | delete
  | head
  | options
deriving DecidableEq

namespace Method

/-- Every method, in look-up order. -/
def all : List Method := [get, post, put, patch, delete, head, options]

/-- The position in look-up order, which is also the sort order. -/
def rank : Method → Nat
  | get => 0
  | post => 1
  | put => 2
  | patch => 3
  | delete => 4
  | head => 5
  | options => 6

/-- The name on the wire. -/
def wireName : Method → String
  | get => "GET"
  | post => "POST"
  | put => "PUT"
  | patch => "PATCH"
  | delete => "DELETE"
  | head => "HEAD"
  | options => "OPTIONS"

/-- The function a `route.rs` file exports for the method. -/
def handlerName : Method → String
  | get => "get"
  | post => "post"
  | put => "put"
  | patch => "patch"
  | delete => "delete"
  | head => "head"
  | options => "options"

/-- The variant of the method as a bare name. -/
def variantName : Method → String
  | get => "Get"
  | post => "Post"
  | put => "Put"
  | patch => "Patch"
  | delete => "Delete"
  | head => "Head"
  | options => "Options"

/-- The variant as it is named in generated code. -/
def variantPath (m : Method) : String := "Method::" ++ m.variantName

/-- An ASCII letter in upper case; every other character as it is. -/
def upper (name : String) : String := String.ofList (name.toList.map Char.toUpper)

/-- Reads a method by its wire name, letter case ignored. -/
def ofName? (name : String) : Option Method :=
  all.find? (fun m => m.wireName = upper name)

/-- What is said about a name that is no method. -/
def unsupported (name : String) : String := "unsupported HTTP method: " ++ name

end Method

end Waymark.Http
