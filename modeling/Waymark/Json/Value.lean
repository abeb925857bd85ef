/-!
# JSON values

Numbers are whole where they were written so and fit 64 bits, and binary fractions otherwise. The
members of an object are written in the order in which they are kept. An object that was read from a
text or made by `Json.ofMembers` keeps them in ascending order of their names, each name once, so
equal objects of that kind are equal values.
-/

namespace Waymark

/-- A number of a JSON text. -/
inductive Json.Number where
  | whole (i : Int)
  | fraction (x : Float)

/-- A JSON value. -/
inductive Json where
  | null
  | bool (b : Bool)
  | number (n : Json.Number)
  | string (s : String)
  | array (items : List Json)
  | object (members : List (String × Json))

namespace Json

/-- Members with one more, in ascending order of the names; a member of the same name is
replaced. -/
def insertMember (name : String) (value : Json) : List (String × Json) → List (String × Json)
  | [] => [(name, value)]
  | (n, v) :: rest =>
    if name < n then (name, value) :: (n, v) :: rest
    else if name = n then (name, value) :: rest
    else (n, v) :: insertMember name value rest

/-- An object from its members; the last of several with one name counts. -/
def ofMembers (members : List (String × Json)) : Json :=
  .object (members.foldl (fun done m => insertMember m.1 m.2 done) [])

/-- A natural number as a value. -/
def ofNat (n : Nat) : Json := .number (.whole n)

/-- The text of a string value. -/
def asString? : Json → Option String
  | .string s => some s
  | _ => none

/-- The member of an object with the given name. -/
def member? (name : String) : Json → Option Json
  | .object members => members.lookup name
  | _ => none

end Json

end Waymark
