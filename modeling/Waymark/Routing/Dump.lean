import Waymark.Routing.Table
import Waymark.Text.Quoted

/-!
# Dumps

The table and its parts on one line, for diagnostics. Functions cannot be shown; where a value holds
some, the dump of its fields ends in two points.
-/

namespace Waymark.Routing

/-- A value with its fields, and whether it has more than are shown. -/
def dumpFields (name : String) (more : Bool) (fields : List (String × String)) : String :=
  name ++ " \x7b " ++ ", ".intercalate (fields.map fun f => f.1 ++ ": " ++ f.2)
    ++ (if more then ", .. \x7d" else " \x7d")

/-- Items between brackets. -/
def dumpList (items : List String) : String := "[" ++ ", ".intercalate items ++ "]"

/-- A text that may be absent. -/
def dumpOptional : Option String → String
  | none => "None"
  | some s => "Some(" ++ Text.quoted s ++ ")"

/-- A truth value. -/
def dumpFlag (b : Bool) : String := if b then "true" else "false"

/-- A route without its functions. -/
def Route.dump (r : Route) : String :=
  dumpFields "Route" true
    [("pattern", Text.quoted r.pattern),
     ("method", r.method.variantName),
     ("file_path", dumpOptional r.file),
     ("scope", Text.quoted r.scope),
     ("priority", toString r.priority),
     ("catch_all_param", dumpOptional r.catchAllParam),
     ("optional_catch_all", dumpFlag r.optionalCatchAll),
     ("middlewares", toString r.middleware.length)]

/-- A page without its functions. -/
def Page.dump (p : Page) : String :=
  dumpFields "Page" true
    [("pattern", Text.quoted p.pattern),
     ("file_path", dumpOptional p.file),
     ("scope", Text.quoted p.scope),
     ("loader", dumpFlag p.loader.isSome),
     ("layouts", toString p.layouts.length)]

/-- A conflict. -/
def RouteConflict.dump (c : RouteConflict) : String :=
  dumpFields "RouteConflict" false
    [("pattern", Text.quoted c.pattern),
     ("method", c.method.variantName),
     ("first", dumpOptional c.first),
     ("second", dumpOptional c.second)]

/-- The table: its routes as registered, the census of its middleware, and its conflicts. -/
def Table.dump (t : Table) : String :=
  dumpFields "RouteTree" false
    [("routes", dumpList (t.routes.map Route.dump)),
     ("middlewares", dumpList (t.census.map fun (pfx, scope, n) =>
        "(" ++ Text.quoted pfx ++ ", " ++ Text.quoted scope ++ ", " ++ toString n ++ ")")),
     ("proxy", dumpFlag t.proxy.isSome),
     ("conflicts", dumpList (t.conflicts.map RouteConflict.dump))]

end Waymark.Routing
