/-!
# TOML values

The values that a TOML document is made of, and tables while they are being filled.

* `Table.insert`: a key set below a path; every key is set once;
* `Table.openTable`, `Table.openElement`: where a header leads;
* `Table.toToml`: a filled table as a value.
-/

namespace Waymark

/-- A value of a TOML document. -/
inductive Toml where
  | string (value : String)
  | whole (value : Int)
  | fraction
  | boolean (value : Bool)
  | moment
  | array (elements : List Toml)
  | table (entries : List (String × Toml))

namespace Toml

/-- The value that some entries hold under a key. -/
def find (key : String) : List (String × Toml) → Option Toml
  | [] => none
  | (k, v) :: rest => if k = key then some v else find key rest

/-- The value that a table holds under a key. -/
def get? (key : String) : Toml → Option Toml
  | table entries => find key entries
  | _ => none

/-- The characters of a text. -/
def string? : Toml → Option String
  | string s => some s
  | _ => none

/-- Why a text is no document. -/
inductive Fault where
  | malformed
  /-- A key is set twice, or a table is opened twice. -/
  | duplicate (key : String)
  /-- A key leads through something that is no table. -/
  | notTable (key : String)

/-- The wording of a fault. -/
def Fault.message : Fault → String
  | malformed => "malformed document"
  | duplicate key => "duplicate key `" ++ key ++ "`"
  | notTable key => "`" ++ key ++ "` is not a table"

mutual

/-- A table that is being filled. It is implied when only a path through it made it, and dotted when
that path was the key of an entry. -/
inductive Table where
  | mk (implied dotted : Bool) (entries : List (String × Item))

/-- What a table holds under a key while it is being filled. -/
inductive Item where
  | value (v : Toml)
  | table (t : Table)
  /-- Tables that headers in double brackets make, the last of them first. -/
  | tables (last : Table) (before : List Table)

end

/-- What some entries hold under a key. -/
def findItem (key : String) : List (String × Item) → Option Item
  | [] => none
  | (k, item) :: rest => if k = key then some item else findItem key rest

/-- Entries with a key set. -/
def setItem (key : String) (item : Item) : List (String × Item) → List (String × Item)
  | [] => [(key, item)]
  | (k, old) :: rest =>
    if k = key then (k, item) :: rest else (k, old) :: setItem key item rest

namespace Table

/-- A table that a document or a header opens. -/
def fresh : Table := mk false false []

/-- Changes the table at the end of a path. Tables on the way are made where they are missing. The
flag says that the path is the key of an entry, which must not go through a table that a header
opened. -/
def descend (dotted : Bool) (change : Table → Except Fault Table) :
    List String → Table → Except Fault Table
  | [], t => change t
  | key :: rest, mk implied isDotted entries =>
    let set (item : Item) : Table := mk implied isDotted (setItem key item entries)
    match findItem key entries with
    | none => (descend dotted change rest (mk true dotted [])).map fun t => set (.table t)
    | some (.value _) => .error (.notTable key)
    | some (.tables last before) =>
      (descend dotted change rest last).map fun t => set (.tables t before)
    | some (.table (mk childImplied childDotted childEntries)) =>
      if dotted && !childImplied then .error (.duplicate key)
      else (descend dotted change rest (mk childImplied childDotted childEntries)).map
        fun t => set (.table t)

/-- Sets a key of a table. A key with a path is set in a table that only such paths made. -/
def insert (path : List String) (key : String) (value : Toml) (t : Table) : Except Fault Table :=
  descend true (fun
    | mk implied dotted entries =>
      if dotted = path.isEmpty then .error (.duplicate key)
      else match findItem key entries with
        | some _ => .error (.duplicate key)
        | none => .ok (mk implied dotted (setItem key (.value value) entries))) path t

/-- Opens the table that a header names, and fills it. -/
def openTable (path : List String) (key : String) (fill : Table → Except Fault Table) (t : Table) :
    Except Fault Table :=
  descend false (fun
    | mk implied dotted entries => do
      let start ← match findItem key entries with
        | none => pure fresh
        | some (.table (mk true false found)) => pure (mk false false found)
        | some _ => throw (.duplicate key)
      return mk implied dotted (setItem key (.table (← fill start)) entries)) path t

/-- Opens one more of the tables that a header in double brackets names, and fills it. -/
def openElement (path : List String) (key : String) (fill : Table → Except Fault Table)
    (t : Table) :
    Except Fault Table :=
  descend false (fun
    | mk implied dotted entries => do
      let before ← match findItem key entries with
        | none => pure []
        | some (.tables last before) => pure (last :: before)
        | some _ => throw (.duplicate key)
      return mk implied dotted (setItem key (.tables (← fill fresh) before) entries)) path t

end Table

mutual

/-- A filled table as a value. -/
def Table.toToml : Table → Toml
  | .mk _ _ entries => .table (entryValues entries)

/-- What a filled table holds, as a value. -/
def Item.toToml : Item → Toml
  | .value v => v
  | .table t => t.toToml
  | .tables last before => .array ((tableValues before).reverse ++ [last.toToml])

/-- The values of entries. -/
def entryValues : List (String × Item) → List (String × Toml)
  | [] => []
  | (k, item) :: rest => (k, item.toToml) :: entryValues rest

/-- The values of tables. -/
def tableValues : List Table → List Toml
  | [] => []
  | t :: rest => t.toToml :: tableValues rest

end

end Toml

end Waymark
