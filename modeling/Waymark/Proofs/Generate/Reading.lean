import Waymark.Proofs.Generate.Statement
import Waymark.Proofs.Source.Tokens

/-!
# Reading the registering file

The registering file read token by token, as the language reads it: each statement builds a route or
a page by calls, or hands over a middleware or the proxy.

* `Call`, `RouteCall.called?`, `PageCall.called?`: what the calls on a route or a page set;
* `Reader.statement`: one statement;
* `readRegistration?`: the path that names are taken from, and the statements of the body.
-/

namespace Waymark.Generate

open Waymark.Http (Method)
open Waymark.Routing (priority)
open Waymark.Source (Delimiter)
open Waymark.Source.Lexer (Token tokens?)

/-- A call on a route or a page that is being built. -/
inductive Call where
  | file (text : String)
  | scope (text : String)
  | catchAll (name : String)
  | optional (flag : Bool)
  | priority (value : Nat)
  | loader (function : String)
  | layout (function : String)

/-- A route to which no call was made. -/
def RouteCall.new (method : Method) (pattern function : String) : RouteCall where
  method := method
  pattern := pattern
  function := function
  file := none
  scope := ""
  catchAll := none
  optional := false
  priority := Routing.priority pattern

/-- A page to which no call was made. -/
def PageCall.new (pattern function : String) : PageCall :=
  ⟨pattern, function, none, "", none, false, none, []⟩

/-- What a call does to a route; a precedence has to fit into a byte. -/
def RouteCall.called? (c : RouteCall) : Call → Option RouteCall
  | .file text => some { c with file := some text }
  | .scope text => some { c with scope := text }
  | .catchAll name => some { c with catchAll := some name }
  | .optional flag => some { c with optional := flag }
  | .priority value => if value < 256 then some { c with priority := value.toUInt8 } else none
  | .loader _ | .layout _ => none

/-- What a call does to a page; each layout goes inside those before it. -/
def PageCall.called? (c : PageCall) : Call → Option PageCall
  | .file text => some { c with file := some text }
  | .scope text => some { c with scope := text }
  | .catchAll name => some { c with catchAll := some name }
  | .optional flag => some { c with optional := flag }
  | .loader function => some { c with loader := some function }
  | .layout function => some { c with layouts := c.layouts ++ [function] }
  | .priority _ => none

/-- A reader of tokens. -/
abbrev Reader := StateT (List Token) Option

namespace Reader

/-- A reader of items, of which there are no more than tokens. -/
def bounded {α : Type} (items : Nat → Reader α) : Reader α := fun ts => items ts.length ts

/-- A certain word. -/
def word (name : String) : Reader Unit
  | .word n :: rest => if n = name then some ((), rest) else none
  | _ => none

/-- A certain mark. -/
def mark (symbol : Char) : Reader Unit
  | .mark c _ :: rest => if c = symbol then some ((), rest) else none
  | _ => none

/-- Two colons without a blank between them. -/
def colons : Reader Unit
  | .mark ':' true :: .mark ':' _ :: rest => some ((), rest)
  | _ => none

/-- An opening delimiter. -/
def opening (d : Delimiter) : Reader Unit
  | .opening d' :: rest => if d = d' then some ((), rest) else none
  | _ => none

/-- A closing delimiter. -/
def closing (d : Delimiter) : Reader Unit
  | .closing d' :: rest => if d = d' then some ((), rest) else none
  | _ => none

/-- Any word. -/
def name : Reader String
  | .word n :: rest => some (n, rest)
  | _ => none

/-- What a text literal stands for. -/
def text : Reader String
  | .literal .text ('"' :: written) :: rest =>
    match Source.Literal.valueFrom .plain written with
    | some (value, []) => some (String.ofList value, rest)
    | _ => none
  | _ => none

/-- A whole number. -/
def number : Reader Nat
  | .literal (.whole (some value)) _ :: rest => some (value, rest)
  | _ => none

/-- A truth value. -/
def flag : Reader Bool
  | .word "true" :: rest => some (true, rest)
  | .word "false" :: rest => some (false, rest)
  | _ => none

/-- A note that documents what follows. -/
def documentation : Reader Unit
  | .documentation _ :: rest => some ((), rest)
  | _ => none

/-- The name of an emitted function. -/
def function : Reader String := do
  word "handlers"
  colons
  name

/-- Names joined by double colons, with a bound on their number. -/
def path : Nat → Reader (List String)
  | fuel + 1, .word first :: .mark ':' true :: .mark ':' _ :: rest =>
    (path fuel rest).map fun found => (first :: found.1, found.2)
  | _ + 1, .word first :: rest => some ([first], rest)
  | _, _ => none

/-- One call, behind its point. -/
def call : Reader Call := do
  let called ← name
  opening .paren
  let made ← match called with
    | "file" => Call.file <$> text
    | "scope" => Call.scope <$> text
    | "catch_all_param" => Call.catchAll <$> text
    | "optional_catch_all" => Call.optional <$> flag
    | "priority" => Call.priority <$> number
    | "loader" => Call.loader <$> function
    | "layout" => Call.layout <$> function
    | _ => failure
  closing .paren
  return made

/-- Calls in a row, with a bound on their number. -/
def calls : Nat → Reader (List Call)
  | fuel + 1, .mark '.' _ :: rest =>
    (call rest).bind fun first =>
      (calls fuel first.2).map fun more => (first.1 :: more.1, more.2)
  | _ + 1, ts => some ([], ts)
  | 0, _ => none

/-- The calls up to the comma behind them; there are no more than tokens. -/
def allCalls : Reader (List Call) := do
  let made ← bounded calls
  mark ','
  return made

/-- A method by its variant. -/
def method : Reader Method := do
  word "Method"
  colons
  let variant ← name
  StateT.lift (Method.all.find? (·.variantName = variant))

/-- A route with its calls. -/
def route : Reader Statement := do
  word "Route"
  colons
  word "new"
  opening .paren
  let asked ← method
  mark ','
  let pattern ← text
  mark ','
  let handler ← function
  closing .paren
  let made ← allCalls
  StateT.lift ((made.foldlM RouteCall.called? (.new asked pattern handler)).map Statement.route)

/-- A page with its calls. -/
def page : Reader Statement := do
  word "Page"
  colons
  word "new"
  opening .paren
  let pattern ← text
  mark ','
  let renderer ← function
  closing .paren
  let made ← allCalls
  StateT.lift ((made.foldlM PageCall.called? (.new pattern renderer)).map Statement.page)

/-- What a middleware is handed over with. -/
def middleware : Reader Statement := do
  let pattern ← text
  mark ','
  let scope ← text
  mark ','
  return .middleware pattern scope (← function)

/-- One statement of the body. -/
def statement : Reader Statement := do
  match ← name with
  | "let" =>
    word "_"
    mark '='
    word "tree"
    mark ';'
    return .idle
  | "tree" =>
    mark '.'
    let called ← name
    opening .paren
    let made ← match called with
      | "add_route" => route
      | "add_page" => page
      | "add_middleware" => middleware
      | "set_proxy" => Statement.proxy <$> function
      | _ => failure
    closing .paren
    mark ';'
    return made
  | _ => failure

/-- The statements up to the brace that closes the body, with a bound on their number. -/
def statements : Nat → Reader (List Statement)
  | _ + 1, .closing .brace :: rest => some ([], .closing .brace :: rest)
  | fuel + 1, ts =>
    (statement ts).bind fun first =>
      (statements fuel first.2).map fun more => (first.1 :: more.1, more.2)
  | 0, _ => none

/-- The lint that is switched off for the whole file. -/
def allowance : Reader Unit := do
  mark '#'
  mark '!'
  opening .bracket
  word "allow"
  opening .paren
  word "unused_imports"
  closing .paren
  closing .bracket

/-- The import of what the statements build on. -/
def libraryImport : Reader Unit := do
  word "use"
  word "trellis"
  colons
  opening .brace
  word "Method"
  mark ','
  word "Page"
  mark ','
  word "Route"
  mark ','
  word "RouteTree"
  closing .brace
  mark ';'

/-- The first lines, which are the same in every file. -/
def front : Reader Unit := do
  allowance
  libraryImport

/-- The import of the emitted functions: the path that they lie at. -/
def functionsImport : Reader (List String) := do
  word "use"
  let found ← bounded path
  mark ';'
  return found

/-- The head of the registering function. -/
def head : Reader Unit := do
  documentation
  word "pub"
  word "fn"
  word "register"
  opening .paren
  word "tree"
  mark ':'
  mark '&'
  word "mut"
  word "RouteTree"
  closing .paren
  opening .brace

/-- A whole registering file. -/
def file : Reader (List String × List Statement) := do
  front
  let found ← functionsImport
  head
  let body ← bounded statements
  closing .brace
  return (found, body)

end Reader

/-- The path at which a registering file finds the emitted functions, and its statements. -/
def readRegistration? (text : String) : Option (List String × List Statement) := do
  let ts ← tokens? text.toList
  match Reader.file ts with
  | some (found, []) => some found
  | _ => none

end Waymark.Generate
