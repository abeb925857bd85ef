import Waymark.Source.File

/-!
# What a function has to look like

Every kind of marker file asks for functions of one shape. Types are told by the last name of their
path, so that it does not matter how they are imported:

* `Contract.expected`: the shape, as it is shown to the author of a file;
* `Contract.check`: the first respect in which a function differs from it.
-/

namespace Waymark.Scan

open Waymark.Source

/-- The shapes of functions. -/
inductive Contract where
  | handler
  | middleware
  | loader
  | proxy
  | page
  | layout
deriving DecidableEq

/-- How a function differs from the shape that is asked for. -/
inductive Mismatch where
  | isAsync
  | isGeneric
  | takesSelf
  | parameterCount (expected found : Nat)
  | firstNotContext
  | secondNotNext
  | secondNotHtml
  | noReturnType
  | notResult
  | wrongSuccess (expected : String)

/-- The wording of a mismatch. -/
def Mismatch.message : Mismatch → String
  | isAsync => "async functions are not supported"
  | isGeneric => "generic functions are not supported"
  | takesSelf => "functions taking `self` are not supported"
  | parameterCount expected found =>
    "expected " ++ toString expected ++ " parameter(s), found " ++ toString found
  | firstNotContext => "first parameter must be `&mut Context`"
  | secondNotNext => "second parameter must be `&Next`"
  | secondNotHtml => "second parameter must be `Html`"
  | noReturnType => "missing return type, expected `Result<..>`"
  | notResult => "return type must be `Result<..>`"
  | wrongSuccess expected => "return type must be `Result<" ++ expected ++ ">`"

/-- The type is a path that ends in the name, parentheses around it apart. -/
def isNamed (name : String) : Ty → Bool
  | .path false _ segments => (segments.getLast?.map fun s => s.1) = some name
  | .paren inner => isNamed name inner
  | _ => false

/-- The type is a reference to what has the name. -/
def isReferenceTo (name : String) (isMutable : Bool) : Ty → Bool
  | .reference isMut target => isMut = isMutable && isNamed name target
  | _ => false

/-- The type is the empty tuple. -/
def isUnit : Ty → Bool
  | .tuple 0 => true
  | _ => false

/-- The first type between the angle brackets of a result. -/
def successOf : Ty → Option Ty
  | .path _ _ segments =>
    match segments.getLast? with
    | some ("Result", .generic arguments) => arguments.findSome? id
    | _ => none
  | _ => none

namespace Contract

/-- The shape as it is shown. -/
def expected : Contract → String
  | handler | loader => "fn(ctx: &mut Context) -> Result<()>"
  | middleware => "fn(ctx: &mut Context, next: &Next) -> Result<()>"
  | proxy => "fn(ctx: &mut Context) -> Result<ProxyAction>"
  | page => "fn(ctx: &mut Context) -> Result<Html>"
  | layout => "fn(ctx: &mut Context, children: Html) -> Result<Html>"

/-- How many parameters the function takes. -/
def arity : Contract → Nat
  | middleware | layout => 2
  | handler | loader | proxy | page => 1

/-- The name of the type of success; without one it is the empty tuple. -/
def success? : Contract → Option String
  | proxy => some "ProxyAction"
  | page | layout => some "Html"
  | handler | middleware | loader => none

/-- The type is the one of success. -/
def isSuccess (c : Contract) (type : Ty) : Bool :=
  match c.success? with
  | some name => isNamed name type
  | none => isUnit type

/-- How the second parameter differs, where there is one. -/
def checkSecond (c : Contract) (second? : Option Ty) : Option Mismatch :=
  match c, second? with
  | middleware, some type => if isReferenceTo "Next" false type then none else some .secondNotNext
  | layout, some type => if isNamed "Html" type then none else some .secondNotHtml
  | _, _ => none

/-- How the return type differs. -/
def checkOutput (c : Contract) : Option Ty → Except Mismatch Unit
  | none => .error .noReturnType
  | some type =>
    match successOf type with
    | none => .error .notResult
    | some success =>
      if c.isSuccess success then .ok () else .error (.wrongSuccess (c.success?.getD "()"))

/-- The types of parameters, when none is a receiver. -/
def typesOf : List Parameter → Option (List Ty)
  | [] => some []
  | .receiver :: _ => none
  | .typed type :: rest => (typesOf rest).map (type :: ·)

/-- The first respect in which the head of a function differs from the shape. -/
def check (c : Contract) (s : Signature) : Except Mismatch Unit :=
  if s.isAsync then .error .isAsync
  else if s.genericCount ≠ 0 then .error .isGeneric
  else match typesOf s.parameters with
    | none => .error .takesSelf
    | some types =>
      if types.length ≠ c.arity then .error (.parameterCount c.arity types.length)
      else if !((types.head?.map (isReferenceTo "Context" true)).getD false) then
        .error .firstNotContext
      else match c.checkSecond types[1]? with
        | some mismatch => .error mismatch
        | none => c.checkOutput s.output

end Contract

end Waymark.Scan
