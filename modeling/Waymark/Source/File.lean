import Waymark.Source.Grammar.File

/-!
# Source files

A text with the functions and imports found in it, and the exact text of each:

* `SourceFile.parse`: the file of a text, or the place at which the text breaks off;
* `SourceFile.extract`: the text of a function with its name marked in it;
* `Function.renamed`: the same text under another name.
-/

namespace Waymark.Source

/-- A text that could be read, with its items in order. -/
structure SourceFile where
  text : List Char
  items : List Item

/-- Where a text breaks off, line and column both counted from one. -/
structure ParseFailure where
  line : Nat
  column : Nat
deriving DecidableEq

/-- The text of a function, with the byte range of its name in it. -/
structure Function where
  name : String
  /-- The line of its name. -/
  line : Nat
  source : String
  nameStart : Nat
  nameStop : Nat

/-- The text of a function cannot be cut out: it would begin behind the name. -/
inductive ExtractFault where
  | nameBeforeStart

/-- The wording of a fault. -/
def ExtractFault.message : ExtractFault → String
  | nameBeforeStart => "attempt to subtract with overflow"

/-- The function's text with its name replaced. -/
def Function.renamed (f : Function) (newName : String) : String :=
  let text := f.source.toList
  String.ofList (takeBytes f.nameStart text) ++ newName
    ++ String.ofList (dropBytes f.nameStop text)

/-- The function is made known everywhere. -/
def FunctionItem.isExported (f : FunctionItem) : Bool :=
  match f.visibility with
  | .everywhere _ => true
  | .inherited | .within _ => false

/-- Where the text of an item begins: its first attribute, else the keyword of its visibility, else
its own keyword. -/
def startOf (attributes : List Position) (visibility : Visibility) (keyword : Position) :
    Position :=
  attributes.head?.getD (visibility.keyword?.getD keyword)

namespace SourceFile

/-- Reads a text. A byte order mark at its front is dropped. -/
def parse (text : String) : Except ParseFailure SourceFile :=
  let text := withoutByteOrderMark text.toList
  match itemsOf text with
  | .ok items => .ok ⟨text, items⟩
  | .error p => .error ⟨p.line, p.column + 1⟩

/-- The functions of the file itself, in order. -/
def functions (file : SourceFile) : List FunctionItem :=
  file.items.filterMap fun
    | .function f => some f
    | _ => none

/-- The first function of the file itself that has the name. -/
def function? (file : SourceFile) (name : String) : Option FunctionItem :=
  file.functions.find? (·.signature.name = name)

/-- The text of each import, in order. -/
def imports (file : SourceFile) : List String :=
  file.items.filterMap fun
    | .import i =>
      some (String.ofList
        (between file.text (startOf i.attributes i.visibility i.keyword) i.stop))
    | _ => none

/-- The text of a function from its first attribute, visibility or keyword to the end of its body. A
function whose only attributes open its body has no such text, for it would begin behind the
name. -/
def extract (file : SourceFile) (f : FunctionItem) : Except ExtractFault Function :=
  let start := startOf f.attributes f.visibility f.signature.keyword
  let base := offset file.text start
  let span := f.signature.nameSpan
  let nameStart := offset file.text span.start
  if nameStart < base then .error .nameBeforeStart
  else .ok {
    name := f.signature.name
    line := span.start.line
    source := String.ofList (between file.text start f.stop)
    nameStart := nameStart - base
    nameStop := offset file.text span.stop - base }

end SourceFile

end Waymark.Source
