import Waymark.Proofs.Source.Cut
import Waymark.Proofs.Source.Spots

/-!
# Functions and imports taken out of a file

Where an item stands in its file is told by spots of the text: a function by those of its name, of
the end of its body and of the sign with which it begins. So it can be taken out of the file as it
is written, unless its first attribute stands in its body, behind its name.

* `function_spots`, `import_spots`: where items stand;
* `extract_cases`: when a function can be taken out, and the cut that is taken;
* `exists_cut`, `standsAlone_renamed`, `exists_import`: the same of texts with at most one byte
  order mark at their front;
* `extract_verbatim`: what is taken out of any file that can be read.
-/

namespace Waymark.Source

open Waymark.Source.Grammar (FunctionTrees FunctionRun ImportRun)

/-! ## Where items stand -/

/-- The items of a file are read from rows of its text, at depths that suffice for them. -/
theorem exists_row {text : List Char} (places : TruePlaces text) {items : List Item}
    (read : itemsOf text = .ok items) : ∃ s e : Spot, s.text = text ∧ ∀ item ∈ items,
      ∃ (d : Nat) (i k : Input) (skipped : List Tree), Row s (skipped ++ i.trees) e ∧
        3 * tokenCount i.trees ≤ d ∧ (Grammar.atDepth d).itemRule.run i = .ok (item, k) ∧
          k.leftover = none := by
  obtain ⟨trees, lexed, runs⟩ := mem_items read
  obtain ⟨s, whole, same⟩ := places
  rw [same] at lexed
  obtain ⟨e, row, -⟩ := Lexer.row_of_lex lexed
  refine ⟨s, e, whole, ?_⟩
  intro item hi
  obtain ⟨d, i, k, ⟨skipped, rfl⟩, deep, run, done⟩ := runs item hi
  exact ⟨d, i, k, skipped, row, deep, run, done⟩

section
variable {g : Grammar} {i k : Input} {s e : Spot} {skipped : List Tree}

/-- Where a function stands, from the sign with which the item begins, unless its first attribute
stands in its body. Where its visibility has a keyword, no tree of the function stands before the
sign. -/
theorem function_spots {t : FunctionTrees} {f : FunctionItem} (row : Row s (skipped ++ i.trees) e)
    (run : FunctionRun g t i f k) :
    (∃ p ∈ f.attributes.head?, Shows t.content (.attribute .inner) p ∧
      ∃ front, Nonempty (FunctionSpots s front t f.signature.name f.signature.nameSpan)) ∨
    ∃ o front, o.text = s.text ∧
      Nonempty (FunctionSpots o front t f.signature.name f.signature.nameSpan) ∧
      startOf f.attributes f.visibility f.signature.keyword = o.place ∧
      (signOf f.attributes f.visibility "fn").At o.ahead ∧
      (f.visibility.keyword?.isSome → front = t.front ++ [.word "fn" t.keyword]) := by
  have trees : i.trees = t.front ++ [.word "fn" t.keyword] ++
      (t.fromName f.signature.name f.signature.nameSpan ++ k.trees) := by
    rw [run.trees, FunctionTrees.under]
    simp
  rw [trees] at row
  obtain ⟨p, first, inner⟩ | ⟨before, part, rest, split, is, whole⟩ := run.begins
  · rw [← List.append_assoc] at row
    exact .inl ⟨p, first, inner, _, exists_functionSpots row⟩
  · have cut : Row s (skipped ++ before ++ (part ++
        (rest ++ (t.fromName f.signature.name f.signature.nameSpan ++ k.trees)))) e := by
      rw [split] at row
      simpa using row
    obtain ⟨o, upTo, leads, behind, place, at_⟩ := cut.exists_begins is
    rw [← List.append_assoc] at behind
    refine .inr ⟨o, part ++ rest, leads.text, exists_functionSpots behind, place, at_, ?_⟩
    intro shown
    rw [split, whole shown, List.nil_append]

/-- Where an import stands, from the sign with which it begins to behind its semicolon. -/
theorem import_spots {front : List Tree} {joint : Bool} {span : Span} {m : ImportItem}
    (row : Row s (skipped ++ i.trees) e) (run : ImportRun g front joint span i m k) :
    ∃ (o q stop : Spot) (chars : List Char), o.text = s.text ∧ Row o front q ∧ Blanks q stop ∧
      stop.ahead.head? = some ';' ∧ o.Leads chars stop ∧
      startOf m.attributes m.visibility m.keyword = o.place ∧ m.stop = (stop.pass 1).place := by
  have unlike : ';' ≠ '!' := by decide
  obtain ⟨part, rest, split, is⟩ := run.begins
  obtain ⟨-, -, -, -, -, -, before, -, ended, stops⟩ := run
  have cut : Row s (skipped ++ (part ++ (rest ++ .mark ';' joint span :: k.trees))) e := by
    rw [before, ended, split] at row
    simpa using row
  obtain ⟨o, upTo, leads, behind, place, -⟩ := cut.exists_begins is
  rw [← List.append_assoc, ← split] at behind
  obtain ⟨q, names, last⟩ := behind.split (t := .mark ';' joint span) unlike
  obtain ⟨stop, gap, semicolon, rfl, -⟩ := last.mark (by decide)
  obtain ⟨chars, through⟩ := names.leads
  obtain ⟨blanks, skipped'⟩ := gap.leads
  exact ⟨o, q, stop, _, leads.text, names, gap, semicolon, through.trans skipped', place, stops⟩

end

/-- The first attribute of the function is written for what encloses it: it stands in the body. -/
def FunctionItem.OpensInside (f : FunctionItem) (text : List Char) : Prop :=
  ∃ p ∈ f.attributes.head?, styleAt (suffixAt text p) = some .inner

theorem mem_functions {file : SourceFile} {f : FunctionItem} (among : f ∈ file.functions) :
    .function f ∈ file.items := by
  obtain ⟨item, hi, kept⟩ := List.mem_filterMap.1 among
  cases item with
  | function g =>
    obtain rfl := Option.some_inj.1 kept
    exact hi
  | «import» m => cases kept
  | other => cases kept

/-- Under any name that it may have the function is an item by itself. -/
def Cut.Movable (c : Cut) : Prop :=
  ∀ name : String, Lexer.IsAsciiName name.toList → keywords.contains name = false →
    StandsAlone (c.under name.toList)

section
variable {file : SourceFile} {f : FunctionItem} {t : FunctionTrees} {s o : Spot} {front : List Tree}

/-- A function whose first attribute stands in its body would begin behind its name. -/
theorem extract_of_inner (p : FunctionSpots s front t f.signature.name f.signature.nameSpan)
    (whole : s.text = file.text) {q : Position} (first : q ∈ f.attributes.head?)
    (inner : Shows t.content (.attribute .inner) q) :
    f.OpensInside file.text ∧ file.extract f = .error .nameBeforeStart := by
  obtain ⟨upTo, leads⟩ := p.toName
  obtain ⟨head, toContent, some'⟩ := p.toContent
  obtain ⟨o, chars, toNote, rfl, style⟩ := p.content.shows inner
  have beyond := (Spot.Leads.pass p.name p.count).trans (toContent.trans toNote)
  have later : 0 < byteLength (p.name.ahead.take p.count ++ (head ++ chars)) :=
    byteLength_pos (by simp [some'])
  have whole' : o.text = file.text := by rw [beyond.text, leads.text, whole]
  refine ⟨⟨_, first, by rwa [← whole', o.suffixAt_place]⟩, ?_⟩
  have start : startOf f.attributes f.visibility f.signature.keyword = o.place := by
    rw [startOf, Option.mem_def.1 first, Option.getD_some]
  have name : f.signature.nameSpan.start = p.name.place := congrArg Span.start p.span
  have nameStart : offset file.text p.name.place = byteLength p.name.behind := by
    rw [← whole', beyond.text, p.name.offset_place]
  have base : offset file.text o.place =
      byteLength p.name.behind + byteLength (p.name.ahead.take p.count ++ (head ++ chars)) := by
    rw [← whole', o.offset_place, beyond.behind, byteLength_append]
  unfold SourceFile.extract
  rw [start]
  dsimp only
  rw [name, nameStart, base, if_pos (by omega)]

/-- A function that begins with a sign before its name begins with no attribute of its body. -/
theorem not_opensInside_of_sign (whole : o.text = file.text)
    (start : startOf f.attributes f.visibility f.signature.keyword = o.place)
    (sign : (signOf f.attributes f.visibility "fn").At o.ahead) : ¬ f.OpensInside file.text := by
  rintro ⟨q, first, style⟩
  have here : q = o.place := by
    rw [← start, startOf, Option.mem_def.1 first, Option.getD_some]
  rw [here, ← whole, o.suffixAt_place] at style
  cases attributes : f.attributes with
  | nil =>
    rw [attributes] at first
    cases first
  | cons q more =>
    rw [attributes] at sign
    cases style.symm.trans sign

/-- Where a function stands from its sign on, its text is a cut of the file. -/
theorem FunctionSpots.exists_cut (p : FunctionSpots o front t f.signature.name f.signature.nameSpan)
    (whole : o.text = file.text)
    (start : startOf f.attributes f.visibility f.signature.keyword = o.place)
    (stops : f.stop = t.body.stop) :
    ∃ (c : Cut) (back : List Char), c.Of file.text f ∧ o.ahead = c.under c.name ++ c.after ∧
      c.back = back ++ ['\x7d'] ∧ o.Leads c.front p.name ∧
      (p.name.pass p.count).Leads back p.closing := by
  obtain ⟨chars, leads⟩ := p.toName
  obtain ⟨back, -, toClosing, -⟩ := p.reads_back
  have named := leads.trans (Spot.Leads.pass p.name p.count)
  have brace : p.closing.ahead.head? = some '\x7d' := Lexer.closer_of_piece p.closed
  have all := named.trans (toClosing.trans (.next brace))
  have first : f.signature.nameSpan.start = p.name.place := congrArg Span.start p.span
  have last : f.signature.nameSpan.stop = (p.name.pass p.count).place := congrArg Span.stop p.span
  have ended : f.stop = (p.closing.pass 1).place := by
    rw [stops, p.body]
  refine ⟨⟨o.behind, chars, p.name.ahead.take p.count, back ++ ['\x7d'], (p.closing.pass 1).ahead⟩,
    back, ?_, ?_, rfl, leads, toClosing⟩
  · constructor
    · rw [← whole, Spot.text, all.ahead, Cut.file]
      simp
    · exact p.name_eq
    · exact start
    · rw [← leads.behind, ← named.behind]
      exact p.span
    · rw [ended, Spot.place, all.behind, Cut.under]
      simp
  · rw [all.ahead, Cut.under]
    simp

end

/-- A function can be taken out of its file unless its first attribute stands in its body: in that
case it would begin behind its name. -/
theorem extract_cases {file : SourceFile} (read : itemsOf file.text = .ok file.items)
    (places : TruePlaces file.text) {f : FunctionItem} (among : f ∈ file.functions) :
    f.OpensInside file.text ∧ file.extract f = .error .nameBeforeStart ∨
      ¬ f.OpensInside file.text ∧ ∃ c : Cut, c.Of file.text f ∧
        (signOf f.attributes f.visibility "fn").At (c.under c.name ++ c.after) ∧
        c.back.getLast? = some '\x7d' ∧ (f.visibility.keyword?.isSome → c.Movable) := by
  obtain ⟨s, e, whole, runs⟩ := exists_row places read
  obtain ⟨d, i, k, skipped, row, deep, run, done⟩ := runs _ (mem_functions among)
  obtain ⟨t, run⟩ := Grammar.exists_functionRun run
  obtain ⟨q, first, inner, _, ⟨p⟩⟩ | ⟨o, front, text, ⟨p⟩, start, sign, all⟩ :=
    function_spots row run
  · exact .inl (extract_of_inner p whole first inner)
  · have whole' : o.text = file.text := by rw [text, whole]
    obtain ⟨c, back, cut, ahead, ends, leads, toClosing⟩ := p.exists_cut whole' start run.stops
    refine .inr ⟨not_opensInside_of_sign whole' start sign, c, cut, ?_, by simp [ends], ?_⟩
    · rwa [ahead] at sign
    · intro shown name ascii free
      obtain rfl := all shown
      have item (span : Span) : IsItem (t.under name span) := run.isItem deep done free span
      have alone := p.standsAlone run.opens ascii item leads toClosing
      rwa [Cut.under, ends]

/-- A function whose text can be taken out stands in the text of its file, and under another name it
is that text with only its name replaced. -/
theorem exists_cut {file : SourceFile} (read : itemsOf file.text = .ok file.items)
    (unmarked : file.text.head? ≠ some byteOrderMark) {f : FunctionItem}
    (among : f ∈ file.functions) {function : Function} (extracted : file.extract f = .ok function) :
    ∃ c : Cut, c.Of file.text f ∧ function.name = f.signature.name ∧
      function.source = String.ofList (c.under c.name) ∧
      ∀ name : String, function.renamed name = String.ofList (c.under name.toList) := by
  obtain ⟨-, failed⟩ | ⟨-, c, cut, -⟩ := extract_cases read (truePlaces_of_unmarked unmarked) among
  · rw [failed] at extracted
    cases extracted
  · have same := cut.extract
    rw [extracted] at same
    cases same
    exact ⟨c, cut, rfl, rfl, renamed_under rfl rfl rfl⟩

/-- A function with a keyword of visibility that can be taken out is an item by itself under any
name. -/
theorem standsAlone_renamed {file : SourceFile} (read : itemsOf file.text = .ok file.items)
    (unmarked : file.text.head? ≠ some byteOrderMark) {f : FunctionItem}
    (among : f ∈ file.functions) {function : Function} (extracted : file.extract f = .ok function)
    (shown : f.visibility.keyword?.isSome) {name : String} (ascii : Lexer.IsAsciiName name.toList)
    (free : keywords.contains name = false) : StandsAlone (function.renamed name).toList := by
  obtain ⟨-, failed⟩ | ⟨-, c, cut, -, -, movable⟩ :=
    extract_cases read (truePlaces_of_unmarked unmarked) among
  · rw [failed] at extracted
    cases extracted
  · have same := cut.extract
    rw [extracted] at same
    cases same
    rw [renamed_under rfl rfl rfl, String.toList_ofList]
    exact movable shown name ascii free

/-- An import stands in the text of its file from where it begins to behind its semicolon, and it is
an item by itself. -/
theorem exists_import {file : SourceFile} (read : itemsOf file.text = .ok file.items)
    (unmarked : file.text.head? ≠ some byteOrderMark) {m : ImportItem}
    (among : .import m ∈ file.items) :
    ∃ before text after, file.text = before ++ (text ++ after) ∧
      startOf m.attributes m.visibility m.keyword = placeAfter before ∧
      m.stop = placeAfter (before ++ text) ∧
      between file.text (startOf m.attributes m.visibility m.keyword) m.stop = text ∧
      StandsAlone text := by
  obtain ⟨s, e, whole, runs⟩ := exists_row (truePlaces_of_unmarked unmarked) read
  obtain ⟨d, i, k, skipped, row, deep, run, done⟩ := runs _ among
  obtain ⟨front, joint, span, run⟩ := Grammar.exists_importRun run
  obtain ⟨o, q, stop, chars, same, names, gap, semicolon, leads, start, stops⟩ :=
    import_spots row run
  have behind := leads.trans (.next semicolon)
  have split : file.text = o.behind ++ ((chars ++ [';']) ++ (stop.pass 1).ahead) := by
    rw [← whole, ← same, Spot.text, behind.ahead]
  have stop' : m.stop = placeAfter (o.behind ++ (chars ++ [';'])) := by
    rw [stops, Spot.place, behind.behind]
  refine ⟨o.behind, chars ++ [';'], (stop.pass 1).ahead, split, start, stop', ?_, ?_⟩
  · rw [start, stop', split, Spot.place, between_placeAfter]
  · have item : IsItem (front ++ [.mark ';' false span]) := run.isItem deep done
    exact standsAlone_import names gap semicolon leads item

/-- The imports of a file are the texts from where they begin to behind their semicolons. -/
theorem SourceFile.mem_imports {file : SourceFile} {t : String} : t ∈ file.imports ↔
    ∃ m, .import m ∈ file.items ∧ t = String.ofList
      (between file.text (startOf m.attributes m.visibility m.keyword) m.stop) := by
  rw [SourceFile.imports, List.mem_filterMap]
  constructor
  · rintro ⟨item, hi, written⟩
    cases item with
    | function f => cases written
    | other => cases written
    | «import» m => exact ⟨m, hi, (Option.some_inj.1 written).symm⟩
  · rintro ⟨m, hi, rfl⟩
    exact ⟨.import m, hi, rfl⟩

/-! ## Every file -/

/-- A function is taken out of its file as it is written, with its name where it is declared. -/
structure Verbatim (text : List Char) (f : FunctionItem) (function : Function) (c : Cut) :
    Prop where
  cut : c.Of text f
  begins : (signOf f.attributes f.visibility "fn").At (c.under c.name ++ c.after)
  ends : c.back.getLast? = some '\x7d'
  name : function.name = f.signature.name
  source : function.source = String.ofList (c.under c.name)
  nameStart : function.nameStart = byteLength c.front
  nameStop : function.nameStop = byteLength (c.front ++ c.name)
  renamed : ∀ name : String, function.renamed name = String.ofList (c.under name.toList)

theorem verbatim_of_cut {file : SourceFile} {f : FunctionItem} {c : Cut} (cut : c.Of file.text f)
    (begins : (signOf f.attributes f.visibility "fn").At (c.under c.name ++ c.after))
    (ends : c.back.getLast? = some '\x7d') :
    ∃ function, file.extract f = .ok function ∧ Verbatim file.text f function c ∧
      function.renamed function.name = function.source := by
  refine ⟨_, cut.extract, ⟨cut, begins, ends, rfl, rfl, rfl, rfl, renamed_under rfl rfl rfl⟩, ?_⟩
  rw [renamed_under rfl rfl rfl]
  dsimp only
  rw [cut.name, String.toList_ofList, Cut.under]

/-- The items of a file are those of its text, a byte order mark at the front left out. -/
theorem parse_eq_ok_iff {text : String} {file : SourceFile} :
    SourceFile.parse text = .ok file ↔
      file.text = withoutByteOrderMark text.toList ∧ itemsOf file.text = .ok file.items := by
  obtain ⟨kept, items⟩ := file
  unfold SourceFile.parse
  dsimp only
  cases read : itemsOf (withoutByteOrderMark text.toList) with
  | error p =>
    refine ⟨nofun, ?_⟩
    rintro ⟨rfl, other⟩
    rw [read] at other
    cases other
  | ok found =>
    constructor
    · intro same
      cases same
      exact ⟨rfl, read⟩
    · rintro ⟨rfl, same⟩
      rw [read] at same
      cases same
      rfl

/-- Where the places of a text are true, as they are unless a second byte order mark stands at its
front, a function is taken out of its file as it is written if and only if its first attribute does
not stand in its body. -/
theorem extract_verbatim {text : String} {file : SourceFile}
    (parsed : SourceFile.parse text = .ok file) :
    file.text = withoutByteOrderMark text.toList ∧
    (file.text.head? ≠ some byteOrderMark → TruePlaces file.text) ∧
    (TruePlaces file.text → ∀ f ∈ file.functions,
      (file.extract f = .error .nameBeforeStart ↔ f.OpensInside file.text) ∧
      (¬ f.OpensInside file.text → ∃ function c, file.extract f = .ok function ∧
        Verbatim file.text f function c ∧ function.renamed function.name = function.source)) := by
  obtain ⟨whole, read⟩ := parse_eq_ok_iff.1 parsed
  refine ⟨whole, truePlaces_of_unmarked, ?_⟩
  intro places f among
  obtain ⟨inside, failed⟩ | ⟨before, c, cut, begins, ends, -⟩ := extract_cases read places among
  · exact ⟨⟨fun _ => inside, fun _ => failed⟩, fun before => absurd inside before⟩
  · obtain ⟨function, extracted, verbatim, again⟩ := verbatim_of_cut cut begins ends
    refine ⟨⟨fun failed => ?_, fun inside => absurd inside before⟩, fun _ =>
      ⟨function, c, extracted, verbatim, again⟩⟩
    rw [extracted] at failed
    cases failed

/-- A text with a byte order mark, line ends of two characters and characters of two bytes.
An attribute stands before its first function, and one in the body of its second. -/
def markedText : String :=
  "\uFEFF// h\u00e9llo\r\n#[allow(dead_code)]\r\npub fn get() -> &'static str \x7b \"\u00fc\" \x7d\r\n"
    ++ "fn closed() \x7b #![allow(unused)] \x7d\r\n"

/-- The first character of what is read of a text, and its functions as they are taken out. -/
def extractedFrom (text : String) : Option (Option Char × List (String × Option String)) :=
  (SourceFile.parse text).toOption.map fun file =>
    (file.text.head?, file.functions.map fun f =>
      (f.signature.name, (file.extract f).toOption.map Function.source))

theorem extractedFrom_marked : extractedFrom markedText = some (some '/',
    [("get", some "#[allow(dead_code)]\r\npub fn get() -> &'static str \x7b \"\u00fc\" \x7d"),
      ("closed", none)]) := by
  decide +kernel

theorem extract_verbatim_marked : ∃ file get closed, SourceFile.parse markedText = .ok file ∧
    file.functions = [get, closed] ∧
    (∃ function c, file.extract get = .ok function ∧ Verbatim file.text get function c ∧
      function.source =
        "#[allow(dead_code)]\r\npub fn get() -> &'static str \x7b \"\u00fc\" \x7d") ∧
    closed.OpensInside file.text ∧ file.extract closed = .error .nameBeforeStart := by
  have seen := extractedFrom_marked
  rw [extractedFrom] at seen
  cases parsed : SourceFile.parse markedText with
  | error fault =>
    rw [parsed] at seen
    cases seen
  | ok file =>
    rw [parsed] at seen
    obtain ⟨first, shown⟩ := Prod.mk.inj (Option.some.inj seen)
    obtain ⟨get, more, functions, getShown, shown⟩ := List.map_eq_cons_iff.1 shown
    obtain ⟨closed, none', rfl, closedShown, shown⟩ := List.map_eq_cons_iff.1 shown
    obtain rfl := List.map_eq_nil_iff.1 shown
    have unmarked : file.text.head? ≠ some byteOrderMark := by
      rw [first]
      decide
    obtain ⟨-, places, all⟩ := extract_verbatim parsed
    have getShown := (Prod.mk.inj getShown).2
    have closedShown := (Prod.mk.inj closedShown).2
    obtain ⟨getFails, taken⟩ := all (places unmarked) get (by rw [functions]; simp)
    obtain ⟨closedFails, -⟩ := all (places unmarked) closed (by rw [functions]; simp)
    have failed : file.extract closed = .error .nameBeforeStart := by
      cases extracted : file.extract closed with
      | error fault => rfl
      | ok function =>
        rw [extracted] at closedShown
        cases closedShown
    refine ⟨file, get, closed, rfl, functions, ?_, closedFails.1 failed, failed⟩
    have before : ¬ get.OpensInside file.text := by
      intro inside
      rw [getFails.2 inside] at getShown
      cases getShown
    obtain ⟨function, c, extracted, verbatim, -⟩ := taken before
    rw [extracted] at getShown
    exact ⟨function, c, extracted, verbatim, Option.some.inj getShown⟩

end Waymark.Source
