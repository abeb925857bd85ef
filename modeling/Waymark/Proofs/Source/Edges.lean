import Mathlib.Tactic.IntervalCases
import Waymark.Proofs.Source.Endings
import Waymark.Proofs.Source.Parts
import Waymark.Proofs.Source.Pieces

/-!
# Where pieces end

A piece is read from the text up to its end, and of what stands behind it only the first characters
tell that it ends there. So a part of a text is read in the same way before any text that begins
alike with a blank, a comment, a semicolon or a closing brace.

* `Edge`: two texts that begin alike with something at which every piece ends;
* `piece_edge`: a piece before either of two such texts;
* `Lexes.edge`: a part of a text before either of them.
-/

namespace Waymark.Source.Lexer

open Waymark.Text

/-- Two texts that begin alike with a blank, a comment, a semicolon or a closing brace. -/
inductive Edge : List Char → List Char → Prop
  | blank {c : Char} (is : isBlank c) (v w : List Char) : Edge (c :: v) (c :: w)
  | comment {c : Char} (is : c = '/' ∨ c = '*') (v w : List Char) :
      Edge ('/' :: c :: v) ('/' :: c :: w)
  | closing {c : Char} (is : c = ';' ∨ c = '\x7d') (v w : List Char) : Edge (c :: v) (c :: w)

variable {u v w : List Char}

/-- Both texts begin with the same character, and no word, number or fence goes on with it. -/
theorem Edge.head (edge : Edge v w) : ∃ c v' w', v = c :: v' ∧ w = c :: w' ∧ EndsToken c := by
  cases edge with
  | blank is => exact ⟨_, _, _, rfl, rfl, endsToken_of_isBlank is⟩
  | comment => exact ⟨_, _, _, rfl, rfl, by constructor <;> decide⟩
  | closing is =>
    refine ⟨_, _, _, rfl, rfl, ?_⟩
    obtain rfl | rfl := is <;> constructor <;> decide

/-! ## Words and marks -/

/-- What a text begins with is told by as many characters. -/
theorem begins_congr {start : String} {text other : List Char}
    (same : text.take start.toList.length = other.take start.toList.length) :
    begins start text = begins start other := by
  rw [begins, begins, Bool.eq_iff_iff, List.isPrefixOf_iff_prefix, List.isPrefixOf_iff_prefix,
    List.prefix_iff_eq_take, List.prefix_iff_eq_take, same]

/-- What has not a certain character is begun with before that character. -/
theorem begins_before {start : String} {c : Char} (other : c ∉ start.toList) :
    begins start (u ++ c :: v) = begins start u := by
  rw [begins, begins, Bool.eq_iff_iff, List.isPrefixOf_iff_prefix, List.isPrefixOf_iff_prefix]
  constructor
  · rintro ⟨rest, same⟩
    obtain ⟨more, rfl, -⟩ | ⟨more, start', behind⟩ := List.append_eq_append_iff.1 same
    · exact List.prefix_append _ _
    · cases more with
      | nil =>
        have same : start.toList = u := start'.trans (List.append_nil u)
        exact same ▸ List.prefix_refl _
      | cons d more =>
        obtain ⟨rfl, -⟩ := List.cons.inj behind
        exact absurd (start' ▸ by simp) other
  · exact fun h => h.trans (List.prefix_append _ _)

section
variable {c : Char} {n : Nat}

/-- Nothing that literals and raw words begin with goes on with the character. -/
theorem EndsToken.not_mem_start (ends : EndsToken c) :
    ∀ start ∈ "r#" :: literalStarts, c ∉ start.toList := by
  intro start among inside
  have held : ∀ start ∈ "r#" :: literalStarts,
      start.toList ⊆ "\"#'\\.+-_!eErxobc".toList := by decide
  exact ends.other (held start among inside)

theorem begins_raw (ends : EndsToken c) : begins "r#" (u ++ c :: v) = begins "r#" u :=
  begins_before (ends.not_mem_start "r#" (by simp))

theorem anyWord_edge (ends : EndsToken c) (found : anyWord (u ++ c :: v) = some n) :
    n ≤ u.length ∧ anyWord (u ++ c :: w) = some n := by
  unfold anyWord at found ⊢
  rw [begins_raw ends] at found ⊢
  by_cases raw : begins "r#" u = true
  · rw [if_pos raw] at found ⊢
    obtain ⟨name, rfl⟩ := List.isPrefixOf_iff_prefix.1 raw
    obtain ⟨m, named, kept⟩ := Option.bind_eq_some_iff.1 found
    have behind (more : List Char) :
        ("r#".toList ++ name ++ c :: more).drop 2 = name ++ c :: more := rfl
    rw [behind] at named kept ⊢
    have short := (Literal.identifier?_edge (w := w) ends).2 m named
    rw [List.take_append_of_le_length short] at kept
    dsimp only
    rw [← (Literal.identifier?_edge (v := v) ends).1, named, Option.bind_some,
      List.take_append_of_le_length short]
    refine ⟨?_, kept⟩
    split at kept
    · cases kept
    · cases kept
      rw [List.length_append]
      change m + 2 ≤ 2 + name.length
      omega
  · rw [if_neg raw] at found ⊢
    rw [← (Literal.identifier?_edge (v := v) ends).1]
    exact ⟨(Literal.identifier?_edge (w := w) ends).2 n found, found⟩

theorem word?_edge (ends : EndsToken c) (found : word? (u ++ c :: v) = some n) :
    n ≤ u.length ∧ word? (u ++ c :: w) = some n := by
  have starts (more : List Char) :
      literalStarts.any (begins · (u ++ c :: more)) = literalStarts.any (begins · u) := by
    rw [Bool.eq_iff_iff, List.any_eq_true, List.any_eq_true]
    refine exists_congr fun start => and_congr_right fun among => ?_
    rw [begins_before (ends.not_mem_start start (List.mem_cons_of_mem _ among))]
  unfold word? at found ⊢
  rw [starts] at found ⊢
  split at found
  · cases found
  · next plain =>
    rw [if_neg plain]
    exact anyWord_edge ends found

theorem isLifetime_edge (ends : EndsToken c) (found : isLifetime (u ++ c :: v) = true) :
    isLifetime (u ++ c :: w) = true := by
  unfold isLifetime at found ⊢
  cases named : anyWord (u ++ c :: v) with
  | none =>
    rw [named] at found
    cases found
  | some m =>
    obtain ⟨short, same⟩ := anyWord_edge (w := w) ends named
    rw [named] at found
    rw [same]
    dsimp only at found ⊢
    rw [List.drop_append_of_le_length short, begins_raw ends] at found ⊢
    cases behind : u.drop m with
    | nil =>
      have quote : c ≠ '\'' := fun same => ends.other (by simp [same])
      have hash : c ≠ '#' := fun same => ends.other (by simp [same])
      rw [List.nil_append]
      split
      · next same => exact absurd (List.cons.inj same).1 quote
      · next same => exact absurd (List.cons.inj same).1 hash
      · rfl
    | cons d more =>
      rw [behind, List.cons_append] at found
      rw [List.cons_append]
      split at found
      · cases found
      · next same =>
        obtain ⟨rfl, -⟩ := List.cons.inj same
        exact found
      · next noQuote noHash =>
        split
        · next same => exact absurd (by rw [(List.cons.inj same).1]) (noQuote (more ++ c :: v))
        · next same => exact absurd (by rw [(List.cons.inj same).1]) (noHash (more ++ c :: v))
        · rfl

end

/-- Nothing that comments begin with. -/
def commentStarts : List String := ["//", "/*", "///", "//!", "/**", "/*!", "/**/", "////", "/***"]

/-- Behind two characters texts with one edge go on alike with whatever comments begin with. -/
theorem begins_comment (edge : Edge v w) (long : 2 ≤ u.length) {start : String}
    (known : start ∈ commentStarts) :
    begins start (u ++ v) = begins start (u ++ w) := by
  have short : ∀ start ∈ commentStarts, start.toList.length ≤ 4 ∧
      start.toList ⊆ ['/', '*', '!'] := by
    decide
  obtain ⟨few, only⟩ := short start known
  have apart {c : Char} (other : c ∉ ['/', '*', '!']) : c ∉ start.toList :=
    fun among => other (only among)
  cases edge with
  | blank is v w =>
    have other := apart (not_mem_of_isBlank is (by decide))
    rw [begins_before other, begins_before other]
  | @closing c is v w =>
    have other : c ∉ start.toList := apart (by obtain rfl | rfl := is <;> decide)
    rw [begins_before other, begins_before other]
  | @comment c is v w =>
    have front (more : List Char) : (u ++ '/' :: c :: more).take start.toList.length =
        (u ++ ['/', c]).take start.toList.length := by
      have same : u ++ '/' :: c :: more = (u ++ ['/', c]) ++ more := by simp
      rw [same, List.take_append_of_le_length]
      rw [List.length_append, List.length_cons, List.length_singleton]
      omega
    apply begins_congr
    rw [front v, front w]

theorem mark?_second (c d : Char) (v w : List Char) : mark? (c :: d :: v) = mark? (c :: d :: w) :=
  rfl

theorem mark?_blank {c : Char} (is : isBlank c) (rest : List Char) : mark? (c :: rest) = none := by
  have apart : c ∉ "~!@#$%^&*-=+|;:,<.>/?'".toList := not_mem_of_isBlank is (by decide)
  have slash : '/' ≠ c := by
    rintro rfl
    cases is
  have other : "~!@#$%^&*-=+|;:,<.>/?'".toList.contains c = false := by
    rw [Bool.eq_false_iff]
    exact fun among => apart (List.contains_iff_mem.1 among)
  have noComment : (begins "//" (c :: rest) || begins "/*" (c :: rest)) = false := by
    simp [begins, List.isPrefixOf, slash]
  rw [mark?, noComment]
  simp only [other]
  rfl

/-- Texts with one edge have the same mark. -/
theorem mark?_edge (edge : Edge v w) : mark? (u ++ v) = mark? (u ++ w) := by
  rcases u with _ | ⟨d, _ | ⟨e, u⟩⟩
  · cases edge with
    | blank is v w =>
      rw [List.nil_append, List.nil_append, mark?_blank is, mark?_blank is]
    | comment is => obtain rfl | rfl := is <;> rfl
    | closing is => obtain rfl | rfl := is <;> rfl
  · obtain ⟨c, v, w, rfl, rfl, -⟩ := edge.head
    exact mark?_second d c v w
  · exact mark?_second d e (u ++ v) (u ++ w)

/-! ## Comments -/

theorem lineLength_of_unbroken (unbroken : '\n' ∉ u) (v : List Char) :
    lineLength (u ++ v) = u.length + lineLength v := by
  rw [lineLength, lineLength, List.takeWhile_append_of_pos, List.length_append]
  intro c hc
  simpa using ne_of_mem_of_not_mem hc unbroken

/-- A line that ends within the part, or at its end. -/
theorem line_cases (short : lineLength (u ++ v) ≤ u.length) :
    (∃ a b, u = a ++ '\n' :: b ∧ '\n' ∉ a) ∨ '\n' ∉ u ∧ lineLength v = 0 := by
  by_cases broken : '\n' ∈ u
  · obtain ⟨a, b, rfl, first⟩ := List.eq_append_cons_of_mem broken
    exact .inl ⟨a, b, rfl, first⟩
  · rw [lineLength_of_unbroken broken] at short
    exact .inr ⟨broken, by omega⟩

/-- A line that ends within the part is as long before any text that goes on with no line either. -/
theorem lineLength_edge (closes : lineLength v = 0 → lineLength w = 0)
    (short : lineLength (u ++ v) ≤ u.length) :
    lineLength (u ++ w) = lineLength (u ++ v) := by
  obtain ⟨a, b, rfl, unbroken⟩ | ⟨unbroken, ended⟩ := line_cases short
  · rw [List.append_assoc, List.append_assoc, List.cons_append, List.cons_append,
      lineLength_append unbroken, lineLength_append unbroken]
  · rw [lineLength_of_unbroken unbroken, lineLength_of_unbroken unbroken, ended, closes ended]

/-- What has no line feed is begun with before the end of the line. -/
theorem begins_line {start : String} (plain : '\n' ∉ start.toList)
    (closes : lineLength v = 0 → lineLength w = 0)
    (short : lineLength (u ++ v) ≤ u.length) : begins start (u ++ v) = begins start (u ++ w) := by
  have ends {v : List Char} (ended : lineLength v = 0) :
      begins start (u ++ v) = begins start u := by
    cases v with
    | nil => rw [List.append_nil]
    | cons c v =>
      by_cases feed : c = '\n'
      · rw [feed, begins_before plain]
      · simp [lineLength, feed] at ended
  obtain ⟨a, b, rfl, unbroken⟩ | ⟨unbroken, ended⟩ := line_cases short
  · rw [List.append_assoc, List.append_assoc, List.cons_append, List.cons_append,
      begins_before plain, begins_before plain]
  · rw [ends ended, ends (closes ended)]

theorem blockFrom_other {depth : Nat} {a b : Char} (opens : ¬ (a = '/' ∧ b = '*'))
    (closes : ¬ (a = '*' ∧ b = '/'))
    (rest : List Char) :
    blockFrom depth (a :: b :: rest) = (blockFrom depth (b :: rest)).map (· + 1) := by
  rw [blockFrom]
  · exact fun slash star => opens ⟨slash, star⟩
  · exact fun star slash => closes ⟨star, slash⟩

theorem two_le_of_blockFrom {depth n : Nat} {text : List Char}
    (found : blockFrom depth text = some n) : 2 ≤ n := by
  unfold blockFrom at found
  split at found
  · cases found
  · cases found
  · obtain ⟨m, -, rfl⟩ := Option.map_eq_some_iff.1 found
    omega
  · split at found
    · cases found
      omega
    · obtain ⟨m, -, rfl⟩ := Option.map_eq_some_iff.1 found
      omega
  · obtain ⟨m, inside, rfl⟩ := Option.map_eq_some_iff.1 found
    have := blockFrom_pos inside
    omega

/-- A comment that ends within the part is the same before any text. -/
theorem blockFrom_edge {depth n : Nat} (found : blockFrom depth (u ++ v) = some n)
    (short : n ≤ u.length) :
    blockFrom depth (u ++ w) = some n := by
  induction length : u.length using Nat.strongRecOn generalizing u depth n with
  | ind m ih =>
    subst length
    have further {depth k n : Nat} (rest : List Char) (shorter : rest.length + k = u.length)
        (some' : 0 < k)
        (found : (blockFrom depth (rest ++ v)).map (· + k) = some n) (short : n ≤ u.length) :
        (blockFrom depth (rest ++ w)).map (· + k) = some n := by
      obtain ⟨l, inside, rfl⟩ := Option.map_eq_some_iff.1 found
      rw [ih rest.length (by omega) inside (by omega) rfl]
      rfl
    rcases u with _ | ⟨a, _ | ⟨b, rest⟩⟩
    · exact absurd (blockFrom_pos found) (Nat.not_lt.2 short)
    · exact absurd (two_le_of_blockFrom found) (Nat.not_le.2 (Nat.lt_succ_of_le short))
    · rw [List.cons_append, List.cons_append] at found ⊢
      by_cases opens : a = '/' ∧ b = '*'
      · obtain ⟨rfl, rfl⟩ := opens
        exact further rest rfl (by omega) found short
      by_cases closes : a = '*' ∧ b = '/'
      · obtain ⟨rfl, rfl⟩ := closes
        rw [blockFrom] at found ⊢
        by_cases last : depth ≤ 1
        · rw [if_pos last] at found ⊢
          exact found
        · rw [if_neg last] at found ⊢
          exact further rest rfl (by omega) found short
      · rw [blockFrom_other opens closes] at found ⊢
        exact further (b :: rest) rfl (by omega) found short

/-- A text that begins with a comment. -/
def beginsComment (text : List Char) : Bool := begins "//" text || begins "/*" text

theorem begins_short {start : String} (long : start.toList.length ≤ u.length) :
    begins start (u ++ v) = begins start (u ++ w) := by
  apply begins_congr
  rw [List.take_append_of_le_length long, List.take_append_of_le_length long]

theorem four_le_of_blockComment {n : Nat} {rest : List Char}
    (found : blockComment ('/' :: '*' :: rest) = some n) :
    4 ≤ n := by
  change (blockFrom 1 rest).map (· + 2) = some n at found
  obtain ⟨m, inside, rfl⟩ := Option.map_eq_some_iff.1 found
  have := two_le_of_blockFrom inside
  omega

theorem beginsComment_of_plain {text : List Char} (plain : isPlainBlockComment text = true) :
    begins "/*" text = true := by
  obtain whole | star := Bool.or_eq_true_iff.1 plain
  · obtain ⟨rest, rfl⟩ := List.isPrefixOf_iff_prefix.1 whole
    rfl
  · rw [Bool.and_eq_true, Bool.and_eq_true] at star
    exact star.1.1

/-- A block comment that ends within the part has its beginning there. -/
theorem begins_block {n : Nat} {start : String} (few : start.toList.length ≤ 4)
    (block : begins "/*" (u ++ v) = true)
    (found : blockComment (u ++ v) = some n) (short : n ≤ u.length) :
    begins start (u ++ v) = begins start (u ++ w) := by
  obtain ⟨rest, whole⟩ := List.isPrefixOf_iff_prefix.1 block
  rw [← whole] at found
  have := four_le_of_blockComment found
  exact begins_short (by omega)

theorem blank_of_isBlank {c : Char} (is : isBlank c) (rest : List Char) :
    blank (c :: rest) = some 1 := by
  have slash : '/' ≠ c := by
    rintro rfl
    cases is
  simp [blank, isPlainLineComment, isPlainBlockComment, begins, List.isPrefixOf, slash, is]

/-- A blank that ends within the part is the same before any text that goes on with no line
either. -/
theorem blank_edge {n : Nat} (closes : lineLength v = 0 → lineLength w = 0)
    (found : blank (u ++ v) = some n) (short : n ≤ u.length) : blank (u ++ w) = some n := by
  unfold blank at found
  split at found
  · next line =>
    cases found
    have plain : isPlainLineComment (u ++ w) = true := by
      rw [← line]
      unfold isPlainLineComment
      rw [begins_line (by decide) closes short, begins_line (by decide) closes short,
        begins_line (by decide) closes short, begins_line (by decide) closes short]
    unfold blank
    rw [if_pos plain, lineLength_edge closes short]
  · next line =>
    split at found
    · next block =>
      have opens := beginsComment_of_plain block
      have same (start : String) (few : start.toList.length ≤ 4) :
          begins start (u ++ v) = begins start (u ++ w) :=
        begins_block few opens found short
      have noLine : ¬ isPlainLineComment (u ++ w) = true := by
        unfold isPlainLineComment at line ⊢
        rwa [same _ (by decide), same _ (by decide), same _ (by decide), same _ (by decide)] at line
      have plain : isPlainBlockComment (u ++ w) = true := by
        unfold isPlainBlockComment at block ⊢
        rwa [same _ (by decide), same _ (by decide), same _ (by decide), same _ (by decide),
          same _ (by decide)] at block
      unfold blank
      rw [if_neg noLine, if_pos plain]
      exact blockFrom_edge found short
    · cases u with
      | nil =>
        split at found
        · split at found
          · cases found
            cases short
          · cases found
        · cases found
      | cons c u =>
        change (if isBlank c = true then some 1 else none) = some n at found
        split at found
        · next is =>
          cases found
          exact blank_of_isBlank is _
        · cases found

theorem take_edge {n : Nat} (same : v.take 1 = w.take 1) (short : n ≤ u.length) :
    (u ++ v).take (n + 1) = (u ++ w).take (n + 1) := by
  rw [List.take_append, List.take_append]
  by_cases whole : n = u.length
  · have one : n + 1 - u.length = 1 := by omega
    rw [one, same]
  · have none' : n + 1 - u.length = 0 := by omega
    rw [none', List.take_zero, List.take_zero]

theorem Edge.take (edge : Edge v w) : v.take 1 = w.take 1 := by
  obtain ⟨c, v, w, rfl, rfl, -⟩ := edge.head
  rfl

theorem Edge.closes (edge : Edge v w) : lineLength v = 0 → lineLength w = 0 := by
  obtain ⟨c, v, w, rfl, rfl, -⟩ := edge.head
  by_cases feed : c = '\n'
  · simp [lineLength, feed]
  · simp [lineLength, feed]

/-- A documentation comment that ends within the part. -/
theorem documentation_edge {n : Nat} {inner : Bool} (edge : Edge v w) (long : 2 ≤ u.length)
    (found : documentation (u ++ v) = some (n, inner)) (short : n ≤ u.length) :
    documentation (u ++ w) = some (n, inner) := by
  have same (start : String) (known : start ∈ commentStarts) :
      begins start (u ++ v) = begins start (u ++ w) :=
    begins_comment edge long known
  unfold documentation at found ⊢
  rw [← same "//!" (by decide), ← same "///" (by decide), ← same "////" (by decide),
    ← same "/*!" (by decide), ← same "/**" (by decide), ← same "/***" (by decide)]
  dsimp only at found ⊢
  split at found
  · next line =>
    rw [if_pos line]
    split at found
    · cases found
    · next calm =>
      cases found
      rw [lineLength_edge edge.closes short, ← take_edge edge.take short, if_neg calm]
  · next line =>
    rw [if_neg line]
    split at found
    · next block =>
      rw [if_pos block]
      obtain ⟨m, whole, kept⟩ := Option.bind_eq_some_iff.1 found
      have length : m = n := by
        split at kept
        · cases kept
        · cases kept
          rfl
      subst length
      have whole' : blockComment (u ++ w) = some m := blockFrom_edge whole short
      rw [List.take_append_of_le_length (by omega)] at kept
      rw [whole', Option.bind_some, List.take_append_of_le_length (by omega)]
      exact kept
    · cases found

/-! ## Leaves -/

/-- A character with which no literal begins. -/
theorem read_eq_none {c : Char} (other : c ∉ "\"rbc'".toList) (digit : Literal.isDigit c = false)
    (rest : List Char) :
    Literal.read (c :: rest) = none := by
  have apart {d : Char} (among : d ∈ "\"rbc'".toList) : c ≠ d := fun same => other (same ▸ among)
  have quotes : Literal.quotes (c :: rest) = none := by
    unfold Literal.quotes
    split
    all_goals first
      | rfl
      | next same => exact absurd (List.cons.inj same).1 (apart (by decide))
  rw [Literal.read_eq, quotes, wholeLength_eq_none digit]
  simp [Literal.fractionLength, digit]

/-- Where a mark other than a quote stands there is no literal. -/
theorem read_of_mark {text : List Char} {c : Char} (marked : mark? text = some c)
    (other : c ≠ '\'') :
    Literal.read text = none := by
  have first := head?_of_mark? marked
  obtain ⟨rest, rfl⟩ := List.head?_eq_some_iff.1 first
  have among : c ∈ "~!@#$%^&*-=+|;:,<.>/?'".toList := by
    unfold mark? at marked
    split at marked
    · cases marked
    · dsimp only at marked
      split at marked
      · next held => exact List.contains_iff_mem.1 held
      · cases marked
  have held : "~!@#$%^&*-=+|;:,<.>/?'".toList.all fun d =>
      d = '\'' || !("\"rbc'".toList.contains d || Literal.isDigit d) := by decide
  have plain := List.all_eq_true.1 held c among
  obtain ⟨start, digit⟩ : c ∉ "\"rbc'".toList ∧ Literal.isDigit c = false := by
    simpa [other, -String.reduceToList] using plain
  exact read_eq_none start digit rest

/-- What begins a lifetime is no character between quotes. -/
theorem read_of_lifetime {rest : List Char} (lifetime : isLifetime rest = true) :
    Literal.read ('\'' :: rest) = none := by
  have single : Literal.single .text rest = none := by
    unfold Literal.single
    split
    · cases lifetime
    · next c rest _ =>
      have raw : begins "r#" (c :: '\'' :: rest) = false := by simp [begins, List.isPrefixOf]
      by_cases first : beginsIdentifier c = true
      · have one : anyWord (c :: '\'' :: rest) = some 1 := by
          have stops : continuesIdentifier '\'' = false := by decide
          rw [anyWord, raw, if_neg Bool.false_ne_true, Literal.identifier?, if_pos first,
            List.takeWhile_cons, stops]
          rfl
        rw [isLifetime, one] at lifetime
        cases lifetime
      · have none' : anyWord (c :: '\'' :: rest) = none := by
          rw [anyWord, raw, if_neg Bool.false_ne_true, Literal.identifier?, if_neg first]
        rw [isLifetime, none'] at lifetime
        cases lifetime
    · rfl
  have quotes : Literal.quotes ('\'' :: rest) = none := by
    rw [Literal.quotes, single]
    rfl
  rw [Literal.read_eq, quotes, wholeLength_eq_none rfl]
  rfl

/-- Behind the letter of a raw text a quote stands, perhaps behind a fence. -/
theorem rawQuoted_of_head (flavour : Literal.Flavour) {text : List Char}
    (quote : text.head? ≠ some '"')
    (hash : text.head? ≠ some '#') : Literal.rawQuoted flavour text = none := by
  cases text with
  | nil => rfl
  | cons c rest =>
    have quote : c ≠ '"' := fun same => quote (congrArg some same)
    have hash : c ≠ '#' := fun same => hash (congrArg some same)
    simp [Literal.rawQuoted, quote, hash]

theorem rawQuoted_of_fence (flavour : Literal.Flavour) {text : List Char}
    (quote : text.head? ≠ some '"')
    (hash : text.head? ≠ some '#') : Literal.rawQuoted flavour ('#' :: text) = none := by
  cases text with
  | nil => rfl
  | cons c rest =>
    have quote : c ≠ '"' := fun same => quote (congrArg some same)
    have hash : c ≠ '#' := fun same => hash (congrArg some same)
    simp [Literal.rawQuoted, quote, hash]

theorem not_isDigit_of_beginsIdentifier {c : Char} (begins : beginsIdentifier c = true) :
    Literal.isDigit c = false ∧ c ≠ '"' ∧ c ≠ '#' ∧ c ≠ '\'' := by
  have apart {d : Char} (other : beginsIdentifier d = false) : c ≠ d := by
    rintro rfl
    rw [begins] at other
    cases other
  refine ⟨?_, apart (by decide), apart (by decide), apart (by decide)⟩
  rw [Bool.eq_false_iff]
  intro digit
  have codes := isDigit_iff.1 (show c.isDigit = true from digit)
  have letter : ¬ c.isAlpha = true := fun letter => by
    have codes' := isAlpha_iff.1 letter
    omega
  have under : c ≠ '_' := by
    rintro rfl
    exact absurd codes.2 (by decide)
  rw [beginsIdentifier, if_pos (by omega)] at begins
  simp [letter, under] at begins

/-- A word begins as a name does. -/
theorem begins_of_word? {text : List Char} {n : Nat} (found : word? text = some n) :
    ∃ c rest, text = c :: rest ∧ beginsIdentifier c = true := by
  unfold word? at found
  split at found
  · cases found
  unfold anyWord at found
  split at found
  · next raw =>
    obtain ⟨rest, rfl⟩ := List.isPrefixOf_iff_prefix.1 raw
    exact ⟨'r', '#' :: rest, rfl, by decide⟩
  · cases text with
    | nil => cases found
    | cons c rest =>
      by_cases first : beginsIdentifier c = true
      · exact ⟨c, rest, rfl, first⟩
      · rw [Literal.identifier?, if_neg first] at found
        cases found

/-- The last character of a start does not stand behind the others where the start does not. -/
theorem head?_ne_of_begins (front : List Char) {rest : List Char} {d : Char} {start : String}
    (whole : start.toList = front ++ [d]) (other : begins start (front ++ rest) = false) :
    rest.head? ≠ some d := by
  intro first
  obtain ⟨more, rfl⟩ := List.head?_eq_some_iff.1 first
  rw [begins, Bool.eq_false_iff, Ne, List.isPrefixOf_iff_prefix] at other
  exact other ⟨more, by rw [whole, List.append_assoc]; rfl⟩

/-- Where no literal starts there is no quoted one. -/
theorem quotes_eq_none {c : Char} {rest : List Char} (quote : c ≠ '"') (single : c ≠ '\'')
    (others : ∀ start ∈ literalStarts, begins start (c :: rest) = false) :
    Literal.quotes (c :: rest) = none := by
  unfold Literal.quotes
  split
  · next same => exact absurd (List.cons.inj same).1 quote
  · next rest same =>
    cases same
    have quote := head?_ne_of_begins ['r'] rfl (others "r\"" (by decide))
    by_cases fence : rest.head? = some '#'
    · obtain ⟨more, rfl⟩ := List.head?_eq_some_iff.1 fence
      have quote := head?_ne_of_begins ['r', '#'] rfl (others "r#\"" (by decide))
      have hash := head?_ne_of_begins ['r', '#'] rfl (others "r##" (by decide))
      rw [rawQuoted_of_fence _ quote hash]
      rfl
    · rw [rawQuoted_of_head _ quote fence]
      rfl
  · next same =>
    cases same
    exact absurd rfl (head?_ne_of_begins ['b'] rfl (others "b\"" (by decide)))
  · next rest same =>
    cases same
    have quote := head?_ne_of_begins ['b', 'r'] rfl (others "br\"" (by decide))
    have hash := head?_ne_of_begins ['b', 'r'] rfl (others "br#" (by decide))
    rw [rawQuoted_of_head _ quote hash]
    rfl
  · next same =>
    cases same
    exact absurd rfl (head?_ne_of_begins ['c'] rfl (others "c\"" (by decide)))
  · next rest same =>
    cases same
    have quote := head?_ne_of_begins ['c', 'r'] rfl (others "cr\"" (by decide))
    have hash := head?_ne_of_begins ['c', 'r'] rfl (others "cr#" (by decide))
    rw [rawQuoted_of_head _ quote hash]
    rfl
  · next same =>
    cases same
    exact absurd rfl (head?_ne_of_begins ['b'] rfl (others "b'" (by decide)))
  · next same => exact absurd (List.cons.inj same).1 single
  · rfl

/-- Where a word stands there is no literal. -/
theorem read_of_word {text : List Char} {n : Nat} (found : word? text = some n) :
    Literal.read text = none := by
  obtain ⟨c, rest, rfl, first⟩ := begins_of_word? found
  obtain ⟨digit, quote, hash, single⟩ := not_isDigit_of_beginsIdentifier first
  unfold word? at found
  split at found
  · cases found
  next plain =>
  have others : ∀ start ∈ literalStarts, begins start (c :: rest) = false := by
    intro start known
    rw [List.any_eq_true] at plain
    rw [Bool.eq_false_iff]
    exact fun opens => plain ⟨start, known, opens⟩
  rw [Literal.read_eq, quotes_eq_none quote single others, wholeLength_eq_none digit]
  simp [Literal.fractionLength, digit]

theorem leaf_faulty (rest : List Char) :
    leaf (Literal.faulty ++ rest) = some (.leaf Literal.faulty.length (.literal .other)) := rfl

/-- A leaf that ends within the part. -/
theorem leaf_edge {p : Piece} (edge : Edge v w) (found : leaf (u ++ v) = some p)
    (short : p.length ≤ u.length) :
    leaf (u ++ w) = some p := by
  have marks : mark? (u ++ w) = mark? (u ++ v) := (mark?_edge edge).symm
  have behind (u : List Char) : mark? (u ++ w) = mark? (u ++ v) := (mark?_edge edge).symm
  obtain ⟨c, v, w, rfl, rfl, ends⟩ := edge.head
  unfold leaf at found
  split at found
  · next n value literal =>
    cases found
    unfold leaf
    rw [Literal.read_edge ends literal short]
  · split at found
    · next quote =>
      split at found
      · next lifetime =>
        cases found
        cases u with
        | nil => cases short
        | cons d u =>
          obtain rfl : d = '\'' := Option.some.inj (head?_of_mark? quote)
          have lifetime' : isLifetime (u ++ c :: w) = true := isLifetime_edge ends lifetime
          unfold leaf
          rw [marks, quote, List.cons_append, read_of_lifetime lifetime']
          exact if_pos lifetime'
      · cases found
    · next d other marked =>
      cases found
      have single : d ≠ '\'' := other
      unfold leaf
      rw [marks, marked, read_of_mark (marks.trans marked) single]
      cases u with
      | nil => cases short
      | cons e u =>
        simp only [List.cons_append, List.tail_cons, behind u]
    · next unmarked =>
      split at found
      · next n named =>
        cases found
        obtain ⟨within', same⟩ := word?_edge (w := w) ends named
        have taken : (u ++ c :: w).take n = (u ++ c :: v).take n := by
          rw [List.take_append_of_le_length within', List.take_append_of_le_length within']
        unfold leaf
        rw [marks, unmarked, read_of_word same, same, ← taken]
      · split at found
        · next faulty =>
          cases found
          obtain ⟨rest, whole⟩ := List.isPrefixOf_iff_prefix.1 faulty
          obtain ⟨more, rfl⟩ : Literal.faulty <+: u :=
            List.prefix_of_prefix_length_le ⟨rest, whole⟩ (List.prefix_append _ _) short
          rw [List.append_assoc]
          exact leaf_faulty _
        · cases found

/-! ## Pieces -/

/-- A text that begins with no comment is blank if its first character is. -/
theorem blank_of_not_comment {c : Char} {rest : List Char}
    (other : beginsComment (c :: rest) = false) :
    blank (c :: rest) = if isBlank c then some 1 else none := by
  obtain ⟨line, block⟩ := Bool.or_eq_false_iff.1 other
  have noLine : ¬ isPlainLineComment (c :: rest) = true := by
    rw [isPlainLineComment, line]
    exact Bool.false_ne_true
  have noBlock : ¬ isPlainBlockComment (c :: rest) = true := by
    intro plain
    rw [beginsComment_of_plain plain] at block
    cases block
  unfold blank
  rw [if_neg noLine, if_neg noBlock]

/-- What begins a documentation comment begins a comment. -/
theorem begins_append_of {start front : String} {text : List Char}
    (sub : front.toList <+: start.toList)
    (none' : begins front text = false) : begins start text = false := by
  rw [begins, Bool.eq_false_iff, Ne, List.isPrefixOf_iff_prefix] at none' ⊢
  exact fun found => none' (sub.trans found)

theorem documentation_of_not_comment {text : List Char} (other : beginsComment text = false) :
    documentation text = none := by
  obtain ⟨line, block⟩ := Bool.or_eq_false_iff.1 other
  have lines : (begins "//!" text || begins "///" text && !begins "////" text) = false := by
    rw [begins_append_of (by decide) line, begins_append_of (by decide) line]
    rfl
  have blocks : (begins "/*!" text || begins "/**" text && !begins "/***" text) = false := by
    rw [begins_append_of (by decide) block, begins_append_of (by decide) block]
    rfl
  unfold documentation
  dsimp only
  rw [lines, blocks]
  rfl

/-- A comment begins with two marks. -/
theorem exists_comment {text : List Char} (comment : beginsComment text = true) :
    ∃ c rest, (c = '/' ∨ c = '*') ∧ text = '/' :: c :: rest := by
  obtain line | block := Bool.or_eq_true_iff.1 comment
  · obtain ⟨rest, rfl⟩ := List.isPrefixOf_iff_prefix.1 line
    exact ⟨'/', rest, .inl rfl, rfl⟩
  · obtain ⟨rest, rfl⟩ := List.isPrefixOf_iff_prefix.1 block
    exact ⟨'*', rest, .inr rfl, rfl⟩

/-- At a comment there is no leaf. -/
theorem leaf_of_comment {text : List Char} (comment : beginsComment text = true) :
    leaf text = none := by
  have unmarked : mark? text = none := by
    unfold mark?
    exact if_pos comment
  obtain ⟨c, rest, -, rfl⟩ := exists_comment comment
  have named : word? ('/' :: c :: rest) = none := rfl
  have literal : Literal.read ('/' :: c :: rest) = none := read_eq_none (by decide) (by decide) _
  unfold leaf
  rw [literal, unmarked, named]
  rfl

/-- At a comment there is only a comment. -/
theorem piece_of_comment {text : List Char} {p : Piece} (comment : beginsComment text = true)
    (found : piece text = some p) :
    (∃ n, p = .blank n ∧ blank text = some n) ∨
      ∃ n inner, p = .documentation n inner ∧ blank text = none ∧
      documentation text = some (n, inner) := by
  unfold piece at found
  split at found
  · next n blank =>
    cases found
    exact .inl ⟨n, rfl, blank⟩
  · next noBlank =>
    split at found
    · next n inner note =>
      cases found
      exact .inr ⟨n, inner, rfl, noBlank, note⟩
    · obtain ⟨c, rest, -, rfl⟩ := exists_comment comment
      have none' := leaf_of_comment comment
      change leaf ('/' :: c :: rest) = some p at found
      rw [none'] at found
      cases found

theorem two_le_lineLength {c : Char} (goes : c ≠ '\n') (rest : List Char) :
    2 ≤ lineLength ('/' :: c :: rest) := by
  simp [lineLength, goes]

/-- A comment takes two characters at least. -/
theorem two_le_of_comment {text : List Char} {p : Piece} (comment : beginsComment text = true)
    (found : piece text = some p) : 2 ≤ p.length := by
  obtain ⟨c, rest, is, rfl⟩ := exists_comment comment
  have goes : c ≠ '\n' := by obtain rfl | rfl := is <;> decide
  have line := two_le_lineLength goes rest
  obtain ⟨n, rfl, blank⟩ | ⟨n, inner, rfl, -, note⟩ := piece_of_comment comment found
  · unfold Lexer.blank at blank
    split at blank
    · cases blank
      exact line
    · split at blank
      · exact two_le_of_blockFrom blank
      · cases blank
  · unfold documentation at note
    dsimp only at note
    split at note
    · split at note
      · cases note
      · cases note
        exact line
    · split at note
      · obtain ⟨m, whole, kept⟩ := Option.bind_eq_some_iff.1 note
        split at kept
        · cases kept
        · cases kept
          exact two_le_of_blockFrom whole
      · cases note

theorem beginsComment_edge (edge : Edge v w) (some' : u ≠ []) :
    beginsComment (u ++ v) = beginsComment (u ++ w) := by
  rcases u with _ | ⟨d, _ | ⟨e, u⟩⟩
  · exact absurd rfl some'
  · obtain ⟨c, v, w, rfl, rfl, -⟩ := edge.head
    rfl
  · have same (start : String) (two : start.toList.length = 2) :
        begins start (d :: e :: u ++ v) = begins start (d :: e :: u ++ w) :=
      begins_short (by rw [two]; simp)
    rw [beginsComment, same "//" rfl, same "/*" rfl]
    rfl

/-- What documents something is no blank, and neither is what begins alike. -/
theorem blank_of_documentation {text other : List Char} {n : Nat} {inner : Bool}
    (same : ∀ start ∈ commentStarts, begins start other = begins start text)
    (noBlank : blank text = none)
    (note : documentation text = some (n, inner)) : blank other = none := by
  have noLine : ¬ isPlainLineComment text = true := by
    intro plain
    unfold blank at noBlank
    rw [if_pos plain] at noBlank
    cases noBlank
  have noBlock : ¬ isPlainBlockComment text = true := by
    intro plain
    unfold blank at noBlank
    rw [if_neg noLine, if_pos plain] at noBlank
    obtain ⟨rest, rfl⟩ := List.isPrefixOf_iff_prefix.1 (beginsComment_of_plain plain)
    have line : begins "//" ("/*".toList ++ rest) = false := rfl
    unfold documentation at note
    dsimp only at note
    rw [begins_append_of (by decide) line, begins_append_of (by decide) line, noBlank] at note
    split at note
    · cases ‹(false || false && _) = true›
    · split at note
      · cases note
      · cases note
  have comment : beginsComment text = true := by
    rw [← Bool.not_eq_false]
    intro other
    rw [documentation_of_not_comment other] at note
    cases note
  have comment' : beginsComment other = true := by
    rw [beginsComment, same "//" (by decide), same "/*" (by decide)]
    exact comment
  obtain ⟨c, rest, -, rfl⟩ := exists_comment comment'
  have noLine' : ¬ isPlainLineComment ('/' :: c :: rest) = true := by
    unfold isPlainLineComment at noLine ⊢
    rwa [same "//" (by decide), same "///" (by decide), same "////" (by decide),
      same "//!" (by decide)]
  have noBlock' : ¬ isPlainBlockComment ('/' :: c :: rest) = true := by
    unfold isPlainBlockComment at noBlock ⊢
    rwa [same "/**/" (by decide), same "/*" (by decide), same "/**" (by decide),
      same "/***" (by decide), same "/*!" (by decide)]
  unfold blank
  rw [if_neg noLine', if_neg noBlock']
  rfl

theorem comment_edge {p : Piece} (edge : Edge v w) (comment : beginsComment (u ++ v) = true)
    (found : piece (u ++ v) = some p) (short : p.length ≤ u.length) : piece (u ++ w) = some p := by
  have long : 2 ≤ u.length := Nat.le_trans (two_le_of_comment comment found) short
  obtain ⟨n, rfl, blank⟩ | ⟨n, inner, rfl, noBlank, note⟩ := piece_of_comment comment found
  · exact piece_of_blank (blank_edge edge.closes blank short)
  · have same (start : String) (known : start ∈ commentStarts) :
        begins start (u ++ w) = begins start (u ++ v) :=
      (begins_comment edge long known).symm
    exact piece_of_documentation (blank_of_documentation same noBlank note)
      (documentation_edge edge long note short)

/-- Brackets are told by themselves. -/
theorem piece_bracket {c : Char} (among : c ∈ ")[]\x7b\x7d".toList) (rest other : List Char) :
    piece (c :: rest) = piece (c :: other) := by
  have cases' : c = ')' ∨ c = '[' ∨ c = ']' ∨ c = '\x7b' ∨ c = '\x7d' := by simpa using among
  obtain rfl | rfl | rfl | rfl | rfl := cases' <;> rfl

theorem piece_paren (rest : List Char) : piece ('(' :: rest) =
    if Literal.faulty.isPrefixOf ('(' :: rest) then leaf ('(' :: rest)
      else some (.opening .paren) := rfl

/-- What stands for a faulty text is begun with on both sides of an edge, unless a comment follows
its first character. -/
theorem faulty_edge (edge : Edge v w) (long : 2 ≤ u.length ∨ v.head? ≠ some '/') :
    Literal.faulty.isPrefixOf (u ++ v) = Literal.faulty.isPrefixOf (u ++ w) := by
  change begins "(/*ERROR*/)" (u ++ v) = begins "(/*ERROR*/)" (u ++ w)
  cases edge with
  | @blank c is v w =>
    have other : c ∉ "(/*ERROR*/)".toList := not_mem_of_isBlank is (by decide)
    rw [begins_before other, begins_before other]
  | @closing c is v w =>
    have other : c ∉ "(/*ERROR*/)".toList := by obtain rfl | rfl := is <;> decide
    rw [begins_before other, begins_before other]
  | @comment c is v w =>
    have long : 2 ≤ u.length := long.resolve_right fun other => other rfl
    have inside {v : List Char} (found : begins "(/*ERROR*/)" (u ++ '/' :: c :: v) = true) :
        11 ≤ u.length := by
      by_contra short
      obtain ⟨rest, whole⟩ := List.isPrefixOf_iff_prefix.1 found
      have first := congrArg (fun text => text[u.length]?) whole
      have second := congrArg (fun text => text[u.length + 1]?) whole
      simp only [List.getElem?_append_right (Nat.le_refl _), Nat.sub_self, List.getElem?_cons_zero,
        List.getElem?_append_right (Nat.le_succ _)] at first second
      generalize u.length = n at *
      interval_cases n <;> first | (cases first; done) | (obtain rfl | rfl := is <;> cases second)
    by_cases whole : 11 ≤ u.length
    · exact begins_short whole
    · have never {v : List Char} : begins "(/*ERROR*/)" (u ++ '/' :: c :: v) = false := by
        rw [Bool.eq_false_iff]
        exact fun found => whole (inside found)
      rw [never, never]

/-- A piece that ends within the part is the same on both sides of an edge. -/
theorem piece_edge {p : Piece} (edge : Edge v w) (apart : u = ['('] → v.head? ≠ some '/')
    (some' : u ≠ [])
    (found : piece (u ++ v) = some p) (short : p.length ≤ u.length) : piece (u ++ w) = some p := by
  have comments := beginsComment_edge edge some'
  by_cases comment : beginsComment (u ++ v) = true
  · exact comment_edge edge comment found short
  have noComment : beginsComment (u ++ v) = false := by rwa [Bool.not_eq_true] at comment
  obtain ⟨c, more, rfl⟩ := List.exists_cons_of_ne_nil some'
  by_cases is : isBlank c = true
  · rw [List.cons_append] at found ⊢
    rw [piece_of_blank (blank_of_isBlank is _)] at found ⊢
    exact found
  have noBlank (rest : List Char) (other : beginsComment (c :: rest) = false) :
      blank (c :: rest) = none := by
    rw [blank_of_not_comment other, if_neg is]
  by_cases bracket : c ∈ ")[]\x7b\x7d".toList
  · rw [← found]
    exact piece_bracket bracket _ _
  by_cases paren : c = '('
  · subst paren
    have long : 2 ≤ ('(' :: more).length ∨ v.head? ≠ some '/' := by
      cases more with
      | nil => exact .inr (apart rfl)
      | cons d more => exact .inl (by simp)
    have faulty := faulty_edge edge long
    rw [List.cons_append] at found ⊢
    rw [piece_paren] at found ⊢
    rw [List.cons_append, List.cons_append] at faulty
    rw [← faulty]
    split at found
    · next written =>
      rw [if_pos written]
      exact leaf_edge (u := '(' :: more) edge found short
    · next other =>
      rw [if_neg other]
      exact found
  · have plain : c ∉ "()[]\x7b\x7d".toList := by
      have split : "()[]\x7b\x7d".toList = '(' :: ")[]\x7b\x7d".toList := rfl
      rw [split, List.mem_cons, not_or]
      exact ⟨paren, bracket⟩
    have leaves (v : List Char) (noComment : beginsComment (c :: (more ++ v)) = false) :
        piece (c :: (more ++ v)) = leaf (c :: (more ++ v)) :=
      piece_eq_leaf (noBlank _ noComment) (documentation_of_not_comment noComment) plain
    rw [List.cons_append] at found noComment comments ⊢
    rw [leaves v noComment] at found
    rw [leaves w (comments.symm.trans noComment)]
    exact leaf_edge (u := c :: more) edge found short

/-- A piece that begins at an edge takes a character. -/
theorem Edge.piece_pos {p : Piece} (edge : Edge v w) (found : piece v = some p) : 0 < p.length := by
  cases edge with
  | blank is v w =>
    rw [piece_of_blank (blank_of_isBlank is _)] at found
    cases found
    exact Nat.one_pos
  | @comment c is v w =>
    have comment : beginsComment ('/' :: c :: v) = true := by obtain rfl | rfl := is <;> rfl
    exact Nat.lt_of_lt_of_le Nat.two_pos (two_le_of_comment comment found)
  | closing is v w =>
    obtain rfl | rfl := is
    · cases found
      exact Nat.one_pos
    · cases found
      exact Nat.one_pos

theorem length_le_of_takePieces {n : Nat} {text rest : List Char} {ts : List Token}
    (taken : takePieces n text = some (ts, rest)) : rest.length ≤ text.length := by
  induction n generalizing text ts with
  | zero =>
    cases taken
    exact Nat.le_refl _
  | succ n ih =>
    unfold takePieces at taken
    split at taken
    · cases taken
    · split at taken
      · cases taken
      · next behind =>
        cases taken
        have shorter := ih behind
        rw [List.length_drop] at shorter
        omega

/-- A part of a text is read alike before either side of an edge. -/
theorem Lexes.edge {ts : List Token} (edge : Edge v w)
    (apart : u.getLast? = some '(' → v.head? ≠ some '/') (lexes : Lexes u v ts) : Lexes u w ts := by
  obtain ⟨n, fewer, taken⟩ := lexes
  refine ⟨n, fewer, ?_⟩
  clear fewer
  induction n generalizing u ts with
  | zero =>
    have whole : u ++ v = v := congrArg Prod.snd (Option.some.inj taken)
    obtain rfl := List.append_left_eq_self.1 whole
    cases taken
    rfl
  | succ n ih =>
    unfold takePieces at taken
    split at taken
    · cases taken
    next p here =>
    split at taken
    · cases taken
    next us rest behind =>
    cases taken
    have left := length_le_of_takePieces behind
    obtain ⟨c, v', w', first, -⟩ := edge.head
    have some' : 0 < v.length := by
      rw [first]
      exact Nat.zero_lt_succ _
    rw [List.length_drop, List.length_append] at left
    have short : p.length ≤ u.length := by omega
    have begun : u ≠ [] := by
      rintro rfl
      have taken := edge.piece_pos here
      rw [List.length_nil] at short
      omega
    have open' : u = ['('] → v.head? ≠ some '/' := by
      rintro rfl
      exact apart rfl
    rw [List.drop_append_of_le_length short] at behind
    have apart' : (u.drop p.length).getLast? = some '(' → v.head? ≠ some '/' := by
      intro last
      rw [List.getLast?_drop] at last
      split at last
      · cases last
      · exact apart last
    have rest := ih apart' behind
    have same := piece_edge edge open' begun here short
    have token : p.token? (u ++ w) = p.token? (u ++ v) := by
      have start : (u ++ w).take p.length = (u ++ v).take p.length := by
        rw [List.take_append_of_le_length short, List.take_append_of_le_length short]
      cases p with
      | leaf n make =>
        change (u ++ w).take n = (u ++ v).take n at start
        simp only [Piece.token?, start]
      | blank | documentation | opening | closing => rfl
    unfold takePieces
    rw [same]
    dsimp only
    rw [List.drop_append_of_le_length short, rest, token]

end Waymark.Source.Lexer
