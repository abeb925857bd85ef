import Waymark.Proofs.Routing.Pattern

/-!
# The two grammars of directory names

A directory name is tried form by form, and a form whose inner name is none falls through to the
next. `Spelled` says which names the forms take in the end, with nothing about the order in which
they are tried:

* `Spelled`: the spellings that stand for something, each with the name that it gives;
* `spelled_of_ofBrackets?`, `spelled_of_ofUnderscores?`: what is read is spelled so;
* `Spelled.read`: what is spelled is read so, so that no name has two meanings;
* `classify_grammar`: a directory name is read by its spelling, and is a literal without one.
-/

namespace Waymark.Routing.Segment

open Waymark.Text

/-- Letters, digits, underscores and hyphens, with a letter or a digit among them. -/
def IsName (n : String) : Prop :=
  (∀ c ∈ n.toList, c.isAlphanum ∨ c = '_' ∨ c = '-') ∧ ∃ c ∈ n.toList, c.isAlphanum

/-- The spellings of directory names that are no literals, with what they stand for and the name. -/
inductive Spelled (raw : String) : SegmentKind → String → Prop
  | optionalInBrackets {n : String} (name : IsName n) (form : raw = "[[..." ++ n ++ "]]") :
    Spelled raw .optionalCatchAll n
  | optionalBehindUnderscores {n : String} (name : IsName n) (form : raw = "___" ++ n) :
    Spelled raw .optionalCatchAll n
  | catchAllInBrackets {n : String} (name : IsName n) (form : raw = "[..." ++ n ++ "]") :
    Spelled raw .catchAll n
  | catchAllBehindUnderscores {n : String} (name : IsName n) (form : raw = "__" ++ n)
    (first : n.toList.head? ≠ some '_') : Spelled raw .catchAll n
  | groupInBrackets {n : String} (name : IsName n) (form : raw = "(" ++ n ++ ")") :
      Spelled raw .group n
  | groupBehindWord {n : String} (name : IsName n) (form : raw = "_group_" ++ n) :
      Spelled raw .group n
  | groupInUnderscores {n : String} (name : IsName n) (form : raw = "_" ++ n ++ "_")
    (first : n.toList.head? ≠ some '_') (noWord : ∀ m, IsName m → raw ≠ "_group_" ++ m) :
    Spelled raw .group n
  | dynamicInBrackets {n : String} (name : IsName n) (form : raw = "[" ++ n ++ "]") :
    Spelled raw .dynamic n
  | dynamicBehindUnderscore {n : String} (name : IsName n) (form : raw = "_" ++ n)
    (shared : raw ∉ reservedFolders) (first : n.toList.head? ≠ some '_')
    (last : n.toList.getLast? ≠ some '_') (noWord : ∀ m, IsName m → n ≠ "group_" ++ m) :
    Spelled raw .dynamic n

/-! ## Names -/

theorem isValidName_iff (n : String) : isValidName n.toList = true ↔ IsName n := by
  simp [isValidName, IsName, isNameChar, or_assoc]

theorem isAlphanum_underscore : '_'.isAlphanum = false := by decide

theorem isValidName_cons_underscore (n : List Char) : isValidName ('_' :: n) = isValidName n := by
  simp [isValidName, isNameChar, isAlphanum_underscore]

theorem isValidName_concat_underscore (n : List Char) :
    isValidName (n ++ ['_']) = isValidName n := by
  simp [isValidName, isNameChar, isAlphanum_underscore]

theorem IsName.toList_ne_nil {n : String} (h : IsName n) : n.toList ≠ [] :=
  ne_nil_of_isValidName ((isValidName_iff n).2 h)

theorem IsName.append_underscore {n : String} (h : IsName n) : IsName (n ++ "_") := by
  rw [← isValidName_iff, String.toList_append]
  exact (isValidName_concat_underscore _).trans ((isValidName_iff n).2 h)

/-! ## Single forms -/

theorem between?_eq_some_iff {opening closing : String} {raw name : List Char} :
    between? opening closing raw = some name ↔
      raw = opening.toList ++ name ++ closing.toList ∧ isValidName name = true := by
  simp only [between?, Option.filter_eq_some_iff, Option.bind_eq_some_iff,
    withoutPrefix_eq_some_iff, withoutSuffix_eq_some_iff]
  constructor
  · rintro ⟨⟨_, rfl, rfl⟩, valid⟩
    exact ⟨by rw [List.append_assoc], valid⟩
  · rintro ⟨rfl, valid⟩
    exact ⟨⟨_, by rw [List.append_assoc], rfl⟩, valid⟩

theorem behind?_eq_some_iff {opening : String} {raw name : List Char} :
    behind? opening raw = some name ↔ raw = opening.toList ++ name ∧ isValidName name = true := by
  simp only [behind?, Option.filter_eq_some_iff, withoutPrefix_eq_some_iff]

theorem between?_eq_none_iff {opening closing : String} {raw : List Char} :
    between? opening closing raw = none ↔
      ∀ name, raw = opening.toList ++ name ++ closing.toList → isValidName name = false := by
  simp [Option.eq_none_iff_forall_ne_some, between?_eq_some_iff]

theorem behind?_eq_none_iff {opening : String} {raw : List Char} :
    behind? opening raw = none ↔ ∀ name, raw = opening.toList ++ name →
    isValidName name = false := by
  simp [Option.eq_none_iff_forall_ne_some, behind?_eq_some_iff]

/-! ## What is read is spelled so -/

section
variable {opening closing raw : String} {kind read : SegmentKind} {name : List Char}

theorem isName_ofList (valid : isValidName name = true) : IsName (String.ofList name) := by
  rw [← isValidName_iff, String.toList_ofList]
  exact valid

theorem form_of_between?
    (h : (between? opening closing raw.toList).map (Prod.mk kind) = some (read, name)) :
    kind = read ∧ IsName (String.ofList name) ∧ raw = opening ++ String.ofList name ++ closing := by
  obtain ⟨_, found, same⟩ := Option.map_eq_some_iff.1 h
  cases same
  obtain ⟨form, valid⟩ := between?_eq_some_iff.1 found
  exact ⟨rfl, isName_ofList valid, String.toList_inj.1 (by simpa using form)⟩

theorem form_of_behind? (h : (behind? opening raw.toList).map (Prod.mk kind) = some (read, name)) :
    kind = read ∧ IsName (String.ofList name) ∧ raw = opening ++ String.ofList name := by
  obtain ⟨_, found, same⟩ := Option.map_eq_some_iff.1 h
  cases same
  obtain ⟨form, valid⟩ := behind?_eq_some_iff.1 found
  exact ⟨rfl, isName_ofList valid, String.toList_inj.1 (by simpa using form)⟩

theorem orElse_eq_some_iff {α : Type} {o p : Option α} {x : α} :
    (o <|> p) = some x ↔ o = some x ∨ o = none ∧ p = some x := by
  cases o <;> simp

/-- What the bracket grammar reads is spelled with brackets. -/
theorem spelled_of_ofBrackets? (h : ofBrackets? raw.toList = some (kind, name)) :
    Spelled raw kind (String.ofList name) := by
  unfold ofBrackets? at h
  obtain h | h := eq_some_of_orElse h
  · obtain ⟨rfl, name, form⟩ := form_of_between? h
    exact .optionalInBrackets name form
  obtain h | h := eq_some_of_orElse h
  · obtain ⟨rfl, name, form⟩ := form_of_between? h
    exact .catchAllInBrackets name form
  obtain h | h := eq_some_of_orElse h
  · obtain ⟨rfl, name, form⟩ := form_of_between? h
    exact .dynamicInBrackets name form
  · obtain ⟨rfl, name, form⟩ := form_of_between? h
    exact .groupInBrackets name form

/-- A name that begins with an underscore leaves a name behind it. -/
theorem head?_ne_of_behind? {n : String} (valid : IsName n) (form : raw = opening ++ n)
    (none' : behind? (opening ++ "_") raw.toList = none) : n.toList.head? ≠ some '_' := by
  intro first
  obtain ⟨m, chars⟩ := List.head?_eq_some_iff.1 first
  rw [← isValidName_iff, chars, isValidName_cons_underscore] at valid
  have invalid := behind?_eq_none_iff.1 none' m (by simp [form, chars])
  simp [valid] at invalid

/-- A name that ends in an underscore leaves a name before it. -/
theorem getLast?_ne_of_between? {n : String} (valid : IsName n) (form : raw = opening ++ n)
    (none' : between? opening "_" raw.toList = none) : n.toList.getLast? ≠ some '_' := by
  intro last
  obtain ⟨m, chars⟩ := List.getLast?_eq_some_iff.1 last
  rw [← isValidName_iff, chars, isValidName_concat_underscore] at valid
  have invalid := between?_eq_none_iff.1 none' m (by simp [form, chars])
  simp [valid] at invalid

theorem ne_append_of_behind? (none' : behind? opening raw.toList = none) {m : String}
    (valid : IsName m) :
    raw ≠ opening ++ m := by
  rintro rfl
  have invalid := behind?_eq_none_iff.1 none' m.toList (by simp)
  simp [(isValidName_iff m).2 valid] at invalid

/-- What the underscore grammar reads is spelled with underscores. Each form is read only where the
forms before it have failed, and a form that fails leaves no name in its place. -/
theorem spelled_of_ofUnderscores? (h : ofUnderscores? raw.toList = some (kind, name)) :
    Spelled raw kind (String.ofList name) := by
  unfold ofUnderscores? at h
  split at h
  · cases h
  next hidden =>
  have shared : raw ∉ reservedFolders := by
    intro among
    simp [isPrivate, among] at hidden
  simp only [orElse_eq_some_iff, Option.map_eq_none_iff] at h
  obtain h | ⟨noOptional, h⟩ := h
  · obtain ⟨rfl, name, form⟩ := form_of_behind? h
    exact .optionalBehindUnderscores name form
  obtain h | ⟨noCatchAll, h⟩ := h
  · obtain ⟨rfl, name, form⟩ := form_of_behind? h
    exact .catchAllBehindUnderscores name form (head?_ne_of_behind? name form noOptional)
  obtain h | ⟨noWord, h⟩ := h
  · obtain ⟨rfl, name, form⟩ := form_of_behind? h
    exact .groupBehindWord name form
  obtain h | ⟨noGroup, h⟩ := h
  · obtain ⟨rfl, name, form⟩ := form_of_between? h
    refine .groupInUnderscores name form ?_ fun m => ne_append_of_behind? noWord
    have behind := form.trans String.append_assoc
    have first := head?_ne_of_behind? name.append_underscore behind noCatchAll
    rwa [String.toList_append, List.head?_append_of_ne_nil _ name.toList_ne_nil] at first
  · obtain ⟨rfl, name, form⟩ := form_of_behind? h
    refine .dynamicBehindUnderscore name form shared (head?_ne_of_behind? name form noCatchAll)
      (getLast?_ne_of_between? name form noGroup) ?_
    rintro m valid word
    exact ne_append_of_behind? noWord valid (by rw [form, word, ← String.append_assoc]; rfl)
end

/-! ## What is spelled is read so -/

section
variable {opening closing raw n : String}

theorem between?_of_form (valid : IsName n) (form : raw = opening ++ n ++ closing) :
    between? opening closing raw.toList = some n.toList :=
  between?_eq_some_iff.2 ⟨by simp [form], (isValidName_iff n).2 valid⟩

theorem behind?_of_form (valid : IsName n) (form : raw = opening ++ n) :
    behind? opening raw.toList = some n.toList :=
  behind?_eq_some_iff.2 ⟨by simp [form], (isValidName_iff n).2 valid⟩

theorem behind?_eq_none_of_forall (other : ∀ m, IsName m → raw ≠ opening ++ m) :
    behind? opening raw.toList = none := by
  rw [behind?_eq_none_iff]
  intro name form
  by_contra valid
  rw [Bool.not_eq_false] at valid
  exact other _ (isName_ofList valid) (String.toList_inj.1 (by simpa using form))

theorem IsName.exists_cons (name : IsName n) :
    ∃ c rest, n.toList = c :: rest ∧ c ≠ '[' ∧ c ≠ '.' := by
  obtain ⟨c, rest, chars⟩ := List.exists_cons_of_ne_nil name.toList_ne_nil
  have first : isNameChar c = true := by
    have valid := (isValidName_iff n).2 name
    simp only [isValidName, chars, List.all_cons, Bool.and_eq_true] at valid
    exact valid.1.1
  refine ⟨c, rest, chars, ?_, ?_⟩
  · rintro rfl
    simp [isNameChar] at first
  · rintro rfl
    simp [isNameChar] at first

/-- The reserved folders are told from the forms of more than a parameter by one character. -/
theorem not_mem_reservedFolders
    (other : raw.toList[1]? = some '_' ∨ raw.toList[1]? = some 'g' ∨
      raw.toList.getLast? = some '_') :
    raw ∉ reservedFolders := by
  have folders : ∀ r ∈ reservedFolders,
      r.toList[1]? ≠ some '_' ∧ r.toList[1]? ≠ some 'g' ∧ r.toList.getLast? ≠ some '_' := by
    decide
  intro among
  obtain ⟨second, letter, last⟩ := folders raw among
  obtain h | h | h := other
  · exact second h
  · exact letter h
  · exact last h

/-- Behind an underscore only the underscore grammar has forms. -/
theorem read_underscore {rest : List Char} (chars : raw.toList = '_' :: rest)
    (shared : raw ∉ reservedFolders) :
    (Segment.ofBrackets? raw.toList <|> ofUnderscores? raw.toList) =
      ((behind? "___" raw.toList).map (Prod.mk SegmentKind.optionalCatchAll)
        <|> (behind? "__" raw.toList).map (Prod.mk SegmentKind.catchAll)
        <|> (behind? "_group_" raw.toList).map (Prod.mk SegmentKind.group)
        <|> (between? "_" "_" raw.toList).map (Prod.mk SegmentKind.group)
        <|> (behind? "_" raw.toList).map (Prod.mk SegmentKind.dynamic)) := by
  have noBrackets : Segment.ofBrackets? raw.toList = none := by
    simp [Segment.ofBrackets?, between?, withoutPrefix, chars]
  have shown : isPrivate raw = false := by simp [isPrivate, shared, chars]
  rw [noBrackets, ofUnderscores?, String.ofList_toList, if_neg (by simp [shown])]
  rfl

/-- What is spelled is what one of the grammars reads. -/
theorem Spelled.read {kind : SegmentKind} (h : Spelled raw kind n) :
    (Segment.ofBrackets? raw.toList <|> ofUnderscores? raw.toList) = some (kind, n.toList) := by
  cases h with
  | optionalInBrackets name form =>
    simp [Segment.ofBrackets?, between?_of_form name form]
  | catchAllInBrackets name form =>
    have noOptional : between? "[[..." "]]" raw.toList = none := by
      simp [between?, withoutPrefix, form]
    simp [Segment.ofBrackets?, noOptional, between?_of_form name form]
  | dynamicInBrackets name form =>
    obtain ⟨c, rest, chars, noBracket, noDot⟩ := name.exists_cons
    have noOptional : between? "[[..." "]]" raw.toList = none := by
      simp [between?, withoutPrefix, form, chars, Ne.symm noBracket]
    have noCatchAll : between? "[..." "]" raw.toList = none := by
      simp [between?, withoutPrefix, form, chars, Ne.symm noDot]
    simp [Segment.ofBrackets?, noOptional, noCatchAll, between?_of_form name form]
  | groupInBrackets name form =>
    have others : between? "[[..." "]]" raw.toList = none ∧ between? "[..." "]" raw.toList = none ∧
        between? "[" "]" raw.toList = none := by
      simp [between?, withoutPrefix, form]
    simp [Segment.ofBrackets?, others, between?_of_form name form]
  | optionalBehindUnderscores name form =>
    have chars : raw.toList = '_' :: '_' :: '_' :: n.toList := by simp [form]
    rw [read_underscore chars (not_mem_reservedFolders (.inl (by simp [chars])))]
    simp [behind?_of_form name form]
  | catchAllBehindUnderscores name form first =>
    obtain ⟨c, rest, chars, -⟩ := name.exists_cons
    have other : '_' ≠ c := by simpa [chars, eq_comm] using first
    have whole : raw.toList = '_' :: '_' :: c :: rest := by simp [form, chars]
    have noOptional : behind? "___" raw.toList =
        none := by simp [behind?, withoutPrefix, whole, other]
    rw [read_underscore whole (not_mem_reservedFolders (.inl (by simp [whole])))]
    simp [noOptional, behind?_of_form name form]
  | groupBehindWord name form =>
    have chars : raw.toList = '_' :: 'g' :: ("roup_".toList ++ n.toList) := by simp [form]
    have others : behind? "___" raw.toList = none ∧ behind? "__" raw.toList = none := by
      simp [behind?, withoutPrefix, chars]
    rw [read_underscore chars (not_mem_reservedFolders (.inr (.inl (by simp [chars]))))]
    simp [others, behind?_of_form name form]
  | groupInUnderscores name form first noWord =>
    obtain ⟨c, rest, chars, -⟩ := name.exists_cons
    have other : '_' ≠ c := by simpa [chars, eq_comm] using first
    have whole : raw.toList = '_' :: c :: (rest ++ ['_']) := by simp [form, chars]
    have others : behind? "___" raw.toList = none ∧ behind? "__" raw.toList = none := by
      simp [behind?, withoutPrefix, whole, other]
    have last : raw.toList.getLast? = some '_' :=
      List.getLast?_eq_some_iff.2 ⟨'_' :: n.toList, by simp [form]⟩
    rw [read_underscore whole (not_mem_reservedFolders (.inr (.inr last)))]
    simp [others, behind?_eq_none_of_forall noWord, between?_of_form name form]
  | dynamicBehindUnderscore name form shared first last noWord =>
    obtain ⟨c, rest, chars, -⟩ := name.exists_cons
    have other : '_' ≠ c := by simpa [chars, eq_comm] using first
    have whole : raw.toList = '_' :: c :: rest := by simp [form, chars]
    have others : behind? "___" raw.toList = none ∧ behind? "__" raw.toList = none := by
      simp [behind?, withoutPrefix, whole, other]
    have noGroupWord : behind? "_group_" raw.toList = none := by
      apply behind?_eq_none_of_forall
      intro m valid word
      refine noWord m valid (String.toList_inj.1 ?_)
      simpa [form] using congrArg String.toList word
    have noGroup : between? "_" "_" raw.toList = none := by
      rw [between?_eq_none_iff]
      intro m enclosed
      have ending : n.toList = m ++ ['_'] := by simpa [form] using enclosed
      simp [ending] at last
    rw [read_underscore whole shared]
    simp [others, noGroupWord, noGroup, behind?_of_form name form]

end

theorem Spelled.classify_eq {raw n : String} {kind : SegmentKind} (h : Spelled raw kind n) :
    classify raw = ⟨raw, n, kind⟩ := by
  rw [classify, h.read]
  simp

/-- A directory name is a literal, or it is spelled as what it is read as. -/
theorem classify_literal_or_spelled (raw : String) :
    (classify raw = ⟨raw, raw, .static⟩ ∧ ∀ kind n, ¬ Spelled raw kind n) ∨
      Spelled raw (classify raw).kind (classify raw).name := by
  cases read : Segment.ofBrackets? raw.toList <|> ofUnderscores? raw.toList with
  | none =>
    refine .inl ⟨by rw [classify, read], fun kind n spelled => ?_⟩
    rw [spelled.read] at read
    cases read
  | some found =>
    obtain ⟨kind, name⟩ := found
    have result : classify raw = ⟨raw, String.ofList name, kind⟩ := by rw [classify, read]
    rw [result]
    obtain brackets | ⟨-, underscores⟩ := orElse_eq_some_iff.1 read
    · exact .inr (spelled_of_ofBrackets? brackets)
    · exact .inr (spelled_of_ofUnderscores? underscores)

/-- A directory name keeps its text. It stands for what it is spelled as, with the name in the
spelling, and is a literal without a spelling; no name has two spellings of different meaning. -/
theorem classify_grammar (raw : String) :
    (classify raw).raw = raw ∧
    (∀ kind n, ((classify raw).kind = kind ∧ (classify raw).name = n) ↔
      Spelled raw kind n ∨ kind = .static ∧ n = raw ∧ ∀ other m, ¬ Spelled raw other m) ∧
    (∀ n, ¬ Spelled raw .static n) ∧
    ∀ kind n other m, Spelled raw kind n → Spelled raw other m → kind = other ∧ n = m := by
  refine ⟨classify_raw raw, fun kind n => ⟨?_, ?_⟩, ?_, ?_⟩
  · rintro ⟨rfl, rfl⟩
    obtain ⟨literal, unspelled⟩ | spelled := classify_literal_or_spelled raw
    · rw [literal]
      exact .inr ⟨rfl, rfl, unspelled⟩
    · exact .inl spelled
  · rintro (spelled | ⟨rfl, rfl, unspelled⟩)
    · rw [spelled.classify_eq]
      exact ⟨rfl, rfl⟩
    · obtain ⟨literal, -⟩ | spelled := classify_literal_or_spelled n
      · rw [literal]
        exact ⟨rfl, rfl⟩
      · exact absurd spelled (unspelled _ _)
  · intro n spelled
    cases spelled
  · intro kind n other m spelled spelled'
    have same := spelled.classify_eq.symm.trans spelled'.classify_eq
    cases same
    exact ⟨rfl, rfl⟩

/-- What is left of a form that fails can be the name of a later one. -/
example : classify "_group__" = ⟨"_group__", "group_", .group⟩ := by decide +kernel

end Waymark.Routing.Segment
