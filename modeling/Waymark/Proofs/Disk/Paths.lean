import Mathlib.Data.List.Basic
import Mathlib.Data.List.TakeWhile
import Waymark.Disk.Change

/-!
# The names in a path

A path is followed name by name. Neither repeated separators nor single dots are names of it, so
that paths which are written differently can lead the same way:

* `Path.names`, `Path.components_eq`: the names of a path;
* `Path.names_join`: a path taken from another has the names of both;
* `Path.exists_parent`: a path without its last part lacks the last name.
-/

namespace Waymark.Disk

/-- A piece of a path that stands for something. -/
def counts (n : Name) : Bool := n ≠ [] && n ≠ selfName

/-- The component that a name is. -/
def Component.ofName (n : Name) : Component := if n = upName then .parent else .name n

theorem Component.ofName_injective : Function.Injective Component.ofName := by
  intro n m same
  unfold Component.ofName at same
  split at same <;> split at same <;> simp_all

namespace Path

/-! ## Pieces -/

theorem pieces_cons_separator (rest : List UInt8) :
    pieces (separator :: rest) = [] :: pieces rest := by
  rw [pieces]
  split
  · next none' =>
    cases rest with
    | nil => cases none'
    | cons b more =>
      rw [pieces] at none'
      split at none'
      · cases none'
      · split at none' <;> cases none'
  · next piece more some' => rw [if_pos rfl, some']

theorem pieces_cons {b : UInt8} (other : b ≠ separator) (rest : List UInt8) :
    ∃ piece more, pieces rest = piece :: more ∧ pieces (b :: rest) = (b :: piece) :: more := by
  induction rest generalizing b with
  | nil => exact ⟨[], [], rfl, by simp [pieces, other]⟩
  | cons c rest ih =>
    by_cases sep : c = separator
    · subst sep
      exact ⟨[], pieces rest, pieces_cons_separator rest,
        by rw [pieces, pieces_cons_separator]; simp [other]⟩
    · obtain ⟨piece, more, -, same⟩ := ih sep
      exact ⟨c :: piece, more, same, by rw [pieces, same]; simp [other]⟩

theorem pieces_append (front rest : List UInt8) :
    pieces (front ++ separator :: rest) = pieces front ++ pieces rest := by
  induction front with
  | nil => exact pieces_cons_separator rest
  | cons b front ih =>
    by_cases sep : b = separator
    · subst sep
      rw [List.cons_append, pieces_cons_separator, pieces_cons_separator, ih, List.cons_append]
    · obtain ⟨piece, more, whole, same⟩ := pieces_cons sep (front ++ separator :: rest)
      obtain ⟨piece', more', whole', same'⟩ := pieces_cons sep front
      rw [whole', whole, List.cons_append] at ih
      obtain ⟨rfl, rfl⟩ := List.cons_eq_cons.1 ih
      rw [List.cons_append, same, same', List.cons_append]

theorem pieces_flat {n : Name} (flat : separator ∉ n) : pieces n = [n] := by
  induction n with
  | nil => rfl
  | cons b n ih =>
    rw [List.mem_cons, not_or] at flat
    obtain ⟨piece, more, whole, same⟩ := pieces_cons (Ne.symm flat.1) n
    rw [ih flat.2] at whole
    obtain ⟨rfl, rfl⟩ := List.cons_eq_cons.1 whole
    exact same

/-- The bytes before the first separator, and those from it on. -/
theorem split_first (bytes : List UInt8) : separator ∉ bytes.takeWhile (· ≠ separator) ∧
    (bytes.dropWhile (· ≠ separator) = [] ∨
      ∃ rest, bytes.dropWhile (· ≠ separator) = separator :: rest) := by
  refine ⟨fun among => by simpa using List.mem_takeWhile_imp among, ?_⟩
  have first := List.head?_dropWhile_not (· ≠ separator) bytes
  cases behind : bytes.dropWhile (· ≠ separator) with
  | nil => exact .inl rfl
  | cons b rest =>
    rw [behind] at first
    exact .inr ⟨rest, by simpa using first⟩

/-- The first piece of some bytes, and what is behind it. -/
theorem pieces_eq (bytes : List UInt8) :
    (bytes.dropWhile (· ≠ separator) = [] ∧ pieces bytes = [bytes.takeWhile (· ≠ separator)]) ∨
      ∃ rest, bytes.dropWhile (· ≠ separator) = separator :: rest ∧
        pieces bytes = bytes.takeWhile (· ≠ separator) :: pieces rest := by
  have whole := List.takeWhile_append_dropWhile (p := (· ≠ separator)) (l := bytes)
  obtain ⟨flat, last | ⟨rest, more⟩⟩ := split_first bytes
  · rw [last, List.append_nil] at whole
    exact .inl ⟨last, (congrArg pieces whole.symm).trans (pieces_flat flat)⟩
  · rw [more] at whole
    refine .inr ⟨rest, more, (congrArg pieces whole.symm).trans ?_⟩
    rw [pieces_append, pieces_flat flat, List.singleton_append]

/-! ## Names -/

/-- The names that some bytes write. -/
def namesIn (bytes : List UInt8) : List Name := (pieces bytes).filter counts

/-- The names that a path goes through. -/
def names (p : Path) : List Name := namesIn p.bytes

theorem namesIn_nil : namesIn [] = [] := by decide

theorem namesIn_append (front rest : List UInt8) :
    namesIn (front ++ separator :: rest) = namesIn front ++ namesIn rest := by
  rw [namesIn, pieces_append, List.filter_append, namesIn, namesIn]

theorem namesIn_cons_separator (rest : List UInt8) : namesIn (separator :: rest) = namesIn rest :=
  namesIn_append [] rest

theorem namesIn_concat_separator (front : List UInt8) :
    namesIn (front ++ [separator]) = namesIn front := by
  rw [namesIn_append, namesIn_nil, List.append_nil]

theorem namesIn_flat {n : Name} (flat : separator ∉ n) :
    namesIn n = if counts n then [n] else [] := by
  rw [namesIn, pieces_flat flat, List.filter_cons, List.filter_nil]

/-- The names of some bytes are their first piece, if it counts, and the names behind it. -/
theorem namesIn_eq (bytes : List UInt8) :
    namesIn bytes = (if counts
      (bytes.takeWhile (· ≠ separator)) then [bytes.takeWhile (· ≠ separator)] else [])
      ++ namesIn (bytes.dropWhile (· ≠ separator)) := by
  obtain ⟨last, one⟩ | ⟨rest, behind, more⟩ := pieces_eq bytes
  · rw [last, namesIn_nil, List.append_nil, namesIn, one, List.filter_cons,
      List.filter_nil]
  · rw [behind, namesIn_cons_separator, namesIn, more, List.filter_cons, ← namesIn]
    split <;> rfl

theorem filter_steps (bytes : List UInt8) : (steps bytes).filter counts = namesIn bytes := by
  have kept : ((pieces bytes).filter (· ≠ [])).filter counts = namesIn bytes := by
    rw [List.filter_filter, namesIn]
    refine List.filter_congr fun n _ => ?_
    by_cases none' : n = [] <;> simp [counts, none']
  unfold steps
  dsimp only
  split
  · rw [List.filter_append, kept]
    simp [counts]
  · exact kept

/-! ## Joining -/

theorem isAbsolute_join (base q : Path) :
    (base.join q).isAbsolute = (q.isAbsolute || base.isAbsolute) := by
  unfold join
  split
  · next absolute => rw [absolute, Bool.true_or]
  · next relative =>
    rw [Bool.not_eq_true] at relative
    rw [relative, Bool.false_or]
    split
    · next none' =>
      rw [List.getLast?_eq_none_iff] at none'
      rw [relative, isAbsolute, none']
      rfl
    · next last some' =>
      obtain ⟨front, whole⟩ := List.getLast?_eq_some_iff.1 some'
      split <;> cases front <;> simp [isAbsolute, whole]

/-- The pieces of a joined path are those of both, as far as empty ones do not matter. -/
theorem filter_pieces_join (keep : Name → Bool) (empty : keep [] = false) (base : Path) {q : Path}
    (relative : q.isAbsolute = false) : (pieces (base.join q).bytes).filter keep =
      (pieces base.bytes).filter keep ++ (pieces q.bytes).filter keep := by
  have none' : (pieces []).filter keep = [] := by simp [pieces, empty]
  unfold join
  rw [relative, if_neg Bool.false_ne_true]
  split
  · next blank =>
    rw [List.getLast?_eq_none_iff.1 blank, none', List.nil_append]
  · next last some' =>
    split
    · next sep =>
      obtain ⟨front, whole⟩ := List.getLast?_eq_some_iff.1 some'
      rw [whole, sep, List.append_assoc, List.singleton_append, pieces_append, pieces_append,
        List.filter_append, List.filter_append, none', List.append_nil]
    · rw [pieces_append, List.filter_append]

theorem names_join (base : Path) {q : Path} (relative : q.isAbsolute = false) :
    (base.join q).names = base.names ++ q.names :=
  filter_pieces_join counts rfl base relative

/-! ## Components -/

/-- What stands for the first place of a path. -/
def front (p : Path) : List Component :=
  if p.isAbsolute then [.root] else if (pieces p.bytes).head? =
    some selfName then [.current] else []

theorem componentOf_eq (piece : Name) :
    componentOf piece = if counts piece then some (Component.ofName piece) else none := by
  unfold componentOf counts Component.ofName
  by_cases none' : piece = [] <;> by_cases self : piece = selfName <;> simp [none', self]
  split <;> rfl

theorem filterMap_componentOf (ps : List Name) :
    ps.filterMap componentOf = (ps.filter counts).map Component.ofName := by
  induction ps with
  | nil => rfl
  | cons piece more ih =>
    rw [List.filterMap_cons, List.filter_cons, componentOf_eq, ih]
    cases counts piece <;> rfl

/-- The components of a path are what stands for its first place, and its names. -/
theorem components_eq (p : Path) : p.components = p.front ++ p.names.map Component.ofName := by
  unfold components front names namesIn
  rw [← filterMap_componentOf]

/-! ## Trimming -/

theorem namesIn_trimFront (bytes : List UInt8) : namesIn (trimFront bytes) = namesIn bytes := by
  induction bytes with
  | nil => rfl
  | cons b rest ih =>
    unfold trimFront
    split
    · next sep => rw [ih, sep, namesIn_cons_separator]
    · split
      · next dot =>
        rw [Bool.and_eq_true, Bool.or_eq_true, decide_eq_true_eq, decide_eq_true_eq,
          decide_eq_true_eq] at dot
        obtain ⟨rfl, last | more⟩ := dot
        · rw [ih, List.head?_eq_none_iff.1 last]
          decide
        · obtain ⟨behind, rfl⟩ := List.head?_eq_some_iff.1 more
          have self : namesIn [0x2E] = [] := by decide
          rw [ih, namesIn_cons_separator, ← List.singleton_append, namesIn_append, self,
            List.nil_append]
      · rfl

/-- Bytes in reverse whose last piece is neither empty nor a single dot behind a separator. -/
def Trimmed : List UInt8 → Prop
  | [] => True
  | b :: rest => b ≠ separator ∧ ¬ (b = 0x2E ∧ rest.head? = some separator)

theorem trimmed_go (reversed : List UInt8) : Trimmed (trimBack.go reversed) := by
  induction reversed with
  | nil => trivial
  | cons b rest ih =>
    unfold trimBack.go
    split
    · exact ih
    · next other =>
      split
      · exact ih
      · next more => exact ⟨other, by simpa using more⟩

theorem suffix_go (reversed : List UInt8) : trimBack.go reversed <:+ reversed := by
  induction reversed with
  | nil => exact List.suffix_rfl
  | cons b rest ih =>
    unfold trimBack.go
    split
    · exact ih.trans (List.suffix_cons _ _)
    · split
      · exact ih.trans (List.suffix_cons _ _)
      · exact List.suffix_rfl

theorem namesIn_go (reversed : List UInt8) :
    namesIn (trimBack.go reversed).reverse = namesIn reversed.reverse := by
  induction reversed with
  | nil => rfl
  | cons b rest ih =>
    unfold trimBack.go
    split
    · next sep => rw [ih, sep, List.reverse_cons, namesIn_concat_separator]
    · split
      · next dot =>
        rw [Bool.and_eq_true, decide_eq_true_eq, decide_eq_true_eq] at dot
        obtain ⟨rfl, more⟩ := dot
        obtain ⟨before, rfl⟩ := List.head?_eq_some_iff.1 more
        have self : namesIn [0x2E] = [] := by decide
        have whole : (0x2E :: separator :: before).reverse = before.reverse
            ++ separator :: [0x2E] := by simp
        rw [ih, whole, namesIn_append, self, List.append_nil, List.reverse_cons,
          namesIn_concat_separator]
      · rfl

theorem namesIn_trimBack (bytes : List UInt8) : namesIn (trimBack bytes) = namesIn bytes := by
  rw [trimBack, namesIn_go, List.reverse_reverse]

theorem trimBack_isPrefix (bytes : List UInt8) : trimBack bytes <+: bytes := by
  rw [trimBack, ← List.reverse_suffix, List.reverse_reverse]
  exact suffix_go _

/-- Trimmed bytes are what stands before their last piece, and a name unless nothing does. -/
theorem namesIn_of_trimmed {reversed : List UInt8} (trimmed : Trimmed reversed) :
    namesIn (reversed.dropWhile (· ≠ separator)).reverse = (namesIn reversed.reverse).dropLast := by
  have whole := List.takeWhile_append_dropWhile (p := (· ≠ separator)) (l := reversed)
  obtain ⟨flat, behind⟩ := split_first reversed
  generalize reversed.takeWhile (· ≠ separator) = last at whole flat
  rw [← List.mem_reverse] at flat
  obtain alone | ⟨rest, more⟩ := behind
  · rw [alone, List.append_nil] at whole
    rw [alone, ← whole, namesIn_flat flat]
    split <;> rfl
  · rw [more] at whole ⊢
    subst whole
    have counted : counts last.reverse = true := by
      -- an empty piece would end in a separator, and a single dot would stand behind one
      rw [counts, Bool.and_eq_true, decide_eq_true_eq, decide_eq_true_eq]
      constructor
      · intro none'
        rw [List.reverse_eq_nil_iff] at none'
        subst none'
        exact trimmed.1 rfl
      · intro dot
        rw [← List.reverse_inj, List.reverse_reverse] at dot
        subst dot
        exact trimmed.2 ⟨rfl, rfl⟩
    have named : namesIn (last ++ separator :: rest).reverse = namesIn rest.reverse
        ++ [last.reverse] := by
      rw [List.reverse_append, List.reverse_cons, List.append_assoc, List.singleton_append,
        namesIn_append, namesIn_flat flat, if_pos counted]
    rw [named, List.dropLast_concat, List.reverse_cons, namesIn_concat_separator]

/-! ## Parts of a path -/

theorem isAbsolute_of_isPrefix {bytes : List UInt8} {p : Path} (front : bytes <+: p.bytes)
    (some' : bytes ≠ []) :
    (Path.mk bytes).isAbsolute = p.isAbsolute := by
  obtain ⟨b, rest, rfl⟩ := List.exists_cons_of_ne_nil some'
  obtain ⟨more, whole⟩ := front
  rw [isAbsolute, isAbsolute, ← whole]
  rfl

/-- The bytes of a path up to its last part. -/
def shortened (p : Path) : List UInt8 :=
  ((trimBack p.bytes).reverse.dropWhile (· ≠ separator)).reverse

theorem namesIn_shortened (p : Path) : namesIn p.shortened = p.names.dropLast := by
  have same : namesIn (trimBack.go p.bytes.reverse).reverse = p.names := namesIn_trimBack p.bytes
  rw [shortened, trimBack, List.reverse_reverse, namesIn_of_trimmed (trimmed_go p.bytes.reverse),
    same]

theorem shortened_isPrefix (p : Path) : p.shortened <+: p.bytes := by
  refine List.IsPrefix.trans ?_ (trimBack_isPrefix p.bytes)
  rw [shortened, ← List.reverse_suffix, List.reverse_reverse]
  exact List.dropWhile_suffix _

/-- A path with a name has a path without its last part, which has all names but the last. -/
theorem exists_parent {p : Path} (named : p.names ≠ []) : ∃ above, p.parent? = some above ∧
    above.names = p.names.dropLast ∧ above.isAbsolute = p.isAbsolute := by
  have found : p.parent? = some ⟨if trimBack p.shortened = [] && p.isAbsolute then [separator]
      else trimBack p.shortened⟩ := by
    have last : p.components.getLast? = some (Component.ofName (p.names.getLast named)) := by
      rw [components_eq, List.getLast?_append, List.getLast?_map,
        List.getLast?_eq_some_getLast named, Option.map_some, Option.some_or]
    unfold parent?
    rw [last]
    unfold Component.ofName
    by_cases up : p.names.getLast named = upName
    · rw [if_pos up]
      rfl
    · rw [if_neg up]
      rfl
  have kept : namesIn (trimBack p.shortened) = p.names.dropLast := by
    rw [namesIn_trimBack, namesIn_shortened]
  refine ⟨_, found, ?_, ?_⟩
  · rw [← kept, names]
    split
    · next root =>
      rw [Bool.and_eq_true, decide_eq_true_eq] at root
      rw [root.1]
      rfl
    · rfl
  · cases blank : trimBack p.shortened with
    | nil => cases absolute : p.isAbsolute <;> simp [isAbsolute]
    | cons b rest =>
      rw [← blank]
      simpa [blank] using isAbsolute_of_isPrefix
        ((trimBack_isPrefix _).trans (shortened_isPrefix p)) (by simp [blank])

theorem namesIn_dropWhile_separator (reversed : List UInt8) :
    namesIn (reversed.dropWhile (· = separator)).reverse = namesIn reversed.reverse := by
  induction reversed with
  | nil => rfl
  | cons b rest ih =>
    by_cases sep : b = separator
    · rw [List.dropWhile_cons_of_pos (by simpa using sep), ih, sep, List.reverse_cons,
        namesIn_concat_separator]
    · rw [List.dropWhile_cons_of_neg (by simpa using sep)]

/-- Separators at the end of a path are no part of the way. -/
theorem withoutTrailing_spec {p : Path} (written : p.bytes ≠ []) :
    (Volume.withoutTrailing p).bytes ≠ [] ∧ (Volume.withoutTrailing p).names = p.names ∧
      (Volume.withoutTrailing p).isAbsolute = p.isAbsolute := by
  have same := namesIn_dropWhile_separator p.bytes.reverse
  have within : (p.bytes.reverse.dropWhile (· = separator)).reverse <+: p.bytes := by
    rw [← List.reverse_suffix, List.reverse_reverse]
    exact List.dropWhile_suffix _
  unfold Volume.withoutTrailing
  split
  · exact ⟨written, rfl, rfl⟩
  · next some' =>
    rw [List.reverse_reverse] at same
    have kept : (p.bytes.reverse.dropWhile (· = separator)).reverse ≠ [] := by simpa using some'
    exact ⟨kept, same, isAbsolute_of_isPrefix within kept⟩

end Path

end Waymark.Disk
