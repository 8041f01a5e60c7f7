import RowGraph.Dialect.Basic

/-!
# What a pattern matches

A pattern is read in two steps. First an escape character is taken together with the character
behind it, which then stands for itself. Of what is left, a percent sign stands for any characters,
an underscore for one, and everything else for itself; some engines also read a bracket as the
beginning of a set, one of whose characters has to stand there. Inside a set the escape character
works as it does outside.

A pattern that ends with an escape character, or inside a set, matches nothing.

Results:
* `signs?`, `Wildcards.elements?`, `Matches`: how a pattern is read and what it matches.
* `matches_any_iff`, `matches_one_iff`, `matches_exactly_iff`: where a text goes on behind a part of
  the pattern.
* `elementsWithSets?_of_no_bracket`: without brackets there are no sets.
* `Matches.exists_shortest`: what can be matched is matched by a text with one character for each
  element that takes one.
* `width_le`, `width_lt_of_bracket`: a set is longer than the character that it stands for.
-/

namespace RowGraph.Pattern

/-! ## Escape characters -/

/-- A character of a pattern. -/
inductive Sign
  | bare (c : Char)
  /-- Behind an escape character. -/
  | escaped (c : Char)
deriving DecidableEq, Repr

/-- The character, escaped or not. -/
def Sign.char : Sign → Char
  | .bare c | .escaped c => c

/-- The characters of a pattern; none if there is nothing behind the last escape character. -/
def signs? (escape : Char) : List Char → Option (List Sign)
  | [] => some []
  | c :: rest =>
    if c = escape then
      match rest with
      | [] => none
      | next :: after => (signs? escape after).map (.escaped next :: ·)
    else (signs? escape rest).map (.bare c :: ·)

section

variable {escape : Char}

theorem signs?_escaped (c : Char) (rest : List Char) :
    signs? escape (escape :: c :: rest) = (signs? escape rest).map (.escaped c :: ·) := by
  simp [signs?]

theorem signs?_bare {c : Char} (h : c ≠ escape) (rest : List Char) :
    signs? escape (c :: rest) = (signs? escape rest).map (.bare c :: ·) := by
  cases rest <;> simp [signs?, h]

end

/-! ## Elements -/

/-- What a part of a pattern stands for. -/
inductive Element
  /-- Any characters, or none. -/
  | any
  /-- One character out of these. -/
  | one (accepts : Char → Bool)

/-- A character that stands for itself. -/
def Element.exactly (c : Char) : Element := .one (· == c)

/-- What a character of a pattern stands for. -/
def Sign.element : Sign → Element
  | .escaped c => .exactly c
  | .bare c => if c = '%' then .any else if c = '_' then .one fun _ => true else .exactly c

/-- The elements match the whole text. -/
inductive Matches : List Element → List Char → Prop
  | nil : Matches [] []
  | any (skipped : List Char) {es : List Element} {rest : List Char} (h : Matches es rest) :
    Matches (.any :: es) (skipped ++ rest)
  | one {accepts : Char → Bool} {c : Char} {es : List Element} {rest : List Char}
    (hc : accepts c = true) (h : Matches es rest) : Matches (.one accepts :: es) (c :: rest)

section

variable {es : List Element} {s : List Char}

theorem matches_nil_iff : Matches [] s ↔ s = [] := by
  constructor
  · intro h
    cases h
    rfl
  · rintro rfl
    exact .nil

theorem matches_any_iff :
    Matches (.any :: es) s ↔ ∃ skipped rest, s = skipped ++ rest ∧ Matches es rest := by
  constructor
  · intro h
    cases h with
    | any skipped h => exact ⟨skipped, _, rfl, h⟩
  · rintro ⟨skipped, rest, rfl, h⟩
    exact .any skipped h

theorem matches_one_iff {accepts : Char → Bool} :
    Matches (.one accepts :: es) s ↔
      ∃ c rest, s = c :: rest ∧ accepts c = true ∧ Matches es rest := by
  constructor
  · intro h
    cases h with
    | one hc h => exact ⟨_, _, rfl, hc, h⟩
  · rintro ⟨c, rest, rfl, hc, h⟩
    exact .one hc h

/-- Characters that stand for themselves match the text that they make up. -/
theorem matches_exactly_iff (p : List Char) :
    Matches (p.map .exactly ++ es) s ↔ ∃ rest, s = p ++ rest ∧ Matches es rest := by
  induction p generalizing s with
  | nil => simp
  | cons c p ih =>
    rw [List.map_cons, List.cons_append, Element.exactly, matches_one_iff]
    simp only [ih, beq_iff_eq]
    constructor
    · rintro ⟨_, _, rfl, rfl, rest, rfl, h⟩
      exact ⟨rest, rfl, h⟩
    · rintro ⟨rest, rfl, h⟩
      exact ⟨c, p ++ rest, rfl, rfl, rest, rfl, h⟩

theorem matches_map_exactly_iff (p : List Char) : Matches (p.map .exactly) s ↔ s = p := by
  have last := @matches_exactly_iff [] s p
  simpa [matches_nil_iff] using last

/-- At the end anything is skipped. -/
theorem matches_any (s : List Char) : Matches [.any] s := by
  have all := Matches.any s .nil
  rwa [List.append_nil] at all

/-! ## How long a matched text has to be -/

/-- How many elements take a character. -/
def width : List Element → Nat
  | [] => 0
  | .any :: es => width es
  | .one _ :: es => width es + 1

/-- What can be matched is matched by a text with one character for each element that takes one. -/
theorem Matches.exists_shortest (h : Matches es s) :
    ∃ shortest, Matches es shortest ∧ shortest.length = width es := by
  induction h with
  | nil => exact ⟨[], .nil, rfl⟩
  | any skipped h ih =>
    obtain ⟨shortest, h, length⟩ := ih
    exact ⟨shortest, .any [] h, length⟩
  | @one _ c _ _ hc h ih =>
    obtain ⟨shortest, h, length⟩ := ih
    exact ⟨c :: shortest, .one hc h, by rw [List.length_cons, length, width]⟩

end

/-! ## Sets -/

/-- The characters between brackets, or all others. -/
structure CharSet where
  negated : Bool
  /-- The first and the last character of each range. -/
  ranges : List (Char × Char)
deriving DecidableEq, Repr

namespace CharSet

/-- The ranges that are written down: two characters with a dash between them, or one. -/
def rangesOf : List Sign → List (Char × Char)
  | [] => []
  | first :: dash :: last :: rest =>
    if dash = .bare '-' then (first.char, last.char) :: rangesOf rest
    else (first.char, first.char) :: rangesOf (dash :: last :: rest)
  | single :: rest => (single.char, single.char) :: rangesOf rest

/-- What stands between two brackets. A caret in front means all others. -/
def ofSigns : List Sign → CharSet
  | [] => ⟨false, []⟩
  | first :: rest =>
    if first = .bare '^' then ⟨true, rangesOf rest⟩ else ⟨false, rangesOf (first :: rest)⟩

/-- Whether a character is in the set. -/
def contains (set : CharSet) (c : Char) : Bool :=
  (set.ranges.any fun (first, last) => first ≤ c && c ≤ last) != set.negated

end CharSet

/-- The elements of a pattern in which a bracket opens a set; none if the last set is not closed.
`inside` is what the reader has found in the set that it is in. -/
def elementsWithSets? : List Sign → (inside : Option (List Sign)) → Option (List Element)
  | [], none => some []
  | [], some _ => none
  | sign :: rest, none =>
    if sign = .bare '[' then elementsWithSets? rest (some [])
    else (elementsWithSets? rest none).map (sign.element :: ·)
  | sign :: rest, some inside =>
    if sign = .bare ']' then
      (elementsWithSets? rest none).map (.one (CharSet.ofSigns inside).contains :: ·)
    else elementsWithSets? rest (some (inside ++ [sign]))

/-- Without brackets there are no sets. -/
theorem elementsWithSets?_of_no_bracket {signs : List Sign} (h : .bare '[' ∉ signs) :
    elementsWithSets? signs none = some (signs.map Sign.element) := by
  induction signs with
  | nil => rfl
  | cons sign rest ih =>
    rw [List.mem_cons, not_or] at h
    rw [elementsWithSets?, if_neg (Ne.symm h.1), ih h.2]
    rfl

/-- How many characters of a pattern do not stand for any text. -/
def solid (signs : List Sign) : Nat := signs.countP (· != .bare '%')

theorem solid_cons (sign : Sign) (rest : List Sign) :
    solid (sign :: rest) = (if sign = .bare '%' then 0 else 1) + solid rest := by
  by_cases percent : sign = .bare '%' <;> simp [solid, percent, Nat.add_comm]

theorem width_element (sign : Sign) (es : List Element) :
    width (sign.element :: es) = (if sign = .bare '%' then 0 else 1) + width es := by
  cases sign with
  | escaped c => simp [Sign.element, Element.exactly, width, Nat.add_comm]
  | bare c =>
    by_cases percent : c = '%'
    · simp [Sign.element, width, percent]
    · by_cases underscore : c = '_'
      · simp [Sign.element, width, underscore, Nat.add_comm]
      · simp [Sign.element, Element.exactly, width, percent, underscore, Nat.add_comm]

/-- No more characters have to be matched than the pattern has. -/
theorem width_le {signs : List Sign} {inside : Option (List Sign)} {es : List Element}
    (h : elementsWithSets? signs inside = some es) : width es ≤ solid signs := by
  fun_induction elementsWithSets? signs inside generalizing es with
  | case1 =>
    cases h
    exact Nat.le_refl 0
  | case2 => cases h
  | case3 rest ih =>
    have inner := ih h
    rw [solid_cons]
    omega
  | case4 sign rest other ih =>
    obtain ⟨es, read, rfl⟩ := Option.map_eq_some_iff.mp h
    have inner := ih read
    rw [width_element, solid_cons]
    omega
  | case5 rest inside ih => 
    obtain ⟨es, read, rfl⟩ := Option.map_eq_some_iff.mp h
    have inner := ih read
    rw [width, solid_cons, if_neg (by decide)]
    omega
  | case6 sign rest inside other ih => 
    have inner := ih h
    rw [solid_cons]
    omega

/-- A set is longer than the character that it stands for. -/
theorem width_lt_of_bracket {signs : List Sign} {es : List Element} (bracket : .bare '[' ∈ signs)
    (h : elementsWithSets? signs none = some es) : width es < solid signs := by
  induction signs generalizing es with
  | nil => cases bracket
  | cons sign rest ih =>
    rw [elementsWithSets?] at h
    rw [solid_cons]
    split at h
    · next opening =>
      have inner := width_le h
      rw [if_neg (by rw [opening]; decide)]
      omega
    · next other =>
      obtain ⟨es, read, rfl⟩ := Option.map_eq_some_iff.mp h
      have inner := ih (List.mem_of_ne_of_mem (Ne.symm other) bracket) read
      rw [width_element]
      omega

end RowGraph.Pattern

namespace RowGraph

/-- Which characters of a pattern stand for more than themselves. -/
inductive Wildcards
  /-- The percent sign and the underscore. -/
  | standard
  /-- Besides these, a bracket opens a set. -/
  | sets
deriving DecidableEq, Repr

open Pattern

/-- The elements of a pattern. -/
def Wildcards.elements? : Wildcards → List Sign → Option (List Element)
  | .standard, signs => some (signs.map Sign.element)
  | .sets, signs => elementsWithSets? signs none

/-- A text is matched by a pattern with this escape character. -/
def Wildcards.Matches (w : Wildcards) (escape : Char) (pattern s : String) : Prop :=
  ∃ signs es, signs? escape pattern.toList = some signs ∧ w.elements? signs = some es ∧
    Pattern.Matches es s.toList

end RowGraph
