import Mathlib.Order.Bounds.Basic
import RowGraph.ColumnPlan

/-!
# The rules of column plans

A field has a column for certain if one bears the name of its column or, where this was given a name
of its own, the name of the field. Every other field has to guess. It guesses among the columns that
are not taken: no field has them for certain, and no field before it has guessed them. A column with
one of its bare names goes before a column whose bare name only ends with one; among several the
first one is taken.

The rules are stated here by least places in the list of columns, apart from the searches that follow
them.

Results:
* `findIdx?_eq_some_iff_isLeast`, `firstLeft_eq_some_iff`: searches in a list, and among the places
  of it that are left.
* `claim?_eq_some_iff`, `claim?_eq_none_iff`: the search for a certain column.
* `guesses_guess?`: the search for a guess.
-/

namespace RowGraph

/-! ## Places in a list -/

section Places

/-- The places whose element has a property. -/
def placesWith {α : Type} (l : List α) (p : α → Prop) : Set Nat :=
  {i | ∃ a, l[i]? = some a ∧ p a}

theorem placesWith_map {α β : Type} (f : α → β) (l : List α) (p : β → Prop) :
    placesWith (l.map f) p = placesWith l fun a => p (f a) := by
  ext i
  simp [placesWith]

/-- A search finds the first place. -/
theorem findIdx?_eq_some_iff_isLeast {α : Type} {l : List α} {p : α → Bool} {i : Nat} :
    l.findIdx? p = some i ↔ IsLeast (placesWith l (p · = true)) i := by
  rw [List.findIdx?_eq_some_iff_getElem]
  constructor
  · rintro ⟨inside, holds, first⟩
    refine ⟨⟨_, List.getElem?_eq_getElem inside, holds⟩, ?_⟩
    rintro j ⟨a, at_j, holds_j⟩
    refine Nat.le_of_not_lt fun before => ?_
    obtain ⟨_, rfl⟩ := List.getElem?_eq_some_iff.mp at_j
    exact first j before holds_j
  · rintro ⟨⟨a, at_i, holds⟩, least⟩
    obtain ⟨inside, rfl⟩ := List.getElem?_eq_some_iff.mp at_i
    refine ⟨inside, holds, fun j before holds_j => ?_⟩
    have : i ≤ j := least ⟨_, List.getElem?_eq_getElem (before.trans inside), holds_j⟩
    omega

theorem findIdx?_eq_none_iff_empty {α : Type} {l : List α} {p : α → Bool} :
    l.findIdx? p = none ↔ placesWith l (p · = true) = ∅ := by
  rw [List.findIdx?_eq_none_iff, Set.eq_empty_iff_forall_notMem]
  constructor
  · rintro none_holds i ⟨a, at_i, holds⟩
    rw [none_holds a (List.mem_of_getElem? at_i)] at holds
    cases holds
  · intro none_holds a inside
    obtain ⟨i, at_i⟩ := List.mem_iff_getElem?.mp inside
    rw [Bool.eq_false_iff]
    exact fun holds => none_holds i ⟨a, at_i, holds⟩

/-- The first place that is not taken and whose element has a property. -/
def firstLeft {α : Type} (l : List α) (taken : List Nat) (p : α → Bool) : Option Nat :=
  ((l.zipIdx.filter fun q => q.2 ∉ taken).find? fun q => p q.1).map Prod.snd

variable {α : Type} {l : List α} {taken : List Nat} {p : α → Bool}

/-- The number that is found is the place where it is found. -/
theorem firstLeft_eq_findIdx? (l : List α) (taken : List Nat) (p : α → Bool) :
    firstLeft l taken p = l.zipIdx.findIdx? fun q => decide (q.2 ∉ taken ∧ p q.1 = true) := by
  rw [firstLeft, List.find?_filter, List.find?_eq_bind_findIdx?_getElem?]
  simp only [decide_eq_true_eq]
  cases found : l.zipIdx.findIdx? fun q => decide (q.2 ∉ taken ∧ p q.1 = true) with
  | none => rfl
  | some i =>
    obtain ⟨inside, -⟩ := List.findIdx?_eq_some_iff_getElem.mp found
    rw [Option.bind_some, List.getElem?_eq_getElem inside, List.getElem_zipIdx, Nat.zero_add]
    rfl

theorem placesWith_zipIdx : placesWith l.zipIdx
    (fun q => decide (q.2 ∉ taken ∧ p q.1 = true) = true) =
      placesWith l (p · = true) \ {j | j ∈ taken} := by
  ext i
  simp only [placesWith, List.getElem?_zipIdx, Nat.zero_add]
  constructor
  · rintro ⟨_, at_i, found⟩
    obtain ⟨a, here, rfl⟩ := Option.map_eq_some_iff.mp at_i
    rw [decide_eq_true_eq] at found
    exact ⟨⟨a, here, found.2⟩, found.1⟩
  · rintro ⟨⟨a, here, holds⟩, left⟩
    exact ⟨(a, i), by rw [here]; rfl, decide_eq_true ⟨left, holds⟩⟩

/-- A search among the places that are left finds the first one of these. -/
theorem firstLeft_eq_some_iff {i : Nat} : firstLeft l taken p = some i ↔
    IsLeast (placesWith l (p · = true) \ {j | j ∈ taken}) i := by
  rw [firstLeft_eq_findIdx?, findIdx?_eq_some_iff_isLeast, placesWith_zipIdx]

theorem firstLeft_eq_none_iff : firstLeft l taken p = none ↔
    placesWith l (p · = true) ⊆ {j | j ∈ taken} := by
  rw [firstLeft_eq_findIdx?, findIdx?_eq_none_iff_empty, placesWith_zipIdx, Set.sdiff_eq_empty]

end Places

/-! ## Certain columns -/

namespace Field

/-- **The column that a field has for certain.** -/
inductive Claims (f : Field) (columns : List String) : Nat → Prop
  /-- The first one with the name of its column. -/
  | column {c : Nat}
      (first : IsLeast (placesWith columns (Text.sameName · f.column = true)) c) :
      f.Claims columns c
  /-- Where there is none, and the column was given a name of its own: the first one with the name of
  the field. -/
  | name {c : Nat} (absent : ∀ column ∈ columns, Text.sameName column f.column = false)
      (renamed : f.columnAlias.isSome = true)
      (first : IsLeast (placesWith columns (Text.sameName · f.name = true)) c) :
      f.Claims columns c

/-- No column has the name of the field's column, and if this was given a name of its own, none has
the name of the field either. -/
def Unmatched (f : Field) (columns : List String) : Prop :=
  (∀ column ∈ columns, Text.sameName column f.column = false) ∧
    (f.columnAlias.isSome = true → ∀ column ∈ columns, Text.sameName column f.name = false)

instance (f : Field) (columns : List String) : Decidable (f.Unmatched columns) :=
  inferInstanceAs (Decidable (_ ∧ _))

variable {f : Field} {columns : List String} {c : Nat}

theorem claim?_eq_some_iff : f.claim? columns = some c ↔ f.Claims columns c := by
  unfold claim?
  simp only [Option.orElse_eq_orElse, Option.orElse_eq_or, Option.or_eq_some_iff,
    List.findIdx?_eq_none_iff, findIdx?_eq_some_iff_isLeast]
  constructor
  · rintro (first | ⟨absent, byName⟩)
    · exact .column first
    · split at byName
      · next renamed => exact .name absent renamed (findIdx?_eq_some_iff_isLeast.mp byName)
      · cases byName
  · rintro (first | ⟨absent, renamed, first⟩)
    · exact .inl first
    · exact .inr ⟨absent, by rw [if_pos renamed, findIdx?_eq_some_iff_isLeast]; exact first⟩

theorem claim?_eq_none_iff : f.claim? columns = none ↔ f.Unmatched columns := by
  unfold claim? Unmatched
  rw [Option.orElse_eq_orElse, Option.orElse_eq_or, Option.or_eq_none_iff,
    List.findIdx?_eq_none_iff]
  refine and_congr Iff.rfl ?_
  by_cases renamed : f.columnAlias.isSome = true
  · simp [renamed]
  · simp [renamed]

theorem Unmatched.not_claims (h : f.Unmatched columns) : ¬ f.Claims columns c := by
  intro claims
  have found := claim?_eq_some_iff.mpr claims
  rw [claim?_eq_none_iff.mpr h] at found
  cases found

/-- A field that does not have to guess has a column for certain. -/
theorem exists_claims (h : ¬ f.Unmatched columns) : ∃ c, f.Claims columns c := by
  cases found : f.claim? columns with
  | none => exact absurd (claim?_eq_none_iff.mp found) h
  | some c => exact ⟨c, claim?_eq_some_iff.mp found⟩

/-! ## Guesses -/

/-- The bare name of a column is one of the field. -/
def Names (f : Field) (column : String) : Prop :=
  ∃ name ∈ [f.name, f.column], bareName name ≠ [] ∧ bareName name = bareName column

/-- The bare name of a column ends with one of the field. -/
def Ends (f : Field) (column : String) : Prop :=
  ∃ name ∈ [f.name, f.column], bareName name ≠ [] ∧ bareName name <:+ bareName column

instance (f : Field) (column : String) : Decidable (f.Names column) :=
  inferInstanceAs (Decidable (∃ name ∈ _, _))

instance (f : Field) (column : String) : Decidable (f.Ends column) :=
  inferInstanceAs (Decidable (∃ name ∈ _, _))

theorem Names.ends {column : String} (h : f.Names column) : f.Ends column := by
  obtain ⟨name, own, nonempty, same⟩ := h
  exact ⟨name, own, nonempty, same ▸ List.suffix_rfl⟩

/-- **What a field guesses** when some columns are taken. -/
inductive Guesses (f : Field) (columns : List String) (taken : Set Nat) : Option Nat → Prop
  /-- The first column that is left with a bare name of the field. -/
  | same {c : Nat} (first : IsLeast (placesWith columns f.Names \ taken) c) :
      f.Guesses columns taken (some c)
  /-- Where there is none: the first one that is left and ends with one. -/
  | ending {c : Nat} (none_same : placesWith columns f.Names ⊆ taken)
      (first : IsLeast (placesWith columns f.Ends \ taken) c) :
      f.Guesses columns taken (some c)
  /-- Nothing, where there is none of these either. -/
  | nothing (none_left : placesWith columns f.Ends ⊆ taken) : f.Guesses columns taken none

/-- What is guessed was left, and ends with a bare name of the field. -/
theorem Guesses.mem {taken : Set Nat} (h : f.Guesses columns taken (some c)) :
    c ∈ placesWith columns f.Ends \ taken := by
  cases h with
  | same first =>
    obtain ⟨⟨column, at_c, names⟩, left⟩ := first.1
    exact ⟨⟨column, at_c, names.ends⟩, left⟩
  | ending _ first => exact first.1

theorem any_bareNames_eq {column : String} :
    f.bareNames.any (bareName column == ·) = true ↔ f.Names column := by
  simp only [bareNames, List.any_filter, Names]
  simp [eq_comm (a := bareName column)]

theorem any_bareNames_isSuffixOf {column : String} :
    f.bareNames.any (·.isSuffixOf (bareName column)) = true ↔ f.Ends column := by
  simp [bareNames, Ends]

theorem guess?_eq (names : List (List Char)) (taken : List Nat) :
    f.guess? names taken = (firstLeft names taken fun name => f.bareNames.any (name == ·)).or
      (firstLeft names taken fun name => f.bareNames.any (·.isSuffixOf name)) := by
  rw [guess?, Option.orElse_eq_orElse, Option.orElse_eq_or, Option.map_or]
  rfl

/-- The search for a guess follows the rules. -/
theorem guesses_guess? (f : Field) (columns : List String) (taken : List Nat) :
    f.Guesses columns {c | c ∈ taken} (f.guess? (columns.map bareName) taken) := by
  have names : placesWith (columns.map bareName)
      (fun name => f.bareNames.any (name == ·) = true) = placesWith columns f.Names := by
    rw [placesWith_map]
    exact congrArg _ (funext fun _ => propext any_bareNames_eq)
  have ends : placesWith (columns.map bareName)
      (fun name => f.bareNames.any (·.isSuffixOf name) = true) = placesWith columns f.Ends := by
    rw [placesWith_map]
    exact congrArg _ (funext fun _ => propext any_bareNames_isSuffixOf)
  cases found : f.guess? (columns.map bareName) taken with
  | none =>
    rw [guess?_eq, Option.or_eq_none_iff, firstLeft_eq_none_iff, firstLeft_eq_none_iff,
      ends] at found
    exact .nothing found.2
  | some c =>
    rw [guess?_eq, Option.or_eq_some_iff, firstLeft_eq_some_iff, firstLeft_eq_none_iff,
      firstLeft_eq_some_iff, names, ends] at found
    rcases found with first | ⟨none_same, first⟩
    · exact .same first
    · exact .ending none_same first

end Field

end RowGraph
