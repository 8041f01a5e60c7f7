import RowGraph.Entity.Rows
import RowGraph.Row

/-!
# Reading entities from rows

A column plan says for each field of an entity which column of a result holds its value. A field
claims the column with its column's name, else, where the two differ, the column with its own name;
both in any case. A field without such a column is an error in strict mode. In lenient mode it may
guess: among the columns that no field has claimed or guessed before, the first one whose bare name
is one of the field's bare names, else the first one whose bare name ends with one. A bare name has
ASCII letters and digits alone, in small letters.

Main statements: `length_columnPlan`, and `columnPlan_strict_eq_ok_iff` (strict mode refuses exactly
the fields without a claim).

Modelled: `RowMapper` with `plan` (`columnPlan`: `claims` is its first two passes, `guessMissing`
the third), `normalize` (`bareName`), `apply_plan` and `map_rows` (`readRows`).

Left out: the warnings about columns that were guessed.
-/

namespace RowGraph

/-- The letters and digits of a name, in small letters. -/
def bareName (name : String) : List Char :=
  (name.toList.filter Char.isAlphanum).map Char.toLower

namespace Field

/-- The column that the field claims. -/
def claim? (columns : List String) (f : Field) : Option Nat :=
  columns.findIdx? (Text.sameName · f.column) <|>
    if f.columnAlias.isSome then columns.findIdx? (Text.sameName · f.name) else none

/-- The bare names by which the field may be guessed. -/
def bareNames (f : Field) : List (List Char) :=
  [bareName f.name, bareName f.column].filter (!·.isEmpty)

/-- The column that the field guesses among bare names, of which some are taken. -/
def guess? (names : List (List Char)) (taken : List Nat) (f : Field) : Option Nat :=
  let free := names.zipIdx.filter fun (_, i) => i ∉ taken
  let found := free.find? (fun (name, _) => f.bareNames.any fun w => name == w) <|>
    free.find? fun (name, _) => f.bareNames.any fun w => w.isSuffixOf name
  found.map Prod.snd

end Field

/-- The columns of fields after guessing for those without one, from the first to the last. -/
def guessMissing (names : List (List Char)) :
    (taken : List Nat) → List (Field × Option Nat) → List (Option Nat)
  | _, [] => []
  | taken, (_, some i) :: rest => some i :: guessMissing names taken rest
  | taken, (f, none) :: rest =>
    match f.guess? names taken with
    | some i => some i :: guessMissing names (i :: taken) rest
    | none => none :: guessMissing names taken rest

/-- The values of a row under a plan; null where there is none. -/
def applyPlan (plan : List (Option Nat)) (r : Row) : List Value :=
  plan.map fun column => (column.bind (r.values[·]?)).getD .null

namespace Entity

/-- The fields with the columns that they claim. -/
def claims (e : Entity) (columns : List String) : List (Field × Option Nat) :=
  e.fields.map fun f => (f, f.claim? columns)

/-- The names of the fields that claim no column. -/
def unmatched (e : Entity) (columns : List String) : List String :=
  (e.fields.filter fun f => (f.claim? columns).isNone).map Field.name

/-- The column of each field. -/
def columnPlan (e : Entity) (strict : Bool) (columns : List String) :
    Except MappingError (List (Option Nat)) :=
  if strict && !(e.unmatched columns).isEmpty then
    .error (.unmatchedFields e.name (e.unmatched columns))
  else
    let claims := e.claims columns
    .ok (guessMissing (columns.map bareName) (claims.filterMap Prod.snd) claims)

/-- The values of a row in field order. -/
def readRow (e : Entity) (strict : Bool) (r : Row) : Except MappingError (List Value) :=
  (e.columnPlan strict r.columns).map (applyPlan · r)

/-- The values of rows; the plan is made for the first row and used for all. -/
def readRows (e : Entity) (strict : Bool) : List Row → Except MappingError (List (List Value))
  | [] => .ok []
  | r :: rest => (e.columnPlan strict r.columns).map fun plan => (r :: rest).map (applyPlan plan)

end Entity

/-! ## Laws -/

@[simp] theorem length_guessMissing (names : List (List Char)) (taken : List Nat)
    (claims : List (Field × Option Nat)) :
    (guessMissing names taken claims).length = claims.length := by
  induction claims generalizing taken with
  | nil => rfl
  | cons claim rest ih =>
    obtain ⟨f, _ | i⟩ := claim
    · simp only [guessMissing]
      split <;> simp [ih]
    · simp [guessMissing, ih]

/-- A plan has a place for each field. -/
theorem Entity.length_columnPlan {e : Entity} {strict : Bool} {columns : List String}
    {plan : List (Option Nat)} (h : e.columnPlan strict columns = .ok plan) :
    plan.length = e.fields.length := by
  unfold columnPlan at h
  split at h
  · cases h
  · cases h; simp [claims]

/-- Strict mode accepts a result exactly when every field claims a column. -/
theorem Entity.columnPlan_strict_eq_ok_iff {e : Entity} {columns : List String} :
    (∃ plan, e.columnPlan true columns = .ok plan) ↔
      ∀ f ∈ e.fields, (f.claim? columns).isSome := by
  have claimed : (e.unmatched columns).isEmpty = true ↔
      ∀ f ∈ e.fields, (f.claim? columns).isSome := by
    simp [unmatched, Option.isSome_iff_ne_none]
  rw [← claimed]
  cases h : (e.unmatched columns).isEmpty <;> simp [columnPlan, h]

end RowGraph
