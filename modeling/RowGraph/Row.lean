import RowGraph.Statement
import RowGraph.Text.Name
import RowGraph.Value.Description
import RowGraph.Value.Json

/-!
# Rows

A row is what a database returns: values under column names, in order. A column is found by its name
in any case. A row of a projection with groups is split into a row for each group.

Main statement: `flatten_split`, the parts of a row put together are the row.

Modelled: `Row` with `new`, `from_pairs`, `get` and `into_map` (`members`), and `map_tuple_row`
(`tupleParts`).

Left out: access by position and the lengths of a row.
-/

namespace RowGraph

/-- A row of a result. -/
structure Row where
  columns : List String
  values : List Value
deriving DecidableEq

/-- How rows can fail to fit what is read from them. -/
inductive MappingError
  | unmatchedFields (entity : String) (fields : List String)
  | tupleWidth (expected actual : Nat)
deriving DecidableEq, Repr

/-- The kind of a mapping error. -/
def MappingError.kind : MappingError → String
  | .unmatchedFields _ _ => "ColumnMappingMismatch"
  | .tupleWidth _ _ => "TupleWidth"

/-- The wording of a mapping error. -/
def MappingError.message : MappingError → String
  | .unmatchedFields entity fields =>
    "No column matches field(s) " ++ Text.describedList (fields.map Text.described) ++
      " of entity '" ++ entity ++ "'"
  | .tupleWidth expected actual =>
    "Tuple groups cover " ++ Nat.repr expected ++ " columns but the row has " ++ Nat.repr actual

namespace Row

/-- The row of these columns and their values. -/
def ofPairs (pairs : List (String × Value)) : Row := ⟨pairs.map Prod.fst, pairs.map Prod.snd⟩

/-- The columns with their values. -/
def pairs (r : Row) : List (String × Value) := r.columns.zip r.values

/-- The value of the first column with this name, in any case. -/
def get? (r : Row) (column : String) : Option Value :=
  (r.columns.findIdx? (Text.sameName · column)).bind (r.values[·]?)

/-- The members of the row as a JSON object: of columns with one name the first gives the place and
the last the value. -/
def members (r : Row) : List (String × Json) :=
  r.pairs.foldl (fun done (column, v) => Json.put column v.toJson done) []

/-- The row in parts of these sizes. -/
def split : List Nat → Row → List Row
  | [], _ => []
  | size :: rest, r =>
    ⟨r.columns.take size, r.values.take size⟩ ::
      split rest ⟨r.columns.drop size, r.values.drop size⟩

/-- The parts of a row of a projection with groups; they have to cover its values. -/
def tupleParts (sizes : List Nat) (r : Row) : Except MappingError (List Row) :=
  if Shape.width sizes = r.values.length then .ok (split sizes r)
  else .error (.tupleWidth (Shape.width sizes) r.values.length)

theorem flatMap_values_split {sizes : List Nat} {r : Row}
    (h : r.values.length ≤ Shape.width sizes) :
    (split sizes r).flatMap Row.values = r.values := by
  induction sizes generalizing r with
  | nil => simp_all [split, Shape.width]
  | cons size rest ih =>
    rw [Shape.width] at h
    rw [split, List.flatMap_cons, ih (by simp; omega), List.take_append_drop]

theorem flatMap_columns_split {sizes : List Nat} {r : Row}
    (h : r.columns.length ≤ Shape.width sizes) :
    (split sizes r).flatMap Row.columns = r.columns := by
  induction sizes generalizing r with
  | nil => simp_all [split, Shape.width]
  | cons size rest ih =>
    rw [Shape.width] at h
    rw [split, List.flatMap_cons, ih (by simp; omega), List.take_append_drop]

/-- The parts of a row put together are the row. -/
theorem flatten_split {sizes : List Nat} {r : Row} {parts : List Row}
    (h : r.tupleParts sizes = .ok parts) (hc : r.columns.length = r.values.length) :
    (⟨parts.flatMap Row.columns, parts.flatMap Row.values⟩ : Row) = r := by
  unfold tupleParts at h
  split at h
  · next hs =>
    cases h
    rw [flatMap_columns_split (by omega), flatMap_values_split (by omega)]
  · cases h

end Row

end RowGraph
