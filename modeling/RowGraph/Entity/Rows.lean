import RowGraph.Entity.Basic
import RowGraph.Statement

/-!
# Statements for single rows

The statements that store one row of an entity: its values stand in the order of the fields, a
missing value counts as null. A generated key that has not been assigned yet is left to the
database.

Main statement: `values_insertion` lists what an insertion binds.

Modelled: `insert` (`insertion`), `insert_returning_id` (`insertionWithKey`), `update_by_id`
(`updateByKey`) and `count_by_id` (`countByKey`).
-/

namespace RowGraph

/-- A column set to a value. -/
def Field.assignment (d : Dialect) (f : Field) (v : Value) : Fragment :=
  .textThen (d.quoteName f.column ++ "=") (.param v)

namespace Entity

/-- The table in quotes. -/
def quotedTable (e : Entity) (d : Dialect) : String := d.quoteTable e.schema e.table

/-- The value at a place, null where there is none. -/
def valueAt (values : List Value) (i : Nat) : Value := (values[i]?).getD .null

/-- Whether the field at a place is the generated key and has no value yet. -/
def awaitsKey (e : Entity) (values : List Value) (i : Nat) : Bool :=
  e.primaryKey.any fun key =>
    key.val == i && (e.fieldAt key).isGenerated && (valueAt values i).isUnassignedKey

/-- The fields that an insertion sets, each one with its value. -/
def insertedFields (e : Entity) (values : List Value) : List (Field × Value) :=
  (e.fields.zipIdx.filter fun (_, i) => !e.awaitsKey values i).map
    fun (f, i) => (f, valueAt values i)

/-- The insertion of a row as a fragment. -/
def insertFragment (e : Entity) (d : Dialect) (values : List Value) : Fragment :=
  let set := e.insertedFields values
  let columns := ",".intercalate (set.map fun (f, _) => d.quoteName f.column)
  (Fragment.join "," (set.map fun (_, v) => .param v)).wrap
    ("INSERT INTO " ++ e.quotedTable d ++ " (" ++ columns ++ ") VALUES (") ")"

/-- The insertion of a row. -/
def insertion (e : Entity) (d : Dialect) (values : List Value) : Statement :=
  .ofFragment d (e.insertFragment d values) .map

/-- The insertion of a row that yields its generated key. -/
def insertionWithKey (e : Entity) (d : Dialect) (values : List Value) :
    Except CatalogError Statement := do
  let key ← e.requireKey
  let s := e.insertion d values
  return { s with sql := d.insertReturningKey s.sql (d.quoteName (e.fieldAt key).column) }

/-- The update of the row that has the key among the values. -/
def updateByKey (e : Entity) (d : Dialect) (values : List Value) :
    Except CatalogError Statement := do
  let key ← e.requireKey
  let others := e.fields.zipIdx.filter fun (_, i) => i ≠ key.val
  let sets := others.map fun (f, i) => f.assignment d (valueAt values i)
  return .ofFragment d
    (.textThen ("UPDATE " ++ e.quotedTable d ++ " SET ")
      (Fragment.join ", " sets ++
        .textThen " WHERE " ((e.fieldAt key).assignment d (valueAt values key)))) .map

/-- The number of rows with a key. -/
def countByKey (e : Entity) (d : Dialect) (key : Value) : Except CatalogError Statement := do
  let i ← e.requireKey
  return .ofFragment d
    (.textThen ("SELECT COUNT(*) FROM " ++ e.quotedTable d ++ " WHERE ")
      ((e.fieldAt i).assignment d key)) .map

/-- An insertion binds the values of the fields that it sets, in order. -/
theorem values_insertion (e : Entity) (d : Dialect) (values : List Value) :
    (e.insertion d values).values = (e.insertedFields values).map Prod.snd := by
  simp only [insertion, Statement.values_ofFragment, insertFragment, Fragment.literals_wrap,
    Fragment.literals_join, List.flatMap_map]
  induction e.insertedFields values <;> simp_all

end Entity

end RowGraph
