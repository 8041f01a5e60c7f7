import RowGraph.Statement
import RowGraph.Compiler.Expr

/-!
# Projections

A projection lists the columns that a query returns, each with its name where it has one. Its shape
says how a row is read back: marks between the items group neighbouring columns; without a mark the
columns are read by name.

Main statements: `sum_groupSizes` (the groups cover all columns) and `shape_ofItems`.

Modelled: `Projection` with `entity`, `compile`, `raw`, `names` and `to_fragment`, and
`translate_projection` (`projectionItems`).
-/

namespace RowGraph

/-- A column that a query returns. -/
structure OutputColumn where
  fragment : Fragment
  name : Option String
deriving DecidableEq

/-- A part of a projection: a column, or the end of a group of columns. -/
inductive ProjectionItem
  | column (c : OutputColumn)
  | tupleEnd
deriving DecidableEq

/-- The columns that a query returns. -/
structure Projection where
  columns : List OutputColumn
  shape : Shape
deriving DecidableEq

/-- Every column of a source, in field order. -/
def Source.columns (c : Catalog) (d : Dialect) (s : Source) : List OutputColumn :=
  (c.entity s.entity).fields.map fun f => ⟨.sql (s.qualify c d f.column), some f.column⟩

namespace ProjectionItem

/-- The column, if the item is one. -/
def column? : ProjectionItem → Option OutputColumn
  | .column c => some c
  | .tupleEnd => none

/-- The sizes of the groups, when `current` columns of the first one have been seen already. Columns
after the last mark are a group of their own. -/
def groupSizes (current : Nat) : List ProjectionItem → List Nat
  | [] => if current = 0 then [] else [current]
  | .column _ :: rest => groupSizes (current + 1) rest
  | .tupleEnd :: rest => current :: groupSizes 0 rest

theorem width_groupSizes (current : Nat) (items : List ProjectionItem) :
    Shape.width (groupSizes current items) = current + (items.filterMap column?).length := by
  induction items generalizing current with
  | nil => simp only [groupSizes]; split <;> simp_all [Shape.width]
  | cons item rest ih =>
    cases item <;>
      simp [groupSizes, column?, ih, Shape.width, List.filterMap_cons, Nat.add_comm,
        Nat.add_left_comm]

end ProjectionItem

namespace Compiler

/-- The source of all fields of an entity: the one with the alias, where one is given. -/
def fieldsSource (t : Compiler) (entity : EntityType) (aliasName : Option String) :
    Except CompileError Source :=
  let found := match aliasName with
    | some aliasName => t.scope.byAlias t.catalog aliasName
    | none => t.scope.forEntity entity
  found.mapError .unresolvedFields

/-- The parts of a projection that an expression stands for. -/
def projectionItems (t : Compiler) : Expr → Compilation (List ProjectionItem)
  | .column c => do
    let (source, field) ← t.resolve c
    return [.column ⟨.sql (source.qualify t.catalog t.dialect field.column), some field.column⟩]
  | .endOfTuple => return [.tupleEnd]
  | .allFields entity aliasName => do
    let source ← t.fieldsSource entity aliasName
    return (source.columns t.catalog t.dialect).map .column
  | .aliased e aliasName => do
    return [.column ⟨← t.aliased (.top .projection) e aliasName, some aliasName⟩]
  | .qualified c aliasName kind =>
    return [.column ⟨← t.part (.top .projection) (.qualified c aliasName kind),
      ((t.catalog.entity c.entity).field? c.field).map Field.column⟩]
  | e => return [.column ⟨← t.part (.top .projection) e, none⟩]

end Compiler

namespace Projection

/-- Every column of a source, to be read as an entity. -/
def entity (c : Catalog) (d : Dialect) (root : Source) : Projection :=
  ⟨root.columns c d, .entity⟩

/-- A list of columns written by hand. -/
def raw (sql : String) : Projection := ⟨[⟨.sql sql, none⟩], .map⟩

/-- The projection of these items, which need a column among them. -/
def ofItems (items : List ProjectionItem) : Except CompileError Projection :=
  match items.filterMap ProjectionItem.column? with
  | [] => .error .emptyProjection
  | columns => .ok
    ⟨columns, if .tupleEnd ∈ items then .tuple (ProjectionItem.groupSizes 0 items) else .map⟩

/-- The projection of these expressions. -/
def compile (t : Compiler) (items : List Expr) : Compilation Projection := do
  let parts ← items.mapM t.projectionItems
  ofItems parts.flatten

/-- The names of the columns that have one. -/
def names (p : Projection) : List (Option String) := p.columns.map OutputColumn.name

/-- The list of columns in a statement. -/
def toFragment (p : Projection) : Fragment := .join ", " (p.columns.map OutputColumn.fragment)

/-- The groups of a projection cover its columns. -/
theorem shape_ofItems {items : List ProjectionItem} {p : Projection} (h : ofItems items = .ok p) :
    p.shape = .map ∨ ∃ sizes, p.shape = .tuple sizes ∧ Shape.width sizes = p.columns.length := by
  unfold ofItems at h
  split at h
  · cases h
  · cases h
    dsimp only
    split
    · exact .inr ⟨_, rfl, by simp [ProjectionItem.width_groupSizes]⟩
    · exact .inl rfl

end Projection

end RowGraph
