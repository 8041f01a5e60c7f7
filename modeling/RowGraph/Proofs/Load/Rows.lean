import RowGraph.Graph.Load
import RowGraph.Proofs.Columns.Plans
import RowGraph.Proofs.Outcome

/-!
# Rows as nodes

The rows of a table that has a column for each field of its entity can always be read, in strict
mode and in lenient mode, and a field gets the value of the column with its name.

* `readRows_table`: what is read from rows of such a table.
* `outcome_materialize`: the rows become new nodes behind those that are there, in order.
-/

namespace RowGraph

variable {c : Catalog}

/-- The value of a row in the column of a field. -/
def Row.cell (r : Row) (f : Field) : Value := (r.get? f.column).getD .null

/-- A row as a node of an entity. -/
def Row.node (type : EntityType) (r : Row) : Node c :=
  .ofValues type ((c.entity type).fields.map r.cell)

/-- A table with a column for each field of an entity. -/
structure Table (e : Entity) where
  columns : List String
  rows : List Row
  columns_eq : ∀ r ∈ rows, r.columns = columns
  hasColumn : ∀ f ∈ e.fields, (columns.findIdx? (Text.sameName · f.column)).isSome

/-! ## Reading rows -/

namespace Table

variable {e : Entity} (table : Table e)

theorem columnPlan_eq (strict : Bool) :
    e.columnPlan strict table.columns =
      .ok (e.fields.map fun f => table.columns.findIdx? (Text.sameName · f.column)) :=
  e.columnPlan_of_columns table.hasColumn strict

theorem readRows_table (strict : Bool) {rows : List Row} (h : ∀ r ∈ rows, r ∈ table.rows) :
    e.readRows strict rows = .ok (rows.map fun r => e.fields.map r.cell) := by
  cases rows with
  | nil => rfl
  | cons r rest =>
    rw [Entity.readRows, table.columns_eq r (h r List.mem_cons_self), table.columnPlan_eq]
    refine congrArg Except.ok (List.map_congr_left fun r' hr' => ?_)
    rw [applyPlan, List.map_map]
    refine List.map_congr_left fun f _ => ?_
    rw [Row.cell, Row.get?, table.columns_eq r' (h r' hr')]
    rfl

end Table

theorem references_nodes (type : EntityType) (rows : List Row) :
    ∀ n ∈ rows.map (Row.node type : Row → Node c), n.references = [] := by
  intro n hn
  obtain ⟨r, -, rfl⟩ := List.mem_map.mp hn
  rfl

/-- The value of a field of a row that has become a node. -/
theorem valueAt_node (type : EntityType) (r : Row) (i : Fin (c.entity type).fields.length) :
    (r.node type : Node c).valueAt i = r.cell ((c.entity type).fieldAt i) := by
  simp [Node.valueAt, Row.node, Node.ofValues, Entity.fieldAt]

namespace Graph

/-- The graph with more nodes. -/
def extend (g : Graph c) (more : List (Node c)) : Graph c := ⟨g.nodes ++ more⟩

@[simp] theorem extend_nil (g : Graph c) : g.extend [] = g := by
  simp [extend]

theorem extend_extend (g : Graph c) (more others : List (Node c)) :
    (g.extend more).extend others = g.extend (more ++ others) := by
  simp [extend]

@[simp] theorem length_nodes_extend (g : Graph c) (more : List (Node c)) :
    (g.extend more).nodes.length = g.nodes.length + more.length := by
  simp [extend]

end Graph

namespace Loading

open Process

variable {σ : Type}

theorem outcome_add (n : Node c) (g : Graph c) (w : σ) :
    outcome (add n : Loading c (StateM σ) NodeId) g w = ((.ok g.nodes.length, g.extend [n]), w) :=
  rfl

/-- New nodes have the places behind those that are there. -/
theorem outcome_mapM_add (type : EntityType) (values : List (List Value)) (g : Graph c) (w : σ) :
    outcome (values.mapM fun vs => (add (.ofValues type vs) : Loading c (StateM σ) NodeId)) g w =
      ((.ok (List.range' g.nodes.length values.length),
        g.extend (values.map (Node.ofValues type))), w) := by
  induction values generalizing g with
  | nil => simp
  | cons vs rest ih =>
    rw [List.mapM_cons, outcome_bind, outcome_add]
    dsimp only
    rw [outcome_bind, ih]
    simp [Graph.extend_extend, List.range'_succ]

/-- Rows of a table that has been read become nodes. -/
theorem outcome_materialize (s : Session c (StateM σ)) {type : EntityType}
    (table : Table (c.entity type)) {rows : List Row} (h : ∀ r ∈ rows, r ∈ table.rows)
    (g : Graph c) (w : σ) :
    outcome (materialize s type rows) g w =
      ((.ok (List.range' g.nodes.length rows.length), g.extend (rows.map (Row.node type))), w) := by
  rw [materialize, table.readRows_table _ h]
  dsimp only
  rw [outcome_mapM_add, List.length_map, List.map_map]
  rfl

end Loading

end RowGraph
