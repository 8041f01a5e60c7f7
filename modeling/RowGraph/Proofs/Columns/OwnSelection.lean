import Mathlib.Data.List.Basic
import RowGraph.Proofs.Columns.ExactNames
import RowGraph.Proofs.Load.Rows

/-!
# Reading back an entity's own selection

A query that is not told what to select selects the columns of its root's fields, in their order.
Such rows hold a column for every field by its name, so they are read in strict mode as in lenient
mode and nothing is guessed, whatever the fields themselves are called. A column name that occurs
twice leads both fields to the first of these columns.

Results:
* `columns_of_selection`: the columns of the selection.
* `ownPlan_eq_identity_iff`: every field has its own column exactly if all column names differ.
* **`selection_read_back`**: the plan, the values and the nodes that such rows lead to.
-/

namespace RowGraph

open Process

variable {c : Catalog} {d : Dialect} {root : Source} {columns : List String}

/-- The columns of the selection are those of the fields. -/
theorem columns_of_selection (h : columns.map some = (Projection.entity c d root).names) :
    columns = (c.entity root.entity).fields.map Field.column := by
  refine List.map_injective_iff.mpr (Option.some_injective _) (h.trans ?_)
  simp [Projection.names, Projection.entity, Source.columns]

namespace Entity

variable {e : Entity}

theorem isSome_ownColumn {f : Field} (inside : f ∈ e.fields) :
    ((e.fields.map Field.column).findIdx? (Text.sameName · f.column)).isSome := by
  rw [List.findIdx?_isSome, List.any_eq_true]
  exact ⟨f.column, List.mem_map.mpr ⟨f, inside, rfl⟩, Text.sameName_refl _⟩

/-- The rows of a result with the columns of the fields. -/
def ownTable (e : Entity) (rows : List Row)
    (own : ∀ r ∈ rows, r.columns = e.fields.map Field.column) : Table e where
  columns := e.fields.map Field.column
  rows := rows
  columns_eq := own
  hasColumn := fun _ inside => isSome_ownColumn inside

theorem getElem?_ownColumns {i : Nat} {f : Field} (here : e.fields[i]? = some f) :
    (e.fields.map Field.column)[i]? = some f.column := by
  rw [List.getElem?_map, here]
  rfl

/-- Every field has a first column with its column's name: its own one, or an earlier one. -/
theorem exists_isLeast {i : Nat} {f : Field} (here : e.fields[i]? = some f) :
    ∃ k ≤ i, IsLeast (placesWith (e.fields.map Field.column) (Text.sameName · f.column = true))
      k := by
  obtain ⟨k, found⟩ := Option.isSome_iff_exists.mp (isSome_ownColumn (List.mem_of_getElem? here))
  have least := findIdx?_eq_some_iff_isLeast.mp found
  exact ⟨k, least.2 ⟨f.column, getElem?_ownColumns here, Text.sameName_refl _⟩, least⟩

/-- The plan for the columns of the fields leads each one to the first of its name. -/
def ownPlan (e : Entity) : List (Option Nat) :=
  e.fields.map fun f => (e.fields.map Field.column).findIdx? (Text.sameName · f.column)

theorem getElem?_ownPlan {i k : Nat} {f : Field} (here : e.fields[i]? = some f)
    (first : IsLeast (placesWith (e.fields.map Field.column) (Text.sameName · f.column = true)) k) :
    e.ownPlan[i]? = some (some k) := by
  rw [ownPlan, List.getElem?_map, here, Option.map_some, findIdx?_eq_some_iff_isLeast.mpr first]

/-- Where all column names differ, the first column with the name of a field's is its own. -/
theorem isLeast_own (differ : (e.fields.map Field.column).Pairwise fun a b =>
    Text.sameName a b = false) {i : Nat} {f : Field} (here : e.fields[i]? = some f) :
    IsLeast (placesWith (e.fields.map Field.column) (Text.sameName · f.column = true)) i := by
  obtain ⟨k, le, first⟩ := exists_isLeast here
  obtain rfl | before := le.eq_or_lt
  · exact first
  · obtain ⟨column, at_k, same⟩ := first.1
    obtain ⟨inside_k, rfl⟩ := List.getElem?_eq_some_iff.mp at_k
    obtain ⟨inside_i, own⟩ := List.getElem?_eq_some_iff.mp (getElem?_ownColumns here)
    have other := List.pairwise_iff_getElem.mp differ k i inside_k inside_i before
    rw [own, same] at other
    cases other

/-- **Every field has its own column exactly if all column names differ.** -/
theorem ownPlan_eq_identity_iff :
    e.ownPlan = (List.range e.fields.length).map some ↔
      (e.fields.map Field.column).Pairwise fun a b => Text.sameName a b = false := by
  constructor
  · intro identity
    rw [List.pairwise_map, List.pairwise_iff_getElem]
    intro j i inside_j inside_i before
    have here := List.getElem?_eq_getElem inside_i
    obtain ⟨k, -, first⟩ := exists_isLeast here
    have own := getElem?_ownPlan here first
    rw [identity, List.getElem?_map, List.getElem?_range inside_i] at own
    obtain rfl : i = k := by simpa using own
    rw [Bool.eq_false_iff]
    intro same
    have : i ≤ j :=
      first.2 ⟨_, getElem?_ownColumns (List.getElem?_eq_getElem inside_j), same⟩
    omega
  · intro differ
    refine List.ext_getElem (by simp [ownPlan]) fun i inside _ => ?_
    have here := List.getElem?_eq_getElem (l := e.fields) (by simpa [ownPlan] using inside)
    have own := getElem?_ownPlan here (isLeast_own differ here)
    rw [List.getElem?_eq_getElem inside, Option.some_inj] at own
    rw [own, List.getElem_map, List.getElem_range]

/-- A cell of a row with the columns of the fields. -/
theorem cell_own {r : Row} (own : r.columns = e.fields.map Field.column) {f : Field} {k : Nat}
    (first : IsLeast (placesWith (e.fields.map Field.column) (Text.sameName · f.column = true)) k) :
    r.cell f = valueAt r.values k := by
  rw [Row.cell, Row.get?, own, findIdx?_eq_some_iff_isLeast.mpr first]
  rfl

/-- Where all column names differ a row is read value by value. -/
theorem map_cell_own {r : Row} (own : r.columns = e.fields.map Field.column)
    (differ : (e.fields.map Field.column).Pairwise fun a b => Text.sameName a b = false) :
    e.fields.map r.cell = (List.range e.fields.length).map (valueAt r.values) := by
  refine List.ext_getElem (by simp) fun i inside _ => ?_
  have here := List.getElem?_eq_getElem (l := e.fields) (by simpa using inside)
  rw [List.getElem_map, cell_own own (isLeast_own differ here), List.getElem_map,
    List.getElem_range]

end Entity

/-- **The entity's own selection is read back**, for every catalog, dialect and source, in both
modes. No field has to guess, and each one has the first column with the name of its column; that is
its own one for all of them exactly if the column names differ. Rows with these columns, as many as
there are and of any length, are read without failing: a field gets the value in its column, null
where the row is too short; and a session makes nodes with these values of them. -/
theorem selection_read_back (h : columns.map some = (Projection.entity c d root).names) :
    let e := c.entity root.entity
    let Differ := columns.Pairwise fun a b => Text.sameName a b = false
    (∀ f ∈ e.fields, ¬ f.Unmatched columns) ∧
      (∀ strict, ∃ plan, e.columnPlan strict columns = .ok plan ∧
        (∀ (i : Nat) (f : Field), e.fields[i]? = some f → ∃ k, plan[i]? = some (some k) ∧
          IsLeast (placesWith columns (Text.sameName · f.column = true)) k) ∧
        (plan = (List.range e.fields.length).map some ↔ Differ)) ∧
      ∀ rows : List Row, (∀ r ∈ rows, r.columns = columns) →
        (∀ strict, e.readRows strict rows =
          .ok (rows.map fun r => e.fields.map fun f => (r.get? f.column).getD .null)) ∧
        (Differ → ∀ strict, e.readRows strict rows =
          .ok (rows.map fun r => (List.range e.fields.length).map (Entity.valueAt r.values))) ∧
        ∀ (σ : Type) (s : Session c (StateM σ)) (g : Graph c) (w : σ),
          outcome (Loading.materialize s root.entity rows) g w =
            ((.ok (List.range' g.nodes.length rows.length),
              g.extend (rows.map fun r => .ofValues root.entity
                (e.fields.map fun f => (r.get? f.column).getD .null))), w) := by
  intro e Differ
  obtain rfl := columns_of_selection h
  refine ⟨?_, fun strict => ?_, fun rows own => ⟨fun strict => ?_, fun differ strict => ?_, ?_⟩⟩
  · intro f inside unmatched
    have other := unmatched.1 f.column (List.mem_map.mpr ⟨f, inside, rfl⟩)
    rw [Text.sameName_refl] at other
    cases other
  · refine ⟨e.ownPlan, (e.ownTable [] (by simp)).columnPlan_eq strict, fun i f here => ?_,
      Entity.ownPlan_eq_identity_iff⟩
    obtain ⟨k, -, first⟩ := Entity.exists_isLeast here
    exact ⟨k, Entity.getElem?_ownPlan here first, first⟩
  · exact (e.ownTable rows own).readRows_table strict fun _ inside => inside
  · refine ((e.ownTable rows own).readRows_table strict fun _ inside => inside).trans ?_
    exact congrArg Except.ok (List.map_congr_left fun r inside =>
      Entity.map_cell_own (own r inside) differ)
  · intro σ s g w
    exact Loading.outcome_materialize s (e.ownTable rows own) (fun _ inside => inside) g w

namespace Sample

/-- Incidents as they are selected: the number of the status stays apart from its text, and what a
short row lacks is null. -/
theorem selection_of_incidents :
    let columns := ["Id", "status_code", "Status"]
    columns.map some = (Projection.entity incidents .sqlite ⟨incident, none⟩).names ∧
      (incidents.entity incident).readRows true
        [⟨columns, [.int 1, .int 3, .text "open"]⟩, ⟨columns, [.int 2]⟩] =
          .ok [[.int 1, .int 3, .text "open"], [.int 2, .null, .null]] := by
  intro columns
  have own : columns.map some =
      (Projection.entity incidents .sqlite ⟨incident, none⟩).names := by decide
  refine ⟨own, ?_⟩
  obtain ⟨-, -, read⟩ := selection_read_back own
  obtain ⟨-, byPlace, -⟩ := read
    [⟨columns, [.int 1, .int 3, .text "open"]⟩, ⟨columns, [.int 2]⟩] (by decide)
  exact byPlace (by decide) true

end Sample

end RowGraph
