import RowGraph.Graph.Basic
import RowGraph.Graph.Plan
import RowGraph.Query.Builder
import RowGraph.Settings.Basic

/-!
# Sessions

A session is what graphs are saved and loaded with: a database, its dialect, the settings in force
and the select filters. A select filter changes every query over an entity that declares the
filter's capability, for instance to leave out rows that are marked as deleted.

Main statement: `filtersFor_nil`.

Modelled: what a `GraphLoader` has with it, and the filters of `register_select_filter` with
`select_filters_for` (`filtersFor`) and `apply_select_filters` (`Query.filtered`).

Left out: that the filters are registered for the whole process; a session has the list of those
that are registered.
-/

namespace RowGraph

/-- What is done to queries over entities with a capability. -/
structure SelectFilter (c : Catalog) where
  capability : String
  apply : Builder c Unit

/-- What graphs are saved and loaded with. -/
structure Session (c : Catalog) (m : Type → Type) where
  database : Database m
  dialect : Dialect
  settings : Settings
  filters : List (SelectFilter c)

/-- The filters of an entity: for each of its capabilities those registered for it, in order. -/
def filtersFor {c : Catalog} (filters : List (SelectFilter c)) (e : Entity) :
    List (SelectFilter c) :=
  e.capabilities.flatMap fun capability => filters.filter (·.capability == capability)

@[simp] theorem filtersFor_nil {c : Catalog} (e : Entity) :
    filtersFor ([] : List (SelectFilter c)) e = [] := by
  simp [filtersFor]

/-- A query after the filters of its root's entity. -/
def Query.filtered {c : Catalog} (filters : List (SelectFilter c)) (q : Query c) :
    Except QueryError (Query c) :=
  match ((filtersFor filters q.rootEntity).forM SelectFilter.apply).run.run q with
  | (.ok _, q) => .ok q
  | (.error why, _) => .error why

end RowGraph
