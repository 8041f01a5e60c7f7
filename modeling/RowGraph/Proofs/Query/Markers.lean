import Mathlib.Data.List.Basic
import RowGraph.Proofs.Compile.Placement
import RowGraph.Proofs.Query.Qualifiers
import RowGraph.Query.Statements

/-!
# What markers with an alias are written as

A column, or all columns of an entity, can be asked for under an alias. The alias is looked up among
the sources of the query, and an expression with an alias that no source has is refused as a whole,
however deep it stands. The entity of the marker plays no part in the lookup. A column is then taken
from the marker's entity and written under the name of the source, where all columns are taken from
the source. So the columns are those of the entity in that source if the source is one of the
entity, and else only as far as the two have columns of one name.

Results:
* `Expr.markers`: the markers in an expression, at every depth.
* `finds_of_part`: where an expression compiles, each of its markers has found a source.
* `runs_marker`, `runs_projectionItems_marker`: what is written for a marker then.
* `isRight_iff`: when these are columns of the entity in the source.
* **`columns_of_markers`**: all of it, for every compiler, in every clause and projection.
* `Sample.mistyped_markers`: a column of a team, asked for under the alias of a user.
-/

namespace RowGraph

open Attempt

/-! ## Markers -/

/-- A part of an expression that asks for a source by its alias. -/
inductive AliasMarker
  /-- A column of the source with an alias. -/
  | column (r : ColumnRef) (aliasName : String)
  /-- Every column of an entity, of the source with an alias. -/
  | allFields (entity : EntityType) (aliasName : String)
deriving DecidableEq, Repr

/-- The names of the columns, in field order. -/
def Entity.columns (e : Entity) : List String := e.fields.map Field.column

namespace AliasMarker

/-- The entity that the marker is for. -/
def entity : AliasMarker → EntityType
  | .column r _ => r.entity
  | .allFields entity _ => entity

/-- The alias that the marker asks for. -/
def aliasName : AliasMarker → String
  | .column _ aliasName | .allFields _ aliasName => aliasName

/-- The marker as a part of an expression. -/
def expr : AliasMarker → Expr
  | .column r aliasName => .qualified r aliasName .table
  | .allFields entity aliasName => .allFields entity (some aliasName)

/-- Whether the marker's entity has the field that is asked for. -/
def IsKnown (c : Catalog) : AliasMarker → Prop
  | .column r _ => (c.entity r.entity).HasField r.field
  | .allFields _ _ => True

/-- The columns that are written for the marker, under the name of the source: one of the marker's
entity, or all of the source. -/
def columns (c : Catalog) (source : Source) : AliasMarker → List String
  | .column r _ => ((c.entity r.entity).field? r.field).toList.map Field.column
  | .allFields _ _ => (c.entity source.entity).columns

end AliasMarker

namespace Expr

mutual

/-- The markers in an expression, at every depth. The pattern of a search is read and not compiled,
and embedded queries are compiled already. -/
def markers : Expr → List AliasMarker
  | .qualified r aliasName .table => [.column r aliasName]
  | .allFields entity (some aliasName) => [.allFields entity aliasName]
  | .not e | .negate e | .isIn e _ | .aggregate _ e | .aliased e _ | .ordered e _ | .cast e _
  | .like _ e _ => e.markers
  | .compare _ left right | .connect _ left right | .compute _ left right =>
    left.markers ++ right.markers
  | .coalesce args | .function _ args => markersOf args
  | .column _ | .literal _ | .captured _ | .existence _ _ | .aggregateAll _ | .custom _
  | .qualified _ _ .join | .endOfTuple | .allFields _ none => []

/-- The markers in several expressions. -/
def markersOf : List Expr → List AliasMarker
  | [] => []
  | e :: rest => e.markers ++ markersOf rest

end

theorem mem_markersOf {es : List Expr} {m : AliasMarker} :
    m ∈ markersOf es ↔ ∃ e ∈ es, m ∈ e.markers := by
  induction es with
  | nil => simp [markersOf]
  | cons e rest ih => simp [markersOf, ih]

/-- The mark that a clause allows at the top is no marker. -/
theorem markers_unmarked (position : Position) (e : Expr) :
    (e.unmarked position).markers = e.markers := by
  unfold unmarked
  split
  · rw [markers]
  · rw [markers]
  · rfl

/-- Each of these markers is one of these parts. -/
def Covers (markers : List AliasMarker) (places : List Place) : Prop :=
  ∀ m ∈ markers, ∃ p ∈ places, p.part = m.expr

theorem covers_nil (places : List Place) : Covers [] places := nofun

theorem covers_singleton (m : AliasMarker) (arithmetic aggregate : Bool) (before : List Nat) :
    Covers [m] (m.expr.places arithmetic aggregate before) := by
  intro other hm
  obtain rfl := List.mem_singleton.mp hm
  cases other <;> exact ⟨_, List.mem_cons_self, rfl⟩

section Covers

variable {markers more : List AliasMarker} {places others : List Place}

theorem Covers.below (h : Covers markers places) (p : Place) : Covers markers (p :: places) := by
  intro m hm
  obtain ⟨part, hpart, same⟩ := h m hm
  exact ⟨part, List.mem_cons_of_mem _ hpart, same⟩

theorem Covers.append (h : Covers markers places) (k : Covers more others) :
    Covers (markers ++ more) (places ++ others) := by
  intro m hm
  obtain hm | hm := List.mem_append.mp hm
  · obtain ⟨part, hpart, same⟩ := h m hm
    exact ⟨part, List.mem_append_left _ hpart, same⟩
  · obtain ⟨part, hpart, same⟩ := k m hm
    exact ⟨part, List.mem_append_right _ hpart, same⟩

end Covers

mutual

/-- Every marker in an expression is a part of it, wherever the expression stands. -/
theorem covers_places (arithmetic aggregate : Bool) (before : List Nat) :
    ∀ e : Expr, Covers e.markers (e.places arithmetic aggregate before)
  | .not e => (covers_places arithmetic aggregate before e).below _
  | .isIn e _ => (covers_places arithmetic aggregate before e).below _
  | .aliased e _ => (covers_places arithmetic aggregate before e).below _
  | .ordered e _ => (covers_places arithmetic aggregate before e).below _
  | .cast e _ => (covers_places arithmetic aggregate before e).below _
  | .negate e => (covers_places true aggregate before e).below _
  | .aggregate _ e => (covers_places arithmetic true before e).below _
  | .like _ e pattern =>
    (covers_places arithmetic aggregate (before ++ pattern.ownReads) e).below _
  | .compare _ left right =>
    ((covers_places arithmetic aggregate _ left).append
      (covers_places arithmetic aggregate _ right)).below _
  | .connect _ left right =>
    ((covers_places arithmetic aggregate _ left).append
      (covers_places arithmetic aggregate _ right)).below _
  | .compute _ left right =>
    ((covers_places true aggregate _ left).append (covers_places true aggregate _ right)).below _
  | .coalesce args => (covers_placesOf arithmetic aggregate before args).below _
  | .function _ args => (covers_placesOf arithmetic aggregate before args).below _
  | .qualified r aliasName kind =>
    match kind with
    | .table => covers_singleton (.column r aliasName) arithmetic aggregate before
    | .join => covers_nil _
  | .allFields entity aliasName =>
    match aliasName with
    | some aliasName => covers_singleton (.allFields entity aliasName) arithmetic aggregate before
    | none => covers_nil _
  | .column _ => covers_nil _
  | .literal _ => covers_nil _
  | .captured _ => covers_nil _
  | .existence _ _ => covers_nil _
  | .aggregateAll _ => covers_nil _
  | .custom _ => covers_nil _
  | .endOfTuple => covers_nil _

theorem covers_placesOf (arithmetic aggregate : Bool) (before : List Nat) :
    ∀ es : List Expr, Covers (markersOf es) (placesOf arithmetic aggregate before es)
  | [] => covers_nil _
  | e :: rest =>
    (covers_places arithmetic aggregate before e).append
      (covers_placesOf arithmetic aggregate (before ++ e.reads) rest)

end

end Expr

/-! ## What markers find -/

theorem Projection.columns_ofItems {items : List ProjectionItem} {p : Projection}
    (h : ofItems items = .ok p) : p.columns = items.filterMap ProjectionItem.column? := by
  unfold ofItems at h
  split at h
  · cases h
  · cases h
    rfl

namespace Source

variable (c : Catalog) (d : Dialect)

/-- A column that is returned from the source. -/
def output (s : Source) (column : String) : OutputColumn :=
  ⟨.sql (s.qualify c d column), some column⟩

/-- The columns of an entity, written under the name of the source. -/
def columnsOf (s : Source) (entity : EntityType) : List String :=
  (c.entity entity).columns.map (s.qualify c d)

/-- What is written under the name of a source says its column. -/
theorem qualify_mem_columnsOf {s : Source} {entity : EntityType} {column : String} :
    s.qualify c d column ∈ s.columnsOf c d entity ↔
      column ∈ (c.entity entity).columns :=
  List.mem_map_of_injective fun _ _ h => (qualify_eq_iff.mp h).2

end Source

namespace Compiler

variable {t : Compiler} {m : AliasMarker} {source : Source}

/-- The marker asks for a field of its entity, and the source has its alias. -/
structure Finds (t : Compiler) (m : AliasMarker) (source : Source) : Prop where
  known : m.IsKnown t.catalog
  found : t.scope.byAlias t.catalog m.aliasName = .ok source

/-- What is written for the marker: its columns under the name of the source. -/
def written (t : Compiler) (m : AliasMarker) (source : Source) : List String :=
  (m.columns t.catalog source).map (source.qualify t.catalog t.dialect)

/-- All that is written for the marker are columns of its entity and columns of the source. -/
def IsRight (t : Compiler) (m : AliasMarker) (source : Source) : Prop :=
  ∀ column ∈ t.written m source,
    column ∈ source.columnsOf t.catalog t.dialect m.entity ∧
      column ∈ source.columnsOf t.catalog t.dialect source.entity

instance (t : Compiler) (m : AliasMarker) (source : Source) : Decidable (t.IsRight m source) :=
  inferInstanceAs (Decidable (∀ column ∈ t.written m source, _))

/-- A part that may stand in its place has found its source. -/
theorem exists_finds_of_allows {position : Position} {p : Place} (h : t.Allows position p)
    (hpart : p.part = m.expr) : ∃ source, t.Finds m source := by
  unfold Allows at h
  rw [hpart] at h
  cases m with
  | column r aliasName =>
    obtain ⟨has, knows⟩ := h
    obtain ⟨source, found⟩ := (byAlias_isOk_iff t aliasName).mpr (knows rfl)
    exact ⟨source, has, found⟩
  | allFields entity aliasName => exact h.elim

/-- **Where a part compiles, each of its markers has found a source.** -/
theorem finds_of_part {x : Context} {e : Expr} {before after : List Nat} {f : Fragment}
    (run : Runs (t.part x e) before f after) : ∀ m ∈ e.markers, ∃ source, t.Finds m source := by
  intro m hm
  have allowed := (meets_part t x before e).succeeds.mp ⟨f, after, run⟩
  obtain ⟨p, hp, hpart⟩ := e.covers_places x.inArithmetic x.inAggregate before m hm
  exact exists_finds_of_allows (allowed p hp) hpart

theorem finds_of_compile {position : Position} {e : Expr} {f : Fragment}
    (outcome : (t.compile position e).outcome = .ok f) :
    ∀ m ∈ e.markers, ∃ source, t.Finds m source := by
  intro m hm
  have allowed := (compile_succeeds_iff t position e).mp ⟨f, outcome⟩
  rw [← e.markers_unmarked position] at hm
  obtain ⟨p, hp, hpart⟩ := (e.unmarked position).covers_places false false [] m hm
  exact exists_finds_of_allows (allowed p hp) hpart

/-! ## What is written for markers -/

/-- A column under an alias is one of its own entity, under the name of the source. -/
theorem qualified_eq_ok_iff {x : Context} {r : ColumnRef} {aliasName : String} {f : Fragment} :
    t.qualified x r aliasName .table = .ok f ↔
      ∃ source field, t.Finds (.column r aliasName) source ∧
        (t.catalog.entity r.entity).field? r.field = some field ∧
        t.columnText x (source.qualify t.catalog t.dialect field.column) field = f := by
  constructor
  · intro h
    unfold qualified at h
    cases hfield : (t.catalog.entity r.entity).field? r.field with
    | none =>
      rw [hfield] at h
      cases h
    | some field =>
      cases found : t.scope.byAlias t.catalog aliasName with
      | error why =>
        rw [hfield, found] at h
        cases h
      | ok source =>
        rw [hfield, found] at h
        exact ⟨source, field, ⟨Entity.hasField_of_field? hfield, found⟩, rfl, Except.ok.inj h⟩
  · rintro ⟨source, field, finds, hfield, rfl⟩
    have found : t.scope.byAlias t.catalog aliasName = .ok source := finds.found
    unfold qualified
    rw [hfield, found]
    rfl

/-- All columns of an entity under an alias are those of the source. -/
theorem fieldsSource_eq_ok_iff {entity : EntityType} {aliasName : String} :
    t.fieldsSource entity (some aliasName) = .ok source ↔
      t.Finds (.allFields entity aliasName) source := by
  have lookup : t.fieldsSource entity (some aliasName) = .ok source ↔
      t.scope.byAlias t.catalog aliasName = .ok source := by
    unfold fieldsSource
    dsimp only
    cases t.scope.byAlias t.catalog aliasName <;> simp [Except.mapError]
  rw [lookup]
  exact ⟨fun found => ⟨trivial, found⟩, Finds.found⟩

variable {before after : List Nat}

/-- Wherever a column under an alias stands, it compiles exactly if it finds a source, whichever
entity the source is of. -/
theorem runs_marker {x : Context} {r : ColumnRef} {aliasName : String} {f : Fragment} :
    Runs (t.part x (.qualified r aliasName .table)) before f after ↔
      (∃ source field, t.Finds (.column r aliasName) source ∧
        (t.catalog.entity r.entity).field? r.field = some field ∧
        t.columnText x (source.qualify t.catalog t.dialect field.column) field = f) ∧
      before = after := by
  rw [part, runs_lift, qualified_eq_ok_iff]

/-- An item of a projection that is a marker stands for the columns of the marker. -/
theorem runs_projectionItems_marker {items : List ProjectionItem} :
    Runs (t.projectionItems m.expr) before items after ↔
      (∃ source, t.Finds m source ∧ items = (m.columns t.catalog source).map fun column =>
        .column (source.output t.catalog t.dialect column)) ∧
      before = after := by
  cases m with
  | column r aliasName =>
    rw [AliasMarker.expr, projectionItems, runs_return]
    simp only [runs_marker]
    constructor
    · rintro ⟨f, ⟨⟨source, field, finds, hfield, rfl⟩, rfl⟩, rfl⟩
      refine ⟨⟨source, finds, ?_⟩, rfl⟩
      rw [AliasMarker.columns, hfield]
      rfl
    · rintro ⟨⟨source, finds, rfl⟩, rfl⟩
      obtain ⟨field, hfield⟩ := Entity.exists_field? finds.known
      refine ⟨_, ⟨⟨source, field, finds, hfield, rfl⟩, rfl⟩, ?_⟩
      rw [AliasMarker.columns, hfield]
      rfl
  | allFields entity aliasName =>
    rw [AliasMarker.expr, projectionItems, runs_return]
    simp only [runs_lift, fieldsSource_eq_ok_iff]
    have same : ∀ source : Source,
        (source.columns t.catalog t.dialect).map ProjectionItem.column =
          ((AliasMarker.allFields entity aliasName).columns t.catalog source).map fun column =>
            .column (source.output t.catalog t.dialect column) := by
      intro source
      rw [Source.columns, AliasMarker.columns, Entity.columns, List.map_map, List.map_map]
      rfl
    constructor
    · rintro ⟨source, ⟨finds, rfl⟩, rfl⟩
      exact ⟨⟨source, finds, same source⟩, rfl⟩
    · rintro ⟨⟨source, finds, rfl⟩, rfl⟩
      exact ⟨source, ⟨finds, rfl⟩, same source⟩

/-- Every marker in an item of a projection has found a source. -/
theorem finds_of_projectionItems {e : Expr} {items : List ProjectionItem}
    (run : Runs (t.projectionItems e) before items after) :
    ∀ m ∈ e.markers, ∃ source, t.Finds m source := by
  cases e with
  | allFields entity aliasName =>
    cases aliasName with
    | none => nofun
    | some aliasName =>
      intro m hm
      obtain rfl := List.mem_singleton.mp hm
      obtain ⟨⟨source, finds, -⟩, -⟩ :=
        (runs_projectionItems_marker (m := .allFields entity aliasName)).mp run
      exact ⟨source, finds⟩
  | aliased e aliasName =>
    obtain ⟨f, named, -⟩ := runs_return.mp run
    obtain ⟨f, inner, -⟩ := runs_return.mp named
    exact finds_of_part (e := e) inner
  | column r => nofun
  | endOfTuple => nofun
  | _ =>
    obtain ⟨f, whole, -⟩ := runs_return.mp run
    exact finds_of_part whole

/-- All items of a projection are compiled, each with what was read before it. -/
theorem exists_runs_of_mapM {es : List Expr} {before after : List Nat}
    {parts : List (List ProjectionItem)} (run : Runs (es.mapM t.projectionItems) before parts after)
    {e : Expr} (he : e ∈ es) :
    ∃ known later items, Runs (t.projectionItems e) known items later ∧ items ∈ parts := by
  induction es generalizing before parts with
  | nil => cases he
  | cons first rest ih =>
    rw [List.mapM_cons] at run
    obtain ⟨items, known, hfirst, hrest⟩ := runs_bind.mp run
    obtain ⟨others, hothers, rfl⟩ := runs_return.mp hrest
    obtain rfl | he := List.mem_cons.mp he
    · exact ⟨before, known, items, hfirst, List.mem_cons_self⟩
    · obtain ⟨known, later, part, hpart, mem⟩ := ih hothers he
      exact ⟨known, later, part, hpart, List.mem_cons_of_mem _ mem⟩

/-- A projection consists of what its items are compiled to. -/
theorem exists_items_of_projection {es : List Expr} {p : Projection}
    (outcome : (Projection.compile t es).outcome = .ok p) {e : Expr} (he : e ∈ es) :
    ∃ before items after, Runs (t.projectionItems e) before items after ∧
      ∀ column, ProjectionItem.column column ∈ items → column ∈ p.columns := by
  have run : Runs (Projection.compile t es) [] p _ := Prod.ext outcome rfl
  obtain ⟨parts, known, hparts, hitems⟩ := runs_bind.mp run
  obtain ⟨made, -⟩ := runs_lift.mp hitems
  obtain ⟨before, after, items, hrun, mem⟩ := exists_runs_of_mapM hparts he
  refine ⟨before, items, after, hrun, fun column hcolumn => ?_⟩
  rw [Projection.columns_ofItems made, List.mem_filterMap]
  exact ⟨.column column, List.mem_flatten.mpr ⟨items, mem, hcolumn⟩, rfl⟩

theorem finds_of_projection {es : List Expr} {p : Projection}
    (outcome : (Projection.compile t es).outcome = .ok p) :
    ∀ m ∈ Expr.markersOf es, ∃ source, t.Finds m source := by
  intro m hm
  obtain ⟨e, he, hm⟩ := Expr.mem_markersOf.mp hm
  obtain ⟨before, items, after, run, -⟩ := exists_items_of_projection outcome he
  exact finds_of_projectionItems run m hm

/-- A marker among the items of a projection adds its columns. -/
theorem output_mem_of_projection {es : List Expr} {p : Projection}
    (outcome : (Projection.compile t es).outcome = .ok p) (hm : m.expr ∈ es)
    (finds : t.Finds m source) :
    ∀ column ∈ m.columns t.catalog source,
      source.output t.catalog t.dialect column ∈ p.columns := by
  intro column hcolumn
  obtain ⟨before, items, after, run, all⟩ := exists_items_of_projection outcome hm
  obtain ⟨⟨other, again, rfl⟩, -⟩ := runs_projectionItems_marker.mp run
  obtain rfl : other = source := Except.ok.inj (again.found.symm.trans finds.found)
  exact all _ (List.mem_map_of_mem hcolumn)

/-! ## Whose columns are written -/

/-- What is written is right if both entities have columns of these names. -/
theorem isRight_iff :
    t.IsRight m source ↔ ∀ column ∈ m.columns t.catalog source,
      column ∈ (t.catalog.entity m.entity).columns ∧
        column ∈ (t.catalog.entity source.entity).columns := by
  rw [IsRight, written, List.forall_mem_map]
  simp only [Source.qualify_mem_columnsOf]

/-- A column that is written is one of the marker's entity, or one of the source. -/
theorem mem_of_mem_columns {c : Catalog} {column : String} (h : column ∈ m.columns c source) :
    column ∈ (c.entity m.entity).columns ∨ column ∈ (c.entity source.entity).columns := by
  cases m with
  | column r aliasName =>
    obtain ⟨field, hfield, rfl⟩ := List.mem_map.mp h
    obtain ⟨i, -, rfl⟩ := Option.map_eq_some_iff.mp (Option.mem_toList.mp hfield)
    exact .inl (List.mem_map_of_mem (List.get_mem _ _))
  | allFields entity aliasName => exact .inr h

/-- Under an alias of the marker's entity everything is right. -/
theorem isRight_of_entity (same : source.entity = m.entity) : t.IsRight m source := by
  rw [isRight_iff]
  intro column hcolumn
  have either := mem_of_mem_columns hcolumn
  rw [same, or_self] at either
  rw [same]
  exact ⟨either, either⟩

/-- Where tokens differ, a marker finds the only source with its alias. -/
theorem Finds.unique (finds : t.Finds m source) (distinct : t.scope.Distinct t.catalog)
    {other : Source} (mem : other ∈ t.scope.sources)
    (named : Text.sameName (other.token t.catalog) m.aliasName = true) : other = source := by
  obtain ⟨here, token⟩ := Scope.mem_of_byAlias finds.found
  exact distinct.eq_of_sameName mem here (Text.sameName_trans named (Text.sameName_symm token))

/-- **What markers with an alias are written as**, whichever sources there are. In every clause and
in every projection, what holds a marker compiles only if the marker finds a source: its alias is
the name of one, in any case, and of no other where names differ, as they do in every query. A
column is then written under the name of that source, wherever it stands, and all columns are those
of the source. These are columns of the marker's entity in that source if both entities have columns
of these names, and so if the source is one of the entity; but the entity of the source is not
looked at. -/
theorem columns_of_markers (t : Compiler) :
    (∀ position e f, (t.compile position e).outcome = .ok f →
        ∀ m ∈ e.markers, ∃ source, t.Finds m source) ∧
      (∀ es p, (Projection.compile t es).outcome = .ok p →
        (∀ m ∈ Expr.markersOf es, ∃ source, t.Finds m source) ∧
        ∀ m source, m.expr ∈ es → t.Finds m source → ∀ column ∈ m.columns t.catalog source,
          source.output t.catalog t.dialect column ∈ p.columns) ∧
      (∀ x r aliasName before f after,
        Runs (t.part x (.qualified r aliasName .table)) before f after ↔
          (∃ source field, t.Finds (.column r aliasName) source ∧
            (t.catalog.entity r.entity).field? r.field = some field ∧
            t.columnText x (source.qualify t.catalog t.dialect field.column) field = f) ∧
          before = after) ∧
      (∀ m before items after, Runs (t.projectionItems m.expr) before items after ↔
        (∃ source, t.Finds m source ∧ items = (m.columns t.catalog source).map fun column =>
          .column (source.output t.catalog t.dialect column)) ∧
        before = after) ∧
      ∀ m source, t.Finds m source →
        source ∈ t.scope.sources ∧
        Text.sameName (source.token t.catalog) m.aliasName = true ∧
        (t.scope.Distinct t.catalog → ∀ other ∈ t.scope.sources,
          Text.sameName (other.token t.catalog) m.aliasName = true → other = source) ∧
        (t.IsRight m source ↔ ∀ column ∈ m.columns t.catalog source,
          column ∈ (t.catalog.entity m.entity).columns ∧
            column ∈ (t.catalog.entity source.entity).columns) ∧
        (source.entity = m.entity → t.IsRight m source) := by
  refine ⟨fun _ _ _ outcome => finds_of_compile outcome, fun es p outcome => ?_,
    fun _ _ _ _ _ _ => runs_marker, fun _ _ _ _ => runs_projectionItems_marker,
    fun m source finds => ?_⟩
  · exact ⟨finds_of_projection outcome,
      fun m source hm finds => output_mem_of_projection outcome hm finds⟩
  · obtain ⟨mem, token⟩ := Scope.mem_of_byAlias finds.found
    exact ⟨mem, token, fun distinct _ => finds.unique distinct, isRight_iff, isRight_of_entity⟩

end Compiler

namespace Sample

/-- The leader of a team, asked for under an alias. -/
def teamLeader (aliasName : String) : AliasMarker :=
  .column ⟨type "Team", "TeamLeaderId"⟩ aliasName

/-- All columns of a team, asked for under an alias. -/
def teamColumns (aliasName : String) : AliasMarker := .allFields (type "Team") aliasName

/-- The users under an alias. -/
def aliasedUsers : Source := ⟨type "TeamUser", some "tu"⟩

/-- Teams and users, of which the columns of a team are selected under the alias of the users, where
the team has a leader under that alias. -/
def mistyped : List (Except QueryError Unit) × Query catalog :=
  Calls.run
    [(plainly, .crossJoin aliasedUsers),
      (plainly, .select false [(teamColumns "tu").expr]),
      (plainly, .filter .and (.compare .ne (teamLeader "tu").expr (.literal .null)))]
    (.ofRoot .sqlite ⟨type "Team", none⟩)

/-- **Both are written as columns of the users**, which have no leader, and no call fails. -/
theorem mistyped_markers :
    let t := mistyped.2.compiler plainly.readings none
    mistyped.1 = [.ok (), .ok (), .ok ()] ∧
      mistyped.2.selectStatement.sql =
        "SELECT \"tu\".\"Id\", \"tu\".\"Name\", \"tu\".\"TeamId\", \"tu\".\"IsDeleted\"\n" ++
          "FROM \"Team\"\nCROSS JOIN \"TeamUser\" \"tu\"\n" ++
          "WHERE (\"tu\".\"TeamLeaderId\" IS NOT NULL)" ∧
      ∀ m ∈ [teamLeader "tu", teamColumns "tu"],
        t.Finds m aliasedUsers ∧ aliasedUsers.entity ≠ m.entity ∧ ¬ t.IsRight m aliasedUsers := by
  intro t
  have found : t.scope.byAlias t.catalog "tu" = .ok aliasedUsers := by decide
  have leader : (catalog.entity (type "Team")).field? "TeamLeaderId" =
      some (foreignKey "TeamLeaderId" "TeamUser" .aliased true) := by decide
  refine ⟨rfl, rfl, fun m hm => ?_⟩
  simp only [List.mem_cons, List.not_mem_nil, or_false] at hm
  obtain rfl | rfl := hm
  · exact ⟨⟨Entity.hasField_of_field? leader, found⟩, by decide, by decide⟩
  · exact ⟨⟨trivial, found⟩, by decide, by decide⟩

end Sample

end RowGraph
