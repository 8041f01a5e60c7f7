import RowGraph.Proofs.Numbering
import RowGraph.Query.Statements

/-!
# Fragments and queries without their values

The outline of a fragment is the fragment with null for each literal, those of embedded queries
included. Every operation on fragments acts on outlines: none looks at a literal, not even the one
that decides whether a condition needs parentheses. So the outline of what is made of fragments
depends on their outlines alone, and with it the text of a statement.

Results:
* `outline_append`, `outline_grouped`, `outline_push`: the operations that queries use.
* `Statement.alike_ofFragment`: one outline gives one text, with placeholders at the same places.
* `outline_toFragment`, `outline_countFragment`, `outline_rootCondition`: so does one outline of a
  query.
-/

namespace RowGraph

namespace Fragment

/-- The fragment with null for each literal. -/
def outline : Fragment → Fragment
  | .empty => .empty
  | .text s rest => .text s rest.outline
  | .literal _ rest => .literal .null rest.outline
  | .subQuery inner rest => .subQuery inner.outline rest.outline

/-- Two fragments that differ in the values of their literals alone. -/
def Alike (f g : Fragment) : Prop := f.outline = g.outline

theorem Alike.refl (f : Fragment) : f.Alike f := Eq.refl f.outline

/-! ## Operations -/

@[simp] theorem outline_empty : outline .empty = .empty := rfl

@[simp] theorem outline_textThen (s : String) (f : Fragment) :
    (textThen s f).outline = textThen s f.outline := by
  unfold textThen
  split
  · rfl
  · cases f <;> rfl

@[simp] theorem outline_append (f g : Fragment) : (f ++ g).outline = f.outline ++ g.outline := by
  induction f with
  | empty => rfl
  | text s rest ih => rw [text_append, outline_textThen, ih, outline, text_append]
  | literal v rest ih => rw [literal_append, outline, ih, outline, literal_append]
  | subQuery inner rest _ ih => rw [subQuery_append, outline, ih, outline, subQuery_append]

@[simp] theorem outline_sql (s : String) : (sql s).outline = sql s := by simp [sql]

@[simp] theorem outline_param (v : Value) : (param v).outline = param .null := rfl

@[simp] theorem outline_nested (f : Fragment) : (nested f).outline = nested f.outline := rfl

@[simp] theorem outline_wrap (before after : String) (f : Fragment) :
    (f.wrap before after).outline = f.outline.wrap before after := by
  simp [wrap]

@[simp] theorem outline_join (separator : String) (fs : List Fragment) :
    (join separator fs).outline = join separator (fs.map outline) := by
  induction fs with
  | nil => rfl
  | cons f rest ih =>
    cases rest with
    | nil => rfl
    | cons g rest =>
      rw [List.map_cons] at ih
      simp [join, ih]

@[simp] theorem outline_call (name : String) (args : List Fragment) :
    (call name args).outline = call name (args.map outline) := by
  simp [call]

@[simp] theorem outline_operation (f : Fragment) (op : String) (g : Fragment) :
    (operation f op g).outline = operation f.outline op g.outline := by
  simp [operation, parenthesized]

@[simp] theorem symbols_outline (f : Fragment) : f.outline.symbols = f.symbols := by
  induction f <;> simp_all [outline, symbols]

@[simp] theorem isParenthesized_outline (f : Fragment) :
    f.outline.isParenthesized = f.isParenthesized := by
  simp [isParenthesized]

/-- Whether a condition needs parentheses does not depend on its literals. -/
@[simp] theorem outline_grouped (f : Fragment) : f.grouped.outline = f.outline.grouped := by
  simp only [grouped, isParenthesized_outline, parenthesized]
  split
  · rfl
  · exact outline_wrap _ _ f

namespace Alike

variable {f f' g g' : Fragment}

theorem wrap (h : f.Alike g) (before after : String) :
    (f.wrap before after).Alike (g.wrap before after) := by
  rw [Alike, outline_wrap, outline_wrap, h]

theorem append (h : f.Alike g) (h' : f'.Alike g') : (f ++ f').Alike (g ++ g') := by
  rw [Alike, outline_append, outline_append, h, h']

theorem operation (h : f.Alike g) (op : String) (h' : f'.Alike g') :
    (Fragment.operation f op f').Alike (.operation g op g') := by
  rw [Alike, outline_operation, outline_operation, h, h']

theorem nested (h : f.Alike g) : (Fragment.nested f).Alike (.nested g) := by
  rw [Alike, outline_nested, outline_nested, h]

end Alike

/-! ## Texts and placeholders -/

@[simp] theorem gaps_outline (f : Fragment) : f.outline.gaps = f.gaps := by
  induction f <;> simp_all [outline, gaps]

@[simp] theorem count_outline (f : Fragment) : f.outline.count = f.count := by
  induction f <;> simp_all [outline, count]

@[simp] theorem depths_outline (f : Fragment) : f.outline.depths = f.depths := by
  induction f <;> simp_all [outline, depths]

end Fragment

/-- Two statements with one text, and with parameters of the same origins in it. -/
structure Statement.Alike (s t : Statement) : Prop where
  sql : s.sql = t.sql
  length : s.slots.length = t.slots.length
  origins : s.slots.map Slot.origin = t.slots.map Slot.origin

/-- **The text of a statement does not depend on the values in its fragment**, nor do the number and
the origins of its parameters. -/
theorem Statement.alike_ofFragment {f g : Fragment} (h : f.Alike g) (d : Dialect) (shape : Shape) :
    (Statement.ofFragment d f shape).Alike (Statement.ofFragment d g shape) := by
  have gaps : f.gaps = g.gaps := by rw [← f.gaps_outline, ← g.gaps_outline, h]
  have count : f.count = g.count := by rw [← f.count_outline, ← g.count_outline, h]
  have depths : f.depths = g.depths := by rw [← f.depths_outline, ← g.depths_outline, h]
  refine ⟨?_, ?_, ?_⟩
  · simp [ofFragment, Draft.sql_merge, Fragment.gapsOf, Fragment.total, gaps, count]
  · simp [ofFragment, Draft.length_slots_merge, Fragment.total, count]
  · simp [ofFragment, Draft.origins_merge, depths]

/-! ## Queries -/

/-- The chain with the outlines of its conditions. -/
def FilterChain.outline (chain : FilterChain) : FilterChain :=
  { chain with fragment := chain.fragment.map Fragment.outline }

/-- A condition is added in the same way whatever values are in it and in those before it. -/
@[simp] theorem FilterChain.outline_push (chain : FilterChain) (condition : Fragment)
    (op : Connective) :
    (chain.push condition op).outline = chain.outline.push condition.outline op := by
  unfold push outline
  cases chain.fragment with
  | none => simp
  | some before =>
    simp only [Option.map_some, Fragment.outline_append, Fragment.outline_textThen,
      Fragment.outline_grouped]
    split
    · simp [Fragment.parenthesized]
    · rfl

/-- The form with the outline of its condition. -/
def JoinForm.outline : JoinForm → JoinForm
  | .on kind condition => .on kind condition.outline
  | .cross => .cross
  | .custom sql => .custom sql

/-- The join with the outline of its condition. -/
def Join.outline (j : Join) : Join := { j with form := j.form.outline }

@[simp] theorem Join.outline_toFragment (c : Catalog) (d : Dialect) (j : Join) :
    (j.toFragment c d).outline = j.outline.toFragment c d := by
  obtain ⟨source, form⟩ := j
  cases form <;> simp [toFragment, outline, JoinForm.outline, JoinForm.keyword]

/-- The column with the outline of its fragment. -/
def OutputColumn.outline (column : OutputColumn) : OutputColumn :=
  { column with fragment := column.fragment.outline }

/-- The projection with the outlines of its columns. -/
def Projection.outline (p : Projection) : Projection :=
  { p with columns := p.columns.map OutputColumn.outline }

@[simp] theorem Projection.outline_toFragment (p : Projection) :
    p.toFragment.outline = p.outline.toFragment := by
  simp [toFragment, outline, OutputColumn.outline, Function.comp_def]

/-- The columns of an entity hold no values. -/
@[simp] theorem Projection.outline_entity (c : Catalog) (d : Dialect) (root : Source) :
    (Projection.entity c d root).outline = Projection.entity c d root := by
  simp [entity, outline, Source.columns, OutputColumn.outline, Function.comp_def]

namespace Query

variable {c : Catalog}

/-- The query with the outlines of its clauses. -/
def outline (q : Query c) : Query c :=
  { q with
    joins := q.joins.map Join.outline
    filter := q.filter.outline
    groupBy := q.groupBy.map Fragment.outline
    having := q.having.outline
    orderBy := q.orderBy.map Fragment.outline
    projection := q.projection.map Projection.outline }

@[simp] theorem dialect_outline (q : Query c) : q.outline.dialect = q.dialect := rfl

@[simp] theorem root_outline (q : Query c) : q.outline.root = q.root := rfl

@[simp] theorem rootEntity_outline (q : Query c) : q.outline.rootEntity = q.rootEntity := rfl

@[simp] theorem joins_outline (q : Query c) : q.outline.joins = q.joins.map Join.outline := rfl

@[simp] theorem fragment_filter_outline (q : Query c) :
    q.outline.filter.fragment = q.filter.fragment.map Fragment.outline := rfl

@[simp] theorem orderBy_outline (q : Query c) :
    q.outline.orderBy = q.orderBy.map Fragment.outline := rfl

@[simp] theorem distinct_outline (q : Query c) : q.outline.distinct = q.distinct := rfl

@[simp] theorem shape_outline (q : Query c) : q.outline.shape = q.shape := by
  unfold shape outline
  cases q.projection <;> rfl

@[simp] theorem outline_clause (word : String) (f : Option Fragment) :
    (clause word f).outline = clause word (f.map Fragment.outline) := by
  cases f <;> simp [clause]

@[simp] theorem outline_listClause (word : String) (fs : List Fragment) :
    (listClause word fs).outline = listClause word (fs.map Fragment.outline) := by
  cases fs <;> simp [listClause]

@[simp] theorem outline_joinLines (d : Dialect) (joins : List Join) :
    (joinLines c d joins).outline = joinLines c d (joins.map Join.outline) := by
  induction joins with
  | nil => rfl
  | cons j rest ih => simp [joinLines, ih]

@[simp] theorem outline_body (q : Query c) : q.body.outline = q.outline.body := by
  simp [body, outline, FilterChain.outline]

@[simp] theorem outline_columns (q : Query c) : q.columns.outline = q.outline.columns := by
  unfold columns outline
  cases q.projection with
  | none => simp
  | some p => rfl

@[simp] theorem page_outline (q : Query c) : q.outline.page = q.page := by
  simp [page, outline]

@[simp] theorem outline_page (q : Query c) : q.page.outline = q.page := by
  unfold page
  split
  · exact Fragment.outline_sql _
  · rfl

/-- The whole query. -/
@[simp] theorem outline_toFragment (q : Query c) : q.toFragment.outline = q.outline.toFragment := by
  unfold toFragment
  rw [distinct_outline]
  simp

@[simp] theorem countsSelection_outline (q : Query c) :
    q.outline.countsSelection = q.countsSelection := by
  simp [countsSelection, outline]

@[simp] theorem outline_countFragment (q : Query c) :
    q.countFragment.outline = q.outline.countFragment := by
  simp only [countFragment, countsSelection_outline, dialect_outline]
  split <;> simp

/-- Which rows of the root's table a query selects. -/
theorem outline_rootCondition (q : Query c) :
    q.rootCondition.map (Option.map Fragment.outline) = q.outline.rootCondition := by
  simp only [rootCondition, joins_outline, List.isEmpty_map, root_outline, rootEntity_outline,
    fragment_filter_outline, dialect_outline]
  split
  · rfl
  · cases q.rootEntity.requireKey with
    | error why => rfl
    | ok i => simp [Except.map]

end Query

end RowGraph
