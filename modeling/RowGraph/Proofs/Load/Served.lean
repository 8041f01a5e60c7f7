import RowGraph.Proofs.Entity.RowStatements
import RowGraph.Proofs.Load.Matching
import RowGraph.Proofs.Load.Statements

/-!
# Children from a fixed table

A database that serves a reference answers each query for children from one table: with the rows
whose column is one of the values that the statement lists, in small letters where the statement
reads them so, as far as the select filters let them pass, in the order of the table.

* `LooksUp`: what is asked of the database, in terms of the statements that it is sent;
  `LooksUp.answersWith`: in terms of the keys that are asked for.
* `Serves`: a database that looks children up, and keeps no texts where none belong.
* `Sample.looksUp_of_lookUp`: a database that reads from the statement how to look up.
* `filter_selected_batches`: of the rows of all batches, those with one key are the rows for it.
* `runs_batches`: the queries succeed, and their rows become new nodes, in order.
-/

namespace RowGraph

variable {c : Catalog} {e : Entity}

namespace Table

variable (table : Table e) (ignoreCase : Bool) (f : Field) (allowed : Row → Bool)

/-- The rows whose value of a field, as it is or in small letters, is one of the listed values, as
far as they are allowed, in the order of the table. -/
def listed (lowered : Bool) (values : List Value) : List Row :=
  table.rows.filter fun r => allowed r &&
    values.any fun v => v.sameKey (if lowered then (r.cell f).lowered else r.cell f)

/-- The rows that a query for keys yields: those whose key is in the list, as far as they are
allowed, in the order of the table. -/
def selected (keys : List Value) : List Row :=
  table.rows.filter fun r => allowed r && f.lookedUp ignoreCase keys (r.cell f)

/-- The rows that a query for keys yields are those that its list yields. -/
theorem listed_bound (keys : List Value) :
    table.listed f allowed (ignoreCase && f.type.isTextual) (f.bound ignoreCase keys) =
      table.selected ignoreCase f allowed keys := by
  refine List.filter_congr fun r _ => congrArg (allowed r && ·) ?_
  rw [Field.bound, Field.lookedUp]
  cases ignoreCase && f.type.isTextual with
  | true => exact List.any_map
  | false => rfl

theorem selected_eq_found (keys : List Value) :
    table.selected ignoreCase f allowed keys =
      found table.rows allowed (fun r => f.storedKey ignoreCase (r.cell f))
        (f.storedKey ignoreCase) keys :=
  List.filter_congr fun r _ => by rw [Field.lookedUp_eq]

/-- The rows for one key are those with the same stored key. -/
theorem selected_singleton {v : Value} {key : String} (hv : v.matchKey ignoreCase = some key) :
    table.selected ignoreCase f allowed [v] = table.rows.filter fun r =>
      allowed r && f.storedKey ignoreCase v == f.storedKey ignoreCase (r.cell f) := by
  have hsome : (f.storedKey ignoreCase v).isSome = true := by
    rw [Field.storedKey, ← Option.not_isNone, Value.isNone_matchKey,
      ← Value.isNone_matchKey v ignoreCase, hv]
    rfl
  rw [selected_eq_found]
  refine List.filter_congr fun r _ => ?_
  rw [List.any_cons, List.any_nil, Bool.or_false, hsome, Bool.true_and]

/-- **Of the rows of all batches, those that match one of the values are the rows for the first
value that matches it.** -/
theorem filter_selected_batches (size : Nat) {values : List Value} {v : Value} (hmem : v ∈ values)
    {key : String} (hv : v.matchKey ignoreCase = some key) :
    ((batches size (distinctKeys ignoreCase [] values)).flatMap
        (table.selected ignoreCase f allowed)).filter
          (fun r => (r.cell f).matchKey ignoreCase == some key) =
      table.selected ignoreCase f allowed [askedFor ignoreCase values v] := by
  have hasked : (batches size (distinctKeys ignoreCase [] values)).flatten.filter
      (fun u => u.matchKey ignoreCase == some key) = [askedFor ignoreCase values v] := by
    rw [flatten_batches, filter_distinctKeys_eq_askedFor hmem hv]
  have hagree : ∀ (r : Row) u, f.storedKey ignoreCase u = f.storedKey ignoreCase (r.cell f) →
      ((r.cell f).matchKey ignoreCase == some key) = (u.matchKey ignoreCase == some key) :=
    fun r u same => by rw [Field.matchKey_eq_of_storedKey_eq same]
  rw [funext (selected_eq_found table ignoreCase f allowed), filter_batches hagree]
  · rw [hasked]
  · rw [hasked]
    exact Nat.le_refl 1

/-- Where keys are texts only if the field is one of texts, the rows for values that match each
other are the same. -/
theorem selected_congr (h : f.type.isTextual = false → ∀ r ∈ table.rows, (r.cell f).asText? = none)
    {u v : Value} {key : String} (hu : u.matchKey ignoreCase = some key)
    (hv : v.matchKey ignoreCase = some key) :
    table.selected ignoreCase f allowed [u] = table.selected ignoreCase f allowed [v] := by
  rw [selected_singleton _ _ _ _ hu, selected_singleton _ _ _ _ hv]
  refine List.filter_congr fun r hr => ?_
  rw [Field.beq_storedKey (fun ht => h ht r hr), Field.beq_storedKey (fun ht => h ht r hr), hu, hv]

end Table

section Lookup

variable {σ : Type} (s : Session c (StateM σ)) (p : Plan c e) (field : Fin p.child.fields.length)
  (table : Table p.child)

/-- The database looks children up in a table: a statement of the session that lists values for
their column is answered with the rows whose value is one of these, in small letters where the
statement reads the column so. -/
def Session.LooksUp (allowed : Row → Bool) : Prop :=
  ∀ keys statement, keys ≠ [] →
    s.batchStatement p (p.child.fieldAt field) keys = .ok statement →
    ∀ lowered values, s.Lists p (p.child.fieldAt field) statement lowered values → ∀ w,
      ((s.database.query statement.sql statement.values).run w).1 =
        .ok (table.listed (p.child.fieldAt field) allowed lowered values)

/-- The database answers the queries for children with rows of a table, some for each list of
keys. -/
structure AnswersWith (rows : List Value → List Row) : Prop where
  answer : ∀ keys statement, keys ≠ [] →
    s.batchStatement p (p.child.fieldAt field) keys = .ok statement → ∀ w,
      ((s.database.query statement.sql statement.values).run w).1 = .ok (rows keys)
  mem : ∀ keys, ∀ r ∈ rows keys, r ∈ table.rows

/-- The database looks children up in a table that keeps texts only in fields of texts. -/
structure Session.ServesFrom (allowed : Row → Bool) : Prop where
  looksUp : s.LooksUp p field table allowed
  textual : (p.child.fieldAt field).type.isTextual = false →
    ∀ r ∈ table.rows, (r.cell (p.child.fieldAt field)).asText? = none

variable {s p field table} {allowed : Row → Bool}

/-- **A database that looks children up answers for keys**, since a statement for keys lists
them. -/
theorem Session.LooksUp.answersWith (h : s.LooksUp p field table allowed) :
    AnswersWith s p field table
      (table.selected s.settings.caseInsensitive (p.child.fieldAt field) allowed) where
  answer keys statement hkeys hmade w := by
    rw [← table.listed_bound]
    exact h keys statement hkeys hmade _ _ (Session.lists_batchStatement hkeys hmade) w
  mem _ _ hr := (List.mem_filter.mp hr).1

/-- The rows that are answered to a query for keys. -/
def Session.ServesFrom.rows (_ : s.ServesFrom p field table allowed) (keys : List Value) :
    List Row :=
  table.selected s.settings.caseInsensitive (p.child.fieldAt field) allowed keys

theorem Session.ServesFrom.answersWith (h : s.ServesFrom p field table allowed) :
    AnswersWith s p field table h.rows :=
  h.looksUp.answersWith

end Lookup

/-- The database serves a reference from some table of children, of which the select filters let
some rows pass. -/
def Session.Serves {σ : Type} (s : Session c (StateM σ)) (p : Plan c e) : Prop :=
  ∀ field, p.childField = .ok field → ∃ table allowed, s.ServesFrom p field table allowed

theorem ne_nil_of_mem_batches {α : Type} {size : Nat} {items batch : List α}
    (h : batch ∈ batches size items) : batch ≠ [] := by
  induction items using batches.induct size with
  | case1 => simp [batches] at h
  | case2 a rest ih =>
    rw [batches] at h
    rcases List.mem_cons.mp h with rfl | h
    · exact List.cons_ne_nil _ _
    · exact ih h

namespace Loading

open Process

variable {σ : Type} {s : Session c (StateM σ)} {p : Plan c e}

/-! ## The rows of all batches as nodes -/

theorem runs_query {statement : Statement} {rows : List Row} {w : σ}
    (h : ((s.database.query statement.sql statement.values).run w).1 = .ok rows) (g : Graph c) :
    ∃ v, Runs (query s statement) g w rows g v := by
  refine ⟨((s.database.query statement.sql statement.values).run w).2, ?_⟩
  rw [query, runs_bind]
  refine ⟨_, g, _, outcome_lift _ g w, ?_⟩
  rw [h]
  exact runs_pure.mpr ⟨rfl, rfl, rfl⟩

section

variable {field : Fin p.child.fields.length} {table : Table p.child}
  {rows : List Value → List Row} (h : AnswersWith s p field table rows)
include h

/-- A query for keys makes the rows that are answered new nodes. -/
theorem runs_children {keys : List Value} (hkeys : keys ≠ []) {statement : Statement}
    (hmade : s.batchStatement p (p.child.fieldAt field) keys = .ok statement) (g : Graph c)
    (w : σ) :
    ∃ v, Runs (do materialize s p.reference.target (← query s statement)) g w
      (List.range' g.nodes.length (rows keys).length)
      (g.extend ((rows keys).map (Row.node p.reference.target))) v := by
  obtain ⟨v, hquery⟩ := runs_query (h.answer keys statement hkeys hmade w) g
  exact ⟨v, runs_bind.mpr ⟨_, g, v, hquery, outcome_materialize s table (h.mem keys) g v⟩⟩

/-- The queries for batches of keys: all rows that are answered become new nodes, in order. -/
theorem runs_batches {make : List Value → Statement}
    (hmake : ∀ keys, s.batchStatement p (p.child.fieldAt field) keys = .ok (make keys))
    {bs : List (List Value)} (hbs : ∀ b ∈ bs, b ≠ []) (g : Graph c) (w : σ) :
    ∃ ids v, Runs ((bs.map make).mapM fun statement => do
        materialize s p.reference.target (← query s statement)) g w ids
      (g.extend ((bs.flatMap rows).map (Row.node p.reference.target))) v ∧
      ids.flatten = List.range' g.nodes.length (bs.flatMap rows).length := by
  induction bs generalizing g w with
  | nil => exact ⟨[], w, by simp, by simp⟩
  | cons b rest ih =>
    obtain ⟨v, hfirst⟩ := runs_children h (hbs b List.mem_cons_self) (hmake b) g w
    obtain ⟨ids, v', hrest, hids⟩ := ih (fun b hb => hbs b (List.mem_cons_of_mem _ hb))
      (g.extend ((rows b).map (Row.node p.reference.target))) v
    rw [Graph.extend_extend, ← List.map_append] at hrest
    refine ⟨List.range' g.nodes.length (rows b).length :: ids, v', ?_, ?_⟩
    · rw [List.map_cons, runs_mapM_cons]
      exact ⟨_, ids, _, v, rfl, hfirst, hrest⟩
    · rw [List.flatten_cons, hids, Graph.length_nodes_extend, List.length_map, List.flatMap_cons,
        List.length_append, List.range'_append_1]

end

/-- Where no statement can be made and a parent has a key, the loading stops before any query. -/
theorem outcome_loadReference_of_refused {field : Fin p.child.fields.length}
    (hfield : p.childField = .ok field) {why : QueryError}
    (hmade : ∀ keys, s.batchStatement p (p.child.fieldAt field) keys = .error why)
    {parents : List NodeId} {g : Graph c}
    (h : ∃ parent ∈ parents, (p.parentKey g parent).isNull = false) (w : σ) :
    outcome (loadReference s parents p) g w = ((.error (.query why), g), w) := by
  have hrefused : s.referenceStatements p g parents = .error (.query why) := by
    rw [s.referenceStatements_eq hfield]
    cases hkeys : s.keysOf p g parents with
    | nil =>
      obtain ⟨parent, hparent, hkey⟩ := h
      rw [Session.isNull_of_keysOf_eq_nil hkeys hparent] at hkey
      cases hkey
    | cons key rest =>
      rw [batches, List.mapM_cons, hmade]
      rfl
  rw [loadReference, outcome_get_bind, hrefused]
  rfl

/-- Where the statements are answered, the rows of all batches become new nodes, and the parents
get theirs. -/
theorem outcome_loadReference_of_answers {field : Fin p.child.fields.length} {table : Table p.child}
    {rows : List Value → List Row} (h : AnswersWith s p field table rows)
    (hfield : p.childField = .ok field)
    {make : List Value → Statement}
    (hmake : ∀ keys, s.batchStatement p (p.child.fieldAt field) keys = .ok (make keys))
    {parents : List NodeId} {g : Graph c} {all : List Row}
    (hall : all = (batches s.settings.inBatchSize (s.keysOf p g parents)).flatMap rows) (w : σ) :
    ∃ w', outcome (loadReference s parents p) g w =
      outcome (parents.forM (stitchParent s.settings.caseInsensitive p field
          (List.range' g.nodes.length all.length)) : Loading c (StateM σ) Unit)
        (g.extend (all.map (Row.node p.reference.target))) w' := by
  have hstatements : s.referenceStatements p g parents =
      .ok ((batches s.settings.inBatchSize (s.keysOf p g parents)).map make) := by
    rw [s.referenceStatements_eq hfield, mapM_eq_ok_iff, List.map_map]
    refine List.map_congr_left fun keys _ => ?_
    rw [hmake]
    rfl
  have hbatches : ∀ batch ∈ batches s.settings.inBatchSize (s.keysOf p g parents), batch ≠ [] :=
    fun _ => ne_nil_of_mem_batches
  obtain ⟨ids, w', hruns, hids⟩ := runs_batches h hmake hbatches g w
  rw [← hall] at hruns hids
  refine ⟨w', ?_⟩
  rw [loadReference, outcome_get_bind, hstatements]
  change outcome (List.mapM _ _ >>= _) g w = _
  rw [outcome_bind_of_runs hruns, hids, stitch, hfield]

/-! ## The rows of new nodes -/

theorem map_row?_extend (g : Graph c) (more : List (Node c)) :
    (List.range' g.nodes.length more.length).map (g.extend more).row? =
      more.map fun n => some (n.type, n.values) := by
  induction more generalizing g with
  | nil => rfl
  | cons n rest ih =>
    have hrest := ih (g.extend [n])
    rw [Graph.length_nodes_extend, Graph.extend_extend] at hrest
    have hfirst : (g.extend (n :: rest)).row? g.nodes.length = some (n.type, n.values) := by
      simp [Graph.row?, Graph.node?, Graph.extend]
    rw [List.length_cons, List.range'_succ, List.map_cons, List.map_cons, hfirst]
    exact congrArg _ hrest

/-- Among the rows of all batches a parent finds those that a query for the first key that matches
its own yields. -/
theorem map_row?_matching {field : Fin p.child.fields.length} {table : Table p.child}
    {allowed : Row → Bool} {a x : Graph c} {parents : List NodeId} {key : Value}
    (hkey : key ∈ parents.map (p.parentKey a)) {k : String}
    (hk : key.matchKey s.settings.caseInsensitive = some k) {all : List Row}
    (hall : all = (batches s.settings.inBatchSize (s.keysOf p a parents)).flatMap
      (table.selected s.settings.caseInsensitive (p.child.fieldAt field) allowed))
    (hx : x.row? = (a.extend (all.map (Row.node p.reference.target))).row?) :
    ((List.range' a.nodes.length all.length).filter fun child =>
        (x.valueAt child field).matchKey s.settings.caseInsensitive ==
          key.matchKey s.settings.caseInsensitive).map x.row? =
      ((table.selected s.settings.caseInsensitive (p.child.fieldAt field) allowed
        [askedFor s.settings.caseInsensitive (parents.map (p.parentKey a)) key]).map
          (Row.node p.reference.target)).map fun n : Node c => some (n.type, n.values) := by
  have hrows := map_row?_extend a (all.map (Row.node p.reference.target))
  rw [List.length_map] at hrows
  rw [map_row?_filter, hx, hrows, List.filter_map, List.filter_map, hk]
  refine congrArg (List.map _) (congrArg (List.map _) ?_)
  rw [hall, ← table.filter_selected_batches _ _ _ s.settings.inBatchSize hkey hk]
  refine List.filter_congr fun r _ => ?_
  have hcell : Entity.valueAt (Row.node p.reference.target r : Node c).values field =
      r.cell (p.child.fieldAt field) := valueAt_node p.reference.target r field
  simp only [Function.comp, Option.map_some, Option.getD_some, hcell]

end Loading

/-! ## A database that reads its statements -/

namespace Query

variable {d : Dialect} {root : Source} {columns : String}

/-- All rows of an entity with one condition: what stands before the condition. -/
theorem toFragment_conditioned_ofRoot
    (hcolumns : (Projection.entity c d root).toFragment = .sql columns) (condition : Fragment) :
    ∃ rest, ((ofRoot d root : Query c).conditioned condition).toFragment =
      .textThen ("SELECT " ++ columns ++ "\nFROM " ++ root.tableReference c d ++ "\nWHERE ")
        (condition.grouped ++ rest) := by
  refine ⟨.empty ++ .empty ++
    (.empty ++ ((ofRoot d root : Query c).conditioned condition).page), ?_⟩
  change Fragment.textThen "SELECT " ((Projection.entity c d root).toFragment ++
    .textThen ("\nFROM " ++ root.tableReference c d) (.empty ++
      .textThen "\nWHERE " condition.grouped ++ .empty ++ .empty) ++ .empty ++ _) = _
  rw [hcolumns]
  simp only [Fragment.sql, Fragment.textThen_append_left, Fragment.empty_append,
    Fragment.textThen_append, Fragment.append_assoc]

end Query

namespace Sample

/-- Whether the condition behind some text is about a column in small letters. -/
def readsLowered (lead sql : String) : Bool :=
  ((sql.toList.drop lead.length).dropWhile (· == '(')).head? == some 'L'

/-- A column in quotes. -/
theorem head?_qualify (root : Source) (column : String) :
    (root.qualify c .sqlite column).toList.head? = some '"' := by
  have quoted (name rest : String) :
      (Dialect.quoteName .sqlite name ++ rest).toList.head? = some '"' := by
    simp [Dialect.quoteName, Text.enclosed, Dialect.openingQuote]
  rw [Source.qualify, Source.qualifier, String.append_assoc]
  split
  · exact quoted _ _
  · rw [Source.quotedTable]
    cases (c.entity root.entity).schema <;> exact quoted _ _

/-- The condition begins with the column or its text in small letters, in parentheses. -/
theorem grouped_isListed (column : String) (lowered : Bool) (values : List Value) :
    ∃ parens rest, (∀ x ∈ parens.toList, (x == '(') = true) ∧
      (Fragment.isListed column lowered values).grouped =
        .textThen (parens ++ Fragment.subject column lowered) rest := by
  obtain ⟨behind, listed⟩ : ∃ behind, Fragment.isListed column lowered values =
      .textThen ("(" ++ Fragment.subject column lowered) behind := by
    refine ⟨.sql " IN (" ++ .join "," (values.map .param) ++ .sql "))", ?_⟩
    simp only [Fragment.isListed, Fragment.sql, Fragment.textThen_append_left,
      Fragment.empty_append, Fragment.textThen_append]
  rw [Fragment.grouped]
  split
  · exact ⟨"(", behind, by simp, listed⟩
  · refine ⟨"((", behind ++ .sql ")", by simp, ?_⟩
    rw [Fragment.parenthesized, Fragment.wrap, listed, Fragment.textThen_append_left,
      ← Fragment.textThen_append, ← String.append_assoc]
    rfl

theorem readsLowered_isListed {column : String} (quoted : column.toList.head? = some '"')
    (lead : String) (lowered : Bool) (values : List Value) (rest : Fragment) (shape : Shape) :
    readsLowered lead (Statement.ofFragment .sqlite (.textThen lead
      ((Fragment.isListed column lowered values).grouped ++ rest)) shape).sql = lowered := by
  obtain ⟨parens, behind, hparens, grouped⟩ := grouped_isListed column lowered values
  rw [grouped, Fragment.textThen_append_left, ← Fragment.textThen_append]
  obtain ⟨more, hsql⟩ := Statement.sql_ofFragment_textThen .sqlite
    (lead ++ (parens ++ Fragment.subject column lowered)) (behind ++ rest) shape
  rw [hsql, readsLowered, String.toList_append, String.toList_append, String.toList_append,
    List.append_assoc, ← String.length_toList, List.drop_left, List.append_assoc,
    List.dropWhile_append_of_pos hparens]
  cases lowered with
  | true => simp [Fragment.subject]
  | false =>
    obtain ⟨letters, hletters⟩ : ∃ letters, column.toList = '"' :: letters :=
      List.head?_eq_some_iff.mp quoted
    simp [Fragment.subject, hletters]

/-- **A database that reads from the statement whether a column is read in small letters, and
answers with the rows that the bound values list, looks children up.** -/
theorem looksUp_of_lookUp {σ : Type} {s : Session c (StateM σ)} {p : Plan c e}
    {field : Fin p.child.fields.length} {table : Table p.child} {columns lead : String}
    (hfilters : filtersFor s.filters p.child = []) (hdialect : s.dialect = .sqlite)
    (hcolumns : (Projection.entity c .sqlite ⟨p.reference.target, none⟩).toFragment = .sql columns)
    (hlead : "SELECT " ++ columns ++ "\nFROM " ++
      Source.tableReference c .sqlite ⟨p.reference.target, none⟩ ++ "\nWHERE " = lead)
    (hquery : ∀ sql values w, ((s.database.query sql values).run w).1 =
      .ok (table.listed (p.child.fieldAt field) (fun _ => true) (readsLowered lead sql) values)) :
    s.LooksUp p field table fun _ => true := by
  intro keys statement _ _ lowered values hlists w
  rw [hquery, hlists.values_eq hfilters]
  obtain ⟨source, found, -, rfl⟩ := hlists.statement_eq hfilters
  rw [hdialect]
  obtain ⟨rest, hfragment⟩ := Query.toFragment_conditioned_ofRoot hcolumns
    (.isListed (source.qualify c .sqlite found.column) lowered values)
  rw [Query.selectStatement, hfragment, hlead]
  exact congrArg (fun lowered => Except.ok (table.listed _ _ lowered values))
    (readsLowered_isListed (head?_qualify source found.column) lead lowered values rest _)

end Sample

end RowGraph
