import RowGraph.Entity.Rows
import RowGraph.Query.Basic

/-!
# Statements of a query

The statements that a query yields: the selection of its rows, their count, and the deletion and
update of the root's rows. A statement is put together from the clauses of the query; none of these
functions changes the query.

A deletion or update names its rows by the filter where the query reads the root's table alone and
without an alias; else by the keys that the query selects.

Modelled: `body_fragment` (`body`), `to_fragment`, `to_select_statement`, `to_count_statement`,
`to_merged_params_select_statement` (`inlinedStatement`), `to_delete_statement`,
`to_update_statement` and `dml_predicate` (`rootCondition`).
-/

namespace RowGraph

namespace Query

variable {c : Catalog}

/-- A clause after the word it starts with. -/
def clause (word : String) : Option Fragment → Fragment
  | some f => .textThen word f
  | none => .empty

/-- A clause of several parts after the word it starts with. -/
def listClause (word : String) : List Fragment → Fragment
  | [] => .empty
  | parts => .textThen word (.join ", " parts)

/-- The joins, each one on a line of its own. -/
def joinLines (c : Catalog) (d : Dialect) : List Join → Fragment
  | [] => .empty
  | j :: rest => .textThen "\n" (j.toFragment c d ++ joinLines c d rest)

/-- The query from its sources to the conditions on its groups. -/
def body (q : Query c) : Fragment :=
  .textThen ("\nFROM " ++ q.root.tableReference c q.dialect) <|
    joinLines c q.dialect q.joins ++
    clause "\nWHERE " q.filter.fragment ++
    listClause "\nGROUP BY " q.groupBy ++
    clause "\nHAVING " q.having.fragment

/-- The projection, by default all columns of the root. -/
def columns (q : Query c) : Projection :=
  q.projection.getD (.entity c q.dialect q.root)

/-- The page of rows, if the query asks for one. -/
def page (q : Query c) : Fragment :=
  match q.dialect.pageClause q.offset q.rows !q.orderBy.isEmpty with
  | some text => .sql ("\n" ++ text)
  | none => .empty

/-- The whole query with its literals, to be put into another one. -/
def toFragment (q : Query c) : Fragment :=
  .textThen (if q.distinct then "SELECT DISTINCT " else "SELECT ") <|
    q.columns.toFragment ++ q.body ++ listClause "\nORDER BY " q.orderBy ++ q.page

/-- The rows. -/
def selectStatement (q : Query c) : Statement := .ofFragment q.dialect q.toFragment q.shape

/-- Whether rows can only be counted after they have been selected. -/
def countsSelection (q : Query c) : Bool :=
  !q.groupBy.isEmpty || q.distinct || q.offset.isSome || q.rows.isSome

/-- The number of rows as a query of its own. -/
def countFragment (q : Query c) : Fragment :=
  if q.countsSelection then
    (Fragment.nested q.toFragment).wrap "SELECT COUNT(*)\nFROM ("
      (") " ++ q.dialect.quoteName "count_q")
  else .textThen "SELECT COUNT(*)" q.body

/-- The number of rows. -/
def countStatement (q : Query c) : Statement := .ofFragment q.dialect q.countFragment .map

/-- The rows with the literals in the text, to be read by people. -/
def inlinedStatement (q : Query c) : String := q.toFragment.inlined q.dialect

/-! ## Changing the root's rows -/

/-- The table of the root. -/
def rootTable (q : Query c) : String := q.root.quotedTable c q.dialect

/-- The condition on the root's rows that the query selects. -/
def rootCondition (q : Query c) : Except QueryError (Option Fragment) :=
  if q.joins.isEmpty && (q.root.aliasName c).isNone then .ok q.filter.fragment
  else
    match q.rootEntity.requireKey with
    | .error why => .error (.catalog why)
    | .ok i =>
      let key := (q.rootEntity.fieldAt i).column
      .ok <| some <| q.body.wrap
        (q.dialect.quoteName key ++ " IN (SELECT " ++ q.root.qualify c q.dialect key) ")"

/-- The deletion of the root's rows. -/
def deleteStatement (q : Query c) : Except QueryError Statement := do
  let condition ← q.rootCondition
  return .ofFragment q.dialect
    (.textThen ("DELETE FROM " ++ q.rootTable) (clause " WHERE " condition)) .map

/-- The assignment of a value to a field, unless it is left out: a generated key is never set, and
null only where the field may be null. -/
def assignment? (q : Query c) (name : String) (v : Value) :
    Except QueryError (Option Fragment) :=
  match q.rootEntity.requireField name with
  | .error why => .error (.catalog why)
  | .ok i =>
    let field := q.rootEntity.fieldAt i
    if field.isGenerated && q.rootEntity.primaryKey == some i then .ok none
    else if v.isNull && !field.isNullable then .ok none
    else .ok (some (field.assignment q.dialect v))

/-- The update of the root's rows. -/
def updateStatement (q : Query c) (assignments : List (String × Value)) :
    Except QueryError Statement := do
  let parts ← assignments.mapM fun (name, v) => q.assignment? name v
  match parts.filterMap id with
  | [] => .error (.emptyUpdate q.rootEntity.name)
  | sets =>
    let condition ← q.rootCondition
    return .ofFragment q.dialect
      (.textThen ("UPDATE " ++ q.rootTable ++ " SET ")
        (Fragment.join ", " sets ++ clause " WHERE " condition)) .map

end Query

end RowGraph
