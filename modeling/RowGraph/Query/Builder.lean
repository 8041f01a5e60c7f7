import RowGraph.Query.Join
import RowGraph.Query.RawText
import RowGraph.Value.Json

/-!
# Building queries

Every call that adds to a query compiles its expression at once, over the sources that the query
has by then, so a mistake is reported by the call that made it. A builder keeps its query when it
fails: calls that change something before they can fail take it back.

`Call` is the calls as data, `Call.run` what they do.

Modelled: the methods that add to a query: the joins with a condition (`join`), without one
(`cross_join`), along a key (`join_ref`) and by hand (`custom_join`), `filter`, `and`, `or`,
`filter_raw`, `filter_named`, `filter_exists`, `filter_not_exists`, `clear_filter`, `group_by`,
`having`, `order_by` and `then_by` in both directions, `clear_order`, `select`, `select_distinct`,
`select_raw`, `limit` and `skip`.
-/

namespace RowGraph

/-- A computation that changes a query and can fail; the query is kept also then. -/
abbrev Builder (c : Catalog) := ExceptT QueryError (StateM (Query c))

/-- What a call uses besides the query: the captured values, and the form in which names of
parameters are compared. -/
structure Environment where
  readings : Readings
  parameterName : String → String

namespace Query

variable {c : Catalog}

/-- The fragment of an expression over the sources of the query. -/
def compile (env : Environment) (position : Position) (e : Expr) : Builder c Fragment := do
  let q ← get
  match ((q.compiler env.readings none).compile position e).outcome with
  | .ok f => return f
  | .error why => throw (.compile why)

/-! ## Joins -/

/-- One more source, whose token has to be new. -/
def bind (new : Source) : Builder c Unit := do
  let q ← get
  match q.scope.bind c new with
  | .ok _ => modify fun q => { q with joined := q.joined ++ [new] }
  | .error why => throw (.scope why)

/-- The last source taken back. -/
def unbind : Builder c Unit :=
  modify fun q => { q with joined := q.joined.dropLast }

/-- The join of the last source. -/
def addJoin (source : Source) (form : JoinForm) : Builder c Unit :=
  modify fun q => { q with joins := q.joins ++ [⟨source, form⟩] }

/-- A join on a condition, in which the new source is known already. -/
def join (env : Environment) (kind : JoinKind) (new : Source) (on : Expr) : Builder c Unit := do
  bind new
  let q ← get
  match ((q.compiler env.readings (some new)).compile .predicate on).outcome with
  | .ok condition => addJoin new (.on kind condition)
  | .error why => do
    unbind
    throw (.compile why)

/-- A join of every row with every row. -/
def crossJoin (new : Source) : Builder c Unit := do
  bind new
  addJoin new .cross

/-- A join along a foreign key. -/
def joinByKey (kind : JoinKind) (new : Source) : Builder c Unit := do
  let before ← get
  bind new
  match Source.inferCondition? c before.dialect before.scope.sources new with
  | some condition => addJoin new (.on kind condition)
  | none => do
    unbind
    throw (.noJoinCondition (c.entity new.entity).name)

/-- A join written by hand. -/
def customJoin (new : Source) (sql : String) : Builder c Unit := do
  bind new
  addJoin new (.custom sql)

/-! ## Conditions -/

/-- One more condition. -/
def addFilter (op : Connective) (condition : Fragment) : Builder c Unit :=
  modify fun q => { q with filter := q.filter.push condition op }

/-- A condition on the rows. -/
def addCondition (env : Environment) (op : Connective) (e : Expr) : Builder c Unit := do
  addFilter op (← compile env .predicate e)

/-- The value of a numbered token. -/
def positionalValue (sql : String) (params : List Value) (name : String) :
    Except QueryError Value :=
  let index := (Text.digitsNumber? name.toList).filter (· < UInt64.size)
  match index.bind (params[·]?) with
  | some v => .ok v
  | none => .error (.missingRawParameter (index.getD (UInt64.size - 1)) params.length sql)

/-- A condition written by hand with numbered tokens. -/
def positionalFragment (sql : String) (params : List Value) : Except QueryError Fragment :=
  RawText.fill (positionalValue sql params) (RawText.pieces RawText.numbers sql.toList)

/-- The value of a named token. Names are compared in the form that `parameterName` gives them; of
parameters with one form the last counts. -/
def namedValue (parameterName : String → String) (params : List (String × Json)) (name : String) :
    Except QueryError Value :=
  match params.reverse.find? fun p => parameterName p.1 == parameterName name with
  | some (_, json) => .ok (.ofJson json)
  | none => .error (.missingNamedParameter name)

/-- A condition written by hand with named tokens. -/
def namedFragment (parameterName : String → String) (sql : String)
    (params : List (String × Json)) : Except QueryError Fragment :=
  RawText.fill (namedValue parameterName params) (RawText.pieces RawText.identifiers sql.toList)

end Query

/-- A call that adds to a query. -/
inductive Call
  | join (kind : JoinKind) (new : Source) (on : Expr)
  | crossJoin (new : Source)
  | joinByKey (kind : JoinKind) (new : Source)
  | customJoin (new : Source) (sql : String)
  | filter (op : Connective) (condition : Expr)
  | filterRaw (sql : String) (params : List Value)
  | filterNamed (sql : String) (params : List (String × Json))
  | filterExists (negated : Bool) (query : Fragment)
  | clearFilter
  | groupBy (key : Expr)
  | having (condition : Expr)
  /-- Takes the place of the order so far. -/
  | orderBy (item : Expr)
  | thenBy (item : Expr)
  | clearOrder
  | select (distinct : Bool) (items : List Expr)
  | selectRaw (sql : String)
  | limit (rows : Nat)
  | skip (rows : Nat)

namespace Call

open Query

variable {c : Catalog}

/-- What a call does. -/
def run (env : Environment) : Call → Builder c Unit
  | .join kind new on => Query.join env kind new on
  | .crossJoin new => Query.crossJoin new
  | .joinByKey kind new => Query.joinByKey kind new
  | .customJoin new sql => Query.customJoin new sql
  | .filter op condition => addCondition env op condition
  | .filterRaw sql params => do addFilter .and (← positionalFragment sql params)
  | .filterNamed sql params => do
    addFilter .and (← namedFragment env.parameterName sql params)
  | .filterExists negated query => addCondition env .and (.existence negated query)
  | .clearFilter => modify fun q => { q with filter := .empty }
  | .groupBy key => do
    let f ← compile env .groupKey key
    modify fun q => { q with groupBy := q.groupBy ++ [f] }
  | .having condition => do
    let f ← compile env .having condition
    modify fun q => { q with having := q.having.push f .and }
  | .orderBy item => do
    let f ← compile env .orderItem item
    modify fun q => { q with orderBy := [f] }
  | .thenBy item => do
    let f ← compile env .orderItem item
    modify fun q => { q with orderBy := q.orderBy ++ [f] }
  | .clearOrder => modify fun q => { q with orderBy := [] }
  | .select distinct items => do
    let q ← get
    match (Projection.compile (q.compiler env.readings none) items).outcome with
    | .ok p => modify fun q => { q with projection := some p, distinct }
    | .error why => throw (.compile why)
  | .selectRaw sql =>
    modify fun q => { q with projection := some (.raw sql), distinct := false }
  | .limit rows => modify fun q => { q with rows := some rows }
  | .skip rows => modify fun q => { q with offset := some rows }

/-- The query after a call, and how the call ended. -/
def apply (env : Environment) (call : Call) (q : Query c) : Except QueryError Unit × Query c :=
  (call.run env).run.run q

end Call

namespace Query

/-- The query after these calls, whether they failed or not. -/
def after {c : Catalog} (env : Environment) (calls : List Call) (q : Query c) : Query c :=
  calls.foldl (fun q call => (call.apply env q).2) q

end Query

end RowGraph
