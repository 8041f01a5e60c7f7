import RowGraph.Projection
import RowGraph.Query.Filter

/-!
# Queries

A query holds its sources and its clauses, each one already compiled. The first source is the
root; every join adds one. What is not said has its default: all columns of the root, no condition,
no order, all rows.

Modelled: `Query` with its clauses, `from` (`ofRoot`), `JoinDescriptor` (`Join`) with `to_fragment`,
`JoinKind` and `QueryError`.
-/

namespace RowGraph

/-- Which rows without a partner a join keeps. -/
inductive JoinKind
  | inner
  | left
  | right
  | full
deriving DecidableEq, Repr

/-- How a join is written. -/
inductive JoinForm
  | on (kind : JoinKind) (condition : Fragment)
  | cross
  /-- A whole join written by hand. -/
  | custom (sql : String)
deriving DecidableEq

/-- A source that a query joins. -/
structure Join where
  source : Source
  form : JoinForm
deriving DecidableEq

/-- A query over entities of a catalog. -/
structure Query (c : Catalog) where
  dialect : Dialect
  root : Source
  /-- The sources after the root. -/
  joined : List Source
  joins : List Join
  filter : FilterChain
  groupBy : List Fragment
  having : FilterChain
  orderBy : List Fragment
  projection : Option Projection
  distinct : Bool
  offset : Option Nat
  rows : Option Nat

/-- What can be wrong with a call that builds a query or asks for a statement. -/
inductive QueryError
  | compile (why : CompileError)
  | scope (why : AliasError)
  | catalog (why : CatalogError)
  | missingRawParameter (index provided : Nat) (sql : String)
  | missingNamedParameter (name : String)
  | noJoinCondition (target : String)
  | emptyUpdate (entity : String)
deriving DecidableEq

/-- The kind of a query error. -/
def QueryError.kind : QueryError → String
  | .compile _ => "Translate"
  | .scope why => "Alias." ++ why.kind
  | .catalog why => "Catalog." ++ why.kind
  | .missingRawParameter _ _ _ => "MissingRawParameter"
  | .missingNamedParameter _ => "MissingNamedParameter"
  | .noJoinCondition _ => "NoJoinCondition"
  | .emptyUpdate _ => "EmptyUpdate"

/-- The wording of a query error. -/
def QueryError.message : QueryError → String
  | .compile why => why.message
  | .scope why => why.message
  | .catalog why => why.message
  | .missingRawParameter index provided sql =>
    "Raw SQL references parameter \x7b" ++ Nat.repr index ++ "\x7d but only " ++
      Nat.repr provided ++ " were supplied: " ++ sql
  | .missingNamedParameter name =>
    "Raw SQL references named parameter '" ++ name ++ "' which was not supplied"
  | .noJoinCondition target =>
    "No foreign key links '" ++ target ++ "' to any table already in the query"
  | .emptyUpdate entity => "Update of '" ++ entity ++ "' has no column to set"

/-- The word for a kind of join. -/
def JoinKind.keyword : JoinKind → String
  | .inner => "INNER JOIN"
  | .left => "LEFT JOIN"
  | .right => "RIGHT JOIN"
  | .full => "FULL JOIN"

namespace JoinForm

/-- The word that the join starts with; one written by hand has its own. -/
def keyword : JoinForm → String
  | .on kind _ => kind.keyword
  | .cross => "CROSS JOIN"
  | .custom _ => ""

/-- The condition of the join. -/
def condition? : JoinForm → Option Fragment
  | .on _ condition => some condition
  | _ => none

end JoinForm

/-- The join in a statement. -/
def Join.toFragment (c : Catalog) (d : Dialect) (j : Join) : Fragment :=
  let head := Fragment.sql (j.form.keyword ++ " " ++ j.source.tableReference c d)
  match j.form with
  | .on _ condition => head ++ .textThen " ON " condition
  | .cross => head
  | .custom sql => .sql sql

namespace Query

variable {c : Catalog}

/-- The query of all rows of an entity, under an alias if one is asked for. -/
def ofRoot (dialect : Dialect) (root : Source) : Query c :=
  { dialect, root
    joined := []
    joins := []
    filter := .empty
    groupBy := []
    having := .empty
    orderBy := []
    projection := none
    distinct := false
    offset := none
    rows := none }

/-- All sources, the root first. -/
def scope (q : Query c) : Scope := ⟨q.root :: q.joined⟩

/-- The entity of the root. -/
def rootEntity (q : Query c) : Entity := c.entity q.root.entity

/-- How the rows of the query are read back. -/
def shape (q : Query c) : Shape :=
  match q.projection with
  | some p => p.shape
  | none => .entity

/-- A compiler over the sources of the query. -/
def compiler (q : Query c) (readings : Readings) (target : Option Source) : Compiler :=
  ⟨c, q.dialect, q.scope, target, readings⟩

end Query

end RowGraph
