import RowGraph.Graph.Plan
import RowGraph.Settings.Basic

/-!
# Errors of the whole library

Every error has a wording of its own. Where errors of all kinds meet, each says in front what it is
about; a failure of the database keeps its own words alone, wherever it comes from.

Main statement: `ofGraph_execution`.

Modelled: `OrmError` with its wordings and the errors that it is made from.
-/

namespace RowGraph

/-- Any error. -/
inductive Error
  | catalog (why : CatalogError)
  | compile (why : CompileError)
  | scope (why : AliasError)
  | query (why : QueryError)
  | mapping (why : MappingError)
  | graph (why : GraphError)
  | config (why : ConfigError)
  | execution (why : ExecutionError)
deriving DecidableEq

namespace Error

/-- An error of a graph; the database's failures stand for themselves. -/
def ofGraph : GraphError → Error
  | .execution why => .execution why
  | why => .graph why

/-- The wording of an error. -/
def message : Error → String
  | .catalog why => "Entity catalog error: " ++ why.message
  | .compile why => "Translation error: " ++ why.message
  | .scope why => "Alias error: " ++ why.message
  | .query why => "Query error: " ++ why.message
  | .mapping why => "Column mapping error: " ++ why.message
  | .graph why => "Reference graph error: " ++ why.message
  | .config why => "Configuration error: " ++ why.message
  | .execution why => why.message

/-- A failure of the database keeps its words. -/
theorem ofGraph_execution (why : ExecutionError) :
    (ofGraph (.execution why)).message = why.message := rfl

end Error

end RowGraph
