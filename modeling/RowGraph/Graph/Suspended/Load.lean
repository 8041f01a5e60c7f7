import RowGraph.Graph.Load

/-!
# Loading graphs as a conversation

Loading with a database that does not answer at once: every statement is sent and waited for, and
the rows become nodes when they are there, before the next statement is sent. What the statements
are, and how children find their parents, is shared with loading at once.

Modelled: `load_select`, `load_single_by_id` and `load_references` of `AsyncGraphLoader`.

Left out: that a call can be given up while it waits for an answer.
-/

namespace RowGraph.Suspended

open Loading

variable {c : Catalog}

/-- One reference of these parents filled. -/
def fillReference {e : Entity} (s : Session c Conversation) (parents : List NodeId)
    (plan : Plan c e) : Loading c Conversation Unit := do
  match s.referenceStatements plan (← get) parents with
  | .error why => throw why
  | .ok statements =>
    let mut children := []
    for statement in statements do
      let rows ← query s statement
      let loaded ← materialize s plan.reference.target rows
      children := children ++ loaded
    stitch s.settings.caseInsensitive plan parents children

/-- References of nodes filled; those of the first one say which there are. -/
def fillReferences (s : Session c Conversation) (parents : List NodeId) (selection : Include) :
    Loading c Conversation Unit := do
  let some first := parents.head? | return
  let some n := (← get).node? first | return
  match n.entity.plans c selection with
  | .error why => throw why
  | .ok plans =>
    for plan in plans do
      fillReference s parents plan

/-- References of nodes of one entity filled. -/
def loadReferences (s : Session c Conversation) (g : Graph c) (parents : List NodeId)
    (selection : Include) : Conversation (Except GraphError Unit × Graph c) :=
  (fillReferences s parents selection).run.run g

/-- The rows of a query as new nodes, with the references that are asked for. -/
def load (s : Session c Conversation) (q : Query c) (g : Graph c) (selection : Include) :
    Conversation (Except GraphError (List NodeId) × Graph c) :=
  match s.rootStatement q with
  | .error why => return (.error why, g)
  | .ok statement =>
    let steps : Loading c Conversation (List NodeId) := do
      let rows ← query s statement
      let ids ← materialize s q.root.entity rows
      fillReferences s ids selection
      return ids
    steps.run.run g

/-- The row with a key as a new node, if there is one, with the references that are asked for. -/
def loadByKey (s : Session c Conversation) (type : EntityType) (key : Value) (g : Graph c)
    (selection : Include) : Conversation (Except GraphError (Option NodeId) × Graph c) := do
  match s.byKeyQuery type key with
  | .error why => return (.error why, g)
  | .ok q =>
    let (result, g) ← load s q g selection
    return (result.map List.head?, g)

end RowGraph.Suspended
