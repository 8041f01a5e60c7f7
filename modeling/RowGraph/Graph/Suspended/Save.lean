import RowGraph.Graph.Save

/-!
# Saving graphs as a conversation

Saving with a database that does not answer at once: every statement is sent and waited for, and
nothing else happens until the answer is there. The walk is written out for itself, as loops over
the references of a node and over their children, with a flag that says whether the node took over a
key. With the walk that does not wait it shares what sends no statement.

Modelled: `save`, `save_all`, `save_node`, `persist` and `update` of `AsyncGraphLoader`.

Left out: that a call can be given up while it waits for an answer.
-/

namespace RowGraph.Suspended

open Saving

variable {c : Catalog}

/-- The first write of a node. -/
def persist (s : Session c Conversation) (id : NodeId) : Saving c Conversation Unit := do
  let some n := (← get).graph.node? id | return
  note (.persist id)
  let key ← ofCatalog n.entity.requireKey
  if (n.entity.fieldAt key).isGenerated && n.key.isUnassignedKey then
    let statement ← ofCatalog (n.entity.insertionWithKey s.dialect n.values)
    note (.insert id n.values)
    let answer ← ask (s.database.scalar statement.sql statement.values)
    match answer.filter (!·.isNull) with
    | none => throw (.missingGeneratedKey n.entity.name)
    | some key =>
      let keyed ← ofCatalog (n.setKey key)
      modify fun st => { st with graph := st.graph.put id keyed }
  else
    let probe ← ofCatalog (n.entity.countByKey s.dialect n.key)
    let count ← ask (s.database.scalar probe.sql probe.values)
    let statement ←
      if ((count.bind Value.asInt?).getD 0).toInt > 0 then do
        let statement ← ofCatalog (n.entity.updateByKey s.dialect n.values)
        note (.update id n.values)
        pure statement
      else do
        note (.insert id n.values)
        pure (n.entity.insertion s.dialect n.values)
    let _ ← ask (s.database.execute statement.sql statement.values)

/-- A later write of a node. -/
def update (s : Session c Conversation) (id : NodeId) : Saving c Conversation Unit := do
  let some n := (← get).graph.node? id | return
  let statement ← ofCatalog (n.entity.updateByKey s.dialect n.values)
  note (.update id n.values)
  let _ ← ask (s.database.execute statement.sql statement.values)

/-- The references that are followed from a node. -/
def plans (n : Node c) (withReferences : Bool) : Saving c Conversation (List (Plan c n.entity)) :=
  match n.entity.plans c (if withReferences then .all else .nothing) with
  | .ok plans => return plans
  | .error why => throw why

/-- The children of a reference that hold the node's key: those that have been visited are brought
up to date, the others are saved with the key. -/
def saveHolders (s : Session c Conversation) (save : NodeId → Saving c Conversation Unit)
    (id : NodeId) (name : String) (field : Nat) : Saving c Conversation Unit := do
  let key := (← get).graph.key id
  for child in (← get).graph.children id name do
    if child ∈ (← get).visited then
      if !((← get).graph.valueAt child field).same key then
        setAt child field key
        update s child
    else
      setAt child field key
      save child

/-- The child whose key the node holds: saved unless it has been visited, and then its key is taken
over; whether the node changed. -/
def saveHeld (save : NodeId → Saving c Conversation Unit) (id : NodeId) (name : String)
    (field : Nat) : Saving c Conversation Bool := do
  let some child := ((← get).graph.children id name).head? | return false
  if child ∉ (← get).visited then
    save child
  takeChildKey id field child

/-- What is attached to a reference saved; whether the node has taken over a key by then. -/
def saveReference {e : Entity} (s : Session c Conversation)
    (save : NodeId → Saving c Conversation Unit) (id : NodeId) (plan : Plan c e) (dirty : Bool) :
    Saving c Conversation Bool := do
  match plan.link with
  | .childHoldsKey field =>
    saveHolders s save id plan.reference.name field
    return dirty
  | .parentHoldsKey field =>
    let changed ← saveHeld save id plan.reference.name field
    return changed || dirty

/-- A node saved, with calls that are nested at most `fuel` deep. -/
def saveNode (s : Session c Conversation) (withReferences : Bool) :
    (fuel : Nat) → NodeId → Saving c Conversation Unit
  | 0, _ => return
  | fuel + 1, id => do
    let some n := (← get).graph.node? id | return
    if id ∈ (← get).visited then return
    modify fun st => { st with visited := st.visited ++ [id] }
    let plans ← plans n withReferences
    for plan in plans do
      linkKeyedChildren id plan
    persist s id
    let mut dirty := false
    for plan in plans do
      dirty ← saveReference s (saveNode s withReferences fuel) id plan dirty
    if dirty then
      update s id

/-- Several nodes saved in one call, with all that can be reached from them if asked for. -/
def saveAll (s : Session c Conversation) (g : Graph c) (roots : List NodeId)
    (withReferences : Bool) : Conversation (Except GraphError Unit × SaveState c) :=
  let walk : Saving c Conversation Unit := do
    for root in roots do
      saveNode s withReferences g.nodes.length root
  walk.run.run ⟨g, [], []⟩

/-- One node saved, with all that can be reached from it if asked for. -/
def save (s : Session c Conversation) (g : Graph c) (root : NodeId) (withReferences : Bool) :
    Conversation (Except GraphError Unit × SaveState c) :=
  (saveNode s withReferences g.nodes.length root).run.run ⟨g, [], []⟩

end RowGraph.Suspended
