import RowGraph.Entity.Rows
import RowGraph.Graph.Session

/-!
# Saving graphs

A graph is saved from a node along its references, depth first. A node is written once for each
call, before what hangs on it and before its children; that also ends cycles, since what leads back
to a node already written only brings foreign keys up to date.

* Keys of children that have one are taken over before a node is first written.
* A child that holds its parent's key gets it before it is written itself.
* A parent that holds its child's key takes it when the child has been saved, and is then updated.

A row whose key is generated and not assigned yet is inserted, and the database's key is taken over.
For all others the database is asked whether the row is there, which is then updated or inserted.

The journal of a call lists what it wrote in order. The recursion is bounded by the number of nodes:
each step down has marked a node that was not marked before.

Modelled: `save` and `save_all`, with `save_node` (`visit` and `saveVisited`; the loop over its
references is `saveReference` and `saveChild`), `persist` with `persist_step` and
`store_generated_key` (`persist`, `insertForKey`, `insertOrUpdate`), `write_statement` (`insertRow`,
`updateRow`), `update`, `link_keyed_children` and `take_child_key`. The journal is for theorems: no
step reads it.

Left out: that other holders of a node may change it while it is saved.
-/

namespace RowGraph

/-- A step of saving. -/
inductive SaveEvent
  /-- A node is about to be written for the first time. -/
  | persist (node : NodeId)
  /-- An insertion with these values is sent. -/
  | insert (node : NodeId) (values : List Value)
  /-- An update with these values is sent. -/
  | update (node : NodeId) (values : List Value)
deriving DecidableEq

/-- The state of a call that saves: the graph, the nodes visited so far, and what was done. -/
structure SaveState (c : Catalog) where
  graph : Graph c
  visited : List NodeId
  journal : List SaveEvent

/-- A computation that saves; its state is kept when it fails. -/
abbrev Saving (c : Catalog) (m : Type → Type) := ExceptT GraphError (StateT (SaveState c) m)

namespace Saving

variable {c : Catalog} {m : Type → Type} [Monad m]

/-- One more entry of the journal. -/
def note (event : SaveEvent) : Saving c m Unit :=
  modify fun s => { s with journal := s.journal ++ [event] }

/-- The answer of the database. -/
def ask {α : Type} (answer : m (Except ExecutionError α)) : Saving c m α := do
  match ← ExceptT.lift (StateT.lift answer) with
  | .ok a => return a
  | .error why => throw (.execution why)

/-- A part that can fail by itself. -/
def ofCatalog {α : Type} (x : Except CatalogError α) : Saving c m α :=
  match x with
  | .ok a => return a
  | .error why => throw (.catalog why)

/-- A value of a node changed. -/
def setAt (id : NodeId) (i : Nat) (v : Value) : Saving c m Unit :=
  modify fun s => { s with graph := s.graph.setAt id i v }

/-- A row sent as an insertion. -/
def insertRow (s : Session c m) (id : NodeId) (n : Node c) : Saving c m Unit := do
  let statement := n.entity.insertion s.dialect n.values
  note (.insert id n.values)
  discard <| ask (s.database.execute statement.sql statement.values)

/-- A row sent as an update. -/
def updateRow (s : Session c m) (id : NodeId) (n : Node c) : Saving c m Unit := do
  let statement ← ofCatalog (n.entity.updateByKey s.dialect n.values)
  note (.update id n.values)
  discard <| ask (s.database.execute statement.sql statement.values)

/-- A row inserted for its generated key. -/
def insertForKey (s : Session c m) (id : NodeId) (n : Node c) : Saving c m Unit := do
  let statement ← ofCatalog (n.entity.insertionWithKey s.dialect n.values)
  note (.insert id n.values)
  match ← ask (s.database.scalar statement.sql statement.values) with
  | some key =>
    if key.isNull then throw (.missingGeneratedKey n.entity.name)
    let keyed ← ofCatalog (n.setKey key)
    modify fun s => { s with graph := s.graph.put id keyed }
  | none => throw (.missingGeneratedKey n.entity.name)

/-- A row updated if it is there, and else inserted. -/
def insertOrUpdate (s : Session c m) (id : NodeId) (n : Node c) : Saving c m Unit := do
  let probe ← ofCatalog (n.entity.countByKey s.dialect n.key)
  let count ← ask (s.database.scalar probe.sql probe.values)
  if ((count.bind Value.asInt?).getD 0).toInt > 0 then updateRow s id n else insertRow s id n

/-- The first write of a node. -/
def persist (s : Session c m) (id : NodeId) : Saving c m Unit := do
  let some n := (← get).graph.node? id | return
  note (.persist id)
  let key ← ofCatalog n.entity.requireKey
  if (n.entity.fieldAt key).isGenerated && n.key.isUnassignedKey then insertForKey s id n
  else insertOrUpdate s id n

/-- A later write of a node. -/
def update (s : Session c m) (id : NodeId) : Saving c m Unit := do
  let some n := (← get).graph.node? id | return
  updateRow s id n

/-- The keys of children that have one, taken over by the parent that holds them. -/
def linkKeyedChildren {e : Entity} (id : NodeId) (plan : Plan c e) : Saving c m Unit := do
  let g := (← get).graph
  match plan.link with
  | .childHoldsKey _ => return
  | .parentHoldsKey field =>
    match (g.children id plan.reference.name).head? with
    | none => return
    | some child =>
      unless (g.key child).isUnassignedKey do setAt id field (g.key child)

/-- The key of a saved child, taken over by the parent that holds it; whether the parent changed. -/
def takeChildKey (id : NodeId) (field : Nat) (child : NodeId) : Saving c m Bool := do
  let g := (← get).graph
  let key := g.key child
  if key.isUnassignedKey || (g.valueAt id field).same key then return false
  setAt id field key
  return true

/-- A child that holds its parent's key: saved with the key, or brought up to date. -/
def saveChild (s : Session c m) (save : NodeId → Saving c m Unit) (key : Value) (field : Nat)
    (child : NodeId) : Saving c m Unit := do
  let state ← get
  if child ∈ state.visited then
    unless (state.graph.valueAt child field).same key do
      setAt child field key
      update s child
  else
    setAt child field key
    save child

/-- What is attached to a reference saved; whether the parent has to be updated for it. -/
def saveReference {e : Entity} (s : Session c m) (save : NodeId → Saving c m Unit) (id : NodeId)
    (plan : Plan c e) : Saving c m Bool := do
  let state ← get
  let children := state.graph.children id plan.reference.name
  match plan.link with
  | .childHoldsKey field =>
    children.forM (saveChild s save (state.graph.key id) field)
    return false
  | .parentHoldsKey field =>
    match children.head? with
    | none => return false
    | some child =>
      unless child ∈ state.visited do save child
      takeChildKey id field child

/-- A node that is visited for the first time, and with its references what hangs on it. -/
def saveVisited (s : Session c m) (withReferences : Bool) (save : NodeId → Saving c m Unit)
    (id : NodeId) (n : Node c) : Saving c m Unit := do
  let plans ← match n.entity.plans c (if withReferences then .all else .nothing) with
    | .ok plans => pure plans
    | .error why => throw why
  plans.forM (linkKeyedChildren id)
  persist s id
  let changes ← plans.mapM (saveReference s save id)
  if changes.any (·) then update s id

/-- A node visited, unless it has been before; what hangs on it is saved by `save`. -/
def visit (s : Session c m) (withReferences : Bool) (save : NodeId → Saving c m Unit)
    (id : NodeId) : Saving c m Unit := do
  let state ← get
  match state.graph.node? id with
  | none => return
  | some n =>
    if id ∈ state.visited then return
    set { state with visited := state.visited ++ [id] }
    saveVisited s withReferences save id n

/-- A node saved, with calls that are nested at most `fuel` deep. -/
def saveNode (s : Session c m) (withReferences : Bool) : (fuel : Nat) → NodeId → Saving c m Unit
  | 0, _ => return
  | fuel + 1, id => visit s withReferences (saveNode s withReferences fuel) id

end Saving

namespace Session

variable {c : Catalog} {m : Type → Type} [Monad m]

/-- Several nodes saved in one call, with all that can be reached from them if asked for. -/
def saveAll (s : Session c m) (g : Graph c) (roots : List NodeId) (withReferences : Bool) :
    m (Except GraphError Unit × SaveState c) :=
  (roots.forM (Saving.saveNode s withReferences g.nodes.length)).run.run ⟨g, [], []⟩

/-- One node saved, with all that can be reached from it if asked for. -/
def save (s : Session c m) (g : Graph c) (root : NodeId) (withReferences : Bool) :
    m (Except GraphError Unit × SaveState c) :=
  s.saveAll g [root] withReferences

end Session

end RowGraph
