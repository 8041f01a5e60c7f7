import RowGraph.ColumnPlan
import RowGraph.Graph.Session
import RowGraph.Query.Statements

/-!
# Loading graphs

The rows of a query become nodes, and the references that are asked for are filled with one query
for each batch of keys, never one for each row. Parents are matched with children by match keys: a
parent asks with its primary key where the child holds the key, and with the field that holds the
child's key otherwise. A parent whose key is null asks for nothing and keeps what it has.

Main statements: `flatten_batches` (no key is lost or moved) and `mem_distinctKeys`.

Modelled: `load_select` (`load`), `load_single_by_id` (`loadByKey`) and `load_references`, with
`root_statement`, `by_id_query`, `materialize`, `parent_key`, `child_key_field`,
`reference_statements` and `stitch`.

Left out: that other holders of a node may change it while its references are loaded.
-/

namespace RowGraph

/-- The items in groups of at most `size`, the last one with what is left; `0` counts as `1`. -/
def batches {α : Type} (size : Nat) : List α → List (List α)
  | [] => []
  | a :: rest => (a :: rest.take (size - 1)) :: batches size (rest.drop (size - 1))
termination_by items => items.length
decreasing_by simp only [List.length_cons, List.length_drop]; omega

/-- The batches put together are the items. -/
theorem flatten_batches {α : Type} (size : Nat) (items : List α) :
    (batches size items).flatten = items := by
  induction items using batches.induct size with
  | case1 => simp [batches]
  | case2 a rest ih => simp [batches, ih]

/-- The keys that match something, without those that match one before them. -/
def distinctKeys (ignoreCase : Bool) : (seen : List String) → List Value → List Value
  | _, [] => []
  | seen, v :: rest =>
    match v.matchKey ignoreCase with
    | none => distinctKeys ignoreCase seen rest
    | some key =>
      if key ∈ seen then distinctKeys ignoreCase seen rest
      else v :: distinctKeys ignoreCase (key :: seen) rest

/-- A distinct key is one of the values, and matches something that was not seen before. -/
theorem mem_distinctKeys {ignoreCase : Bool} {seen : List String} {v : Value} {values : List Value}
    (h : v ∈ distinctKeys ignoreCase seen values) :
    v ∈ values ∧ ∃ key, v.matchKey ignoreCase = some key ∧ key ∉ seen := by
  induction values generalizing seen with
  | nil => simp [distinctKeys] at h
  | cons w rest ih =>
    simp only [distinctKeys] at h
    split at h
    · exact ⟨List.mem_cons_of_mem _ (ih h).1, (ih h).2⟩
    · next key hk =>
      split at h
      · exact ⟨List.mem_cons_of_mem _ (ih h).1, (ih h).2⟩
      · next hs =>
        rcases List.mem_cons.1 h with rfl | h
        · exact ⟨List.mem_cons_self, key, hk, hs⟩
        · obtain ⟨hm, k, hk', hn⟩ := ih h
          exact ⟨List.mem_cons_of_mem _ hm, k, hk', fun hc => hn (List.mem_cons_of_mem _ hc)⟩

namespace Plan

variable {c : Catalog} {e : Entity}

/-- The value by which a parent is matched. -/
def parentKey (p : Plan c e) (g : Graph c) (parent : NodeId) : Value :=
  match p.link with
  | .childHoldsKey _ => g.key parent
  | .parentHoldsKey field => g.valueAt parent field

/-- The field of the child by which it is matched. -/
def childField (p : Plan c e) : Except GraphError (Fin p.child.fields.length) :=
  match p.link with
  | .childHoldsKey field => .ok field
  | .parentHoldsKey _ =>
    match p.child.requireKey with
    | .ok field => .ok field
    | .error why => .error (.catalog why)

/-- The condition that a field of the child is one of these keys. -/
def keyCondition (p : Plan c e) (ignoreCase : Bool) (field : Field) (keys : List Value) : Expr :=
  let column := Expr.column ⟨p.reference.target, field.name⟩
  if ignoreCase && field.type.isTextual then
    .isIn column.lower (.values (some (keys.map Value.lowered)))
  else .isIn column (.values (some keys))

end Plan

/-- A query with one more condition that reads no captured value. -/
def Query.restricted {c : Catalog} (condition : Expr) (q : Query c) :
    Except QueryError (Query c) :=
  match (Call.filter .and condition).apply ⟨fun _ _ => .null, id⟩ q with
  | (.ok _, q) => .ok q
  | (.error why, _) => .error why

namespace Session

variable {c : Catalog} {e : Entity} {m : Type → Type}

/-- The statement for the children with some of the keys. -/
def batchStatement (s : Session c m) (p : Plan c e) (field : Field) (keys : List Value) :
    Except QueryError Statement := do
  let q ← (Query.ofRoot s.dialect ⟨p.reference.target, none⟩).filtered s.filters
  let q ← q.restricted (p.keyCondition s.settings.caseInsensitive field keys)
  return q.selectStatement

/-- The statements for the children of these parents; none if no parent has a key. -/
def referenceStatements (s : Session c m) (p : Plan c e) (g : Graph c) (parents : List NodeId) :
    Except GraphError (List Statement) := do
  match distinctKeys s.settings.caseInsensitive [] (parents.map (p.parentKey g)) with
  | [] => return []
  | keys =>
    let field ← p.childField
    (batches s.settings.inBatchSize keys).mapM fun batch =>
      (s.batchStatement p (p.child.fieldAt field) batch).mapError .query

/-- The statement for the rows of a query, which has to be over whole entities. -/
def rootStatement (s : Session c m) (q : Query c) : Except GraphError Statement := do
  if q.shape ≠ .entity then throw (.notEntityProjection q.rootEntity.name)
  match q.filtered s.filters with
  | .ok q => return q.selectStatement
  | .error why => throw (.query why)

/-- The query for the row with a key. -/
def byKeyQuery (s : Session c m) (type : EntityType) (key : Value) :
    Except GraphError (Query c) := do
  let entity := c.entity type
  match entity.requireKey with
  | .error why => throw (.catalog why)
  | .ok i =>
    let column := Expr.column ⟨type, (entity.fieldAt i).name⟩
    ((Query.ofRoot s.dialect ⟨type, none⟩).restricted
      (.compare .eq column (.literal key))).mapError .query

end Session

/-- A computation that loads; the graph is kept when it fails. -/
abbrev Loading (c : Catalog) (m : Type → Type) := ExceptT GraphError (StateT (Graph c) m)

namespace Loading

variable {c : Catalog} {e : Entity} {m : Type → Type} [Monad m]

/-- The rows that the database answers with. -/
def query (s : Session c m) (statement : Statement) : Loading c m (List Row) := do
  match ← ExceptT.lift (StateT.lift (s.database.query statement.sql statement.values)) with
  | .ok rows => return rows
  | .error why => throw (.execution why)

/-- One more node. -/
def add (n : Node c) : Loading c m NodeId := do
  let g ← get
  set (g.add n)
  return g.nodes.length

/-- Rows as new nodes of an entity. -/
def materialize (s : Session c m) (type : EntityType) (rows : List Row) :
    Loading c m (List NodeId) := do
  match (c.entity type).readRows s.settings.strictColumnMapping rows with
  | .ok rows => rows.mapM fun values => add (.ofValues type values)
  | .error why => throw (.mapping why)

/-- Something attached to a reference of a node. -/
def attach (id : NodeId) (name : String) (a : Attached) : Loading c m Unit := do
  let g ← get
  let some n := g.node? id | return
  match n.attach name a with
  | .ok n => set (g.put id n)
  | .error why => throw (.catalog why)

/-- The children that match a parent attached to it. A parent that has no key, or that has no child
for a reference to one, keeps what it has. -/
def stitchParent (ignoreCase : Bool) (p : Plan c e) (field : Nat) (children : List NodeId)
    (parent : NodeId) : Loading c m Unit := do
  let g ← get
  let key := (p.parentKey g parent).matchKey ignoreCase
  if key.isNone then return
  let found := children.filter fun child => (g.valueAt child field).matchKey ignoreCase == key
  match p.reference.cardinality, found with
  | .many, found => attach parent p.reference.name (.many found)
  | .one, first :: _ => attach parent p.reference.name (.single first)
  | .one, [] => return

/-- Children attached to their parents. -/
def stitch (ignoreCase : Bool) (p : Plan c e) (parents children : List NodeId) :
    Loading c m Unit := do
  match p.childField with
  | .ok field => parents.forM (stitchParent ignoreCase p field children)
  | .error why => throw why

/-- One reference of these parents filled. -/
def loadReference (s : Session c m) (parents : List NodeId) (p : Plan c e) : Loading c m Unit := do
  match s.referenceStatements p (← get) parents with
  | .error why => throw why
  | .ok statements =>
    let children ← statements.mapM fun statement => do
      materialize s p.reference.target (← query s statement)
    stitch s.settings.caseInsensitive p parents children.flatten

/-- The references of these parents filled; those of the first one say which there are. -/
def loadReferences (s : Session c m) (parents : List NodeId) (selection : Include) :
    Loading c m Unit := do
  let some first := parents.head? | return
  let some n := (← get).node? first | return
  match n.entity.plans c selection with
  | .ok plans => plans.forM (loadReference s parents)
  | .error why => throw why

/-- The rows of a query as nodes, with the references that are asked for. -/
def loadQuery (s : Session c m) (type : EntityType) (statement : Statement) (selection : Include) :
    Loading c m (List NodeId) := do
  let ids ← materialize s type (← query s statement)
  loadReferences s ids selection
  return ids

end Loading

namespace Session

variable {c : Catalog} {m : Type → Type} [Monad m]

/-- References of nodes of one entity filled. -/
def loadReferences (s : Session c m) (g : Graph c) (parents : List NodeId) (selection : Include) :
    m (Except GraphError Unit × Graph c) :=
  (Loading.loadReferences s parents selection).run.run g

/-- The rows of a query as new nodes, with the references that are asked for. -/
def load (s : Session c m) (q : Query c) (g : Graph c) (selection : Include) :
    m (Except GraphError (List NodeId) × Graph c) :=
  match s.rootStatement q with
  | .ok statement => (Loading.loadQuery s q.root.entity statement selection).run.run g
  | .error why => pure (.error why, g)

/-- The row with a key as a new node, if there is one, with the references that are asked for. -/
def loadByKey (s : Session c m) (type : EntityType) (key : Value) (g : Graph c)
    (selection : Include) : m (Except GraphError (Option NodeId) × Graph c) :=
  match s.byKeyQuery type key with
  | .ok q => do
    let (result, g) ← s.load q g selection
    return (result.map List.head?, g)
  | .error why => pure (.error why, g)

end Session

end RowGraph
