import RowGraph.Entity.Basic
import RowGraph.Text.Printable
import RowGraph.Value.Description

/-!
# Graphs of entities

A node is one row of an entity together with the nodes attached to its references. Nodes belong to a
graph and are known by their place in it, so several references can lead to one node and references
can lead back to where they came from.

A node has exactly one value for each field. Its references are kept under their declared names,
whatever case they are asked for in.

Main statements: `valueAt_setAt` and `length_nodes_modify`.

Modelled: `EntityGraph` with `from_metadata` (`empty`), `from_values`, `get`, `set`, `value_at`,
`set_value_at` (`setAt`), `key`, `set_key`, `set_reference` with `set_one` and `set_many`
(`attach`), `push_many` (`push`), `clear_reference` (`detach`), `one`, `many` and `children`, and
the description of a node.

Left out: that a node is shared memory behind a lock; which node is meant is said by its place.
-/

namespace RowGraph

/-- The place of a node in its graph. -/
abbrev NodeId := Nat

/-- What is attached to a reference. -/
inductive Attached
  | single (child : NodeId)
  | many (children : List NodeId)
deriving DecidableEq, Repr

/-- The nodes that are attached, in order. -/
def Attached.children : Attached → List NodeId
  | .single child => [child]
  | .many children => children

/-- One row of an entity with what is attached to its references. -/
structure Node (c : Catalog) where
  type : EntityType
  values : List Value
  references : List (String × Attached)
  length_values : values.length = (c.entity type).fields.length

namespace Node

variable {c : Catalog}

/-- The entity of the node. -/
def entity (n : Node c) : Entity := c.entity n.type

/-- A row with these values; missing ones are null, and those that are too many are dropped. -/
def ofValues (type : EntityType) (values : List Value) : Node c where
  type := type
  values :=
    let size := (c.entity type).fields.length
    values.take size ++ List.replicate (size - values.length) .null
  references := []
  length_values := by simp; omega

/-- A row of nulls. -/
def empty (type : EntityType) : Node c := ofValues type []

/-! ## Values -/

/-- The value at a place, null where there is none. -/
def valueAt (n : Node c) (i : Nat) : Value := (n.values[i]?).getD .null

/-- The node with another value at a place; where there is none nothing changes. -/
def setAt (n : Node c) (i : Nat) (v : Value) : Node c :=
  { n with values := n.values.set i v, length_values := by simp [n.length_values] }

/-- The value of a field. -/
def get (n : Node c) (field : String) : Except CatalogError Value :=
  (n.entity.requireField field).map fun i => n.valueAt i

/-- The node with another value of a field. -/
def set (n : Node c) (field : String) (v : Value) : Except CatalogError (Node c) :=
  (n.entity.requireField field).map fun i => n.setAt i v

/-- The primary key, null for an entity without one. -/
def key (n : Node c) : Value :=
  match n.entity.primaryKey with
  | some i => n.valueAt i
  | none => .null

/-- The node with another primary key. -/
def setKey (n : Node c) (v : Value) : Except CatalogError (Node c) :=
  n.entity.requireKey.map fun i => n.setAt i v

/-! ## References -/

/-- The declared name of a reference. -/
def requireReference (n : Node c) (name : String) : Except CatalogError String :=
  match n.entity.reference? name with
  | some r => .ok r.name
  | none => .error (.unknownReference n.entity.name name)

/-- What is attached to a reference, if anything. -/
def attached? (n : Node c) (name : String) : Option Attached :=
  (n.references.find? fun r => Text.sameName r.1 name).map Prod.snd

/-- References without the one of a name. -/
def without (name : String) (references : List (String × Attached)) : List (String × Attached) :=
  references.filter fun r => !Text.sameName r.1 name

/-- The node with something attached to a reference in the place of what was there. -/
def attach (n : Node c) (name : String) (a : Attached) : Except CatalogError (Node c) :=
  (n.requireReference name).map fun name =>
    { n with references := without name n.references ++ [(name, a)] }

/-- The node with one more child of a reference to several; a single child is replaced. -/
def push (n : Node c) (name : String) (child : NodeId) : Except CatalogError (Node c) :=
  match n.attached? name with
  | some (.many children) => n.attach name (.many (children ++ [child]))
  | _ => n.attach name (.many [child])

/-- The node with nothing attached to a reference. -/
def detach (n : Node c) (name : String) : Node c :=
  { n with references := without name n.references }

/-- The children of a reference, if it is set. -/
def many? (n : Node c) (name : String) : Option (List NodeId) :=
  (n.attached? name).map Attached.children

/-- The first child of a reference. -/
def one? (n : Node c) (name : String) : Option NodeId :=
  (n.many? name).bind List.head?

/-- The children of a reference; none where it is not set. -/
def children (n : Node c) (name : String) : List NodeId := (n.many? name).getD []

/-- The node in words: references by name alone, since what is attached may lead back. -/
def describe (n : Node c) : String :=
  let names := (n.references.map Prod.fst).mergeSort fun a b => decide (a ≤ b)
  "EntityGraph \x7b entity: " ++ Text.described n.entity.name ++
    ", values: " ++ Text.describedList (n.values.map Value.describe) ++
    ", references: " ++ Text.describedList (names.map Text.described) ++ " \x7d"

/-! ## Laws -/

theorem valueAt_setAt (n : Node c) (i j : Nat) (v : Value) :
    (n.setAt i v).valueAt j = if i = j ∧ j < n.values.length then v else n.valueAt j := by
  simp only [valueAt, setAt, List.getElem?_set]
  by_cases h : i = j
  · subst h
    by_cases hi : i < n.values.length <;> simp [hi]
  · simp [h]

@[simp] theorem type_setAt (n : Node c) (i : Nat) (v : Value) : (n.setAt i v).type = n.type := rfl

@[simp] theorem references_setAt (n : Node c) (i : Nat) (v : Value) :
    (n.setAt i v).references = n.references := rfl

end Node

/-- Nodes by their places. -/
structure Graph (c : Catalog) where
  nodes : List (Node c)

namespace Graph

variable {c : Catalog}

/-- No node. -/
def empty : Graph c := ⟨[]⟩

/-- The node at a place. -/
def node? (g : Graph c) (id : NodeId) : Option (Node c) := g.nodes[id]?

/-- The graph with one more node, whose place is the number of nodes before. -/
def add (g : Graph c) (n : Node c) : Graph c := ⟨g.nodes ++ [n]⟩

/-- The graph with a node changed. -/
def modify (g : Graph c) (id : NodeId) (f : Node c → Node c) : Graph c := ⟨g.nodes.modify id f⟩

/-- The graph with another node at a place. -/
def put (g : Graph c) (id : NodeId) (n : Node c) : Graph c := g.modify id fun _ => n

/-- A value of a node, null where there is none. -/
def valueAt (g : Graph c) (id : NodeId) (i : Nat) : Value :=
  ((g.node? id).map (·.valueAt i)).getD .null

/-- The graph with another value of a node. -/
def setAt (g : Graph c) (id : NodeId) (i : Nat) (v : Value) : Graph c := g.modify id (·.setAt i v)

/-- The primary key of a node, null where there is none. -/
def key (g : Graph c) (id : NodeId) : Value := ((g.node? id).map Node.key).getD .null

/-- The children of a reference of a node. -/
def children (g : Graph c) (id : NodeId) (name : String) : List NodeId :=
  ((g.node? id).map (·.children name)).getD []

@[simp] theorem length_nodes_modify (g : Graph c) (id : NodeId) (f : Node c → Node c) :
    (g.modify id f).nodes.length = g.nodes.length := by
  simp [modify]

theorem node?_modify (g : Graph c) (id other : NodeId) (f : Node c → Node c) :
    (g.modify id f).node? other = if id = other then (g.node? other).map f else g.node? other := by
  simp only [node?, modify, List.getElem?_modify]
  split <;> cases g.nodes[other]? <;> simp

end Graph

end RowGraph
