import RowGraph.Proofs.Graph.Attaching
import RowGraph.Proofs.Load.Rows

/-!
# What graphs show

Loading adds nodes, and where they stand depends on how many queries were made. What a caller sees
of a node does not: its type, its values, and under each reference the rows of the nodes that are
attached, in order.

* `Graph.shown`: what is seen of a node.
* `Similar`: two graphs show the same of their first nodes. It is kept by nodes added on either side
  and by attaching what shows the same (`extend_left`, `similar_attach`).
-/

namespace RowGraph

variable {c : Catalog}

/-- What is attached to a reference, by the rows of the nodes. -/
inductive AttachedRows
  | single (row : Option (EntityType × List Value))
  | many (rows : List (Option (EntityType × List Value)))
deriving DecidableEq

namespace Graph

/-- The type and the values of a node. -/
def row? (g : Graph c) (id : NodeId) : Option (EntityType × List Value) :=
  (g.node? id).map fun n => (n.type, n.values)

end Graph

theorem Graph.isSome_row? (g : Graph c) (id : NodeId) :
    (g.row? id).isSome = true ↔ id < g.nodes.length := by
  rw [row?, Option.isSome_map, node?]
  simp

/-- The rows of attached nodes. -/
def Attached.rows (g : Graph c) : Attached → AttachedRows
  | .single child => .single (g.row? child)
  | .many children => .many (children.map g.row?)

namespace Graph

/-- What is seen of a node: its type and values, and under the names of its references the rows of
what is attached. -/
def shown (g : Graph c) (id : NodeId) :
    Option (EntityType × List Value × List (String × AttachedRows)) :=
  (g.node? id).map fun n => (n.type, n.values, n.references.map fun r => (r.1, r.2.rows g))

/-- What is attached to nodes of the graph are nodes of the graph. -/
def Closed (g : Graph c) : Prop :=
  ∀ id n, g.node? id = some n → ∀ r ∈ n.references, ∀ child ∈ r.2.children,
    child < g.nodes.length

theorem node?_extend {g : Graph c} {id : NodeId} (h : id < g.nodes.length)
    (more : List (Node c)) : (g.extend more).node? id = g.node? id :=
  List.getElem?_append_left h

theorem row?_extend {g : Graph c} {id : NodeId} (h : id < g.nodes.length) (more : List (Node c)) :
    (g.extend more).row? id = g.row? id := by
  rw [row?, row?, node?_extend h]

theorem closed_extend {g : Graph c} (hg : g.Closed) {more : List (Node c)}
    (h : ∀ n ∈ more, n.references = []) : (g.extend more).Closed := by
  intro id n hn r hr child hc
  rw [length_nodes_extend]
  rcases Nat.lt_or_ge id g.nodes.length with hid | hid
  · rw [node?_extend hid] at hn
    exact Nat.lt_add_right _ (hg id n hn r hr child hc)
  · have hn : (g.nodes ++ more)[id]? = some n := hn
    rw [List.getElem?_append_right hid] at hn
    rw [h n (List.mem_of_getElem? hn)] at hr
    cases hr

end Graph

theorem Attached.rows_congr {g g' : Graph c} {a : Attached}
    (h : ∀ child ∈ a.children, g'.row? child = g.row? child) : a.rows g' = a.rows g := by
  cases a with
  | single child => simp [rows, h child List.mem_cons_self]
  | many children => exact congrArg AttachedRows.many (List.map_congr_left h)

namespace Graph

theorem shown_extend {g : Graph c} (hg : g.Closed) {id : NodeId} (h : id < g.nodes.length)
    (more : List (Node c)) : (g.extend more).shown id = g.shown id := by
  rw [shown, shown, node?_extend h]
  cases hn : g.node? id with
  | none => rfl
  | some n =>
    have hrows : ∀ r ∈ n.references, r.2.rows (g.extend more) = r.2.rows g := fun r hr =>
      Attached.rows_congr fun child hc => row?_extend (hg id n hn r hr child hc) more
    simp only [Option.map_some, Option.some.injEq, Prod.mk.injEq, true_and]
    exact List.map_congr_left fun r hr => by rw [hrows r hr]

end Graph

/-! ## Attaching -/

namespace Graph

variable {g : Graph c} {id : NodeId} {n : Node c}

theorem node?_put (hn : g.node? id = some n) (m : Node c) (other : NodeId) :
    (g.put id m).node? other = if id = other then some m else g.node? other := by
  rw [put, node?_modify]
  split
  · next h =>
    subst h
    rw [hn]
    rfl
  · rfl

/-- Other references leave the row of every node. -/
theorem row?_put (hn : g.node? id = some n) (references : List (String × Attached))
    (other : NodeId) : (g.put id (n.withReferences references)).row? other = g.row? other := by
  rw [row?, row?, node?_put hn]
  split
  · next h =>
    subst h
    simp [hn, Node.withReferences]
  · rfl

theorem shown_put (hn : g.node? id = some n) (references : List (String × Attached))
    (other : NodeId) :
    (g.put id (n.withReferences references)).shown other =
      if id = other then
        some (n.type, n.values, references.map fun r => (r.1, r.2.rows g))
      else g.shown other := by
  have hrows : ∀ a : Attached, a.rows (g.put id (n.withReferences references)) = a.rows g :=
    fun a => Attached.rows_congr fun child _ => row?_put hn references child
  simp only [shown, hrows, node?_put hn]
  split
  · rfl
  · rfl

theorem closed_put (hg : g.Closed) {references : List (String × Attached)}
    (h : ∀ r ∈ references, ∀ child ∈ r.2.children, child < g.nodes.length) :
    (g.put id (n.withReferences references)).Closed := by
  intro other m hm r hr child hc
  rw [put, length_nodes_modify]
  rw [put, node?_modify] at hm
  split at hm
  · obtain ⟨m', -, rfl⟩ := Option.map_eq_some_iff.mp hm
    exact h r hr child hc
  · exact hg other m hm r hr child hc

/-- Nodes of the graph attached to a node keep it closed. -/
theorem closed_attach (hg : g.Closed) (hn : g.node? id = some n) (name : String) {a : Attached}
    (h : ∀ child ∈ a.children, child < g.nodes.length) :
    (g.put id (n.withReferences (Node.without name n.references ++ [(name, a)]))).Closed := by
  refine closed_put hg fun r hr => ?_
  rcases List.mem_append.mp hr with hr | hr
  · exact hg id n hn r (Node.mem_of_mem_without hr)
  · rw [List.mem_singleton.mp hr]
    exact h

end Graph

/-- Two graphs show the same of the first `size` nodes. -/
structure Similar (size : Nat) (a b : Graph c) : Prop where
  leftSize : size ≤ a.nodes.length
  rightSize : size ≤ b.nodes.length
  leftClosed : a.Closed
  rightClosed : b.Closed
  shown : ∀ id < size, a.shown id = b.shown id

namespace Similar

variable {size : Nat} {a b : Graph c}

theorem refl {g : Graph c} (hg : g.Closed) : Similar g.nodes.length g g :=
  ⟨Nat.le_refl _, Nat.le_refl _, hg, hg, fun _ _ => rfl⟩

theorem symm (h : Similar size a b) : Similar size b a :=
  ⟨h.rightSize, h.leftSize, h.rightClosed, h.leftClosed, fun id hid => (h.shown id hid).symm⟩

/-- New nodes are not seen from those that are there. -/
theorem extend_left (h : Similar size a b) {more : List (Node c)}
    (hm : ∀ n ∈ more, n.references = []) : Similar size (a.extend more) b := by
  refine ⟨?_, h.rightSize, Graph.closed_extend h.leftClosed hm, h.rightClosed, fun id hid => ?_⟩
  · rw [Graph.length_nodes_extend]
    exact Nat.le_add_right_of_le h.leftSize
  · rw [Graph.shown_extend h.leftClosed (Nat.lt_of_lt_of_le hid h.leftSize)]
    exact h.shown id hid

theorem extend_right (h : Similar size a b) {more : List (Node c)}
    (hm : ∀ n ∈ more, n.references = []) : Similar size a (b.extend more) :=
  (h.symm.extend_left hm).symm

/-- Nodes that show the same differ at most in which nodes are attached. -/
theorem node? (h : Similar size a b) {id : NodeId} (hid : id < size) {n : Node c}
    (hn : a.node? id = some n) :
    ∃ m, b.node? id = some m ∧ m.type = n.type ∧ m.values = n.values ∧
      m.references.map (fun r => (r.1, r.2.rows b)) =
        n.references.map (fun r => (r.1, r.2.rows a)) := by
  have hs := h.shown id hid
  rw [Graph.shown, Graph.shown, hn, Option.map_some, eq_comm, Option.map_eq_some_iff] at hs
  obtain ⟨m, hm, heq⟩ := hs
  simp only [Prod.mk.injEq] at heq
  exact ⟨m, hm, heq⟩

theorem row? (h : Similar size a b) {id : NodeId} (hid : id < size) : a.row? id = b.row? id := by
  have hs := congrArg (Option.map fun n => (n.1, n.2.1)) (h.shown id hid)
  rwa [Graph.shown, Graph.shown, Option.map_map, Option.map_map] at hs

end Similar

namespace Loading

open Process

variable {σ : Type}

theorem outcome_attach (id : NodeId) (name : String) (x : Attached) (g : Graph c) (w : σ) :
    outcome (attach id name x : Loading c (StateM σ) Unit) g w =
      match g.node? id with
      | none => ((.ok (), g), w)
      | some n => match n.entity.reference? name with
        | some r => ((.ok (), g.put id
            (n.withReferences (Node.without r.name n.references ++ [(r.name, x)]))), w)
        | none => ((.error (.catalog (.unknownReference n.entity.name name)), g), w) := by
  rw [attach, outcome_get_bind]
  cases hn : g.node? id with
  | none => rfl
  | some n =>
    dsimp only
    rw [Node.attach_eq]
    cases n.entity.reference? name <;> rfl

/-- Attaching leaves the rows of all nodes. -/
theorem row?_after_attach (id : NodeId) (name : String) (x : Attached) (g : Graph c) (w : σ)
    (other : NodeId) :
    (after (attach id name x : Loading c (StateM σ) Unit) g w).row? other = g.row? other := by
  rw [after, outcome_attach]
  cases hn : g.node? id with
  | none => rfl
  | some n =>
    dsimp only
    cases n.entity.reference? name with
    | none => rfl
    | some r => exact Graph.row?_put hn _ other

/-- What shows the same attached under one name: both fail, or both graphs show the same again. -/
theorem similar_attach {size : Nat} {a b : Graph c} (h : Similar size a b) {id : NodeId}
    (hid : id < size) (name : String) {x y : Attached} (hrows : x.rows a = y.rows b)
    (hx : ∀ child ∈ x.children, child < a.nodes.length)
    (hy : ∀ child ∈ y.children, child < b.nodes.length) (w v : σ) :
    (outcome (attach id name x : Loading c (StateM σ) Unit) a w).1.1 =
      (outcome (attach id name y : Loading c (StateM σ) Unit) b v).1.1 ∧
    Similar size (after (attach id name x : Loading c (StateM σ) Unit) a w)
      (after (attach id name y : Loading c (StateM σ) Unit) b v) := by
  obtain ⟨n, hn⟩ : ∃ n, a.node? id = some n :=
    ⟨_, List.getElem?_eq_getElem (Nat.lt_of_lt_of_le hid h.leftSize)⟩
  obtain ⟨m, hm, htype, hvalues, hreferences⟩ := h.node? hid hn
  have he : m.entity = n.entity := congrArg c.entity htype
  rw [after, after, outcome_attach, outcome_attach, hn, hm]
  dsimp only
  rw [he]
  cases n.entity.reference? name with
  | none => exact ⟨rfl, h⟩
  | some r =>
    refine ⟨rfl, ?_, ?_, Graph.closed_attach h.leftClosed hn r.name hx,
      Graph.closed_attach h.rightClosed hm r.name hy, fun other hother => ?_⟩
    · simpa [Graph.put] using h.leftSize
    · simpa [Graph.put] using h.rightSize
    · rw [Graph.shown_put hn, Graph.shown_put hm]
      split
      · rw [htype, hvalues, List.map_append, List.map_append, Node.map_without, Node.map_without,
          hreferences, List.map_singleton, List.map_singleton, hrows]
      · exact h.shown other hother

end Loading

end RowGraph
