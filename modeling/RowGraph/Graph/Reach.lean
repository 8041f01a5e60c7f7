import RowGraph.Graph.Basic

/-!
# Walking through graphs

All nodes that can be reached from some nodes by following references, each one once, in the order
in which a walk in breadth first meets them: the references of a node are followed as its entity
declares them.

Main statements: `mem_addNew` and `nodup_reachable`.

Modelled: no function of the library: the order in which a whole graph is shown.
-/

namespace RowGraph

/-- The items with those of the others that are not there yet, in order. -/
def addNew (met : List NodeId) : List NodeId → List NodeId
  | [] => met
  | id :: rest => addNew (if id ∈ met then met else met ++ [id]) rest

theorem mem_addNew {met others : List NodeId} {id : NodeId} :
    id ∈ addNew met others ↔ id ∈ met ∨ id ∈ others := by
  induction others generalizing met with
  | nil => simp [addNew]
  | cons other rest ih =>
    rw [addNew, ih]
    split <;> grind

theorem nodup_addNew {met others : List NodeId} (h : met.Nodup) : (addNew met others).Nodup := by
  induction others generalizing met with
  | nil => exact h
  | cons other rest ih =>
    rw [addNew]
    split
    · exact ih h
    · next hn =>
      refine ih (List.nodup_append.2 ⟨h, by simp, ?_⟩)
      simp only [List.mem_singleton]
      rintro a ha b rfl rfl
      exact hn ha

namespace Graph

variable {c : Catalog}

/-- The nodes attached to a node, reference by reference. -/
def successors (g : Graph c) (id : NodeId) : List NodeId :=
  match g.node? id with
  | some n => n.entity.references.flatMap fun r => n.children r.name
  | none => []

/-- The nodes met by a walk that has met some and has followed the first `i` of them. -/
def walk (g : Graph c) : (fuel : Nat) → (met : List NodeId) → (i : Nat) → List NodeId
  | 0, met, _ => met
  | fuel + 1, met, i =>
    match met[i]? with
    | some id => walk g fuel (addNew met (g.successors id)) (i + 1)
    | none => met

/-- The nodes that can be reached from these. Every one of them is followed at most once. -/
def reachable (g : Graph c) (roots : List NodeId) : List NodeId :=
  walk g (g.nodes.length + roots.length) (addNew [] roots) 0

theorem nodup_walk (g : Graph c) {fuel : Nat} {met : List NodeId} {i : Nat} (h : met.Nodup) :
    (g.walk fuel met i).Nodup := by
  induction fuel generalizing met i with
  | zero => exact h
  | succ fuel ih =>
    rw [walk]
    split
    · exact ih (nodup_addNew h)
    · exact h

/-- No node is met twice. -/
theorem nodup_reachable (g : Graph c) (roots : List NodeId) : (g.reachable roots).Nodup :=
  g.nodup_walk (nodup_addNew .nil)

end Graph

end RowGraph
