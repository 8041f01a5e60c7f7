import RowGraph.Proofs.Save.Steps

/-!
# What the plans of a node ask for

A plan of a node leads to nodes that are saved along with it, and asks that the field that keeps the
reference holds a key: the field of each child holds the key of the parent, or the field of the
parent the key of the first child. Both depend on the frame of the graph alone.

* `planned`, `holdings`: where the plans of a node lead, and what they ask for.
* `Consistent`: what the plans ask for in a part of the graph can be had.
* `Region`: such a part that the plans do not lead out of.
-/

namespace RowGraph

variable {c : Catalog}

/-- A field that a plan asks to hold a key: the field of `holder`, and the key of `owner`. -/
structure Holding where
  holder : NodeId
  field : Nat
  owner : NodeId
deriving DecidableEq

namespace Plan

variable {e : Entity}

/-- Which of the attached nodes are saved along with the parent. -/
def targets (p : Plan c e) (children : List NodeId) : List NodeId :=
  match p.link with
  | .childHoldsKey _ => children
  | .parentHoldsKey _ => children.head?.toList

/-- What the plan asks for when these nodes are attached to a parent. -/
def holdings (p : Plan c e) (parent : NodeId) (children : List NodeId) : List Holding :=
  match p.link with
  | .childHoldsKey field => children.map fun child => ⟨child, field, parent⟩
  | .parentHoldsKey field => children.head?.toList.map fun child => ⟨parent, field, child⟩

/-- A plan asks for a key of, or leads to, the parent itself and one of the attached nodes. -/
theorem mem_holdings {p : Plan c e} {parent : NodeId} {children : List NodeId} {h : Holding} :
    h ∈ p.holdings parent children ↔
      (∃ field child, p.link = .childHoldsKey field ∧ child ∈ children ∧
        h = ⟨child, field, parent⟩) ∨
      ∃ field child, p.link = .parentHoldsKey field ∧ children.head? = some child ∧
        h = ⟨parent, field, child⟩ := by
  cases hl : p.link with
  | childHoldsKey field => simp [holdings, hl, eq_comm]
  | parentHoldsKey field => simp [holdings, hl, eq_comm]

end Plan

namespace Entity

/-- What is found along the plans of an entity, by what is attached to its references; nothing where
the plans cannot be made. -/
def alongPlans {α : Type} (e : Entity) (c : Catalog)
    (f : {e : Entity} → Plan c e → List NodeId → List α) (children : String → List NodeId) :
    List α :=
  match e.plans c .all with
  | .ok plans => plans.flatMap fun p => f p (children p.reference.name)
  | .error _ => []

end Entity

namespace Graph

/-- What is found along the plans of a node. -/
def alongPlans {α : Type} (g : Graph c) (f : {e : Entity} → Plan c e → List NodeId → List α)
    (id : NodeId) : List α :=
  match g.node? id with
  | some n => n.entity.alongPlans c f (g.children id)
  | none => []

/-- The nodes that the plans of a node lead to. -/
def planned (g : Graph c) (id : NodeId) : List NodeId := g.alongPlans Plan.targets id

/-- What the plans of a node ask for. -/
def holdings (g : Graph c) (id : NodeId) : List Holding := g.alongPlans (Plan.holdings · id) id

/-- Some plan of the first node leads to the second. -/
def Leads (g : Graph c) (id target : NodeId) : Prop := target ∈ g.planned id

section AlongPlans

variable {α : Type} {f : {e : Entity} → Plan c e → List NodeId → List α} {g g' : Graph c}
  {id : NodeId}

theorem alongPlans_of_frame (h : g'.frame = g.frame) : g'.alongPlans f id = g.alongPlans f id := by
  cases hn : g.node? id with
  | none => simp [alongPlans, hn, node?_eq_none_of_frame h hn]
  | some n =>
    obtain ⟨n', hn', ht, -⟩ := node?_of_frame h hn
    have he : n'.entity = n.entity := congrArg c.entity ht
    simp only [alongPlans, hn, hn', he, funext (children_of_frame h id)]

theorem alongPlans_of_plans {n : Node c} {plans : List (Plan c n.entity)}
    (hn : g.node? id = some n) (hp : n.entity.plans c .all = .ok plans) :
    g.alongPlans f id = plans.flatMap fun p => f p (g.children id p.reference.name) := by
  rw [alongPlans, hn]
  dsimp only
  rw [Entity.alongPlans, hp]

theorem mem_alongPlans {a : α} : a ∈ g.alongPlans f id ↔
    ∃ n, g.node? id = some n ∧ ∃ plans, n.entity.plans c .all = .ok plans ∧
      ∃ p ∈ plans, a ∈ f p (g.children id p.reference.name) := by
  constructor
  · intro h
    cases hn : g.node? id with
    | none => simp [alongPlans, hn] at h
    | some n =>
      cases hp : n.entity.plans c .all with
      | error why => simp [alongPlans, hn, Entity.alongPlans, hp] at h
      | ok plans =>
        rw [alongPlans_of_plans hn hp] at h
        exact ⟨n, rfl, plans, hp, List.mem_flatMap.mp h⟩
  · rintro ⟨n, hn, plans, hp, hmem⟩
    rw [alongPlans_of_plans hn hp]
    exact List.mem_flatMap.mpr hmem

/-- What is found along one plan of a node, whose plans are made in another graph of the frame. -/
theorem mem_alongPlans_of_plan {n : Node c} {plans : List (Plan c n.entity)}
    (h : g'.frame = g.frame) (hn : g'.node? id = some n) (hp : n.entity.plans c .all = .ok plans)
    {p : Plan c n.entity} (hmem : p ∈ plans) {a : α}
    (ha : a ∈ f p (g.children id p.reference.name)) : a ∈ g.alongPlans f id := by
  rw [← alongPlans_of_frame h, mem_alongPlans]
  exact ⟨n, hn, plans, hp, p, hmem, by rwa [children_of_frame h]⟩

end AlongPlans

theorem isSome_of_mem_planned {g : Graph c} {id target : NodeId} (h : target ∈ g.planned id) :
    (g.node? id).isSome := by
  obtain ⟨n, hn, -⟩ := mem_alongPlans.mp h
  rw [hn]
  rfl

/-- The place of a node's primary key among its values. -/
def keyPlace? (g : Graph c) (id : NodeId) : Option Nat :=
  (g.node? id).bind fun n => n.entity.primaryKey.map Fin.val

section KeyPlace

variable {g g' : Graph c} {id : NodeId}

theorem keyPlace?_of_node {n : Node c} (hn : g.node? id = some n) :
    g.keyPlace? id = n.entity.primaryKey.map Fin.val := by
  rw [keyPlace?, hn]
  rfl

theorem keyPlace?_of_frame (h : g'.frame = g.frame) (id : NodeId) :
    g'.keyPlace? id = g.keyPlace? id := by
  cases hn : g.node? id with
  | none => rw [keyPlace?, keyPlace?, hn, node?_eq_none_of_frame h hn]
  | some n =>
    obtain ⟨n', hn', type, -⟩ := node?_of_frame h hn
    have entity : n'.entity = n.entity := congrArg c.entity type
    rw [keyPlace?_of_node hn, keyPlace?_of_node hn', entity]

end KeyPlace

/-- In a part of a graph, what is attached has the type that its reference says, no key is itself
asked to hold another, and no field is asked to hold the keys of two nodes. -/
structure Consistent (g : Graph c) (X : NodeId → Prop) : Prop where
  typed : ∀ id n, X id → g.node? id = some n → ∀ r ∈ n.entity.references,
    ∀ child ∈ g.children id r.name, (g.node? child).map Node.type = some r.target
  apart : ∀ id, X id → ∀ h ∈ g.holdings id,
    ((g.node? h.holder).bind fun m => m.entity.primaryKey.map Fin.val) ≠ some h.field
  agree : ∀ id other, X id → X other → ∀ h ∈ g.holdings id, ∀ k ∈ g.holdings other,
    h.holder = k.holder → h.field = k.field → h.owner = k.owner

/-- Besides, the plans do not lead out of it. -/
structure Region (g : Graph c) (X : NodeId → Prop) : Prop extends Consistent g X where
  closed : ∀ id, X id → ∀ target ∈ g.planned id, X target

namespace Region

variable {g : Graph c} {X : NodeId → Prop} {id : NodeId} {h : Holding}

/-- The field that is asked to hold a key is there, in the region. -/
theorem holder (R : g.Region X) (hx : X id) (hh : h ∈ g.holdings id) :
    X h.holder ∧ ∃ m, g.node? h.holder = some m ∧ h.field < m.values.length := by
  obtain ⟨n, hn, plans, hp, p, hmem, hh⟩ := mem_alongPlans.mp hh
  have hr := Entity.reference_mem_of_plans hp hmem
  obtain ⟨field, child, hl, hc, rfl⟩ | ⟨field, child, -, -, rfl⟩ := Plan.mem_holdings.mp hh
  · obtain ⟨m, hm, ht⟩ := Option.map_eq_some_iff.mp (R.typed id n hx hn _ hr child hc)
    refine ⟨R.closed id hx child (mem_alongPlans.mpr ⟨n, hn, plans, hp, p, hmem, ?_⟩), m, hm, ?_⟩
    · simpa [Plan.targets, hl] using hc
    · rw [m.length_values, ht]
      exact field.isLt
  · refine ⟨hx, n, hn, ?_⟩
    rw [n.length_values]
    exact field.isLt

/-- So is the node whose key it is asked to hold. -/
theorem owner (R : g.Region X) (hx : X id) (hh : h ∈ g.holdings id) :
    X h.owner ∧ (g.node? h.owner).isSome := by
  obtain ⟨n, hn, plans, hp, p, hmem, hh⟩ := mem_alongPlans.mp hh
  have hr := Entity.reference_mem_of_plans hp hmem
  obtain ⟨field, child, -, -, rfl⟩ | ⟨field, child, hl, hc, rfl⟩ := Plan.mem_holdings.mp hh
  · exact ⟨hx, by rw [hn]; rfl⟩
  · obtain ⟨m, hm, -⟩ :=
      Option.map_eq_some_iff.mp (R.typed id n hx hn _ hr child (List.mem_of_mem_head? hc))
    refine ⟨R.closed id hx child (mem_alongPlans.mpr ⟨n, hn, plans, hp, p, hmem, ?_⟩),
      by rw [hm]; rfl⟩
    simp [Plan.targets, hl, hc]

/-- The primary key of the holder is another field. -/
theorem primaryKey_ne (R : g.Region X) (hx : X id) (hh : h ∈ g.holdings id) {m : Node c}
    (hm : g.node? h.holder = some m) : m.entity.primaryKey.map Fin.val ≠ some h.field := by
  have hne := R.apart id hx h hh
  rwa [hm, Option.bind_some] at hne

end Region

end Graph

end RowGraph
