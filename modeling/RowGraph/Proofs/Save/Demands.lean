import RowGraph.Proofs.Save.Holdings

/-!
# Which keys are demanded of a field

A plan says which way a key goes. A parent hands its key to the children that hold it, whatever the
key is. A parent that holds a child's key takes it over, but only a key that is assigned: until then
it does not know what to hold. So what a node demands of the fields around it depends on the keys
that there are.

* `demands`: what the plans of a node ask for, and which way the key goes.
* `Demand.Due`: what is handed on is due at once, what is taken over when the key is assigned.
* `Supplied`: a field holds a key that is due, of a node whose key is not going to change.
* `Supplied.setAt`: fields stay supplied when a key is written where it is due.
-/

namespace RowGraph

variable {c : Catalog}

/-! ## The same values -/

/-- The same value, or floating-point numbers that are equal as numbers. -/
def Value.Equals (a b : Value) : Prop :=
  a = b ∨ ∃ x y, a = .float x ∧ b = .float y ∧ x.equal y = true

theorem Binary64.equal_trans {x y z : Binary64} (h : x.equal y = true) (k : y.equal z = true) :
    x.equal z = true := by
  cases x <;> cases y <;> cases z <;> simp_all [equal]
  grind

namespace Value

variable {a b d : Value}

theorem Equals.refl (a : Value) : a.Equals a := .inl rfl

theorem equals_of_same (h : a.same b = true) : a.Equals b := by
  unfold Value.same at h
  split at h
  · next x y => exact .inr ⟨x, y, rfl, rfl, h⟩
  · exact .inl (by simpa using h)

theorem Equals.trans (h : a.Equals b) (k : b.Equals d) : a.Equals d := by
  obtain rfl | ⟨x, y, rfl, rfl, h⟩ := h
  · exact k
  · obtain rfl | ⟨y', z, same, rfl, k⟩ := k
    · exact .inr ⟨x, y, rfl, rfl, h⟩
    · cases same
      exact .inr ⟨x, z, rfl, rfl, Binary64.equal_trans h k⟩

end Value

/-! ## One value changed -/

theorem Node.key_setAt (n : Node c) {i : Nat} (h : n.entity.primaryKey.map Fin.val ≠ some i)
    (v : Value) : (n.setAt i v).key = n.key := by
  unfold key
  cases hk : n.entity.primaryKey with
  | none =>
    have hk' : (n.setAt i v).entity.primaryKey = none := hk
    rw [hk']
  | some k =>
    have hk' : (n.setAt i v).entity.primaryKey = some k := hk
    have hne : i ≠ k := fun hi => h (by rw [hk, hi]; rfl)
    rw [hk']
    exact (n.valueAt_setAt i k v).trans (if_neg fun hi => hne hi.1)

namespace Graph

variable {g g' : Graph c} {id other : NodeId} {i j : Nat}

/-- The node is there and has a field in this place. -/
def HasField (g : Graph c) (id : NodeId) (i : Nat) : Prop :=
  ∃ n, g.node? id = some n ∧ i < n.values.length

theorem HasField.of_frame (h : g'.frame = g.frame) (there : g.HasField id i) :
    g'.HasField id i := by
  obtain ⟨n, hn, hi⟩ := there
  obtain ⟨n', hn', type, -⟩ := node?_of_frame h hn
  refine ⟨n', hn', ?_⟩
  rw [n'.length_values, type, ← n.length_values]
  exact hi

theorem valueAt_setAt_self (h : g.HasField id i) (v : Value) :
    (g.setAt id i v).valueAt id i = v := by
  obtain ⟨n, hn, hi⟩ := h
  simp [valueAt, setAt, node?_modify, hn, Node.valueAt_setAt, hi]

theorem valueAt_setAt_of_ne (h : ¬ (id = other ∧ i = j)) (v : Value) :
    (g.setAt id i v).valueAt other j = g.valueAt other j := by
  simp only [valueAt, setAt, node?_modify]
  split
  · next hid =>
    cases g.node? other with
    | none => rfl
    | some n => simp [Node.valueAt_setAt, show i ≠ j from fun hi => h ⟨hid, hi⟩]
  · rfl

/-- Where there is no such field nothing changes. -/
theorem valueAt_setAt_of_not_hasField (h : ¬ g.HasField id i) (v : Value) :
    (g.setAt id i v).valueAt id i = g.valueAt id i := by
  cases hn : g.node? id with
  | none => simp [valueAt, setAt, node?_modify, hn]
  | some n =>
    have short : ¬ i < n.values.length := fun hi => h ⟨n, hn, hi⟩
    simp [valueAt, setAt, node?_modify, hn, Node.valueAt_setAt, short]

/-- A value in another place than a node's key does not change the key. -/
theorem key_setAt (h : id = other → g.keyPlace? other ≠ some i) (v : Value) :
    (g.setAt id i v).key other = g.key other := by
  by_cases hid : id = other
  · subst hid
    cases hn : g.node? id with
    | none => simp [key, setAt, node?_modify, hn]
    | some n =>
      have place := h rfl
      rw [keyPlace?_of_node hn] at place
      simp [key, setAt, node?_modify, hn, n.key_setAt place]
  · simp [key, setAt, node?_modify, hid]

end Graph

/-! ## Demands -/

/-- A field that a plan asks to hold a key, and which way the key goes: the owner hands it on, or
the holder takes it over. -/
structure Demand extends Holding where
  taken : Bool
deriving DecidableEq

/-- A key that is handed on is due at once, and one that is taken over when it is assigned. -/
def Demand.Due (d : Demand) (now : Graph c) : Prop :=
  d.taken = true → (now.key d.owner).isUnassignedKey = false

namespace Plan

variable {e : Entity}

/-- What the plan asks for when these nodes are attached to a parent. -/
def demands (p : Plan c e) (parent : NodeId) (children : List NodeId) : List Demand :=
  match p.link with
  | .childHoldsKey field => children.map fun child => ⟨⟨child, field, parent⟩, false⟩
  | .parentHoldsKey field => children.head?.toList.map fun child => ⟨⟨parent, field, child⟩, true⟩

theorem map_demands (p : Plan c e) (parent : NodeId) (children : List NodeId) :
    (p.demands parent children).map Demand.toHolding = p.holdings parent children := by
  cases hl : p.link with
  | childHoldsKey field => simp [demands, holdings, hl, Function.comp_def]
  | parentHoldsKey field => simp [demands, holdings, hl, Function.comp_def]

theorem mem_demands {p : Plan c e} {parent : NodeId} {children : List NodeId} {d : Demand} :
    d ∈ p.demands parent children ↔
      (∃ field child, p.link = .childHoldsKey field ∧ child ∈ children ∧
        d = ⟨⟨child, field, parent⟩, false⟩) ∨
      ∃ field child, p.link = .parentHoldsKey field ∧ children.head? = some child ∧
        d = ⟨⟨parent, field, child⟩, true⟩ := by
  cases hl : p.link with
  | childHoldsKey field => simp [demands, hl, eq_comm]
  | parentHoldsKey field => simp [demands, hl, eq_comm]

end Plan

namespace Graph

/-- What the plans of a node ask for, and which way the keys go. -/
def demands (g : Graph c) (id : NodeId) : List Demand := g.alongPlans (Plan.demands · id) id

variable {g : Graph c} {id : NodeId}

theorem map_demands (g : Graph c) (id : NodeId) :
    (g.demands id).map Demand.toHolding = g.holdings id := by
  unfold demands holdings alongPlans
  cases g.node? id with
  | none => rfl
  | some n =>
    dsimp only
    unfold Entity.alongPlans
    cases n.entity.plans c .all with
    | error why => rfl
    | ok plans => simp [List.map_flatMap, Plan.map_demands]

theorem mem_holdings_of_demand {d : Demand} (h : d ∈ g.demands id) :
    d.toHolding ∈ g.holdings id :=
  g.map_demands id ▸ List.mem_map_of_mem h

theorem exists_demand {hold : Holding} (h : hold ∈ g.holdings id) :
    ∃ d ∈ g.demands id, d.toHolding = hold :=
  List.mem_map.mp (g.map_demands id ▸ h)

theorem demands_of_frame {g' : Graph c} (h : g'.frame = g.frame) (id : NodeId) :
    g'.demands id = g.demands id :=
  alongPlans_of_frame h

/-- A node that demands something is there. -/
theorem isSome_of_demand {d : Demand} (h : d ∈ g.demands id) : (g.node? id).isSome := by
  obtain ⟨n, hn, -⟩ := mem_alongPlans.mp h
  rw [hn]
  rfl

/-- A node hands its own key to what its plans lead to, and takes over keys from there. -/
theorem planned_of_demand {d : Demand} (h : d ∈ g.demands id) :
    (d.taken = false ∧ d.owner = id ∧ d.holder ∈ g.planned id) ∨
      (d.taken = true ∧ d.holder = id ∧ d.owner ∈ g.planned id ∧ g.HasField id d.field) := by
  obtain ⟨n, hn, plans, hp, p, hmem, hd⟩ := mem_alongPlans.mp h
  have planned {target : NodeId} (ht : target ∈ p.targets (g.children id p.reference.name)) :
      target ∈ g.planned id := mem_alongPlans.mpr ⟨n, hn, plans, hp, p, hmem, ht⟩
  obtain ⟨field, child, hl, hc, rfl⟩ | ⟨field, child, hl, hc, rfl⟩ := Plan.mem_demands.mp hd
  · exact .inl ⟨rfl, rfl, planned (by simpa [Plan.targets, hl] using hc)⟩
  · refine .inr ⟨rfl, rfl, planned (by simp [Plan.targets, hl, hc]), n, hn, ?_⟩
    rw [n.length_values]
    exact field.isLt

/-- A part of a graph that the plans do not lead out of, in which no key is itself asked to hold
another. -/
structure Area (g : Graph c) (X : NodeId → Prop) : Prop where
  apart : ∀ id, X id → ∀ h ∈ g.holdings id, g.keyPlace? h.holder ≠ some h.field
  closed : ∀ id, X id → ∀ target ∈ g.planned id, X target

theorem Region.area {X : NodeId → Prop} (R : g.Region X) : g.Area X := ⟨R.apart, R.closed⟩

theorem Area.holder {X : NodeId → Prop} (A : g.Area X) (hx : X id) {d : Demand}
    (hd : d ∈ g.demands id) : X d.holder := by
  obtain ⟨-, -, planned⟩ | ⟨-, same, -⟩ := planned_of_demand hd
  · exact A.closed id hx _ planned
  · exact same ▸ hx

theorem Area.owner {X : NodeId → Prop} (A : g.Area X) (hx : X id) {d : Demand}
    (hd : d ∈ g.demands id) : X d.owner := by
  obtain ⟨-, same, -⟩ | ⟨-, -, planned, -⟩ := planned_of_demand hd
  · exact same ▸ hx
  · exact A.closed id hx _ planned

/-! ## Fields that are supplied -/

/-- The field of a holding has the key of a node that some node of `X` demands of it: the key is
due, and it is not going to change, since the owner is one of `V` or its key is assigned. -/
structure SuppliedBy (g : Graph c) (X : NodeId → Prop) (V : List NodeId) (now : Graph c)
    (h : Holding) (d : Demand) : Prop where
  demanded : ∃ id, X id ∧ d ∈ g.demands id
  holder : d.holder = h.holder
  field : d.field = h.field
  due : d.Due now
  fixed : d.owner ∈ V ∨ (now.key d.owner).isUnassignedKey = false
  holds : (now.valueAt h.holder h.field).Equals (now.key d.owner)

/-- The field of a holding has a key that is demanded of it. -/
def Supplied (g : Graph c) (X : NodeId → Prop) (V : List NodeId) (now : Graph c) (h : Holding) :
    Prop := ∃ d, g.SuppliedBy X V now h d

section Supplied

variable {X : NodeId → Prop} {V : List NodeId} {now later : Graph c} {h : Holding} {d : Demand}

/-- The field and the key are as they were. -/
theorem SuppliedBy.of_eq {V' : List NodeId} (supplied : g.SuppliedBy X V now h d) (sub : V ⊆ V')
    (key : later.key d.owner = now.key d.owner)
    (value : later.valueAt h.holder h.field = now.valueAt h.holder h.field) :
    g.SuppliedBy X V' later h d where
  demanded := supplied.demanded
  holder := supplied.holder
  field := supplied.field
  due taken := key ▸ supplied.due taken
  fixed := supplied.fixed.imp (fun hd => sub hd) fun assigned => key ▸ assigned
  holds := value ▸ key ▸ supplied.holds

variable (hx : X id) (hd : d ∈ g.demands id) (due : d.Due now)
  (fixed : d.owner ∈ V ∨ (now.key d.owner).isUnassignedKey = false)
  (keys : ∀ other, (now.setAt d.holder d.field (now.key d.owner)).key other = now.key other)
include hx hd due fixed keys

/-- A field that is given a key that it is asked to hold is supplied. -/
theorem supplied_setAt (there : now.HasField d.holder d.field) :
    g.Supplied X V (now.setAt d.holder d.field (now.key d.owner)) d.toHolding := by
  refine ⟨d, ⟨id, hx, hd⟩, rfl, rfl, fun taken => ?_, ?_, ?_⟩
  · rw [keys]
    exact due taken
  · rw [keys]
    exact fixed
  · rw [keys, valueAt_setAt_self there]
    exact .refl _

/-- A field that is given such a key is supplied by it, and others keep their values. -/
theorem kept_setAt (h : Holding) :
    (now.setAt d.holder d.field (now.key d.owner)).valueAt h.holder h.field =
        now.valueAt h.holder h.field ∨
      g.Supplied X V (now.setAt d.holder d.field (now.key d.owner)) h := by
  by_cases here : d.holder = h.holder ∧ d.field = h.field
  · rw [← here.1, ← here.2]
    by_cases there : now.HasField d.holder d.field
    · obtain ⟨d', new⟩ := supplied_setAt hx hd due fixed keys there
      exact .inr ⟨d', new.demanded, new.holder.trans here.1, new.field.trans here.2, new.due,
        new.fixed, here.1 ▸ here.2 ▸ new.holds⟩
    · exact .inl (valueAt_setAt_of_not_hasField there _)
  · exact .inl (valueAt_setAt_of_ne here _)

/-- Fields stay supplied. The field itself, which may also be asked to hold another key, then holds
this one. -/
theorem Supplied.setAt (supplied : g.Supplied X V now h) :
    g.Supplied X V (now.setAt d.holder d.field (now.key d.owner)) h := by
  obtain ⟨by', suppliedBy⟩ := supplied
  rcases kept_setAt hx hd due fixed keys h with same | new
  · exact ⟨by', suppliedBy.of_eq (List.Subset.refl V) (keys _) same⟩
  · exact new

end Supplied

end Graph

end RowGraph
