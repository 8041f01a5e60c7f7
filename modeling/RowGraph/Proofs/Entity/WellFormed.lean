import RowGraph.Graph.Load
import RowGraph.Proofs.Entity.Keys
import RowGraph.Proofs.Save.Reach

/-!
# Finished entities and their nodes

Fields and references are told apart by name, the keys of references are kept as places of fields,
and conditions on keys find their fields again by name. That goes together because no clause of a
description, and no base that it extends, gives one name twice.

A node has a value for each field of its entity, so a place of a field is the place of a value.

Results:
* `distinct_addAll`: however fields, references and bases follow each other, names stay different.
* `Description.wellFormed_build`: what holds of every finished entity.
* `Node.keeps_iff`, `Node.inRange`: at which places a node has values, and that the loader and the
  saver work at such places.
* **`wellFormed_and_inRange`**: all of it, for whatever is described.
* `Sample.store_among_users`: a node of another entity than the reference leads to.

Nobody checks that what is attached to a reference is of the entity that the reference leads to. The
field of the link is a place of the nodes of that entity; a node of another one can have no such
place, and then a key that is put there is lost (`Node.elsewhere`).
-/

namespace RowGraph

open EntityDraft (add addAll nodup_declare nodup_inherit)

/-! ## Names -/

/-- No two fields have the same name, and no two references. -/
structure EntityDraft.Distinct (d : EntityDraft) : Prop where
  fields : (d.fields.map Field.name).Nodup
  references : (d.references.map Reference.name).Nodup

theorem EntityDraft.distinct_empty : EntityDraft.empty.Distinct := ⟨List.nodup_nil, List.nodup_nil⟩

/-- What is taken over from a base has other names than what is there. -/
theorem EntityDraft.Distinct.extend {d base : EntityDraft} (h : d.Distinct) (hb : base.Distinct) :
    (d.extend base).Distinct := by
  have inherited : ((keyed base.fields).map Field.name).Nodup := by
    rw [map_name_keyed]
    exact hb.fields
  exact ⟨nodup_inherit inherited h.fields, nodup_inherit hb.references h.references⟩

mutual

/-- One more clause keeps names different. -/
theorem Clause.distinct_add : ∀ (c : Clause) {d : EntityDraft}, d.Distinct → (add c d).Distinct
  | .field _, _, h => ⟨nodup_declare h.fields, h.references⟩
  | .reference _, _, h => ⟨h.fields, nodup_declare h.references⟩
  | .extending base, _, h => h.extend (distinct_addAll base EntityDraft.distinct_empty)
  | .table _, _, h | .schema _, _, h | .defaultAlias _, _, h | .capability _, _, h =>
    ⟨h.fields, h.references⟩

/-- **So do any clauses**, with bases that extend bases. -/
theorem distinct_addAll : ∀ (clauses : List Clause) {d : EntityDraft}, d.Distinct →
    (addAll clauses d).Distinct
  | [], _, h => h
  | c :: rest, _, h => distinct_addAll rest (c.distinct_add h)

end

/-! ## Finished entities -/

/-- What holds of every finished entity. -/
structure Entity.WellFormed (e : Entity) : Prop where
  fieldNames : (e.fields.map Field.name).Nodup
  referenceNames : (e.references.map Reference.name).Nodup
  /-- The entity has a primary key unless it has no field. -/
  keyed : e.primaryKey = none ↔ e.fields = []
  /-- The primary key is the flagged field. -/
  flagged : ∀ i, (e.fieldAt i).isPrimaryKey = true ↔ e.primaryKey = some i
  /-- Every field is found by its name. -/
  found : ∀ i, e.fieldIndex? (e.fieldAt i).name = some i

/-- Fields with different names are found by their names, whatever their columns are called. -/
theorem Entity.fieldIndex?_name {e : Entity} (h : Named e.fields) (i : Fin e.fields.length) :
    e.fieldIndex? (e.fieldAt i).name = some i := by
  have by_name : e.fields.findFinIdx? (·.name == (e.fieldAt i).name) = some i := by
    rw [List.findFinIdx?_eq_some_iff]
    refine ⟨by simp [fieldAt], fun j before same => ?_⟩
    have alike : e.fields[j].name = e.fields[i].name := by simpa [fieldAt] using same
    have place : j.val = i.val := h.eq_of_name (by simp) (by simp) alike
    exact absurd place (Nat.ne_of_lt before)
  rw [fieldIndex?, by_name]
  rfl

namespace Description

variable (d : Description) (type : EntityType)

theorem fields_build : (d.build type).fields = keyed (addAll d.clauses .empty).fields := rfl

theorem primaryKey_build_eq_none_iff :
    (d.build type).primaryKey = none ↔ (d.build type).fields = [] := by
  rw [← Option.map_eq_none_iff (f := Fin.val), map_primaryKey_build, fields_build]
  constructor
  · intro none
    refine Decidable.byContradiction fun some => ?_
    have nonempty : (addAll d.clauses .empty).fields ≠ [] := fun empty => some (by rw [empty]; rfl)
    obtain ⟨i, key⟩ := exists_isKey nonempty
    rw [none] at key
    cases key
  · intro empty
    have empty : (addAll d.clauses .empty).fields = [] := by
      rw [← List.length_eq_zero_iff, ← length_keyed, empty]
      rfl
    rw [empty]
    rfl

/-- The finished entity flags its primary key and no other field. -/
theorem isPrimaryKey_fieldAt_build_iff (i : Fin (d.build type).fields.length) :
    ((d.build type).fieldAt i).isPrimaryKey = true ↔ (d.build type).primaryKey = some i := by
  have at_i : (keyed (addAll d.clauses .empty).fields)[i.val]? =
      some ((d.build type).fieldAt i) := List.getElem?_eq_getElem i.isLt
  have key := map_primaryKey_build d type
  rw [isPrimaryKey_keyed_iff at_i]
  cases chosen : (d.build type).primaryKey with
  | none =>
    rw [chosen] at key
    rw [Option.map_eq_none_iff.mp key.symm]
    simp
  | some k =>
    rw [chosen] at key
    obtain ⟨place, found, same⟩ := Option.map_eq_some_iff.mp key.symm
    rw [found]
    simp [Fin.ext_iff, same]

/-- **Every entity that is described is well formed.** -/
theorem wellFormed_build : (d.build type).WellFormed := by
  have distinct := distinct_addAll d.clauses EntityDraft.distinct_empty
  have names : ((d.build type).fields.map Field.name).Nodup := by
    rw [fields_build, map_name_keyed]
    exact distinct.fields
  exact
    { fieldNames := names
      referenceNames := distinct.references
      keyed := d.primaryKey_build_eq_none_iff type
      flagged := d.isPrimaryKey_fieldAt_build_iff type
      found := Entity.fieldIndex?_name names }

end Description

/-! ## Links -/

/-- The field that keeps the reference is a field of the side that has it, and found there by its
name. -/
def Link.Found {parent child : Entity} : Link parent child → Prop
  | .childHoldsKey i =>
    i.val < child.fields.length ∧ child.fieldIndex? (child.fieldAt i).name = some i
  | .parentHoldsKey i =>
    i.val < parent.fields.length ∧ parent.fieldIndex? (parent.fieldAt i).name = some i

theorem Link.found {parent child : Entity} (hp : parent.WellFormed) (hc : child.WellFormed)
    (link : Link parent child) : link.Found := by
  cases link with
  | childHoldsKey i => exact ⟨i.isLt, hc.found i⟩
  | parentHoldsKey i => exact ⟨i.isLt, hp.found i⟩

/-! ## Nodes -/

namespace Node

variable {c : Catalog} {n : Node c} {i : Nat}

/-- The node has a value at this place: that one is read there, and another one is put there. -/
structure Keeps (n : Node c) (i : Nat) : Prop where
  read : n.values[i]? = some (n.valueAt i)
  written : ∀ v, (n.setAt i v).values[i]? = some v

/-- A node has values at the places of the fields and at no other. -/
theorem keeps_iff : n.Keeps i ↔ i < n.entity.fields.length := by
  have length : n.values.length = n.entity.fields.length := n.length_values
  constructor
  · intro h
    obtain ⟨inside, -⟩ := List.getElem?_eq_some_iff.mp h.read
    omega
  · intro h
    have inside : i < n.values.length := by omega
    exact ⟨by simp [valueAt, inside], fun v => by simp [setAt, inside]⟩

theorem length_le_of_not_keeps (h : ¬ n.Keeps i) : n.values.length ≤ i := by
  rw [keeps_iff] at h
  have length : n.values.length = n.entity.fields.length := n.length_values
  omega

/-- At any other place null is read, and nothing is put. -/
theorem elsewhere (h : ¬ n.Keeps i) : n.valueAt i = .null ∧ ∀ v, n.setAt i v = n := by
  have outside : n.values.length ≤ i := length_le_of_not_keeps h
  refine ⟨by simp [valueAt, outside], fun v => ?_⟩
  cases n with
  | mk type values references length => simpa [setAt] using List.set_eq_of_length_le outside

/-- The places at which the loader and the saver work on a node are places of its values. -/
structure InRange (n : Node c) : Prop where
  length : n.values.length = n.entity.fields.length
  /-- The node is matched, addressed and keyed by its primary key. -/
  key : ∀ i, n.entity.primaryKey = some i → n.Keeps i
  /-- It keeps the key of a child, where its own references are planned. -/
  asParent : ∀ selection plans, n.entity.plans c selection = .ok plans → ∀ p ∈ plans, ∀ i,
    p.link = .parentHoldsKey i → n.Keeps i
  /-- It keeps the key of a parent, and is matched, where a plan of any entity leads to its own. -/
  asChild : ∀ (e : Entity) (p : Plan c e), p.reference.target = n.type →
    (∀ i, p.link = .childHoldsKey i → n.Keeps i) ∧ ∀ i, p.childField = .ok i → n.Keeps i
  /-- At a place of some other entity alone nothing is found and nothing is changed. -/
  elsewhere : ∀ i, ¬ n.Keeps i → n.valueAt i = .null ∧ ∀ v, n.setAt i v = n

/-- A field of the entity to which a plan leads is a place of a value of its nodes. -/
theorem keeps_of_plan {e : Entity} (p : Plan c e) (target : p.reference.target = n.type)
    (i : Fin p.child.fields.length) : n.Keeps i := by
  have same : p.child = n.entity := congrArg c.entity target
  refine keeps_iff.mpr ?_
  rw [← same]
  exact i.isLt

theorem inRange (n : Node c) : n.InRange where
  length := n.length_values
  key i _ := keeps_iff.mpr i.isLt
  asParent _ _ _ _ _ i _ := keeps_iff.mpr i.isLt
  asChild _ p target :=
    ⟨fun i _ => keeps_of_plan p target i, fun i _ => keeps_of_plan p target i⟩
  elsewhere _ := elsewhere

end Node

/-- **Whatever is described, entities are well formed, links name fields, and nodes are indexed in
range.** -/
theorem wellFormed_and_inRange :
    (∀ (d : Description) type, (d.build type).WellFormed) ∧
    (∀ (parent child : Description) type target (r : Reference)
      (link : Link (parent.build type) (child.build target)),
      (parent.build type).resolve r (child.build target) = .ok link → link.Found) ∧
    ∀ descriptions (n : Node (.ofDescriptions descriptions)), n.InRange :=
  ⟨Description.wellFormed_build,
    fun parent child type target _ link _ =>
      link.found (parent.wellFormed_build type) (child.wellFormed_build target),
    fun _ n => n.inRange⟩

namespace Sample

/-- A team with a store among its users. -/
def storeAmongUsers : Graph catalog :=
  ⟨[{ Node.empty (type "Team") with references := [("Users", .many [1])] },
    Node.empty (type "Store")]⟩

/-- **A store can be attached among the users of a team**, whose saving puts the team's key at a
place that the store does not have, and so it is lost. -/
theorem store_among_users :
    let call := (session.saveAll storeAmongUsers [0] true).run 1
    ∃ team store, storeAmongUsers.node? 0 = some team ∧ storeAmongUsers.node? 1 = some store ∧
      (Node.empty (type "Team")).attach "Users" (.many [1]) = .ok team ∧
      (∃ plans, team.entity.plans catalog .all = .ok plans ∧ ∃ p ∈ plans,
        p.reference.name = "Users" ∧ ∃ i, p.link = .childHoldsKey i ∧ ¬ store.Keeps i) ∧
      call.1.1 = .ok () ∧ call.1.2.graph.key 0 = .int 1 ∧ call.1.2.graph.valueAt 1 2 = .null := by
  intro call
  refine ⟨_, _, rfl, rfl, rfl, ⟨_, rfl, _, List.mem_cons_self, rfl,
    ⟨2, by decide⟩, rfl, fun h => ?_⟩, rfl, rfl, rfl⟩
  exact absurd (Node.keeps_iff.mp h) (by decide)

end Sample

end RowGraph
