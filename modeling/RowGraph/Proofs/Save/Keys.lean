import RowGraph.Proofs.Save.Supply

/-!
# Foreign keys after saving

Where no field is asked to hold the keys of two nodes, a field that is supplied holds the key that
it is asked to hold.

* `Settled`: a field holds what it is asked to hold, once the owner of the key has been marked.
* `settled_saveAll`: after a successful call every node that was saved has been written as it is,
  and what it asks for is settled.
* `same_key_saveAll`: so every field holds the key that it is asked to hold.
-/

namespace RowGraph

variable {c : Catalog}

/-- The owner of the key has been marked, and if its key is assigned, the field holds it. -/
def SaveState.Settled (st : SaveState c) (h : Holding) : Prop :=
  h.owner ∈ st.visited ∧ ((st.graph.key h.owner).isUnassignedKey = false →
    st.graph.valueAt h.holder h.field = st.graph.key h.owner ∨
      (st.graph.valueAt h.holder h.field).same (st.graph.key h.owner) = true)

/-- A demand that is met in a region is met by the key that it is for. -/
theorem SaveState.settled_of_met {g : Graph c} {X : NodeId → Prop} {st : SaveState c} {id : NodeId}
    (R : g.Region X) (hx : X id) {d : Demand} (hd : d ∈ g.demands id) (met : Met g X st d) :
    Settled st d.toHolding := by
  have hh := Graph.mem_holdings_of_demand hd
  obtain ⟨visited, supplied⟩ := met (R.owner hx hh).2
  refine ⟨visited, fun assigned => ?_⟩
  obtain ⟨k, suppliedBy⟩ := supplied (fun _ => assigned) (R.holder hx hh).2
  obtain ⟨j, hj, hk⟩ := suppliedBy.demanded
  have owner : k.owner = d.owner := R.agree j id hj hx k.toHolding
    (Graph.mem_holdings_of_demand hk) d.toHolding hh suppliedBy.holder suppliedBy.field
  refine suppliedBy.holds.imp (fun same => owner ▸ same) ?_
  rintro ⟨x, y, value, key, same⟩
  rw [← owner, value, key]
  exact same

/-! ## Calls -/

namespace Session

open SaveState Saving

variable {σ : Type} {s : Session c (StateM σ)} {g : Graph c} {roots : List NodeId} {w w' : σ}
  {st : SaveState c}

theorem region_reached (hg : g.Consistent (g.Reached roots)) : g.Region (g.Reached roots) :=
  ⟨hg, Graph.Reached.closed⟩

/-- What a successful call has visited is up to date, and what it asks for is settled. -/
theorem settled_saveAll (hg : g.Consistent (g.Reached roots))
    (h : (s.saveAll g roots true).run w = ((.ok (), st), w')) {id : NodeId}
    (hid : id ∈ st.visited) : st.UpToDate id ∧ ∀ hold ∈ g.holdings id, Settled st hold := by
  have R := region_reached hg
  obtain ⟨hx, hu, met⟩ := (supplies_saveAll R.area h).fresh id hid List.not_mem_nil
  refine ⟨hu, fun hold hmem => ?_⟩
  obtain ⟨d, hd, rfl⟩ := Graph.exists_demand hmem
  exact settled_of_met R hx hd (met d hd)

/-- Where what was saved has keys in the end, what is settled holds the key that it is asked to
hold. -/
theorem same_key_saveAll (hg : g.Consistent (g.Reached roots))
    (h : (s.saveAll g roots true).run w = ((.ok (), st), w'))
    (hkeys : ∀ id ∈ st.persisted,
      (st.graph.key id).isUnassignedKey = false ∧ st.graph.key id ≠ .float .nan)
    {id : NodeId} (hid : g.Reached roots id) (hn : (g.node? id).isSome) {hold : Holding}
    (hmem : hold ∈ g.holdings id) :
    (st.graph.valueAt hold.holder hold.field).same (st.graph.key hold.owner) = true := by
  have hpersisted : ∀ i, g.Reached roots i → (g.node? i).isSome → i ∈ st.persisted := by
    intro i hi hsome
    have hmem := mem_persisted_saveAll (congrArg (·.1.1) h) i
    rw [h] at hmem
    exact hmem.mpr ⟨hsome, hi⟩
  obtain ⟨-, settled⟩ := settled_saveAll hg h (mem_visited_saveAll h hid hn)
  obtain ⟨hx, hsome⟩ := (region_reached hg).owner hid hmem
  obtain ⟨hassigned, hnan⟩ := hkeys hold.owner (hpersisted _ hx hsome)
  rcases (settled hold hmem).2 hassigned with heq | hsame
  · rw [heq]
    exact Value.same_self hnan
  · exact hsame

end Session

namespace Sample

theorem holdings_cyclic : ∀ id, cyclic.holdings id =
    match id with
    | 0 => [⟨0, 2, 1⟩]
    | 1 => [⟨1, 2, 0⟩]
    | _ => []
  | 0 => rfl
  | 1 => rfl
  | 2 => rfl
  | _ + 3 => rfl

theorem consistent_cyclic : cyclic.Consistent (cyclic.Reached [0]) where
  typed
    | 0, _, _, rfl => by decide
    | 1, _, _, rfl => by decide
    | 2, _, _, rfl => by decide
    | _ + 3, _, _, hn => by cases hn
  apart
    | 0, _ => by decide
    | 1, _ => by decide
    | 2, _ => by decide
    | _ + 3, _ => by simp [holdings_cyclic]
  agree := by
    intro id other _ _ h hh k hk hholder _
    rw [holdings_cyclic] at hh hk
    split at hh <;> split at hk <;> simp_all

end Sample

end RowGraph
