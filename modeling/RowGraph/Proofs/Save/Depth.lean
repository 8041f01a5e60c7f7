import RowGraph.Proofs.Save.Steps

/-!
# The bound on saving is never met

Saving calls itself for what hangs on a node, and the graph may lead back to where it came from. The
bound on the depth of these calls is the number of nodes. It is there for the definition alone: each
call that goes on has marked a node that had no mark, so calls are nested less deep than there are
nodes without a mark.

`saveWithin` does anything at all where the calls are nested too deep.

* `outcome_saveWithin`: with enough depth it ends like `saveNode`, whatever that is, and for every
  executor.
-/

namespace RowGraph

namespace SaveState

variable {c : Catalog}

/-- The nodes that have not been marked. -/
def unvisited (st : SaveState c) : List NodeId :=
  (List.range st.graph.nodes.length).filter fun id => id ∉ st.visited

theorem length_unvisited_le {a b : SaveState c} (h : Onward a b) :
    b.unvisited.length ≤ a.unvisited.length := by
  rw [unvisited, unvisited, Graph.length_nodes_of_frame h.frame, ← List.countP_eq_length_filter,
    ← List.countP_eq_length_filter]
  refine List.countP_mono_left fun id _ hb => ?_
  rw [decide_eq_true_eq] at hb ⊢
  exact fun ha => hb (h.visited ha)

/-- Marking a node leaves fewer nodes without a mark. -/
theorem length_unvisited_marked {st : SaveState c} {id : NodeId} {n : Node c}
    (hn : st.graph.node? id = some n) (hid : id ∉ st.visited) :
    (st.marked id).unvisited.length < st.unvisited.length := by
  have hlt : id < st.graph.nodes.length := (List.getElem?_eq_some_iff.mp hn).1
  have hmarked : (st.marked id).unvisited = st.unvisited.filter fun i => i ≠ id := by
    simp only [unvisited, marked, List.filter_filter]
    refine List.filter_congr fun i _ => ?_
    simp [and_comm]
  rw [hmarked, List.length_filter_lt_length_iff_exists]
  exact ⟨id, by simp [unvisited, hlt, hid], by simp⟩

/-- Where every node is marked, a node that is there is. -/
theorem mem_visited_of_unvisited {st : SaveState c} (h : st.unvisited.length = 0) {id : NodeId}
    {n : Node c} (hn : st.graph.node? id = some n) : id ∈ st.visited := by
  have hlt : id < st.graph.nodes.length := (List.getElem?_eq_some_iff.mp hn).1
  rw [List.length_eq_zero_iff, unvisited, List.filter_eq_nil_iff] at h
  simpa using h id (List.mem_range.mpr hlt)

end SaveState

namespace Saving

open Process SaveState

variable {c : Catalog} {σ : Type}

/-- A node saved with calls nested at most `depth` deep; calls that are nested deeper do `beyond`
instead. -/
def saveWithin (s : Session c (StateM σ)) (withReferences : Bool)
    (beyond : NodeId → Saving c (StateM σ) Unit) : (depth : Nat) → NodeId → Saving c (StateM σ) Unit
  | 0 => beyond
  | depth + 1 => visit s withReferences (saveWithin s withReferences beyond depth)

/-! ## Two ways to save what hangs on a node -/

section Congruence

variable (s : Session c (StateM σ)) {save other : NodeId → Saving c (StateM σ) Unit}
  {P : SaveState c → Prop}
  (later : ∀ id st w, Later st (after (save id) st w))
  (keep : ∀ a b, P a → Onward a b → P b)
  (same : ∀ id st w, P st → outcome (save id) st w = outcome (other id) st w)
include keep same

theorem outcome_saveChild (key : Value) (field : Nat) (child : NodeId) {st : SaveState c}
    (hst : P st) (w : σ) :
    outcome (saveChild s save key field child) st w =
      outcome (saveChild s other key field child) st w := by
  rw [saveChild, saveChild, outcome_get_bind, outcome_get_bind]
  split
  · rfl
  · refine outcome_bind_congr rfl fun _ t v h => ?_
    obtain ⟨rfl, rfl⟩ := runs_setAt.mp h
    exact same child _ w (keep _ _ hst (still_withValue st child field key).onward)

include later

theorem outcome_saveReference {e : Entity} (id : NodeId) (plan : Plan c e) {st : SaveState c}
    (hst : P st) (w : σ) :
    outcome (saveReference s save id plan) st w = outcome (saveReference s other id plan) st w := by
  rw [saveReference, saveReference, outcome_get_bind, outcome_get_bind]
  dsimp only
  cases plan.link with
  | childHoldsKey field =>
    refine outcome_bind_congr ?_ fun _ _ _ _ => rfl
    exact outcome_forM_congr
      (fun child _ t v ht => outcome_saveChild s keep same _ _ child ht v)
      (fun child _ t v ht => keep _ _ ht (later_saveChild s later _ _ child t v).toOnward) hst w
  | parentHoldsKey field =>
    dsimp only
    cases (st.graph.children id plan.reference.name).head? with
    | none => rfl
    | some child =>
      dsimp only
      split
      · rfl
      · exact outcome_bind_congr (same child st w hst) fun _ _ _ _ => rfl

/-- A visit depends only on how what hangs on the node is saved after it has been marked. -/
theorem outcome_visit (withReferences : Bool) (id : NodeId) (st : SaveState c) (w : σ)
    (hst : id ∉ st.visited → (st.graph.node? id).isSome → P (st.marked id)) :
    outcome (visit s withReferences save id) st w =
      outcome (visit s withReferences other id) st w := by
  rw [visit, visit, outcome_get_bind, outcome_get_bind]
  cases hn : st.graph.node? id with
  | none => rfl
  | some n =>
    dsimp only
    split
    · rfl
    · next hid =>
      rw [outcome_set_bind, outcome_set_bind, saveVisited_eq, saveVisited_eq]
      have hmarked : P (st.marked id) := hst hid (by rw [hn]; rfl)
      cases n.entity.plans c (if withReferences then .all else .nothing) with
      | error why => rfl
      | ok plans =>
        refine outcome_bind_congr rfl fun _ t v h => ?_
        have ht : Still (st.marked id) t := after_of_runs h ▸ still_linked id plans (st.marked id) w
        refine outcome_bind_congr rfl fun _ t' v' h' => ?_
        have ht' : Entered id st t' := after_of_runs h' ▸ entered_persist s hn ht v
        have ht' : P t' := keep _ _ hmarked ⟨ht'.frame, by rw [ht'.visited]; exact .refl _⟩
        exact outcome_bind_congr (outcome_mapM_congr
          (fun plan _ u x hu => outcome_saveReference s later keep same id plan hu x)
          (fun plan _ u x hu => keep _ _ hu (later_saveReference s later id plan u x).toOnward)
          ht' v') fun _ _ _ _ => rfl

end Congruence

/-- With more depth than there are nodes without a mark the depth is not used up, and with as much
the calls at the bottom have nothing to do. -/
theorem outcome_saveWithin (s : Session c (StateM σ)) (withReferences : Bool)
    (beyond : NodeId → Saving c (StateM σ) Unit) {fuel depth : Nat} {st : SaveState c}
    (hfuel : st.unvisited.length ≤ fuel) (hdepth : st.unvisited.length < depth) (id : NodeId)
    (w : σ) :
    outcome (saveNode s withReferences fuel id) st w =
      outcome (saveWithin s withReferences beyond depth id) st w := by
  induction depth generalizing fuel st id w with
  | zero => exact absurd hdepth (Nat.not_lt_zero _)
  | succ depth ih =>
    cases fuel with
    | zero =>
      rw [saveNode, saveWithin, visit, outcome_get_bind]
      cases hn : st.graph.node? id with
      | none => rfl
      | some n =>
        have hid := mem_visited_of_unvisited (Nat.le_zero.mp hfuel) hn
        dsimp only
        rw [if_pos hid]
    | succ fuel =>
      rw [saveNode, saveWithin]
      refine outcome_visit s (later_saveNode s withReferences fuel)
        (fun a b ha hab => Nat.lt_of_le_of_lt (length_unvisited_le hab) ha)
        (fun id t v ht => ih (Nat.lt_succ_iff.mp (Nat.lt_of_lt_of_le ht hfuel))
          (Nat.lt_of_lt_of_le ht (Nat.lt_succ_iff.mp hdepth)) id v) withReferences id st w ?_
      intro hid hn
      obtain ⟨n, hn⟩ := Option.isSome_iff_exists.mp hn
      exact length_unvisited_marked hn hid

/-- Several nodes saved one after the other: the depth is not used up either. -/
theorem outcome_forM_saveWithin (s : Session c (StateM σ)) (withReferences : Bool)
    (beyond : NodeId → Saving c (StateM σ) Unit) {fuel depth : Nat} (h : fuel < depth)
    {st : SaveState c} (hst : st.unvisited.length ≤ fuel) (roots : List NodeId) (w : σ) :
    outcome (roots.forM (saveNode s withReferences fuel)) st w =
      outcome (roots.forM (saveWithin s withReferences beyond depth)) st w :=
  outcome_forM_congr
    (fun id _ _ v ht =>
      outcome_saveWithin s withReferences beyond ht (Nat.lt_of_le_of_lt ht h) id v)
    (fun id _ t v ht => Nat.le_trans
      (length_unvisited_le (later_saveNode s withReferences fuel id t v).toOnward) ht) hst w

end Saving

end RowGraph
