import RowGraph.Proofs.Save.Holdings
import RowGraph.Proofs.Save.Steps

/-!
# The walk of a call, also of one that fails

Saving goes through the same steps whatever is asked of it: a node is marked, it takes over the keys
of its children, it is written, what hangs on it is saved, and then it may be written again. What is
to hold between these steps, of the graph and of the database alike, is put together in a `Walk`,
with one law for each step, and with what is left when a step fails. The recursion is gone through
once, for all of them.

A law is about a key that some plan asks a field to hold, since saving sets no others. A call that
leaves references alone asks for nothing.

* `asked`, `followed`: what the plans of a node ask for and where they lead in a call.
* `Walk.ends_saveNode`: what holds between two visits holds again after the next, if that succeeds.
* `Walk.ends_saveAll`: so it holds in the end of a call if it holds in the beginning.
-/

namespace RowGraph

variable {c : Catalog} {σ : Type}

open Process SaveState Saving

/-! ## What a call follows -/

namespace Graph

/-- What is asked for along the plans of a node, in a call with or without references. -/
def asked (g : Graph c) (withReferences : Bool) (id : NodeId) : List Holding :=
  match withReferences with
  | true => g.holdings id
  | false => []

/-- Where the plans of a node lead, in a call with or without references. -/
def followed (g : Graph c) (withReferences : Bool) (id : NodeId) : List NodeId :=
  match withReferences with
  | true => g.planned id
  | false => []

variable {g g' : Graph c} {withReferences : Bool} {id : NodeId} {n : Node c}
  {plans : List (Plan c n.entity)}

section Plans

variable (h : g'.frame = g.frame) (hn : g'.node? id = some n)
  (hp : n.entity.plans c (if withReferences then .all else .nothing) = .ok plans)
include h hn hp

theorem mem_asked_of_plan {p : Plan c n.entity} (hmem : p ∈ plans) {hold : Holding}
    (hh : hold ∈ p.holdings id (g.children id p.reference.name)) :
    hold ∈ g.asked withReferences id := by
  cases withReferences with
  | true => exact mem_alongPlans_of_plan h hn hp hmem hh
  | false =>
    cases hp
    cases hmem

theorem mem_followed_of_plan {p : Plan c n.entity} (hmem : p ∈ plans) {target : NodeId}
    (ht : target ∈ p.targets (g.children id p.reference.name)) :
    target ∈ g.followed withReferences id := by
  cases withReferences with
  | true => exact mem_alongPlans_of_plan h hn hp hmem ht
  | false =>
    cases hp
    cases hmem

end Plans

end Graph

/-! ## Walks -/

/-- What holds between the steps of calls that save in a region of a graph. -/
structure Walk (s : Session c (StateM σ)) (g : Graph c) (X : NodeId → Prop)
    (withReferences : Bool) where
  /-- What holds between two visits. -/
  Inv : SaveState c → σ → Prop
  /-- What holds when a node has been marked and is yet to be written. -/
  Begun : NodeId → SaveState c → σ → Prop
  /-- What is left when a step fails. -/
  Failed : SaveState c → σ → Prop
  /-- The key that a parent hands to its children. -/
  Key : NodeId → Value → Prop
  /-- Whether nodes are written again when their children have been saved. -/
  Again : Prop
  frame {st w} : Inv st w → st.graph.frame = g.frame
  frame_begun {st w id} : Begun id st w → st.graph.frame = g.frame
  key {st w} (id) : Inv st w → Key id (st.graph.key id)
  plans {st w id n} : Inv st w → X id → st.graph.node? id = some n → id ∉ st.visited →
    ∀ why, n.entity.plans c (if withReferences then .all else .nothing) = .error why →
      Failed (st.marked id) w
  begin {st w id n} {plans : List (Plan c n.entity)} : Inv st w → X id →
    st.graph.node? id = some n → id ∉ st.visited →
    n.entity.plans c (if withReferences then .all else .nothing) = .ok plans →
    Begun id (st.marked id) w
  /-- The node takes over the key of a child that has one. -/
  link {st w id field child} : Begun id st w → X id →
    ⟨id, field, child⟩ ∈ g.asked withReferences id → (st.graph.key child).isUnassignedKey = false →
    Begun id (st.withValue id field (st.graph.key child)) w
  persist {st w id n} : Begun id st w → X id → st.graph.node? id = some n →
    Ends Failed (fun _ => Inv) (persist s id) st w
  /-- A child that has not been visited gets the key of its parent. -/
  give {st w id field child key} : Inv st w → X id →
    ⟨child, field, id⟩ ∈ g.asked withReferences id → child ∉ st.visited → Key id key →
    Inv (st.withValue child field key) w
  /-- A child that has been visited gets it if it holds another, and is written again. -/
  renew {st w id field child key} : Inv st w → X id →
    ⟨child, field, id⟩ ∈ g.asked withReferences id → child ∈ st.visited →
    (st.graph.valueAt child field).same key = false → Key id key →
    Ends Failed (fun _ => Inv) (update s child) (st.withValue child field key) w
  /-- A parent takes over the key of a child that has been saved if it holds another. -/
  take {st w id field child} : Inv st w → X id →
    ⟨id, field, child⟩ ∈ g.asked withReferences id → (st.graph.key child).isUnassignedKey = false →
    (st.graph.valueAt id field).same (st.graph.key child) = false →
    Inv (st.withValue id field (st.graph.key child)) w ∧ Again
  again {st w id} : Again → Inv st w → id ∈ st.visited →
    Ends Failed (fun _ => Inv) (update s id) st w

namespace Walk

variable {s : Session c (StateM σ)} {g : Graph c} {X : NodeId → Prop} {withReferences : Bool}
  (W : Walk s g X withReferences) {st : SaveState c} {w : σ} {id : NodeId}

theorem ends_linkKeyedChildren (hx : X id) {e : Entity} {plan : Plan c e}
    (hh : ∀ h ∈ plan.holdings id (g.children id plan.reference.name),
      h ∈ g.asked withReferences id) (hst : W.Begun id st w) :
    Ends W.Failed (fun _ => W.Begun id) (linkKeyedChildren id plan) st w := by
  have children := Graph.children_of_frame (W.frame_begun hst) id plan.reference.name
  refine ends_get_bind.mpr ?_
  dsimp only
  cases hl : plan.link with
  | childHoldsKey field => exact hst
  | parentHoldsKey field =>
    dsimp only
    cases hc : (st.graph.children id plan.reference.name).head? with
    | none => exact hst
    | some child =>
      dsimp only
      split
      · exact hst
      · next assigned =>
        have hmem : ⟨id, field, child⟩ ∈ g.asked withReferences id :=
          hh _ (Plan.mem_holdings.mpr (.inr ⟨field, child, hl, children ▸ hc, rfl⟩))
        exact W.link hst hx hmem (by simpa using assigned)

/-- Whether the parent has to be written again is answered too. -/
theorem ends_takeChildKey (hx : X id) {field : Nat} {child : NodeId}
    (hmem : ⟨id, field, child⟩ ∈ g.asked withReferences id) (hst : W.Inv st w) :
    Ends W.Failed (fun changed t v => (changed = true → W.Again) ∧ W.Inv t v)
      (takeChildKey id field child) st w := by
  refine ends_get_bind.mpr ?_
  dsimp only
  split
  · exact ⟨by simp, hst⟩
  · next hc =>
    simp only [Bool.or_eq_true, not_or, Bool.not_eq_true] at hc
    obtain ⟨taken, again⟩ := W.take hst hx hmem hc.1 hc.2
    exact ⟨fun _ => again, taken⟩

section References

variable {save : NodeId → Saving c (StateM σ) Unit}
  (hsave : ∀ i, X i → ∀ st w, W.Inv st w → Ends W.Failed (fun _ => W.Inv) (save i) st w)
include hsave

theorem ends_saveChild (hx : X id) {child : NodeId} (hxc : X child) {field : Nat}
    (hmem : ⟨child, field, id⟩ ∈ g.asked withReferences id) {key : Value} (hkey : W.Key id key)
    (hst : W.Inv st w) :
    Ends W.Failed (fun _ => W.Inv) (saveChild s save key field child) st w := by
  refine ends_get_bind.mpr ?_
  split
  · next hv =>
    split
    · exact hst
    · next differs =>
      exact W.renew hst hx hmem hv (by simpa using differs) hkey
  · next hv => exact hsave child hxc _ w (W.give hst hx hmem hv hkey)

variable (closed : ∀ i, X i → ∀ target ∈ g.followed withReferences i, X target)
include closed

theorem ends_saveReference (hx : X id) {e : Entity} {plan : Plan c e}
    (hh : ∀ h ∈ plan.holdings id (g.children id plan.reference.name),
      h ∈ g.asked withReferences id)
    (ht : ∀ target ∈ plan.targets (g.children id plan.reference.name),
      target ∈ g.followed withReferences id) (hst : W.Inv st w) :
    Ends W.Failed (fun changed t v => (changed = true → W.Again) ∧ W.Inv t v)
      (saveReference s save id plan) st w := by
  have children := Graph.children_of_frame (W.frame hst) id plan.reference.name
  refine ends_get_bind.mpr ?_
  dsimp only
  rw [children]
  cases hl : plan.link with
  | childHoldsKey field =>
    have target : ∀ child ∈ g.children id plan.reference.name, X child := fun child hc =>
      closed id hx child (ht child (by simpa [Plan.targets, hl] using hc))
    have holding : ∀ child ∈ g.children id plan.reference.name,
        ⟨child, field, id⟩ ∈ g.asked withReferences id := fun child hc =>
      hh _ (Plan.mem_holdings.mpr (.inl ⟨field, child, hl, hc, rfl⟩))
    exact ends_bind (ends_forM (fun child hc t v ht =>
      W.ends_saveChild hsave hx (target child hc) (holding child hc) (W.key id hst) ht) hst)
      fun _ _ _ _ ht => ⟨by simp, ht⟩
  | parentHoldsKey field =>
    dsimp only
    cases hc : (g.children id plan.reference.name).head? with
    | none => exact ⟨by simp, hst⟩
    | some child =>
      have hmem : ⟨id, field, child⟩ ∈ g.asked withReferences id :=
        hh _ (Plan.mem_holdings.mpr (.inr ⟨field, child, hl, hc, rfl⟩))
      have target : X child := closed id hx child (ht child (by simp [Plan.targets, hl, hc]))
      dsimp only
      split
      · exact W.ends_takeChildKey hx hmem hst
      · exact ends_bind (hsave child target st w hst) fun _ _ _ _ ht =>
          W.ends_takeChildKey hx hmem ht

variable (hlater : ∀ i st w, Later st (after (save i) st w))
include hlater

/-- What follows when a node has been marked. -/
theorem ends_saveVisited (hx : X id) {n : Node c} (hn : st.graph.node? id = some n)
    (hid : id ∉ st.visited) (hst : W.Inv st w) :
    Ends W.Failed (fun _ => W.Inv) (saveVisited s withReferences save id n) (st.marked id) w := by
  rw [saveVisited_eq]
  cases hp : n.entity.plans c (if withReferences then .all else .nothing) with
  | error why => exact W.plans hst hx hn hid why hp
  | ok plans =>
    have holdings : ∀ plan ∈ plans, ∀ h ∈ plan.holdings id (g.children id plan.reference.name),
        h ∈ g.asked withReferences id :=
      fun plan hplan _ hh => Graph.mem_asked_of_plan (W.frame hst) hn hp hplan hh
    have targets : ∀ plan ∈ plans, ∀ target ∈ plan.targets (g.children id plan.reference.name),
        target ∈ g.followed withReferences id :=
      fun plan hplan _ ht => Graph.mem_followed_of_plan (W.frame hst) hn hp hplan ht
    refine ends_bind (ends_forM (fun plan hplan t v ht =>
      W.ends_linkKeyedChildren hx (holdings plan hplan) ht) (W.begin hst hx hn hid hp))
      fun _ t v linked ht => ?_
    have still : Still (st.marked id) t := after_of_runs linked ▸ still_linked id plans _ w
    obtain ⟨m, hm, -⟩ :=
      Graph.node?_of_frame ((W.frame_begun ht).trans (W.frame hst).symm) hn
    refine ends_bind (W.persist ht hx hm) fun _ u x written hu => ?_
    have entered : Entered id st u := after_of_runs written ▸ entered_persist s hn still v
    refine ends_bind (ends_mapM (fun plan hplan t v ht =>
      W.ends_saveReference hsave closed hx (holdings plan hplan) (targets plan hplan) ht) hu)
      fun changes y z saved hy => ?_
    have later : Later u y := after_of_runs saved ▸ rel_after_mapM (R := Later) Later.refl
      Later.trans (fun plan _ => later_saveReference s hlater id plan) u x
    split
    · next changed =>
      obtain ⟨b, hb, rfl⟩ := List.any_eq_true.mp changed
      have visited : id ∈ y.visited := later.visited (by simp [entered.visited])
      exact W.again (hy.1 _ hb rfl) hy.2 visited
    · exact hy.2

theorem ends_visit (hx : X id) (hst : W.Inv st w) :
    Ends W.Failed (fun _ => W.Inv) (visit s withReferences save id) st w := by
  refine ends_get_bind.mpr ?_
  cases hn : st.graph.node? id with
  | none => exact hst
  | some n =>
    dsimp only
    split
    · exact hst
    · next hid => exact W.ends_saveVisited hsave closed hlater hx hn hid hst

end References

variable (closed : ∀ i, X i → ∀ target ∈ g.followed withReferences i, X target) (fuel : Nat)
include closed

/-- What holds between two visits holds again after the next. -/
theorem ends_saveNode (hx : X id) (hst : W.Inv st w) :
    Ends W.Failed (fun _ => W.Inv) (saveNode s withReferences fuel id) st w := by
  induction fuel generalizing id st w with
  | zero => exact hst
  | succ fuel ih =>
    exact W.ends_visit (fun _ hi _ _ ht => ih hi ht) closed
      (later_saveNode s withReferences fuel) hx hst

/-- What holds in the beginning of a call holds in the end, if that succeeds. -/
theorem ends_saveAll {roots : List NodeId} (hx : ∀ root ∈ roots, X root) (hst : W.Inv st w) :
    Ends W.Failed (fun _ => W.Inv) (roots.forM (saveNode s withReferences fuel)) st w :=
  ends_forM (fun root hr _ _ ht => W.ends_saveNode closed fuel (hx root hr) ht) hst

end Walk

end RowGraph
