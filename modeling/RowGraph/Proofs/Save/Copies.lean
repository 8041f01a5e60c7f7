import RowGraph.Proofs.Save.Reach
import RowGraph.Proofs.Save.Written

/-!
# Keys are taken over from rows that are there

Saving takes keys over from node to node at three moments: a parent takes over the keys of its
children before it is first written, a child gets its parent's key before it is written itself, and
a parent takes over the key of a child that has been saved. Here it is left open how a key is taken
over. `Copying.guarded` does so as long as the row of the key's owner is there, and anything at all
where it is not yet. The first of the three moments is the only one that can come too early: a child
that has not been visited may have a key without having a row.

* `Orderly`: nodes that have been visited have been written, and the others are as they were given.
* `matches_saveNode`: from such a state, saving is the same if it is guarded, and leaves such a
  state.
* **`saveAll_guarded`**: where the children whose keys parents hold have rows as soon as they have
  keys, nothing is done in place of taking a key over.
-/

namespace RowGraph

variable {c : Catalog}

/-! ## Saving with the taking over of keys left open -/

/-- What is done to take over a key: which field of which holder, whose key, and the key. -/
abbrev Copying (c : Catalog) (m : Type → Type) :=
  (holder : NodeId) → (field : Nat) → (owner : NodeId) → (key : Value) → Saving c m Unit

namespace Saving

variable {m : Type → Type} [Monad m] (copy : Copying c m)

/-- `linkKeyedChildren` with `copy`. -/
def linkKeyedChildrenBy {e : Entity} (id : NodeId) (plan : Plan c e) : Saving c m Unit := do
  let g := (← get).graph
  match plan.link with
  | .childHoldsKey _ => return
  | .parentHoldsKey field =>
    match (g.children id plan.reference.name).head? with
    | none => return
    | some child =>
      unless (g.key child).isUnassignedKey do copy id field child (g.key child)

/-- `takeChildKey` with `copy`. -/
def takeChildKeyBy (id : NodeId) (field : Nat) (child : NodeId) : Saving c m Bool := do
  let g := (← get).graph
  let key := g.key child
  if key.isUnassignedKey || (g.valueAt id field).same key then return false
  copy id field child key
  return true

/-- `saveChild` with `copy`. -/
def saveChildBy (s : Session c m) (save : NodeId → Saving c m Unit) (parent : NodeId) (key : Value)
    (field : Nat) (child : NodeId) : Saving c m Unit := do
  let state ← get
  if child ∈ state.visited then
    unless (state.graph.valueAt child field).same key do
      copy child field parent key
      update s child
  else
    copy child field parent key
    save child

/-- `saveReference` with `copy`. -/
def saveReferenceBy {e : Entity} (s : Session c m) (save : NodeId → Saving c m Unit) (id : NodeId)
    (plan : Plan c e) : Saving c m Bool := do
  let state ← get
  let children := state.graph.children id plan.reference.name
  match plan.link with
  | .childHoldsKey field =>
    children.forM (saveChildBy copy s save id (state.graph.key id) field)
    return false
  | .parentHoldsKey field =>
    match children.head? with
    | none => return false
    | some child =>
      unless child ∈ state.visited do save child
      takeChildKeyBy copy id field child

/-- `saveVisited` with `copy`, and with references. -/
def saveVisitedBy (s : Session c m) (save : NodeId → Saving c m Unit) (id : NodeId) (n : Node c) :
    Saving c m Unit :=
  match n.entity.plans c .all with
  | .ok plans => do
    plans.forM (linkKeyedChildrenBy copy id)
    persist s id
    let changes ← plans.mapM (saveReferenceBy copy s save id)
    if changes.any (·) then update s id
  | .error why => throw why

/-- `visit` with `copy`. -/
def visitBy (s : Session c m) (save : NodeId → Saving c m Unit) (id : NodeId) :
    Saving c m Unit := do
  let state ← get
  match state.graph.node? id with
  | none => return
  | some n =>
    if id ∈ state.visited then return
    set { state with visited := state.visited ++ [id] }
    saveVisitedBy copy s save id n

/-- `saveNode` with `copy`. -/
def saveNodeBy (s : Session c m) : (fuel : Nat) → NodeId → Saving c m Unit
  | 0, _ => return
  | fuel + 1, id => visitBy copy s (saveNodeBy s fuel) id

end Saving

/-- `Session.saveAll` with `copy`, and with references. -/
def Session.saveAllBy {m : Type → Type} [Monad m] (copy : Copying c m) (s : Session c m)
    (g : Graph c) (roots : List NodeId) : m (Except GraphError Unit × SaveState c) :=
  (roots.forM (Saving.saveNodeBy copy s g.nodes.length)).run.run ⟨g, [], []⟩

/-! ## Guards -/

/-- Whether a row of the node has been sent. -/
def SaveState.hasWritten (st : SaveState c) (id : NodeId) : Bool := st.journal.any (·.writes id)

/-- Some plan, of the holder or of the owner, asks that the field holds the key. -/
def Graph.Asks (g : Graph c) (h : Holding) : Prop :=
  h ∈ g.holdings h.holder ∨ h ∈ g.holdings h.owner

instance (g : Graph c) (h : Holding) : Decidable (g.Asks h) :=
  inferInstanceAs (Decidable (_ ∨ _))

namespace Copying

variable {m : Type → Type} [Monad m]

/-- A key set into its field. -/
def plain : Copying c m := fun holder field _ key => Saving.setAt holder field key

/-- A key set into a field that some plan asks to hold it, if its owner's row is there: it was
stored before the call, or has been sent. Else something else is done. -/
def guarded (g : Graph c) (stored : NodeId → Bool) (otherwise : Copying c m) : Copying c m :=
  fun holder field owner key => do
    let st ← get
    if g.Asks ⟨holder, field, owner⟩ ∧
        (owner = holder ∨ stored owner = true ∨ st.hasWritten owner = true) then
      Saving.setAt holder field key
    else otherwise holder field owner key

end Copying

namespace Saving

open Process SaveState

variable {σ : Type}

theorem saveVisited_eq_by (s : Session c (StateM σ)) (save : NodeId → Saving c (StateM σ) Unit)
    (id : NodeId) (n : Node c) :
    saveVisited s true save id n = saveVisitedBy Copying.plain s save id n :=
  saveVisited_eq s true save id n

/-- Saving sets keys into their fields. -/
theorem saveNode_eq_by (s : Session c (StateM σ)) (fuel : Nat) :
    saveNode s true fuel = saveNodeBy Copying.plain s fuel := by
  induction fuel with
  | zero => rfl
  | succ fuel ih =>
    funext id
    rw [saveNode, saveNodeBy, ih, visit, visitBy]
    refine bind_congr fun st => ?_
    cases st.graph.node? id with
    | none => rfl
    | some n => simp only [saveVisited_eq_by]

end Saving

/-! ## Orderly states -/

namespace SaveState

/-- Between two visits: at most `n` nodes have not been visited, those that have been have also been
written, and the others are as in the given graph; the nodes of `D` apart. -/
structure Orderly (g : Graph c) (n : Nat) (D : NodeId → Prop) (st : SaveState c) : Prop where
  frame : st.graph.frame = g.frame
  room : st.unvisited.length ≤ n
  written : ∀ id ∈ st.visited, ¬ D id → st.hasWritten id = true
  untouched : ∀ id, id ∉ st.visited → ¬ D id → st.graph.node? id = g.node? id

variable {g : Graph c} {n : Nat} {D D' : NodeId → Prop} {st st' : SaveState c} {id : NodeId}

theorem hasWritten_noted (h : st.hasWritten id = true) (event : SaveEvent) :
    (st.noted event).hasWritten id = true := by
  rw [hasWritten, List.any_eq_true] at h ⊢
  obtain ⟨e, he, writes⟩ := h
  exact ⟨e, List.mem_append_left _ he, writes⟩

theorem Orderly.noted (h : Orderly g n D st) (event : SaveEvent) :
    Orderly g n D (st.noted event) :=
  ⟨h.frame, h.room, fun i hi hd => hasWritten_noted (h.written i hi hd) event, h.untouched⟩

/-- A value of a node that has been visited, or is set apart. -/
theorem Orderly.withValue (h : Orderly g n D st) (hid : id ∈ st.visited ∨ D id) (i : Nat)
    (v : Value) : Orderly g n D (st.withValue id i v) := by
  have still := still_withValue st id i v
  refine ⟨still.frame.trans h.frame, Nat.le_trans (length_unvisited_le still.onward) h.room,
    h.written, fun other hv hd => ?_⟩
  have ne : id ≠ other := by
    rintro rfl
    exact hid.elim hv hd
  rw [SaveState.withValue, Graph.setAt, Graph.node?_modify, if_neg ne]
  exact h.untouched other hv hd

theorem Orderly.mono (h : Orderly g n D st) (hD : ∀ i, D i → D' i) : Orderly g n D' st :=
  ⟨h.frame, h.room, fun i hi hd => h.written i hi fun k => hd (hD i k),
    fun i hi hd => h.untouched i hi fun k => hd (hD i k)⟩

theorem Orderly.grow {k : Nat} (h : Orderly g n D st) (hk : n ≤ k) : Orderly g k D st :=
  ⟨h.frame, Nat.le_trans h.room hk, h.written, h.untouched⟩

/-- A node that is not there need not be set apart. -/
theorem Orderly.of_missing (h : Orderly g n (fun i => i = id ∧ i ∉ st.visited) st)
    (missing : st.graph.node? id = none) : Orderly g n (fun _ => False) st := by
  refine ⟨h.frame, h.room, fun i hi _ => h.written i hi fun k => k.2 hi, fun i hi _ => ?_⟩
  by_cases same : i = id
  · subst same
    rw [missing, Graph.node?_eq_none_of_frame h.frame.symm missing]
  · exact h.untouched i hi fun k => same k.1

/-- So nothing is to be done to visit it. -/
theorem Orderly.of_missing_visit (h : Orderly g n (fun i => i = id ∧ i ∉ st.visited) st)
    (missing : st.graph.node? id = none) : Orderly g n (fun _ => False) st ∧
      st.visited ⊆ st.visited ∧ ((g.node? id).isSome → id ∈ st.visited) := by
  refine ⟨h.of_missing missing, .refl _, fun there => ?_⟩
  rw [Graph.node?_eq_none_of_frame h.frame.symm missing] at there
  cases there

/-- Neither does one that has been visited. -/
theorem Orderly.of_visited (h : Orderly g n (fun i => i = id ∧ i ∉ st.visited) st)
    (hid : id ∈ st.visited) : Orderly g n (fun _ => False) st :=
  h.mono fun _ k => k.2 (k.1 ▸ hid)

/-- A node is marked: it has not been written yet. -/
theorem Orderly.marked {m : Node c} (h : Orderly g (n + 1) (fun i => i = id ∧ i ∉ st.visited) st)
    (hm : st.graph.node? id = some m) (hid : id ∉ st.visited) :
    Orderly g n (· = id) (st.marked id) := by
  refine ⟨h.frame, ?_, fun i hi ne => ?_, fun i hi ne => ?_⟩
  · have fewer := length_unvisited_marked hm hid
    have room := h.room
    omega
  · obtain hi | hi := List.mem_append.mp hi
    · exact h.written i hi fun k => k.2 hi
    · exact absurd (List.mem_singleton.mp hi) ne
  · exact h.untouched i (fun k => hi (List.mem_append_left _ k)) fun k => ne k.1

end SaveState

namespace Saving

open Process SaveState

variable {σ : Type} {s : Session c (StateM σ)} {g : Graph c} {n : Nat} {D : NodeId → Prop}
  {st st' : SaveState c} {w w' : σ} {id : NodeId}

/-! ## Writes -/

theorem orderly_update (h : Orderly g n D st) (run : Runs (update s id) st w () st' w') :
    Orderly g n D st' ∧ st'.visited = st.visited := by
  cases hn : st.graph.node? id with
  | none =>
    rw [update, runs_get_bind, hn] at run
    obtain ⟨-, rfl, -⟩ := runs_pure.mp run
    exact ⟨h, rfl⟩
  | some m =>
    rw [runs_update hn run]
    exact ⟨h.noted _, rfl⟩

/-- The first write of a node: from then on it counts as written. -/
theorem orderly_persist (h : Orderly g n (· = id) st) (hid : id ∈ st.visited) {m : Node c}
    (hm : st.graph.node? id = some m) (run : Runs (persist s id) st w () st' w') :
    Orderly g n (fun _ => False) st' ∧ st'.visited = st.visited := by
  have wrote {t : SaveState c} (ht : Orderly g n (· = id) t) (same : t.visited = st.visited)
      (hw : t.hasWritten id = true) : Orderly g n (fun _ => False) t := by
    refine ⟨ht.frame, ht.room, fun i hi _ => ?_, fun i hi _ => ?_⟩
    · by_cases here : i = id
      · rw [here, hw]
      · exact ht.written i hi here
    · exact ht.untouched i hi fun here => hi (by rw [here, same]; exact hid)
  have sent (t : SaveState c) {event : SaveEvent} (writes : event.writes id = true) :
      (t.noted event).hasWritten id = true := by
    rw [hasWritten, List.any_eq_true]
    exact ⟨event, List.mem_append_right _ (List.mem_singleton.mpr rfl), writes⟩
  obtain rfl | rfl | ⟨i, key, -, -, rfl⟩ := runs_persist hm run
  · exact ⟨wrote ((h.noted _).noted _) rfl (sent _ (by simp [SaveEvent.writes])), rfl⟩
  · exact ⟨wrote ((h.noted _).noted _) rfl (sent _ (by simp [SaveEvent.writes])), rfl⟩
  · refine ⟨wrote (((h.noted _).noted _).withValue (.inl hid) i key) rfl ?_, rfl⟩
    exact sent _ (by simp [SaveEvent.writes])

/-! ## Guarded and plain saving -/

variable {stored : NodeId → Bool} {otherwise : Copying c (StateM σ)}

/-- Where the owner's row is there, the key is set into its field. -/
theorem matches_guarded {holder field owner : Nat} {key : Value} {Q : Unit → SaveState c → Prop}
    (asks : g.Asks ⟨holder, field, owner⟩)
    (there : owner = holder ∨ stored owner = true ∨ st.hasWritten owner = true)
    (hQ : Q () (st.withValue holder field key)) :
    Matches Q (Copying.guarded g stored otherwise holder field owner key)
      (setAt holder field key) st w := by
  refine ⟨?_, fun a t v run => ?_⟩
  · rw [Copying.guarded, outcome_get_bind, if_pos ⟨asks, there⟩]
  · obtain ⟨rfl, -⟩ := runs_setAt.mp run
    exact hQ

variable {X : NodeId → Prop} {V : List NodeId}

/-- Children whose keys parents hold have rows as soon as they have keys. -/
def KeyedChildrenStored (g : Graph c) (X : NodeId → Prop) (stored : NodeId → Bool) : Prop :=
  ∀ id, X id → ∀ h ∈ g.holdings id, h.holder = id → h.owner ≠ id →
    (g.key h.owner).isUnassignedKey = false → stored h.owner = true

/-- A child with a key has a row, whether it has been visited or not. -/
theorem there_of_key (keyed : KeyedChildrenStored g X stored) (hx : X id)
    (hst : Orderly g n (· = id) st) {h : Holding} (hh : h ∈ g.holdings id) (holder : h.holder = id)
    (key : (st.graph.key h.owner).isUnassignedKey = false) :
    h.owner = h.holder ∨ stored h.owner = true ∨ st.hasWritten h.owner = true := by
  by_cases same : h.owner = id
  · exact .inl (same.trans holder.symm)
  · by_cases hv : h.owner ∈ st.visited
    · exact .inr (.inr (hst.written _ hv same))
    · have given : st.graph.key h.owner = g.key h.owner := by
        rw [Graph.key, Graph.key, hst.untouched _ hv same]
      rw [given] at key
      exact .inr (.inl (keyed id hx h hh holder same key))

theorem matches_linkKeyedChildren (keyed : KeyedChildrenStored g X stored) (hx : X id)
    (hV : id ∈ V) {e : Entity} {plan : Plan c e}
    (hh : ∀ h ∈ plan.holdings id (g.children id plan.reference.name), h ∈ g.holdings id)
    (hst : Orderly g n (· = id) st ∧ V ⊆ st.visited) :
    Matches (fun _ t => Orderly g n (· = id) t ∧ V ⊆ t.visited)
      (linkKeyedChildrenBy (Copying.guarded g stored otherwise) id plan)
      (linkKeyedChildren id plan) st w := by
  have children := Graph.children_of_frame hst.1.frame id plan.reference.name
  rw [linkKeyedChildrenBy, linkKeyedChildren, matches_get_bind]
  dsimp only
  cases hl : plan.link with
  | childHoldsKey field => exact matches_pure hst
  | parentHoldsKey field =>
    dsimp only
    cases hc : (st.graph.children id plan.reference.name).head? with
    | none => exact matches_pure hst
    | some child =>
      dsimp only
      split
      · exact matches_pure hst
      · next key =>
        have hmem : ⟨id, field, child⟩ ∈ g.holdings id :=
          hh _ (Plan.mem_holdings.mpr (.inr ⟨field, child, hl, children ▸ hc, rfl⟩))
        exact matches_guarded (.inl hmem)
          (there_of_key keyed hx hst.1 hmem rfl (by simpa using key))
          ⟨hst.1.withValue (.inl (hst.2 hV)) _ _, hst.2⟩

theorem matches_takeChildKey (hV : id ∈ V) {child : NodeId} {field : Nat}
    (hmem : ⟨id, field, child⟩ ∈ g.holdings id)
    (hst : Orderly g n (fun _ => False) st ∧ V ⊆ st.visited)
    (hc : (g.node? child).isSome → child ∈ st.visited) :
    Matches (fun _ t => Orderly g n (fun _ => False) t ∧ V ⊆ t.visited)
      (takeChildKeyBy (Copying.guarded g stored otherwise) id field child)
      (takeChildKey id field child) st w := by
  rw [takeChildKeyBy, takeChildKey, matches_get_bind]
  dsimp only
  split
  · exact matches_pure hst
  · next key =>
    have assigned : (st.graph.key child).isUnassignedKey = false := by
      simp only [Bool.or_eq_true, not_or, Bool.not_eq_true] at key
      exact key.1
    have hv : child ∈ st.visited := by
      refine hc ?_
      cases hn : g.node? child with
      | some m => rfl
      | none =>
        rw [Graph.key, Graph.node?_eq_none_of_frame hst.1.frame hn] at assigned
        cases assigned
    refine matches_bind (matches_guarded (.inl hmem)
      (.inr (.inr (hst.1.written child hv not_false))) ?_) fun _ _ _ ht => matches_pure ht
    exact ⟨hst.1.withValue (.inl (hst.2 hV)) _ _, hst.2⟩

section References

variable {save saveBy : NodeId → Saving c (StateM σ) Unit}
  (hsave : ∀ i, X i → ∀ st w, Orderly g n (fun j => j = i ∧ j ∉ st.visited) st →
    Matches (fun _ t => Orderly g n (fun _ => False) t ∧ st.visited ⊆ t.visited ∧
      ((g.node? i).isSome → i ∈ t.visited)) (saveBy i) (save i) st w)
include hsave

theorem matches_saveChild (hV : id ∈ V) {child : NodeId} (hx : X child) {key : Value} {field : Nat}
    (hmem : ⟨child, field, id⟩ ∈ g.holdings id)
    (hst : Orderly g n (fun _ => False) st ∧ V ⊆ st.visited) :
    Matches (fun _ t => Orderly g n (fun _ => False) t ∧ V ⊆ t.visited)
      (saveChildBy (Copying.guarded g stored otherwise) s saveBy id key field child)
      (saveChild s save key field child) st w := by
  have there : id = child ∨ stored id = true ∨ st.hasWritten id = true :=
    .inr (.inr (hst.1.written id (hst.2 hV) not_false))
  rw [saveChildBy, saveChild, matches_get_bind]
  split
  · next hv =>
    split
    · exact matches_pure hst
    · refine matches_bind (matches_guarded
        (Q := fun _ t => Orderly g n (fun _ => False) t ∧ V ⊆ t.visited) (.inr hmem) there
        ⟨hst.1.withValue (.inl hv) _ _, hst.2⟩) fun _ t v ht => ?_
      refine matches_self fun _ u x run => ?_
      obtain ⟨hu, same⟩ := orderly_update ht.1 run
      exact ⟨hu, same ▸ ht.2⟩
  · next hv =>
    have apart : Orderly g n (fun j => j = child ∧ j ∉ st.visited)
        (st.withValue child field key) :=
      (hst.1.mono fun _ => False.elim).withValue (.inr ⟨rfl, hv⟩) _ _
    refine matches_bind (matches_guarded
      (Q := fun _ t => Orderly g n (fun j => j = child ∧ j ∉ t.visited) t ∧ V ⊆ t.visited)
      (.inr hmem) there ⟨apart, hst.2⟩) fun _ t v ht => ?_
    exact (hsave child hx t v ht.1).mono fun _ u hu => ⟨hu.1, List.Subset.trans ht.2 hu.2.1⟩

theorem matches_saveReference (closed : ∀ i, X i → ∀ target ∈ g.planned i, X target) (hx : X id)
    (hV : id ∈ V) {e : Entity} {plan : Plan c e}
    (hh : ∀ h ∈ plan.holdings id (g.children id plan.reference.name), h ∈ g.holdings id)
    (ht : ∀ target ∈ plan.targets (g.children id plan.reference.name), target ∈ g.planned id)
    (hst : Orderly g n (fun _ => False) st ∧ V ⊆ st.visited) :
    Matches (fun _ t => Orderly g n (fun _ => False) t ∧ V ⊆ t.visited)
      (saveReferenceBy (Copying.guarded g stored otherwise) s saveBy id plan)
      (saveReference s save id plan) st w := by
  have children := Graph.children_of_frame hst.1.frame id plan.reference.name
  rw [saveReferenceBy, saveReference, matches_get_bind]
  dsimp only
  rw [children]
  cases hl : plan.link with
  | childHoldsKey field =>
    have target : ∀ child ∈ g.children id plan.reference.name, X child := fun child hc =>
      closed id hx child (ht child (by simpa [Plan.targets, hl] using hc))
    have holding : ∀ child ∈ g.children id plan.reference.name,
        ⟨child, field, id⟩ ∈ g.holdings id := fun child hc =>
      hh _ (Plan.mem_holdings.mpr (.inl ⟨field, child, hl, hc, rfl⟩))
    exact matches_bind (matches_forM (fun child hc t v ht =>
      matches_saveChild hsave hV (target child hc) (holding child hc) ht) hst)
      fun _ _ _ ht => matches_pure ht
  | parentHoldsKey field =>
    dsimp only
    cases hc : (g.children id plan.reference.name).head? with
    | none => exact matches_pure hst
    | some child =>
      have hmem : ⟨id, field, child⟩ ∈ g.holdings id :=
        hh _ (Plan.mem_holdings.mpr (.inr ⟨field, child, hl, hc, rfl⟩))
      have target : X child :=
        closed id hx child (ht child (by simp [Plan.targets, hl, hc]))
      dsimp only
      split
      · next hv => exact matches_takeChildKey hV hmem hst fun _ => hv
      · refine matches_bind (hsave child target st w (hst.1.mono fun _ => False.elim))
          fun _ t v hsaved => ?_
        exact matches_takeChildKey hV hmem
          ⟨hsaved.1, List.Subset.trans hst.2 hsaved.2.1⟩ hsaved.2.2

/-- What follows when a node has been marked. -/
theorem matches_saveVisited (keyed : KeyedChildrenStored g X stored)
    (closed : ∀ i, X i → ∀ target ∈ g.planned i, X target) (hx : X id) (hV : id ∈ V) {m : Node c}
    (hm : st.graph.node? id = some m) (hst : Orderly g n (· = id) st ∧ V ⊆ st.visited) :
    Matches (fun _ t => Orderly g n (fun _ => False) t ∧ V ⊆ t.visited)
      (saveVisitedBy (Copying.guarded g stored otherwise) s saveBy id m)
      (saveVisited s true save id m) st w := by
  rw [saveVisitedBy, saveVisited_eq, if_pos rfl]
  cases hp : m.entity.plans c .all with
  | error why => exact matches_self fun _ _ _ run => absurd run runs_throw
  | ok plans =>
    have holdings : ∀ plan ∈ plans,
        ∀ h ∈ plan.holdings id (g.children id plan.reference.name), h ∈ g.holdings id :=
      fun plan hplan _ hh => Graph.mem_alongPlans_of_plan hst.1.frame hm hp hplan hh
    have targets : ∀ plan ∈ plans,
        ∀ target ∈ plan.targets (g.children id plan.reference.name), target ∈ g.planned id :=
      fun plan hplan _ ht => Graph.mem_alongPlans_of_plan hst.1.frame hm hp hplan ht
    refine matches_bind (matches_forM (fun plan hplan t v ht =>
      matches_linkKeyedChildren keyed hx hV (holdings plan hplan) ht) hst) fun _ t v ht => ?_
    obtain ⟨m', hm', -⟩ := Graph.node?_of_frame (ht.1.frame.trans hst.1.frame.symm) hm
    refine matches_bind (Q := fun _ u => Orderly g n (fun _ => False) u ∧ V ⊆ u.visited)
      (matches_self fun _ u x run => ?_) fun _ u x hu => ?_
    · obtain ⟨hu, same⟩ := orderly_persist ht.1 (ht.2 hV) hm' run
      exact ⟨hu, same ▸ ht.2⟩
    refine matches_bind (matches_mapM (fun plan hplan t v ht =>
      matches_saveReference hsave closed hx hV (holdings plan hplan) (targets plan hplan) ht) hu)
      fun changes y z hy => ?_
    split
    · refine matches_self fun _ st' w' run => ?_
      obtain ⟨hu, same⟩ := orderly_update hy.1 run
      exact ⟨hu, same ▸ hy.2⟩
    · exact matches_pure hy

/-- A visit leaves an orderly state, in which the node is marked if it is there. -/
theorem matches_visit (keyed : KeyedChildrenStored g X stored)
    (closed : ∀ i, X i → ∀ target ∈ g.planned i, X target) (hx : X id)
    (hst : Orderly g (n + 1) (fun j => j = id ∧ j ∉ st.visited) st) :
    Matches (fun _ t => Orderly g (n + 1) (fun _ => False) t ∧ st.visited ⊆ t.visited ∧
        ((g.node? id).isSome → id ∈ t.visited))
      (visitBy (Copying.guarded g stored otherwise) s saveBy id) (visit s true save id) st w := by
  rw [visitBy, visit, matches_get_bind]
  cases hm : st.graph.node? id with
  | none => exact matches_pure (hst.of_missing_visit hm)
  | some m =>
    dsimp only
    split
    · next hv => exact matches_pure ⟨hst.of_visited hv, .refl _, fun _ => hv⟩
    · next hv =>
      have hV : id ∈ (st.marked id).visited := by simp [SaveState.marked]
      have hm' : (st.marked id).graph.node? id = some m := hm
      refine matches_set_bind.mpr (Matches.mono
        (matches_saveVisited hsave keyed closed hx hV hm' ⟨hst.marked hm hv, .refl _⟩)
        fun _ t ht => ?_)
      exact ⟨ht.1.grow (Nat.le_succ n), List.Subset.trans (List.subset_append_left _ _) ht.2,
        fun _ => ht.2 hV⟩

end References

theorem matches_saveNode (keyed : KeyedChildrenStored g X stored)
    (closed : ∀ i, X i → ∀ target ∈ g.planned i, X target) (fuel : Nat) (hx : X id)
    (hst : Orderly g fuel (fun j => j = id ∧ j ∉ st.visited) st) :
    Matches (fun _ t => Orderly g fuel (fun _ => False) t ∧ st.visited ⊆ t.visited ∧
        ((g.node? id).isSome → id ∈ t.visited))
      (saveNodeBy (Copying.guarded g stored otherwise) s fuel id) (saveNode s true fuel id)
      st w := by
  induction fuel generalizing id st w with
  | zero =>
    rw [saveNodeBy, saveNode]
    have full : st.unvisited.length = 0 := Nat.le_zero.mp hst.room
    cases hm : st.graph.node? id with
    | none => exact matches_pure (hst.of_missing_visit hm)
    | some m =>
      have hv := mem_visited_of_unvisited full hm
      exact matches_pure ⟨hst.of_visited hv, .refl _, fun _ => hv⟩
  | succ fuel ih =>
    exact matches_visit (fun i hi t v ht => ih hi ht) keyed closed hx hst

end Saving

/-! ## Calls -/

namespace Session

open Process SaveState Saving

variable {σ : Type}

/-- Saving sets keys into their fields. -/
theorem saveAll_eq_by (s : Session c (StateM σ)) (g : Graph c) (roots : List NodeId) :
    s.saveAll g roots true = s.saveAllBy Copying.plain g roots := by
  rw [saveAll, saveAllBy, saveNode_eq_by]

/-- **No key is taken over too early**, where the children whose keys parents hold have rows as soon
as they have keys: whatever would be done in place of taking over the key of a node without a row,
or of taking a key over that no plan asks for, any call ends in the same way. -/
theorem saveAll_guarded {g : Graph c} {roots : List NodeId} {stored : NodeId → Bool}
    (keyed : KeyedChildrenStored g (g.Reached roots) stored) (s : Session c (StateM σ))
    (otherwise : Copying c (StateM σ)) (w : σ) :
    (s.saveAllBy (Copying.guarded g stored otherwise) g roots).run w =
      (s.saveAll g roots true).run w := by
  have begun : Orderly g g.nodes.length (fun _ => False) (start g) :=
    ⟨rfl, length_unvisited_start g, fun _ hi => absurd hi List.not_mem_nil, fun _ _ _ => rfl⟩
  refine (matches_forM (P := Orderly g g.nodes.length fun _ => False)
    (fun root hr t v ht => ?_) begun).1
  exact Matches.mono (matches_saveNode keyed Graph.Reached.closed g.nodes.length
    (Graph.reached_of_mem root hr) (ht.mono fun _ => False.elim)) fun _ _ hu => hu.1

end Session

end RowGraph
