import RowGraph.Proofs.Save.Runs

/-!
# What has been written

The journal of a call holds the values that each insertion and update sent. A node is up to date
when the last of them for this node carries the values that the node has. An insertion leaves the
key to the database where the node still awaits it; all other values it has to carry.

* `UpToDate.of_eq`: a node stays up to date while others are written and changed.
* `upToDate_of_update`, `upToDate_of_persist`: a write brings its node up to date.
-/

namespace RowGraph

variable {c : Catalog}

namespace SaveEvent

/-- Whether a row of the node is sent. -/
def writes (id : NodeId) : SaveEvent → Bool
  | .persist _ => false
  | .insert node _ => node == id
  | .update node _ => node == id

/-- The values sent are those of the node. -/
def Carries (n : Node c) : SaveEvent → Prop
  | .persist _ => False
  | .insert _ values =>
    values.length = n.values.length ∧
      ∀ i, n.entity.awaitsKey values i = false → Entity.valueAt values i = n.valueAt i
  | .update _ values => values = n.values

end SaveEvent

namespace SaveState

/-- The last insertion or update of a node. -/
def lastWrite? (st : SaveState c) (id : NodeId) : Option SaveEvent :=
  (st.journal.filter (·.writes id)).getLast?

/-- The last insertion or update of a node carries the values that it has. -/
def UpToDate (st : SaveState c) (id : NodeId) : Prop :=
  ∃ n event, st.graph.node? id = some n ∧ st.lastWrite? id = some event ∧ event.Carries n

theorem lastWrite?_noted (st : SaveState c) (event : SaveEvent) (id : NodeId) :
    (st.noted event).lastWrite? id =
      if event.writes id then some event else st.lastWrite? id := by
  simp only [lastWrite?, noted, List.filter_append, List.filter_cons, List.filter_nil]
  split <;> simp

theorem UpToDate.of_eq {a b : SaveState c} {id : NodeId} (h : UpToDate a id)
    (hnode : b.graph.node? id = a.graph.node? id) (hlast : b.lastWrite? id = a.lastWrite? id) :
    UpToDate b id := by
  obtain ⟨n, event, hn, he, hc⟩ := h
  exact ⟨n, event, hnode.trans hn, hlast.trans he, hc⟩

/-- A write of another node. -/
theorem UpToDate.noted {st : SaveState c} {id : NodeId} (h : UpToDate st id) {event : SaveEvent}
    (he : event.writes id = false) : UpToDate (st.noted event) id :=
  h.of_eq rfl (by rw [lastWrite?_noted, he]; rfl)

/-- A change of another node. -/
theorem UpToDate.withValue {st : SaveState c} {id other : NodeId} (h : UpToDate st id)
    (hne : other ≠ id) (i : Nat) (v : Value) : UpToDate (st.withValue other i v) id :=
  h.of_eq (by rw [SaveState.withValue, Graph.setAt, Graph.node?_modify, if_neg hne]) rfl

theorem upToDate_update {st : SaveState c} {id : NodeId} {n : Node c}
    (hn : st.graph.node? id = some n) : UpToDate (st.noted (.update id n.values)) id :=
  ⟨n, .update id n.values, hn, by rw [lastWrite?_noted]; simp [SaveEvent.writes], rfl⟩

theorem upToDate_insert {st : SaveState c} {id : NodeId} {n : Node c}
    (hn : st.graph.node? id = some n) : UpToDate (st.noted (.insert id n.values)) id :=
  ⟨n, .insert id n.values, hn, by rw [lastWrite?_noted]; simp [SaveEvent.writes], rfl,
    fun _ _ => rfl⟩

/-- A row inserted for the key that it awaits, with the answered key in the node. -/
theorem upToDate_insertForKey {st : SaveState c} {id : NodeId} {n : Node c}
    (hn : st.graph.node? id = some n) {i : Nat} (hi : n.entity.awaitsKey n.values i = true)
    (key : Value) : UpToDate ((st.noted (.insert id n.values)).withValue id i key) id := by
  refine ⟨n.setAt i key, .insert id n.values, ?_, ?_, ?_, fun j hj => ?_⟩
  · simp [SaveState.withValue, SaveState.noted, Graph.setAt, Graph.node?_modify, hn]
  · exact (lastWrite?_noted st _ id).trans (by simp [SaveEvent.writes])
  · simp [Node.setAt]
  · have hne : i ≠ j := fun h => by
      subst h
      exact Bool.false_ne_true (hj.symm.trans hi)
    exact ((n.valueAt_setAt i j key).trans (if_neg fun h => hne h.1)).symm

end SaveState

namespace Saving

open Process SaveState

variable {σ : Type} {s : Session c (StateM σ)} {st st' : SaveState c} {w w' : σ} {id : NodeId}

theorem upToDate_of_update {n : Node c} (hn : st.graph.node? id = some n)
    (h : Runs (update s id) st w () st' w') : UpToDate st' id := by
  rw [runs_update hn h]
  exact upToDate_update hn

theorem upToDate_of_persist {n : Node c} (hn : st.graph.node? id = some n)
    (h : Runs (persist s id) st w () st' w') : UpToDate st' id := by
  have hn' : (st.noted (.persist id)).graph.node? id = some n := hn
  obtain rfl | rfl | ⟨i, key, -, hi, rfl⟩ := runs_persist hn h
  · exact upToDate_insert hn'
  · exact upToDate_update hn'
  · exact upToDate_insertForKey hn' hi key

end Saving

end RowGraph
