import RowGraph.Proofs.Save.Steps

/-!
# What a success of saving consists of

One lemma for each function that saves: all the ways in which it can succeed, with the states in
between. What holds of successful calls is proved from these and not from the definitions.
-/

namespace RowGraph.Saving

open Process SaveState

variable {c : Catalog} {σ : Type} {s : Session c (StateM σ)} {st st' : SaveState c} {w w' : σ}

/-! ## One step first -/

section Bind

variable {α β : Type} {b : β}

theorem runs_note_bind {event : SaveEvent} {f : Unit → Saving c (StateM σ) β} :
    Runs (note event >>= f) st w b st' w' ↔ Runs (f ()) (st.noted event) w b st' w' :=
  Iff.rfl

theorem runs_ofCatalog_bind {x : Except CatalogError α} {f : α → Saving c (StateM σ) β} :
    Runs (ofCatalog x >>= f) st w b st' w' ↔ ∃ a, x = .ok a ∧ Runs (f a) st w b st' w' := by
  rw [runs_bind]
  constructor
  · rintro ⟨a, t, v, h, run⟩
    obtain ⟨rfl, rfl, rfl⟩ := runs_ofCatalog.mp h
    exact ⟨a, rfl, run⟩
  · rintro ⟨a, rfl, run⟩
    exact ⟨a, st, w, runs_ofCatalog.mpr ⟨rfl, rfl, rfl⟩, run⟩

theorem runs_ask_bind {answer : StateM σ (Except ExecutionError α)}
    {f : α → Saving c (StateM σ) β} : Runs (ask answer >>= f) st w b st' w' ↔
      ∃ a v, answer.run w = (.ok a, v) ∧ Runs (f a) st v b st' w' := by
  rw [runs_bind]
  constructor
  · rintro ⟨a, t, v, h, run⟩
    obtain ⟨answered, rfl⟩ := runs_ask.mp h
    exact ⟨a, v, answered, run⟩
  · rintro ⟨a, v, answered, run⟩
    exact ⟨a, st, v, runs_ask.mpr ⟨answered, rfl⟩, run⟩

theorem runs_discard_ask {answer : StateM σ (Except ExecutionError α)} :
    Runs (discard (ask answer) : Saving c (StateM σ) Unit) st w () st' w' ↔
      ∃ a, answer.run w = (.ok a, w') ∧ st' = st := by
  rw [runs_discard]
  exact exists_congr fun a => runs_ask.trans (and_congr_right fun _ => eq_comm)

end Bind

/-! ## Writes -/

theorem runs_insertRow_iff {id : NodeId} {n : Node c} : Runs (insertRow s id n) st w () st' w' ↔
    ∃ count, (s.database.execute (n.entity.insertion s.dialect n.values).sql
        (n.entity.insertion s.dialect n.values).values).run w = (.ok count, w') ∧
      st' = st.noted (.insert id n.values) := by
  rw [insertRow, runs_note_bind, runs_discard_ask]

theorem runs_updateRow_iff {id : NodeId} {n : Node c} : Runs (updateRow s id n) st w () st' w' ↔
    ∃ statement, n.entity.updateByKey s.dialect n.values = .ok statement ∧
      ∃ count, (s.database.execute statement.sql statement.values).run w = (.ok count, w') ∧
        st' = st.noted (.update id n.values) := by
  rw [updateRow, runs_ofCatalog_bind]
  exact exists_congr fun _ => and_congr_right fun _ => by rw [runs_note_bind, runs_discard_ask]

/-- The answer to a probe says that the row is there. -/
def Found (count : Option Value) : Prop := ((count.bind Value.asInt?).getD 0).toInt > 0

instance (count : Option Value) : Decidable (Found count) := inferInstanceAs (Decidable (_ > _))

theorem runs_insertOrUpdate_iff {id : NodeId} {n : Node c} :
    Runs (insertOrUpdate s id n) st w () st' w' ↔
      ∃ probe, n.entity.countByKey s.dialect n.key = .ok probe ∧
        ∃ count v, (s.database.scalar probe.sql probe.values).run w = (.ok count, v) ∧
          if Found count then Runs (updateRow s id n) st v () st' w'
          else Runs (insertRow s id n) st v () st' w' := by
  rw [insertOrUpdate, runs_ofCatalog_bind]
  refine exists_congr fun probe => and_congr_right fun _ => ?_
  rw [runs_ask_bind]
  refine exists_congr fun count => exists_congr fun v => and_congr_right fun _ => ?_
  by_cases found : Found count
  · rw [if_pos found, if_pos (show _ > _ from found)]
  · rw [if_neg found, if_neg (show ¬ _ > _ from found)]

theorem runs_insertRow {id : NodeId} {n : Node c} (h : Runs (insertRow s id n) st w () st' w') :
    st' = st.noted (.insert id n.values) := by
  obtain ⟨-, -, rfl⟩ := runs_insertRow_iff.mp h
  rfl

theorem runs_updateRow {id : NodeId} {n : Node c} (h : Runs (updateRow s id n) st w () st' w') :
    st' = st.noted (.update id n.values) := by
  obtain ⟨-, -, -, -, rfl⟩ := runs_updateRow_iff.mp h
  rfl

/-- A row that is inserted for its key gets the one that the database answers. -/
theorem runs_insertForKey {id : NodeId} {n : Node c} (hn : st.graph.node? id = some n)
    (h : Runs (insertForKey s id n) st w () st' w') :
    ∃ statement, n.entity.insertionWithKey s.dialect n.values = .ok statement ∧
      ∃ i key, (s.database.scalar statement.sql statement.values).run w = (.ok (some key), w') ∧
        n.entity.primaryKey = some i ∧ key.isNull = false ∧
        st' = (st.noted (.insert id n.values)).withValue id i key := by
  obtain ⟨statement, made, h⟩ := runs_ofCatalog_bind.mp h
  obtain ⟨answer, v, answered, h⟩ := runs_ask_bind.mp (runs_note_bind.mp h)
  refine ⟨statement, made, ?_⟩
  cases answer with
  | none => exact absurd h runs_throw
  | some key =>
    dsimp only at h
    split at h
    · obtain ⟨_, _, _, h, -⟩ := runs_bind.mp h
      exact absurd h runs_throw
    · next hnull =>
      obtain ⟨keyed, hk, h⟩ := runs_ofCatalog_bind.mp h
      obtain ⟨i, hi, rfl⟩ := Node.setKey_eq_ok hk
      obtain ⟨rfl, rfl⟩ := runs_modify.mp h
      refine ⟨i, key, answered, hi, by simpa using hnull, ?_⟩
      exact congrArg (fun g => SaveState.mk g _ _) (Graph.put_setAt hn i key)

theorem runs_insertOrUpdate {id : NodeId} {n : Node c}
    (h : Runs (insertOrUpdate s id n) st w () st' w') :
    st' = st.noted (.insert id n.values) ∨ st' = st.noted (.update id n.values) := by
  obtain ⟨-, -, count, v, -, h⟩ := runs_insertOrUpdate_iff.mp h
  split at h
  · exact .inr (runs_updateRow h)
  · exact .inl (runs_insertRow h)

/-- The first write of a node with a key: an insertion if the key is awaited, and else an update or
an insertion. -/
theorem runs_persist_iff {id : NodeId} {n : Node c} (hn : st.graph.node? id = some n) :
    Runs (persist s id) st w () st' w' ↔ ∃ key, n.entity.primaryKey = some key ∧
      if n.entity.awaitsKey n.values key then
        Runs (insertForKey s id n) (st.noted (.persist id)) w () st' w'
      else Runs (insertOrUpdate s id n) (st.noted (.persist id)) w () st' w' := by
  rw [persist, runs_get_bind, hn]
  refine (runs_note_bind.trans runs_ofCatalog_bind).trans (exists_congr fun key => ?_)
  have keyed : n.entity.requireKey = .ok key ↔ n.entity.primaryKey = some key := by
    cases h : n.entity.primaryKey <;> simp [Entity.requireKey, h]
  rw [keyed]
  refine and_congr_right fun hk => ?_
  have awaits : n.entity.awaitsKey n.values key =
      ((n.entity.fieldAt key).isGenerated && n.key.isUnassignedKey) := by
    simp [Entity.awaitsKey, hk, Node.key, Node.valueAt, Entity.valueAt]
  rw [awaits]
  split <;> rfl

/-- The first write: a row inserted or updated as it is, or a row that awaits its key inserted and
the answered key put into the node. -/
theorem runs_persist {id : NodeId} {n : Node c} (hn : st.graph.node? id = some n)
    (h : Runs (persist s id) st w () st' w') :
    st' = (st.noted (.persist id)).noted (.insert id n.values) ∨
    st' = (st.noted (.persist id)).noted (.update id n.values) ∨
    ∃ i key, n.entity.primaryKey = some i ∧ n.entity.awaitsKey n.values i = true ∧
      st' = ((st.noted (.persist id)).noted (.insert id n.values)).withValue id i key := by
  obtain ⟨i, hi, h⟩ := (runs_persist_iff hn).mp h
  split at h
  · next hawaits =>
    have hn : (st.noted (.persist id)).graph.node? id = some n := hn
    obtain ⟨-, -, j, key, -, hj, -, rfl⟩ := runs_insertForKey hn h
    obtain rfl : i = j := Option.some.inj (hi.symm.trans hj)
    exact .inr (.inr ⟨i, key, hi, hawaits, rfl⟩)
  · rcases runs_insertOrUpdate h with rfl | rfl
    · exact .inl rfl
    · exact .inr (.inl rfl)

theorem runs_update {id : NodeId} {n : Node c} (hn : st.graph.node? id = some n)
    (h : Runs (update s id) st w () st' w') : st' = st.noted (.update id n.values) := by
  rw [update, runs_get_bind, hn] at h
  exact runs_updateRow h

/-! ## References -/

/-- The key of the first child taken over before the first write, if there is one. -/
theorem runs_linkKeyedChildren {e : Entity} {id : NodeId} {plan : Plan c e}
    (h : Runs (linkKeyedChildren id plan : Saving c (StateM σ) Unit) st w () st' w') :
    st' = st ∨ ∃ field child, plan.link = .parentHoldsKey field ∧
      (st.graph.children id plan.reference.name).head? = some child ∧
      (st.graph.key child).isUnassignedKey = false ∧
      st' = st.withValue id field (st.graph.key child) := by
  rw [linkKeyedChildren, runs_get_bind] at h
  dsimp only at h
  cases hl : plan.link with
  | childHoldsKey field =>
    rw [hl] at h
    exact .inl (runs_pure.mp h).2.1.symm
  | parentHoldsKey field =>
    rw [hl] at h
    dsimp only at h
    cases hc : (st.graph.children id plan.reference.name).head? with
    | none =>
      rw [hc] at h
      exact .inl (runs_pure.mp h).2.1.symm
    | some child =>
      rw [hc] at h
      dsimp only at h
      split at h
      · exact .inl (runs_pure.mp h).2.1.symm
      · next assigned =>
        exact .inr ⟨field, child, rfl, rfl, by simpa using assigned, (runs_setAt.mp h).1.symm⟩

theorem runs_saveChild {save : NodeId → Saving c (StateM σ) Unit} {key : Value} {field : Nat}
    {child : NodeId} (h : Runs (saveChild s save key field child) st w () st' w') :
    (child ∈ st.visited ∧ (st.graph.valueAt child field).same key = true ∧ st' = st) ∨
    (child ∈ st.visited ∧ Runs (update s child) (st.withValue child field key) w () st' w') ∨
    (child ∉ st.visited ∧ Runs (save child) (st.withValue child field key) w () st' w') := by
  rw [saveChild, runs_get_bind] at h
  split at h
  · next hc =>
    split at h
    · next hsame => exact .inl ⟨hc, hsame, (runs_pure.mp h).2.1.symm⟩
    · obtain ⟨_, t, v, ht, h⟩ := runs_bind.mp h
      obtain ⟨rfl, rfl⟩ := runs_setAt.mp ht
      exact .inr (.inl ⟨hc, h⟩)
  · next hc =>
    obtain ⟨_, t, v, ht, h⟩ := runs_bind.mp h
    obtain ⟨rfl, rfl⟩ := runs_setAt.mp ht
    exact .inr (.inr ⟨hc, h⟩)

theorem runs_takeChildKey {id : NodeId} {field : Nat} {child : NodeId} {changed : Bool}
    (h : Runs (takeChildKey id field child : Saving c (StateM σ) Bool) st w changed st' w') :
    (changed = false ∧ st' = st ∧ ((st.graph.key child).isUnassignedKey = true ∨
      (st.graph.valueAt id field).same (st.graph.key child) = true)) ∨
    (changed = true ∧ (st.graph.key child).isUnassignedKey = false ∧
      st' = st.withValue id field (st.graph.key child)) := by
  rw [takeChildKey, runs_get_bind] at h
  dsimp only at h
  split at h
  · next hc =>
    obtain ⟨rfl, rfl, -⟩ := runs_pure.mp h
    exact .inl ⟨rfl, rfl, by simpa using hc⟩
  · next hc =>
    simp only [Bool.or_eq_true, not_or, Bool.not_eq_true] at hc
    obtain ⟨_, t, v, ht, h⟩ := runs_bind.mp h
    obtain ⟨rfl, rfl⟩ := runs_setAt.mp ht
    obtain ⟨rfl, rfl, -⟩ := runs_pure.mp h
    exact .inr ⟨rfl, hc.1, rfl⟩

theorem runs_saveReference_child {e : Entity} {save : NodeId → Saving c (StateM σ) Unit}
    {id : NodeId} {plan : Plan c e} {field : Fin plan.child.fields.length}
    (hl : plan.link = .childHoldsKey field) {changed : Bool}
    (h : Runs (saveReference s save id plan) st w changed st' w') :
    changed = false ∧ Runs ((st.graph.children id plan.reference.name).forM
      (saveChild s save (st.graph.key id) field)) st w () st' w' := by
  rw [saveReference, runs_get_bind, hl] at h
  obtain ⟨_, t, v, ht, h⟩ := runs_bind.mp h
  obtain ⟨rfl, rfl, rfl⟩ := runs_pure.mp h
  exact ⟨rfl, ht⟩

theorem runs_saveReference_parent {e : Entity} {save : NodeId → Saving c (StateM σ) Unit}
    {id : NodeId} {plan : Plan c e} {field : Fin e.fields.length}
    (hl : plan.link = .parentHoldsKey field) {changed : Bool}
    (h : Runs (saveReference s save id plan) st w changed st' w') :
    ((st.graph.children id plan.reference.name).head? = none ∧ changed = false ∧ st' = st) ∨
    ∃ child t v, (st.graph.children id plan.reference.name).head? = some child ∧
      ((child ∈ st.visited ∧ t = st) ∨ (child ∉ st.visited ∧ Runs (save child) st w () t v)) ∧
      Runs (takeChildKey id field child) t v changed st' w' := by
  rw [saveReference, runs_get_bind, hl] at h
  dsimp only at h
  cases hc : (st.graph.children id plan.reference.name).head? with
  | none =>
    rw [hc] at h
    obtain ⟨rfl, rfl, -⟩ := runs_pure.mp h
    exact .inl ⟨rfl, rfl, rfl⟩
  | some child =>
    rw [hc] at h
    dsimp only at h
    split at h
    · next hv => exact .inr ⟨child, st, w, rfl, .inl ⟨hv, rfl⟩, h⟩
    · next hv =>
      obtain ⟨_, t, v, ht, h⟩ := runs_bind.mp h
      exact .inr ⟨child, t, v, rfl, .inr ⟨hv, ht⟩, h⟩

/-! ## Visits -/

theorem runs_saveVisited {withReferences : Bool} {save : NodeId → Saving c (StateM σ) Unit}
    {id : NodeId} {n : Node c} (h : Runs (saveVisited s withReferences save id n) st w () st' w') :
    ∃ plans changes t v u x y z,
      n.entity.plans c (if withReferences then .all else .nothing) = .ok plans ∧
      Runs (plans.forM (linkKeyedChildren id)) st w () t v ∧
      Runs (persist s id) t v () u x ∧
      Runs (plans.mapM (saveReference s save id)) u x changes y z ∧
      ((changes.any (·) = false ∧ st' = y) ∨
        (changes.any (·) = true ∧ Runs (update s id) y z () st' w')) := by
  rw [saveVisited_eq] at h
  cases hp : n.entity.plans c (if withReferences then .all else .nothing) with
  | error why =>
    rw [hp] at h
    exact absurd h runs_throw
  | ok plans =>
    rw [hp] at h
    obtain ⟨_, t, v, ht, h⟩ := runs_bind.mp h
    obtain ⟨_, u, x, hu, h⟩ := runs_bind.mp h
    obtain ⟨changes, y, z, hy, h⟩ := runs_bind.mp h
    refine ⟨plans, changes, t, v, u, x, y, z, rfl, ht, hu, hy, ?_⟩
    split at h
    · next hc => exact .inr ⟨hc, h⟩
    · next hc => exact .inl ⟨by simpa using hc, (runs_pure.mp h).2.1.symm⟩

theorem runs_visit {withReferences : Bool} {save : NodeId → Saving c (StateM σ) Unit}
    {id : NodeId} (h : Runs (visit s withReferences save id) st w () st' w') :
    (st.graph.node? id = none ∧ st' = st) ∨
    ∃ n, st.graph.node? id = some n ∧ ((id ∈ st.visited ∧ st' = st) ∨
      (id ∉ st.visited ∧
        Runs (saveVisited s withReferences save id n) (st.marked id) w () st' w')) := by
  rw [visit, runs_get_bind] at h
  cases hn : st.graph.node? id with
  | none =>
    rw [hn] at h
    exact .inl ⟨rfl, (runs_pure.mp h).2.1.symm⟩
  | some n =>
    rw [hn] at h
    dsimp only at h
    split at h
    · next hid => exact .inr ⟨n, rfl, .inl ⟨hid, (runs_pure.mp h).2.1.symm⟩⟩
    · next hid => exact .inr ⟨n, rfl, .inr ⟨hid, runs_set_bind.mp h⟩⟩

end RowGraph.Saving
