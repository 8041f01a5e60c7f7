import RowGraph.Database.Script
import RowGraph.Proofs.Save.Course
import RowGraph.Proofs.Save.Keys

/-!
# Rows after saving

What a database has stored is up to the database. `Remembers` says of a predicate that it is what a
database remembers of the rows: an insertion of a row with a key makes it hold, nothing takes it
back, and a probe for a key finds a row exactly where it holds.

* `Session.recorded`: a session whose database keeps a list of what it has been sent, and answers
  as before.
* `saveAll_stores`: after a successful call the rows of all nodes that it reached are stored under
  the keys that the nodes have, as far as those are assigned.
-/

namespace RowGraph

variable {c : Catalog} {σ : Type}

open Process SaveState Saving

/-- A key that identifies a row: it has been assigned, and it equals itself. -/
def Value.Assigned (v : Value) : Prop := v.isUnassignedKey = false ∧ v ≠ .float .nan

instance (v : Value) : Decidable v.Assigned := inferInstanceAs (Decidable (_ ∧ _))

/-! ## Databases that remember rows -/

/-- What a database remembers of the rows of entities by their keys. -/
structure Session.Remembers (s : Session c (StateM σ)) (written : σ → EntityType → Value → Prop) :
    Prop where
  execute {sql params w answer v type key} :
    (s.database.execute sql params).run w = (answer, v) → written w type key → written v type key
  scalar {sql params w answer v type key} :
    (s.database.scalar sql params).run w = (answer, v) → written w type key → written v type key
  /-- A probe for a key is answered, and finds a row exactly if one has been written. -/
  probe (w type) {key probe} : (c.entity type).countByKey s.dialect key = .ok probe →
    key.Assigned → ∃ count v, (s.database.scalar probe.sql probe.values).run w = (.ok count, v) ∧
      (Found count ↔ written w type key)
  /-- A row that is inserted with a key is written under it. -/
  insert {type values i count w v} : (c.entity type).primaryKey = some i →
    (c.entity type).awaitsKey values i = false → (Entity.valueAt values i).Assigned →
    (s.database.execute ((c.entity type).insertion s.dialect values).sql
      ((c.entity type).insertion s.dialect values).values).run w = (.ok count, v) →
    written v type (Entity.valueAt values i)
  /-- A row that is inserted for its key is written under the key that is answered. -/
  insertForKey {type values i statement key w v} : (c.entity type).primaryKey = some i →
    (c.entity type).awaitsKey values i = true →
    (c.entity type).insertionWithKey s.dialect values = .ok statement → key.Assigned →
    (s.database.scalar statement.sql statement.values).run w = (.ok (some key), v) →
    written v type key
  /-- A row that has been written can be updated. -/
  update (type) {values i statement w} : (c.entity type).primaryKey = some i →
    (c.entity type).updateByKey s.dialect values = .ok statement →
    (Entity.valueAt values i).Assigned → written w type (Entity.valueAt values i) →
    ∃ count v, (s.database.execute statement.sql statement.values).run w = (.ok count, v)

/-! ## Recorded sessions -/

/-- The answer, with the statement noted. -/
def Sent.noted {α : Type} (note : Sent) (answer : StateM σ α) : StateM (σ × List Sent) α :=
  fun (w, sent) => ((answer.run w).1, (answer.run w).2, sent ++ [note])

theorem Sent.run_noted {α : Type} {note : Sent} {answer : StateM σ α} {a : α} {w v : σ}
    {sent log : List Sent} : (note.noted answer).run (w, sent) = (a, v, log) ↔
      answer.run w = (a, v) ∧ log = sent ++ [note] := by
  change (((answer.run w).1, (answer.run w).2, sent ++ [note]) : α × σ × List Sent) = _ ↔ _
  rcases answer.run w with ⟨b, u⟩
  simp only [Prod.mk.injEq]
  constructor
  · rintro ⟨rfl, rfl, rfl⟩
    exact ⟨rfl, rfl⟩
  · rintro ⟨h, rfl⟩
    cases h
    exact ⟨rfl, rfl, rfl⟩

/-- The database with a list of what it has been sent. -/
def Database.recorded (db : Database (StateM σ)) : Database (StateM (σ × List Sent)) where
  query sql params := Sent.noted ⟨.rows, sql, params⟩ (db.query sql params)
  execute sql params := Sent.noted ⟨.effect, sql, params⟩ (db.execute sql params)
  scalar sql params := Sent.noted ⟨.scalar, sql, params⟩ (db.scalar sql params)

/-- The session with a database that keeps a list of what it has been sent. -/
def Session.recorded (s : Session c (StateM σ)) : Session c (StateM (σ × List Sent)) :=
  { s with database := s.database.recorded }

namespace Session

variable {s : Session c (StateM σ)} {written : σ → EntityType → Value → Prop}

/-- Recording takes nothing away from what the database remembers. -/
theorem Remembers.recorded (h : s.Remembers written) :
    s.recorded.Remembers fun (w : σ × List Sent) => written w.1 where
  execute run hw := h.execute (Sent.run_noted.mp run).1 hw
  scalar run hw := h.scalar (Sent.run_noted.mp run).1 hw
  probe w type _ _ made hk := by
    obtain ⟨count, v, answered, found⟩ := h.probe w.1 type made hk
    exact ⟨count, (v, _), Sent.run_noted.mpr ⟨answered, rfl⟩, found⟩
  insert hi hawaits hk run := h.insert hi hawaits hk (Sent.run_noted.mp run).1
  insertForKey hi hawaits made hk run := h.insertForKey hi hawaits made hk (Sent.run_noted.mp run).1
  update type _ _ _ _ hi made hk hw := by
    obtain ⟨count, v, answered⟩ := h.update type hi made hk hw
    exact ⟨count, (v, _), Sent.run_noted.mpr ⟨answered, rfl⟩⟩

end Session

/-! ## Rows that are written -/

theorem Node.key_setAt_primaryKey (n : Node c) {i : Fin n.entity.fields.length}
    (hi : n.entity.primaryKey = some i) (v : Value) : (n.setAt i v).key = v := by
  have hi' : (n.setAt i v).entity.primaryKey = some i := hi
  rw [key, hi']
  refine (n.valueAt_setAt i i v).trans (if_pos ⟨rfl, ?_⟩)
  rw [n.length_values]
  exact i.isLt

namespace Saving

variable {s : Session c (StateM σ)} {written : σ → EntityType → Value → Prop}
  (hs : s.Remembers written) {st st' : SaveState c} {w w' : σ} {id : NodeId} {n : Node c}
include hs

theorem written_of_updateRow {type : EntityType} {key : Value}
    (run : Runs (updateRow s id n) st w () st' w') (hw : written w type key) :
    written w' type key := by
  obtain ⟨statement, -, count, answered, -⟩ := runs_updateRow_iff.mp run
  exact hs.execute answered hw

theorem written_of_insertOrUpdate {type : EntityType} {key : Value}
    (run : Runs (insertOrUpdate s id n) st w () st' w') (hw : written w type key) :
    written w' type key := by
  obtain ⟨probe, -, count, v, answered, run⟩ := runs_insertOrUpdate_iff.mp run
  have kept := hs.scalar answered hw
  split at run
  · exact written_of_updateRow hs run kept
  · obtain ⟨count, answered, -⟩ := runs_insertRow_iff.mp run
    exact hs.execute answered kept

theorem written_of_persist {type : EntityType} {key : Value} (hn : st.graph.node? id = some n)
    (run : Runs (persist s id) st w () st' w') (hw : written w type key) :
    written w' type key := by
  obtain ⟨i, -, run⟩ := (runs_persist_iff hn).mp run
  have hn : (st.noted (.persist id)).graph.node? id = some n := hn
  split at run
  · obtain ⟨statement, -, j, key, answered, -⟩ := runs_insertForKey hn run
    exact hs.scalar answered hw
  · exact written_of_insertOrUpdate hs run hw

/-- A row that is updated if it is there, and else inserted, is there. -/
theorem written_own_of_insertOrUpdate {i : Fin n.entity.fields.length}
    (hi : n.entity.primaryKey = some i) (hawaits : n.entity.awaitsKey n.values i = false)
    (hk : n.key.Assigned) (run : Runs (insertOrUpdate s id n) st w () st' w') :
    written w' n.type n.key := by
  have key : n.key = Entity.valueAt n.values i := by rw [Node.key, hi]; rfl
  obtain ⟨probe, made, count, v, answered, run⟩ := runs_insertOrUpdate_iff.mp run
  obtain ⟨count', v', answered', found⟩ := hs.probe w n.type made hk
  obtain ⟨h, rfl⟩ := Prod.mk.inj (answered.symm.trans answered')
  obtain rfl := Except.ok.inj h
  split at run
  · next there =>
    exact written_of_updateRow hs run (hs.scalar answered (found.mp there))
  · obtain ⟨count, answered, -⟩ := runs_insertRow_iff.mp run
    rw [key] at hk ⊢
    exact hs.insert hi hawaits hk answered

/-- The first write of a node: its row is written under the key that the node has then. -/
theorem written_own_of_persist (hn : st.graph.node? id = some n)
    (run : Runs (persist s id) st w () st' w') {n' : Node c} (hn' : st'.graph.node? id = some n')
    (hk : n'.key.Assigned) : written w' n'.type n'.key := by
  obtain ⟨i, hi, run⟩ := (runs_persist_iff hn).mp run
  split at run
  · next hawaits =>
    have hnoted : (st.noted (.persist id)).graph.node? id = some n := hn
    obtain ⟨statement, made, j, key, answered, hj, -, rfl⟩ := runs_insertForKey hnoted run
    obtain rfl : n.setAt j key = n' := by
      simpa [SaveState.withValue, SaveState.noted, Graph.setAt, Graph.node?_modify, hn] using hn'
    rw [n.key_setAt_primaryKey hj] at hk ⊢
    obtain rfl : i = j := Option.some.inj (hi.symm.trans hj)
    exact hs.insertForKey hi hawaits made hk answered
  · next hawaits =>
    have graph : st'.graph = st.graph := by
      rcases runs_insertOrUpdate run with rfl | rfl <;> rfl
    obtain rfl : n = n' := Option.some.inj (hn.symm.trans (graph ▸ hn'))
    exact written_own_of_insertOrUpdate hs hi (by simpa using hawaits) hk run

theorem written_of_update {type : EntityType} {key : Value}
    (run : Runs (update s id) st w () st' w') (hw : written w type key) : written w' type key := by
  rw [update, runs_get_bind] at run
  cases hn : st.graph.node? id with
  | none =>
    rw [hn] at run
    obtain ⟨-, -, rfl⟩ := runs_pure.mp run
    exact hw
  | some n =>
    rw [hn] at run
    exact written_of_updateRow hs run hw

end Saving

/-! ## Stored rows -/

/-- The plans of the nodes that have been persisted can be made, and their rows have been written
under the keys that they have, as far as those are assigned. -/
structure SaveState.Stored (g : Graph c) (written : σ → EntityType → Value → Prop)
    (st : SaveState c) (w : σ) : Prop where
  frame : st.graph.frame = g.frame
  plans : ∀ id ∈ st.persisted, ∀ n, g.node? id = some n →
    ∃ plans, n.entity.plans c .all = .ok plans
  rows : ∀ id ∈ st.persisted, ∀ n, g.node? id = some n → (st.graph.key id).Assigned →
    written w n.type (st.graph.key id)

namespace SaveState

variable {g : Graph c} {X : NodeId → Prop} {written : σ → EntityType → Value → Prop}
  {st st' : SaveState c} {w w' : σ} {id : NodeId}

/-- A field that is asked to hold a key is set, whatever to. -/
theorem Stored.withValue (h : Stored g written st w) (R : g.Region X) (hx : X id) {hold : Holding}
    (hh : hold ∈ g.holdings id) (v : Value) :
    Stored g written (st.withValue hold.holder hold.field v) w := by
  have keys : ∀ other, (st.withValue hold.holder hold.field v).graph.key other =
      st.graph.key other := by
    refine fun other => Graph.key_setAt (fun same => ?_) v
    rw [Graph.keyPlace?_of_frame h.frame, ← same]
    exact R.apart id hx hold hh
  refine ⟨(still_withValue st _ _ v).frame.trans h.frame, h.plans, fun i hi n hn => ?_⟩
  rw [keys]
  exact h.rows i hi n hn

/-- Another row is written, and no node persisted. -/
theorem Stored.still (h : Stored g written st w) (still : Still st st')
    (same : st'.graph = st.graph) (kept : ∀ type key, written w type key → written w' type key) :
    Stored g written st' w' := by
  refine ⟨still.frame.trans h.frame, fun i hi => h.plans i (still.persisted ▸ hi),
    fun i hi n hn => ?_⟩
  rw [same]
  exact fun hk => kept _ _ (h.rows i (still.persisted ▸ hi) n hn hk)

end SaveState

namespace Saving

variable {s : Session c (StateM σ)} {g : Graph c} {X : NodeId → Prop}
  {written : σ → EntityType → Value → Prop} (hs : s.Remembers written) {st st' : SaveState c}
  {w w' : σ} {id : NodeId}
include hs

theorem stored_update (h : Stored g written st w) (run : Runs (update s id) st w () st' w') :
    Stored g written st' w' := by
  have still : Still st st' := after_of_runs run ▸ still_update s st w id
  refine h.still still ?_ fun _ _ => written_of_update hs run
  cases hn : st.graph.node? id with
  | none =>
    rw [update, runs_get_bind, hn] at run
    obtain ⟨-, rfl, -⟩ := runs_pure.mp run
    rfl
  | some n =>
    rw [runs_update hn run]
    rfl

theorem stored_persist (h : Stored g written st w)
    (hp : ∀ n, g.node? id = some n → ∃ plans, n.entity.plans c .all = .ok plans) {n : Node c}
    (hn : st.graph.node? id = some n) (run : Runs (persist s id) st w () st' w') :
    Stored g written st' w' := by
  have still : Still (st.noted (.persist id)) st' := after_of_runs run ▸ still_persist s st w hn
  have frame : st'.graph.frame = st.graph.frame := still.frame
  have persisted : st'.persisted = st.persisted ++ [id] :=
    still.persisted.trans (persisted_noted_persist st id)
  have before {i : NodeId} (hi : i ∈ st'.persisted) (ne : i ≠ id) : i ∈ st.persisted := by
    simpa [persisted, ne] using hi
  refine ⟨frame.trans h.frame, fun i hi => ?_, fun i hi m hm hk => ?_⟩
  · by_cases same : i = id
    · exact same ▸ hp
    · exact h.plans i (before hi same)
  · by_cases same : i = id
    · subst same
      obtain ⟨n', hn', type, -⟩ := Graph.node?_of_frame (frame.trans h.frame) hm
      have key : st'.graph.key i = n'.key := by rw [Graph.key, hn']; rfl
      rw [key] at hk ⊢
      rw [← type]
      exact written_own_of_persist hs hn run hn' hk
    · have key := key_of_persist hn run (absurd · same)
      rw [key] at hk ⊢
      exact written_of_persist hs hn run (h.rows i (before hi same) m hm hk)

end Saving

/-- Rows are stored in the course of any call, which may fail. -/
def Course.storing {s : Session c (StateM σ)} {g : Graph c} {X : NodeId → Prop}
    {written : σ → EntityType → Value → Prop} (hs : s.Remembers written) (R : g.Region X) :
    Course s g X True where
  Inv := Stored g written
  Begun id st w := Stored g written st w ∧
    ∀ n, g.node? id = some n → ∃ plans, n.entity.plans c .all = .ok plans
  Key _ _ := True
  Again := True
  frame h := h.frame
  frame_begun h := h.1.frame
  key _ _ := trivial
  plans _ _ _ _ _ _ := trivial
  begin h _ hn _ hp := by
    refine ⟨⟨h.frame, h.plans, h.rows⟩, fun m hm => ?_⟩
    obtain ⟨n', hn', type, -⟩ := Graph.node?_of_frame h.frame hm
    obtain rfl := Option.some.inj (hn.symm.trans hn')
    have entity : m.entity = _ := congrArg c.entity type.symm
    exact entity ▸ ⟨_, hp⟩
  link h hx hh _ := ⟨h.1.withValue R hx hh _, h.2⟩
  persist h _ hn := yields_true.mpr fun _ _ _ run => stored_persist hs h.1 h.2 hn run
  give h hx hh _ _ := h.withValue R hx hh _
  renew h hx hh _ _ _ := yields_true.mpr fun _ _ _ run =>
    stored_update hs (h.withValue R hx hh _) run
  take h hx hh _ _ := ⟨h.withValue R hx hh _, trivial⟩
  again _ h := yields_true.mpr fun _ _ _ run => stored_update hs h run

/-- **The rows of what a call has saved are stored.** After a successful call over a consistent
part of a graph the plans of every node that the roots reach can be made, and a row has been written
under the key that the node has, if it is assigned. -/
theorem Session.saveAll_stores {s : Session c (StateM σ)} {g : Graph c} {roots : List NodeId}
    {written : σ → EntityType → Value → Prop} (hs : s.Remembers written)
    (hg : g.Consistent (g.Reached roots)) {st : SaveState c} {w w' : σ}
    (h : (s.saveAll g roots true).run w = ((.ok (), st), w')) : Stored g written st w' := by
  have begun : Stored g written (start g) w :=
    ⟨rfl, fun _ hi => absurd hi List.not_mem_nil, fun _ hi => absurd hi List.not_mem_nil⟩
  exact yields_true.mp ((Course.storing hs (region_reached hg)).yields_saveAll
    Graph.Reached.closed g.nodes.length Graph.reached_of_mem begun) () st w' h

end RowGraph
