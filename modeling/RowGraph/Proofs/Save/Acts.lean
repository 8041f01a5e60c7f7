import RowGraph.Proofs.Entity.ColumnLists
import RowGraph.Proofs.Save.Walk
import RowGraph.Proofs.Suspended

/-!
# What a call does, with the answers

The journal of a call says which nodes it wrote, and the database which statements it was sent. Here
both come from one list of acts, each of which belongs to a node: the journal lists their events,
and the log of a database that is observed their exchanges. So it can be told which node a statement
is about, and under which key a node was stored.

Results:
* `Session.saveAll_observed`: observing a database changes nothing.
* `Recorded.append`: one more act is one more part of the journal and of the log.
-/

namespace RowGraph

variable {c : Catalog} {σ : Type}

open Process SaveState Saving

/-! ## Databases that are observed -/

/-- A statement with its parameters and the answer of the database. -/
inductive Exchange
  | rows (sql : String) (params : List Value) (answer : Except ExecutionError (List Row))
  | effect (sql : String) (params : List Value) (answer : Except ExecutionError Nat)
  | scalar (sql : String) (params : List Value) (answer : Except ExecutionError (Option Value))

/-- The answer, with the exchange in the log. -/
def Exchange.logged {α : Type} (entry : α → Exchange) (answer : StateM σ α) :
    StateM (σ × List Exchange) α :=
  fun (w, log) => ((answer.run w).1, (answer.run w).2, log ++ [entry (answer.run w).1])

theorem Exchange.log_logged {α : Type} {entry : α → Exchange} {answer : StateM σ α} {a : α}
    {w v : σ × List Exchange} (run : (logged entry answer).run w = (a, v)) :
    v.2 = w.2 ++ [entry a] := by
  cases run
  rfl

/-- The database with a log of its exchanges. -/
def Database.observed (db : Database (StateM σ)) : Database (StateM (σ × List Exchange)) where
  query sql params := Exchange.logged (.rows sql params) (db.query sql params)
  execute sql params := Exchange.logged (.effect sql params) (db.execute sql params)
  scalar sql params := Exchange.logged (.scalar sql params) (db.scalar sql params)

/-- The session with a database that logs its exchanges. -/
def Session.observed (s : Session c (StateM σ)) : Session c (StateM (σ × List Exchange)) :=
  { s with database := s.database.observed }

/-- A conversation ends in the same way with a database that is observed. -/
theorem Conversation.run_observed {α : Type} (db : Database (StateM σ)) (x : Conversation α) (w : σ)
    (log : List Exchange) : ∃ more, (run db.observed x).run (w, log) =
      (((run db x).run w).1, ((run db x).run w).2, more) := by
  induction x generalizing w log with
  | done a => exact ⟨log, rfl⟩
  | query sql params next ih => exact ih _ _ _
  | execute sql params next ih => exact ih _ _ _
  | scalar sql params next ih => exact ih _ _ _

/-- Observing a database changes nothing. -/
theorem Session.saveAll_observed (s : Session c (StateM σ)) (g : Graph c) (roots : List NodeId)
    (withReferences : Bool) (w : σ) (log : List Exchange) :
    (((s.observed.saveAll g roots withReferences).run (w, log)).1,
      ((s.observed.saveAll g roots withReferences).run (w, log)).2.1) =
      (s.saveAll g roots withReferences).run w := by
  rw [← s.run_saveAll, ← s.observed.run_saveAll]
  obtain ⟨more, same⟩ := Conversation.run_observed s.database
    (Suspended.saveAll s.suspended g roots withReferences) w log
  exact congrArg (fun ends => (ends.1, ends.2.1)) same

/-! ## Acts -/

/-- What is done to a node, with the answer of the database. -/
inductive SaveAct
  /-- A node that cannot be written, for it has no key. -/
  | refuse (id : NodeId)
  /-- A row asked for before it is written for the first time. -/
  | probe (id : NodeId) (key : Value) (answer : Except ExecutionError (Option Value))
  | insert (id : NodeId) (values : List Value) (answer : Except ExecutionError Nat)
  /-- A row inserted for its generated key. -/
  | insertForKey (id : NodeId) (values : List Value)
    (answer : Except ExecutionError (Option Value))
  | update (id : NodeId) (values : List Value) (answer : Except ExecutionError Nat)

namespace Graph

variable (g : Graph c)

/-- The primary key in a row of a node. -/
def keyAmong (id : NodeId) (values : List Value) : Value :=
  (g.keyPlace? id).elim .null (Entity.valueAt values)

/-- A statement for the entity of a node. -/
def statement? (id : NodeId) (make : Entity → Except CatalogError Statement) : Option Statement :=
  (g.node? id).bind fun n => (make n.entity).toOption

variable {g}

theorem statement?_of_frame {g' : Graph c} (h : g'.frame = g.frame) {id : NodeId} {n : Node c}
    (hn : g'.node? id = some n) {make : Entity → Except CatalogError Statement}
    {statement : Statement} (made : make n.entity = .ok statement) :
    g.statement? id make = some statement := by
  obtain ⟨m, hm, type, -⟩ := node?_of_frame h.symm hn
  have entity : m.entity = n.entity := congrArg c.entity type
  rw [statement?, hm, Option.bind_some, entity, made]
  rfl

end Graph

namespace SaveAct

/-- The entries of the journal. -/
def events : SaveAct → List SaveEvent
  | refuse id | probe id _ _ => [.persist id]
  | insert id values _ => [.insert id values]
  | insertForKey id values _ => [.persist id, .insert id values]
  | update id values _ => [.update id values]

/-- An update in the journal is one of the acts. -/
theorem exists_of_update_mem {acts : List SaveAct} {id : NodeId} {values : List Value}
    (h : .update id values ∈ acts.flatMap events) :
    ∃ before answer after, acts = before ++ .update id values answer :: after := by
  obtain ⟨act, hact, event⟩ := List.mem_flatMap.mp h
  obtain ⟨before, after, split⟩ := List.append_of_mem hact
  cases act with
  | update other row answer =>
    cases List.mem_singleton.mp event
    exact ⟨before, answer, after, split⟩
  | _ => simp [events] at event

/-- The statement for a node's row, with the answer. -/
def exchange? (g : Graph c) (d : Dialect) : SaveAct → Option Exchange
  | refuse _ => none
  | probe id key answer => (g.statement? id (·.countByKey d key)).map fun st =>
    .scalar st.sql st.values answer
  | insert id values answer => (g.statement? id fun e => .ok (e.insertion d values)).map fun st =>
    .effect st.sql st.values answer
  | insertForKey id values answer => (g.statement? id (·.insertionWithKey d values)).map fun st =>
    .scalar st.sql st.values answer
  | update id values answer => (g.statement? id (·.updateByKey d values)).map fun st =>
    .effect st.sql st.values answer

/-- The node whose row is asked for or stored, and its key: the key that is asked for, the key among
the values, or the generated one. -/
def stored? (g : Graph c) : SaveAct → Option (NodeId × Value)
  | probe id key _ => some (id, key)
  | insert id values _ => some (id, g.keyAmong id values)
  | insertForKey id _ (.ok (some key)) => some (id, key)
  | _ => none

end SaveAct

/-- One of the acts asks for or stores the row of a node under a key. -/
def Graph.StoredUnder (g : Graph c) (acts : List SaveAct) (id : NodeId) (key : Value) : Prop :=
  ∃ act ∈ acts, act.stored? g = some (id, key)

theorem Graph.not_storedUnder_nil {g : Graph c} {id : NodeId} {key : Value} :
    ¬ g.StoredUnder [] id key := by
  simp [StoredUnder]

theorem Graph.storedUnder_append {g : Graph c} {acts : List SaveAct} {act : SaveAct} {id : NodeId}
    {key : Value} : g.StoredUnder (acts ++ [act]) id key ↔
      g.StoredUnder acts id key ∨ act.stored? g = some (id, key) := by
  simp [StoredUnder, or_and_right, exists_or]

/-! ## What the acts leave -/

/-- What an update says: it is sent with the key among its values, and the row was asked for or
stored before, under that key unless a plan asks the key to hold another. -/
structure Graph.Addresses (g : Graph c) (d : Dialect) (Moved : NodeId → Prop)
    (before : List SaveAct) (id : NodeId) (values : List Value)
    (answer : Except ExecutionError Nat) : Prop where
  sent : ∃ sql params, (SaveAct.update id values answer).exchange? g d =
    some (.effect sql params answer) ∧ params.getLast? = some (g.keyAmong id values)
  stored : ∃ key, g.StoredUnder before id key
  same : ¬ Moved id → ∀ key, g.StoredUnder before id key → key = g.keyAmong id values

/-- Every update addresses the row that has been stored. -/
def Graph.AllAddressed (g : Graph c) (d : Dialect) (Moved : NodeId → Prop)
    (acts : List SaveAct) : Prop :=
  ∀ before id values answer after, acts = before ++ .update id values answer :: after →
    g.Addresses d Moved before id values answer

/-- One more act. -/
theorem Graph.AllAddressed.append {g : Graph c} {d : Dialect} {Moved : NodeId → Prop}
    {acts : List SaveAct} (h : g.AllAddressed d Moved acts) {act : SaveAct}
    (last : ∀ id values answer, act = .update id values answer →
      g.Addresses d Moved acts id values answer) : g.AllAddressed d Moved (acts ++ [act]) := by
  intro before id values answer after split
  obtain rfl | ⟨rest, final, rfl⟩ := List.eq_nil_or_concat after
  · obtain ⟨rfl, here⟩ := List.append_inj' split rfl
    exact last id values answer (List.singleton_inj.mp here)
  · have parts : acts ++ [act] = (before ++ .update id values answer :: rest) ++ [final] := by
      simpa using split
    exact h before id values answer rest (List.append_inj' parts rfl).1

/-- The journal and the log are those of the acts, whose updates address stored rows. -/
structure Recorded (g : Graph c) (d : Dialect) (Moved : NodeId → Prop) (acts : List SaveAct)
    (st : SaveState c) (w : σ × List Exchange) : Prop where
  journal : st.journal = acts.flatMap SaveAct.events
  log : w.2 = acts.filterMap (SaveAct.exchange? g d)
  addressed : g.AllAddressed d Moved acts

namespace Recorded

variable {g : Graph c} {d : Dialect} {Moved : NodeId → Prop} {acts : List SaveAct}
  {st st' : SaveState c} {w w' : σ × List Exchange} (h : Recorded g d Moved acts st w)
include h

/-- One more act is one more part of the journal and of the log. -/
theorem append (act : SaveAct) (journal : st'.journal = st.journal ++ act.events)
    {exchange : Exchange} (sent : act.exchange? g d = some exchange)
    (log : w'.2 = w.2 ++ [exchange])
    (last : ∀ id values answer, act = .update id values answer →
      g.Addresses d Moved acts id values answer) :
    Recorded g d Moved (acts ++ [act]) st' w' := by
  refine ⟨?_, ?_, h.addressed.append last⟩
  · rw [journal, h.journal, List.flatMap_append, List.flatMap_singleton]
  · rw [log, h.log, List.filterMap_append, List.filterMap_cons_some sent, List.filterMap_nil]

/-- A node that cannot be written is not sent. -/
theorem refuse (id : NodeId) :
    Recorded g d Moved (acts ++ [.refuse id]) (st.noted (.persist id)) w := by
  refine ⟨?_, ?_, h.addressed.append nofun⟩
  · rw [SaveState.noted, h.journal, List.flatMap_append, List.flatMap_singleton]
    rfl
  · rw [h.log, List.filterMap_append, List.filterMap_cons_none rfl, List.filterMap_nil,
      List.append_nil]

end Recorded

end RowGraph
