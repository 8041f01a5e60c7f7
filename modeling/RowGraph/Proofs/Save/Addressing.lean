import RowGraph.Proofs.Save.Acts
import RowGraph.Proofs.Save.Stored

/-!
# Which row an update addresses

An update names its row by the key among the values that it sends. A call that writes a node again
is to address the row that it has stored before, so the key must be the one that the row was asked
for, inserted or generated under. It is, unless some plan asks for the key of another node in the
very field that is the node's primary key: saving writes into that field after the row is there, and
the next update looks for the row under the new key.

* `Traced`: between two visits, the nodes that have been visited are stored, and those whose key
  no plan asks to hold another still have the key that they are stored under.
* `recorded_saveAll`: so what a call does is accounted for by its acts.
* **`saveAll_addresses`**: all updates of any call, also of one that fails, address the row that
  has been stored.
* `Sample.update_of_person`: a person known by the key of an account, who is updated under a key
  that no row of a person has.
-/

namespace RowGraph

variable {c : Catalog} {σ : Type}

open Process SaveState Saving

/-! ## One step first -/

namespace Saving

variable {F : SaveState c → σ → Prop} {β : Type} {Q : β → SaveState c → σ → Prop}
  {st : SaveState c} {w : σ}

theorem ends_note_bind {event : SaveEvent} {f : Unit → Saving c (StateM σ) β} :
    Ends F Q (note event >>= f) st w ↔ Ends F Q (f ()) (st.noted event) w :=
  Iff.rfl

theorem ends_ofCatalog_bind {α : Type} {x : Except CatalogError α}
    {f : α → Saving c (StateM σ) β} (failed : ∀ why, x = .error why → F st w)
    (made : ∀ a, x = .ok a → Ends F Q (f a) st w) : Ends F Q (ofCatalog x >>= f) st w := by
  cases x with
  | error why => exact failed why rfl
  | ok a => exact made a rfl

theorem ends_ask_bind {α : Type} {answer : StateM σ (Except ExecutionError α)}
    {f : α → Saving c (StateM σ) β} (failed : ∀ why v, answer.run w = (.error why, v) → F st v)
    (answered : ∀ a v, answer.run w = (.ok a, v) → Ends F Q (f a) st v) :
    Ends F Q (ask answer >>= f) st w := by
  unfold Ends at answered ⊢
  rw [outcome_bind, outcome_ask]
  rcases run : answer.run w with ⟨r, v⟩
  cases r with
  | error why => exact failed why v run
  | ok a => exact answered a v run

theorem ends_discard_ask {α : Type} {answer : StateM σ (Except ExecutionError α)}
    {Q : Unit → SaveState c → σ → Prop}
    (failed : ∀ why v, answer.run w = (.error why, v) → F st v)
    (answered : ∀ a v, answer.run w = (.ok a, v) → Q () st v) :
    Ends F Q (discard (ask answer) : Saving c (StateM σ) Unit) st w := by
  rw [discard_eq_bind]
  exact ends_ask_bind failed answered

end Saving

/-! ## Keys in rows -/

namespace Graph

variable {g g' : Graph c} {id : NodeId}

/-- The key of a node is the one among its values. -/
theorem key_eq_keyAmong (h : g'.frame = g.frame) {n : Node c} (hn : g'.node? id = some n) :
    g'.key id = g.keyAmong id n.values := by
  rw [key, hn, keyAmong, ← keyPlace?_of_frame h, keyPlace?_of_node hn, Option.map_some,
    Option.getD_some, Node.key]
  cases n.entity.primaryKey <;> rfl

end Graph

/-! ## Between two visits -/

/-- All acts have been sent to the database. Of the nodes that have been visited all are stored, but
for the one that is yet to be written, and those whose key no plan asks to hold another have the key
that they are stored under. -/
structure Traced (g : Graph c) (d : Dialect) (Moved : NodeId → Prop) (fresh : Option NodeId)
    (acts : List SaveAct) (st : SaveState c) (w : σ × List Exchange) : Prop
    extends Recorded g d Moved acts st w where
  sent : ∀ act ∈ acts, (act.exchange? g d).isSome = true
  frame : st.graph.frame = g.frame
  visited : ∀ id, (∃ key, g.StoredUnder acts id key) ↔ id ∈ st.visited ∧ fresh ≠ some id
  current : ∀ id key, ¬ Moved id → g.StoredUnder acts id key → st.graph.key id = key

namespace Traced

variable {g : Graph c} {d : Dialect} {Moved : NodeId → Prop} {fresh : Option NodeId}
  {acts : List SaveAct} {st st' : SaveState c} {w w' : σ × List Exchange} {id : NodeId}

/-- A field is set that may be the key of a node whose key is asked to hold another. -/
theorem withValue (h : Traced g d Moved fresh acts st w) {field : Nat}
    (moved : g.keyPlace? id = some field → Moved id) (v : Value) :
    Traced g d Moved fresh acts (st.withValue id field v) w := by
  refine ⟨⟨h.journal, h.log, h.addressed⟩, h.sent,
    (still_withValue st id field v).frame.trans h.frame, h.visited, fun other key kept stored => ?_⟩
  rw [← h.current other key kept stored]
  refine Graph.key_setAt (fun same place => kept ?_) v
  rw [Graph.keyPlace?_of_frame h.frame] at place
  exact same ▸ moved (same ▸ place)

theorem marked (h : Traced g d Moved none acts st w) (hid : id ∉ st.visited) :
    Traced g d Moved (some id) acts (st.marked id) w := by
  refine ⟨⟨h.journal, h.log, h.addressed⟩, h.sent, h.frame, fun other => ?_, h.current⟩
  rw [h.visited other]
  constructor
  · rintro ⟨before, -⟩
    refine ⟨List.mem_append_left [id] before, fun same => hid ?_⟩
    cases same
    exact before
  · rintro ⟨now, differs⟩
    have other_ne : other ≠ id := fun same => differs (by rw [same])
    exact ⟨by simpa [SaveState.marked, other_ne] using now, nofun⟩

/-- One more act has been sent. -/
theorem sent_append (h : Traced g d Moved fresh acts st w) {act : SaveAct}
    (sent : (act.exchange? g d).isSome = true) :
    ∀ other ∈ acts ++ [act], (other.exchange? g d).isSome = true :=
  List.forall_mem_append.mpr ⟨h.sent, List.forall_mem_singleton.mpr sent⟩

/-- The node that is yet to be written is stored. -/
theorem first (h : Traced g d Moved (some id) acts st w) {act : SaveAct} {key : Value}
    (recorded : Recorded g d Moved (acts ++ [act]) st' w')
    (sent : (act.exchange? g d).isSome = true) (frame : st'.graph.frame = g.frame)
    (marks : st'.visited = st.visited) (hid : id ∈ st.visited)
    (stored : act.stored? g = some (id, key)) (now : st'.graph.key id = key)
    (kept : ∀ other, other ≠ id → st'.graph.key other = st.graph.key other) :
    Traced g d Moved none (acts ++ [act]) st' w' := by
  have before {other : NodeId} {key' : Value} (under : g.StoredUnder acts other key') :
      other ∈ st.visited ∧ other ≠ id := by
    obtain ⟨visited, differs⟩ := (h.visited other).mp ⟨key', under⟩
    exact ⟨visited, fun same => differs (by rw [same])⟩
  refine ⟨recorded, h.sent_append sent, frame, fun other => ⟨?_, ?_⟩,
    fun other key' unmoved under => ?_⟩
  · rintro ⟨key', under⟩
    rw [marks]
    obtain under | here := Graph.storedUnder_append.mp under
    · exact ⟨(before under).1, nofun⟩
    · cases stored.symm.trans here
      exact ⟨hid, nofun⟩
  · rintro ⟨visited, -⟩
    rw [marks] at visited
    by_cases same : other = id
    · subst same
      exact ⟨key, Graph.storedUnder_append.mpr (.inr stored)⟩
    · have differs : some id ≠ some other := fun here => same (Option.some.inj here).symm
      obtain ⟨key', under⟩ := (h.visited other).mpr ⟨visited, differs⟩
      exact ⟨key', Graph.storedUnder_append.mpr (.inl under)⟩
  · obtain under | here := Graph.storedUnder_append.mp under
    · rw [kept other (before under).2]
      exact h.current other key' unmoved under
    · cases stored.symm.trans here
      exact now

/-- An act that stores no node under another key than it has. -/
theorem next (h : Traced g d Moved none acts st w) {act : SaveAct}
    (recorded : Recorded g d Moved (acts ++ [act]) st' w')
    (sent : (act.exchange? g d).isSome = true) (graph : st'.graph = st.graph)
    (marks : st'.visited = st.visited)
    (stored : ∀ other key, act.stored? g = some (other, key) →
      other ∈ st.visited ∧ st.graph.key other = key) :
    Traced g d Moved none (acts ++ [act]) st' w' := by
  refine ⟨recorded, h.sent_append sent, graph ▸ h.frame, fun other => ⟨?_, ?_⟩,
    fun other key' unmoved under => ?_⟩
  · rintro ⟨key', under⟩
    rw [marks]
    obtain under | here := Graph.storedUnder_append.mp under
    · exact (h.visited other).mp ⟨key', under⟩
    · exact ⟨(stored other key' here).1, nofun⟩
  · rintro visited
    rw [marks] at visited
    obtain ⟨key', under⟩ := (h.visited other).mpr visited
    exact ⟨key', Graph.storedUnder_append.mpr (.inl under)⟩
  · rw [graph]
    obtain under | here := Graph.storedUnder_append.mp under
    · exact h.current other key' unmoved under
    · exact (stored other key' here).2

/-- The update of a node that has been visited addresses the row that is stored. -/
theorem addresses (h : Traced g d Moved none acts st w) (hid : id ∈ st.visited) {n : Node c}
    (hn : st.graph.node? id = some n) {update : Statement}
    (made : n.entity.updateByKey d n.values = .ok update) (answer : Except ExecutionError Nat) :
    (SaveAct.update id n.values answer).exchange? g d =
        some (.effect update.sql update.values answer) ∧
      g.Addresses d Moved acts id n.values answer := by
  have key := Graph.key_eq_keyAmong h.frame hn
  have exchange : (SaveAct.update id n.values answer).exchange? g d =
      some (.effect update.sql update.values answer) := by
    rw [SaveAct.exchange?, Graph.statement?_of_frame h.frame hn made, Option.map_some]
  have last : update.values.getLast? = some (g.keyAmong id n.values) := by
    cases hp : n.entity.primaryKey with
    | none =>
      rw [Entity.updateByKey, Entity.requireKey, hp] at made
      cases made
    | some i =>
      rw [Entity.getLast?_values_updateByKey hp made, ← key, Graph.key, hn, Option.map_some,
        Option.getD_some, Node.key, hp]
      rfl
  refine ⟨exchange, ⟨_, _, exchange, last⟩, (h.visited id).mpr ⟨hid, (Option.some_ne_none id).symm⟩,
    fun unmoved key' under => ?_⟩
  rw [← h.current id key' unmoved under, key]

end Traced

/-! ## Writes -/

section Writes

/-- What a failure leaves: acts whose updates address stored rows. -/
def Interrupted (g : Graph c) (d : Dialect) (Moved : NodeId → Prop) (st : SaveState c)
    (w : σ × List Exchange) : Prop := ∃ acts, Recorded g d Moved acts st w

/-- What holds between two visits. -/
def Between (g : Graph c) (d : Dialect) (Moved : NodeId → Prop) (st : SaveState c)
    (w : σ × List Exchange) : Prop := ∃ acts, Traced g d Moved none acts st w

variable {s : Session c (StateM σ)} {g : Graph c} {Moved : NodeId → Prop}
  {acts : List SaveAct} {st : SaveState c} {w : σ × List Exchange} {id : NodeId} {n : Node c}

theorem Between.interrupted {d : Dialect} (h : Between g d Moved st w) :
    Interrupted g d Moved st w := by
  obtain ⟨acts, traced⟩ := h
  exact ⟨acts, traced.toRecorded⟩

theorem ends_updateRow (h : Traced g s.dialect Moved none acts st w) (hid : id ∈ st.visited)
    (hn : st.graph.node? id = some n) :
    Ends (Interrupted g s.dialect Moved) (fun _ => Between g s.dialect Moved)
      (updateRow s.observed id n) st w := by
  refine ends_ofCatalog_bind (fun _ _ => ⟨acts, h.toRecorded⟩) fun update made => ?_
  have exchange (answer) := (h.addresses hid hn made answer).1
  have recorded {answer : Except ExecutionError Nat} {v : σ × List Exchange}
      (run : (s.observed.database.execute update.sql update.values).run w = (answer, v)) :
      Recorded g s.dialect Moved (acts ++ [.update id n.values answer])
        (st.noted (.update id n.values)) v := by
    refine h.toRecorded.append _ rfl (exchange answer) (Exchange.log_logged run)
      fun _ _ _ same => ?_
    cases same
    exact (h.addresses hid hn made answer).2
  refine ends_note_bind.mpr
    (ends_discard_ask (fun why v run => ⟨_, recorded run⟩) fun count v run => ?_)
  refine ⟨_, h.next (recorded run) (exchange _ ▸ rfl) rfl rfl fun other key stored => ?_⟩
  cases stored

/-- The insertion of a row that has been asked for under its key. -/
theorem ends_insertRow (h : Traced g s.dialect Moved none acts st w) (hid : id ∈ st.visited)
    (hn : st.graph.node? id = some n) :
    Ends (Interrupted g s.dialect Moved) (fun _ => Between g s.dialect Moved)
      (insertRow s.observed id n) st w := by
  let insertion := n.entity.insertion s.dialect n.values
  have made : g.statement? id (fun e => .ok (e.insertion s.dialect n.values)) = some insertion :=
    Graph.statement?_of_frame h.frame hn rfl
  have exchange (answer) : (SaveAct.insert id n.values answer).exchange? g s.dialect =
      some (.effect insertion.sql insertion.values answer) := by
    rw [SaveAct.exchange?, made, Option.map_some]
  have recorded {answer : Except ExecutionError Nat} {v : σ × List Exchange}
      (run : (s.observed.database.execute insertion.sql insertion.values).run w = (answer, v)) :
      Recorded g s.dialect Moved (acts ++ [.insert id n.values answer])
        (st.noted (.insert id n.values)) v :=
    h.toRecorded.append _ rfl (exchange answer) (Exchange.log_logged run) nofun
  refine ends_note_bind.mpr
    (ends_discard_ask (fun why v run => ⟨_, recorded run⟩) fun count v run => ?_)
  refine ⟨_, h.next (recorded run) (exchange _ ▸ rfl) rfl rfl fun other key stored => ?_⟩
  cases stored
  exact ⟨hid, Graph.key_eq_keyAmong h.frame hn⟩

/-- The first write of a node under the key that it has. -/
theorem ends_insertOrUpdate (h : Traced g s.dialect Moved (some id) acts st w)
    (hid : id ∈ st.visited) (hn : st.graph.node? id = some n) :
    Ends (Interrupted g s.dialect Moved) (fun _ => Between g s.dialect Moved)
      (insertOrUpdate s.observed id n) (st.noted (.persist id)) w := by
  have refused : Recorded g s.dialect Moved (acts ++ [.refuse id]) (st.noted (.persist id)) w :=
    h.toRecorded.refuse id
  refine ends_ofCatalog_bind (fun _ _ => ⟨_, refused⟩) fun probe made => ?_
  have exchange (answer) : (SaveAct.probe id n.key answer).exchange? g s.dialect =
      some (.scalar probe.sql probe.values answer) := by
    rw [SaveAct.exchange?, Graph.statement?_of_frame h.frame hn made, Option.map_some]
  have recorded {answer : Except ExecutionError (Option Value)} {v : σ × List Exchange}
      (run : (s.observed.database.scalar probe.sql probe.values).run w = (answer, v)) :
      Recorded g s.dialect Moved (acts ++ [.probe id n.key answer]) (st.noted (.persist id)) v :=
    h.toRecorded.append _ rfl (exchange answer) (Exchange.log_logged run) nofun
  refine ends_ask_bind (fun why v run => ⟨_, recorded run⟩) fun count v run => ?_
  have key : st.graph.key id = n.key := by rw [Graph.key, hn]; rfl
  have asked := h.first (recorded run) (exchange _ ▸ rfl) h.frame rfl hid rfl key fun _ _ => rfl
  split
  · exact ends_updateRow asked hid hn
  · exact ends_insertRow asked hid hn

/-- The first write of a node that awaits its key. -/
theorem ends_insertForKey (h : Traced g s.dialect Moved (some id) acts st w)
    (hid : id ∈ st.visited) (hn : st.graph.node? id = some n) :
    Ends (Interrupted g s.dialect Moved) (fun _ => Between g s.dialect Moved)
      (insertForKey s.observed id n) (st.noted (.persist id)) w := by
  have refused : Recorded g s.dialect Moved (acts ++ [.refuse id]) (st.noted (.persist id)) w :=
    h.toRecorded.refuse id
  refine ends_ofCatalog_bind (fun _ _ => ⟨_, refused⟩) fun insertion made => ?_
  let sent := (st.noted (.persist id)).noted (.insert id n.values)
  have exchange (answer) : (SaveAct.insertForKey id n.values answer).exchange? g s.dialect =
      some (.scalar insertion.sql insertion.values answer) := by
    rw [SaveAct.exchange?, Graph.statement?_of_frame h.frame hn made, Option.map_some]
  have recorded {answer : Except ExecutionError (Option Value)} {v : σ × List Exchange}
      (run : (s.observed.database.scalar insertion.sql insertion.values).run w = (answer, v))
      {st' : SaveState c} (journal : st'.journal = sent.journal) :
      Recorded g s.dialect Moved (acts ++ [.insertForKey id n.values answer]) st' v := by
    refine h.toRecorded.append _ ?_ (exchange answer) (Exchange.log_logged run) nofun
    rw [journal]
    simp [sent, SaveState.noted, SaveAct.events]
  refine ends_note_bind.mpr
    (ends_ask_bind (fun why v run => ⟨_, recorded run rfl⟩) fun answer v run => ?_)
  cases answer with
  | none => exact ⟨_, recorded run rfl⟩
  | some key =>
    dsimp only
    split
    · exact ⟨_, recorded run rfl⟩
    · refine ends_ofCatalog_bind (fun _ _ => ⟨_, recorded run rfl⟩) fun keyed set => ?_
      obtain ⟨i, hi, rfl⟩ := Node.setKey_eq_ok set
      have put : (⟨sent.graph.put id (n.setAt i key), sent.visited, sent.journal⟩ : SaveState c) =
          sent.withValue id i key :=
        congrArg (fun g => SaveState.mk g _ _) (Graph.put_setAt hn i key)
      have own : (st.graph.setAt id i key).key id = key := by
        simp [Graph.key, Graph.setAt, Graph.node?_modify, hn, n.key_setAt_primaryKey hi]
      change Between g s.dialect Moved ⟨sent.graph.put id (n.setAt i key), _, _⟩ v
      rw [put]
      refine ⟨_, h.first (recorded run rfl) (exchange _ ▸ rfl) ?_ rfl hid rfl own
        fun other differs => ?_⟩
      · exact (still_withValue sent id i key).frame.trans h.frame
      · exact Graph.key_setAt (fun same => absurd same.symm differs) key

/-- The first write of a node. -/
theorem ends_persist (h : Traced g s.dialect Moved (some id) acts st w) (hid : id ∈ st.visited)
    (hn : st.graph.node? id = some n) :
    Ends (Interrupted g s.dialect Moved) (fun _ => Between g s.dialect Moved)
      (persist s.observed id) st w := by
  refine ends_get_bind.mpr ?_
  rw [hn]
  have refused : Recorded g s.dialect Moved (acts ++ [.refuse id]) (st.noted (.persist id)) w :=
    h.toRecorded.refuse id
  refine ends_note_bind.mpr (ends_ofCatalog_bind (fun _ _ => ⟨_, refused⟩) fun key _ => ?_)
  split
  · exact ends_insertForKey h hid hn
  · exact ends_insertOrUpdate h hid hn

theorem ends_update (h : Between g s.dialect Moved st w) (hid : id ∈ st.visited) :
    Ends (Interrupted g s.dialect Moved) (fun _ => Between g s.dialect Moved)
      (update s.observed id) st w := by
  obtain ⟨acts, traced⟩ := h
  refine ends_get_bind.mpr ?_
  cases hn : st.graph.node? id with
  | none => exact ⟨acts, traced⟩
  | some n => exact ends_updateRow traced hid hn

end Writes

/-! ## Calls -/

/-- Some plan that is followed asks the primary key of the node to hold a key of another node. -/
def Graph.Rekeyed (g : Graph c) (X : NodeId → Prop) (withReferences : Bool) (id : NodeId) : Prop :=
  ∃ i, X i ∧ ∃ h ∈ g.asked withReferences i, h.holder = id ∧ g.keyPlace? id = some h.field

/-- The walk of a call whose updates address stored rows. -/
def Walk.addressing (s : Session c (StateM σ)) (g : Graph c) (X : NodeId → Prop)
    (withReferences : Bool) : Walk s.observed g X withReferences where
  Inv := Between g s.dialect (g.Rekeyed X withReferences)
  Begun id st w := id ∈ st.visited ∧
    ∃ acts, Traced g s.dialect (g.Rekeyed X withReferences) (some id) acts st w
  Failed := Interrupted g s.dialect (g.Rekeyed X withReferences)
  Key _ _ := True
  Again := True
  frame := fun ⟨_, h⟩ => h.frame
  frame_begun := fun ⟨_, _, h⟩ => h.frame
  key _ _ := trivial
  plans := fun ⟨acts, h⟩ _ _ _ _ _ => ⟨acts, h.journal, h.log, h.addressed⟩
  begin := fun ⟨acts, h⟩ _ _ hid _ =>
    ⟨List.mem_append_right _ (List.mem_singleton_self _), acts, h.marked hid⟩
  link := fun ⟨hid, acts, h⟩ hx asked _ =>
    ⟨hid, acts, h.withValue (fun place => ⟨_, hx, _, asked, rfl, place⟩) _⟩
  persist := fun ⟨hid, _, h⟩ _ hn => ends_persist h hid hn
  give := fun ⟨acts, h⟩ hx asked _ _ =>
    ⟨acts, h.withValue (fun place => ⟨_, hx, _, asked, rfl, place⟩) _⟩
  renew := fun ⟨acts, h⟩ hx asked hv _ _ =>
    ends_update ⟨acts, h.withValue (fun place => ⟨_, hx, _, asked, rfl, place⟩) _⟩ hv
  take := fun ⟨acts, h⟩ hx asked _ _ =>
    ⟨⟨acts, h.withValue (fun place => ⟨_, hx, _, asked, rfl, place⟩) _⟩, trivial⟩
  again _ h hid := ends_update h hid

theorem Graph.Reached.closed_followed {g : Graph c} {roots : List NodeId} {withReferences : Bool}
    (i : NodeId) (h : g.Reached roots i) (target : NodeId)
    (ht : target ∈ g.followed withReferences i) : g.Reached roots target := by
  cases withReferences with
  | true => exact h.closed i target ht
  | false => cases ht

/-- What a call does is a list of acts that accounts for the journal and for all statements and
answers, and in a call that succeeds all of them are sent. -/
theorem Session.recorded_saveAll (s : Session c (StateM σ)) (g : Graph c) (roots : List NodeId)
    (withReferences : Bool) (w : σ) :
    let call := (s.observed.saveAll g roots withReferences).run (w, [])
    ∃ acts, Recorded g s.dialect (g.Rekeyed (g.Reached roots) withReferences) acts call.1.2 call.2 ∧
      (call.1.1 = .ok () → ∀ act ∈ acts, (act.exchange? g s.dialect).isSome = true) := by
  intro call
  have begun : Traced g s.dialect (g.Rekeyed (g.Reached roots) withReferences) none [] (start g)
      ((w, []) : σ × List Exchange) := by
    refine ⟨⟨rfl, rfl, fun before _ _ _ _ split => by simp at split⟩, List.forall_mem_nil _, rfl,
      fun id => ?_, fun id key _ stored => absurd stored Graph.not_storedUnder_nil⟩
    simp [Graph.not_storedUnder_nil, start]
  have ends := (Walk.addressing s g (g.Reached roots) withReferences).ends_saveAll
    Graph.Reached.closed_followed g.nodes.length Graph.reached_of_mem ⟨[], begun⟩
  cases done : call.1.1 with
  | error why =>
    obtain ⟨acts, recorded⟩ :
        Interrupted g s.dialect (g.Rekeyed (g.Reached roots) withReferences) call.1.2 call.2 :=
      (ends.mono (fun _ _ failed => failed) fun _ _ _ between => between.interrupted).after
    exact ⟨acts, recorded, nofun⟩
  | ok u =>
    obtain ⟨acts, traced⟩ :
        Between g s.dialect (g.Rekeyed (g.Reached roots) withReferences) call.1.2 call.2 :=
      ends.done (Prod.ext (Prod.ext done rfl) rfl)
    exact ⟨acts, traced.toRecorded, fun _ => traced.sent⟩

/-- **Updates address the stored row.** Whatever the database answers, observing it changes nothing,
and what any call does, also one that fails, is a list of acts that accounts for the journal and for
all statements and answers. Every update in it is sent with the key among its values as its last
parameter, and the row of the node was asked for, inserted or generated earlier in the call. Unless
some plan asks the node's primary key to hold the key of another node, that was under this key. -/
theorem Session.saveAll_addresses (s : Session c (StateM σ)) (g : Graph c) (roots : List NodeId)
    (withReferences : Bool) (w : σ) :
    let call := (s.observed.saveAll g roots withReferences).run (w, [])
    (call.1, call.2.1) = (s.saveAll g roots withReferences).run w ∧
    ∃ acts : List SaveAct,
      call.1.2.journal = acts.flatMap SaveAct.events ∧
      call.2.2 = acts.filterMap (SaveAct.exchange? g s.dialect) ∧
      ∀ before id values answer after, acts = before ++ .update id values answer :: after →
        (∃ sql params, (SaveAct.update id values answer).exchange? g s.dialect =
          some (.effect sql params answer) ∧ params.getLast? = some (g.keyAmong id values)) ∧
        (∃ key, g.StoredUnder before id key) ∧
        ((∀ i, g.Reached roots i → ∀ h ∈ g.asked withReferences i, h.holder = id →
            g.keyPlace? id ≠ some h.field) →
          ∀ key, g.StoredUnder before id key → key = g.keyAmong id values) := by
  intro call
  refine ⟨s.saveAll_observed g roots withReferences w [], ?_⟩
  obtain ⟨acts, recorded, -⟩ := s.recorded_saveAll g roots withReferences w
  refine ⟨acts, recorded.journal, recorded.log, fun before id values answer after split => ?_⟩
  obtain ⟨sent, stored, same⟩ := recorded.addressed before id values answer after split
  refine ⟨sent, stored, fun apart => same ?_⟩
  rintro ⟨i, hi, h, asked, rfl, place⟩
  exact apart i hi h asked rfl place

namespace Sample

/-- The author is updated with the key of the favourite book, under the key that was generated. -/
theorem update_of_author :
    let call := (session.observed.saveAll cyclic [0] true).run (1, [])
    .update 0 [.int 1, .null, .int 2] ∈ call.1.2.journal ∧
    ∃ acts before answer after,
      call.1.2.journal = acts.flatMap SaveAct.events ∧
      acts = before ++ .update 0 [.int 1, .null, .int 2] answer :: after ∧
      cyclic.StoredUnder before 0 (.int 1) := by
  obtain ⟨-, acts, journal, -, addressed⟩ := session.saveAll_addresses cyclic [0] true 1
  have event : .update 0 [.int 1, .null, .int 2] ∈
      ((session.observed.saveAll cyclic [0] true).run (1, [])).1.2.journal := by
    decide +kernel
  refine ⟨event, ?_⟩
  obtain ⟨before, answer, after, split⟩ := SaveAct.exists_of_update_mem (journal ▸ event)
  obtain ⟨-, ⟨key, stored⟩, same⟩ := addressed before 0 _ answer after split
  have apart : ∀ i, cyclic.Reached [0] i → ∀ h ∈ cyclic.asked true i, h.holder = 0 →
      cyclic.keyPlace? 0 ≠ some h.field := by
    intro i _ h hh _
    rw [Graph.asked, holdings_cyclic] at hh
    split at hh <;> simp at hh <;> subst hh <;> decide
  have generated : key = .int 1 := same apart key stored
  exact ⟨acts, before, answer, after, journal, split, generated ▸ stored⟩

/-- An account at a bank. -/
def account : Description := ⟨"Account", [.field generatedKey, .field (field "Bank" .text)]⟩

/-- A person, who is known by the key of an account. -/
def person : Description where
  name := "Person"
  clauses := [.field { foreignKey "AccountId" "Account" .aliased false with isPrimaryKey := true },
    .field (field "Name" .text), one "Account" "Account"]

/-- Persons and accounts. -/
def holders : Catalog := .ofDescriptions [(type "Person", person), (type "Account", account)]

/-- A person with a new account. -/
def newAccount : Graph holders :=
  ⟨[{ Node.ofValues (type "Person") [.int 7, .text "Ann"] with
        references := [("Account", .single 1)] },
    Node.ofValues (type "Account") [.null, .text "Savings"]]⟩

/-- **Where the key is itself asked to hold another**, the person is inserted under one key, and
then updated under the key of the account, under which there is no row. -/
theorem update_of_person :
    let call := ((⟨counting, .sqlite, ⟨true, false, 10⟩, []⟩ : Session holders _).observed.saveAll
      newAccount [0] true).run (0, [])
    call.1.1 = .ok () ∧
    call.1.2.journal = [.persist 0, .insert 0 [.int 7, .text "Ann"],
      .persist 1, .insert 1 [.null, .text "Savings"], .update 0 [.int 1, .text "Ann"]] ∧
    call.2.2 =
      [.scalar "SELECT COUNT(*) FROM \"Person\" WHERE \"AccountId\"=@0" [.int 7]
          (.ok (some (.int 0))),
        .effect "INSERT INTO \"Person\" (\"AccountId\",\"Name\") VALUES (@0,@1)"
          [.int 7, .text "Ann"] (.ok 1),
        .scalar "INSERT INTO \"Account\" (\"Bank\") VALUES (@0); SELECT last_insert_rowid()"
          [.text "Savings"] (.ok (some (.int 1))),
        .effect "UPDATE \"Person\" SET \"Name\"=@0 WHERE \"AccountId\"=@1"
          [.text "Ann", .int 1] (.ok 1)] :=
  ⟨rfl, rfl, rfl⟩

end Sample

end RowGraph
