import Mathlib.Data.List.Basic
import RowGraph.Proofs.Save.Addressing

/-!
# What a call sends

A call is told from the outside by the statements that it sends. The acts of a call account for
these as well as for its journal, and in a call that succeeds each act has sent its statement; so
what the journal says is said of the statements, too: which nodes are written, how often each of
them is begun, and what the last statement for a node carries.

* `persisted_eq`: a node is persisted with the act that begins to write it: the row is asked for
  under its key, or it is inserted for its key.
* `exists_last_write`: the last write in the journal is that of the last act that writes the node.
* **`saveAll_persists_reachable`**: any call ends and begins no node twice; a successful one has
  sent one first statement for each node that the roots reach, and for no other.
* **`saveAll_settles_keys`**: after a successful call every field holds the key that it is asked to
  hold, and the last statement that writes a node carries its values.
-/

namespace RowGraph

variable {c : Catalog} {σ : Type}

open SaveState Saving

namespace SaveAct

/-- The node that begins to be written: its row is asked for, or inserted for its key. -/
def first? : SaveAct → Option NodeId
  | refuse id | probe id _ _ | insertForKey id _ _ => some id
  | insert _ _ _ | update _ _ _ => none

/-- The act sends a row of the node. -/
def Writes (act : SaveAct) (id : NodeId) : Prop := ∃ event ∈ act.events, event.writes id = true

theorem persisted_events (act : SaveAct) :
    act.events.filterMap SaveEvent.persisted? = act.first?.toList := by
  cases act <;> rfl

/-- The nodes that are persisted are those that begin to be written. -/
theorem persisted_eq {acts : List SaveAct} {st : SaveState c}
    (h : st.journal = acts.flatMap events) : st.persisted = acts.filterMap first? := by
  rw [persisted, h, List.filterMap_flatMap]
  simp only [persisted_events]
  exact (List.filterMap_eq_flatMap_toList first? acts).symm

/-- The last write of a node is that of the last act that writes it. -/
theorem exists_last_write {acts : List SaveAct} {id : NodeId} {event : SaveEvent}
    (h : ((acts.flatMap events).filter (·.writes id)).getLast? = some event) :
    ∃ before act after, acts = before ++ act :: after ∧ event ∈ act.events ∧
      event.writes id = true ∧ ∀ later ∈ after, ¬ later.Writes id := by
  induction acts with
  | nil => cases h
  | cons act rest ih =>
    rw [List.flatMap_cons, List.filter_append, List.getLast?_append] at h
    cases last : ((rest.flatMap events).filter (·.writes id)).getLast? with
    | some later =>
      rw [last] at h
      cases h
      obtain ⟨before, written, after, rfl, here⟩ := ih last
      exact ⟨act :: before, written, after, rfl, here⟩
    | none =>
      rw [last, Option.none_or] at h
      obtain ⟨mem, writes⟩ := List.mem_filter.mp (List.mem_of_getLast? h)
      refine ⟨[], act, rest, rfl, mem, writes, fun later hlater => ?_⟩
      rintro ⟨other, hother, again⟩
      have none := List.filter_eq_nil_iff.mp (List.getLast?_eq_none_iff.mp last)
      exact none other (List.mem_flatMap.mpr ⟨later, hlater, hother⟩) again

/-- Where all acts are sent, the log has one exchange for each of them. -/
theorem map_exchange? {g : Graph c} {d : Dialect} {acts : List SaveAct}
    (sent : ∀ act ∈ acts, (act.exchange? g d).isSome = true) :
    acts.map (exchange? g d) = (acts.filterMap (exchange? g d)).map some := by
  induction acts with
  | nil => rfl
  | cons act rest ih =>
    obtain ⟨exchange, here⟩ := Option.isSome_iff_exists.mp (sent act List.mem_cons_self)
    rw [List.map_cons, List.filterMap_cons_some here, List.map_cons, here,
      ih fun other h => sent other (List.mem_cons_of_mem act h)]

end SaveAct

namespace Session

/-- **Any call ends, and no node is persisted twice; a successful one persists what it reaches.**
Whatever the database answers: the calls for what hangs on a node are never nested deeper than there
are nodes, so what would be done beyond that depth makes no difference. A call with references that
succeeds has persisted those nodes that the roots reach along the plans of the graph as it was
given. For the database this means: no two of the statements that a call sends begin to write the
same node, and where it succeeds all its acts have been sent, among them one that begins to write
each node that is reached. -/
theorem saveAll_persists_reachable (s : Session c (StateM σ)) (g : Graph c) (roots : List NodeId)
    (withReferences : Bool) (w : σ) :
    (∀ (beyond : NodeId → Saving c (StateM σ) Unit) (depth : Nat), g.nodes.length < depth →
      (s.saveAll g roots withReferences).run w =
        ((roots.forM (saveWithin s withReferences beyond depth)).run.run (start g)).run w) ∧
    ((s.saveAll g roots withReferences).run w).1.2.persisted.Nodup ∧
    (withReferences = true → ((s.saveAll g roots withReferences).run w).1.1 = .ok () →
      ∀ id, id ∈ ((s.saveAll g roots withReferences).run w).1.2.persisted ↔
        (g.node? id).isSome ∧ g.Reached roots id) ∧
    let call := (s.observed.saveAll g roots withReferences).run (w, [])
    (call.1, call.2.1) = (s.saveAll g roots withReferences).run w ∧
    ∃ acts : List SaveAct,
      call.1.2.journal = acts.flatMap SaveAct.events ∧
      call.2.2 = acts.filterMap (SaveAct.exchange? g s.dialect) ∧
      (acts.filterMap SaveAct.first?).Nodup ∧
      (call.1.1 = .ok () → acts.map (SaveAct.exchange? g s.dialect) = call.2.2.map some ∧
        (withReferences = true → ∀ id, id ∈ acts.filterMap SaveAct.first? ↔
          (g.node? id).isSome ∧ g.Reached roots id)) := by
  refine ⟨fun beyond depth h => ?_, (persisted_saveAll s g roots withReferences w).1, ?_, ?_⟩
  · exact outcome_forM_saveWithin s withReferences beyond h (length_unvisited_start g) roots w
  · rintro rfl h
    exact mem_persisted_saveAll h
  · intro call
    have same : (call.1, call.2.1) = (s.saveAll g roots withReferences).run w :=
      s.saveAll_observed g roots withReferences w []
    obtain ⟨acts, recorded, sent⟩ := s.recorded_saveAll g roots withReferences w
    have persisted : ((s.saveAll g roots withReferences).run w).1.2.persisted =
        acts.filterMap SaveAct.first? := by
      rw [← same]
      exact SaveAct.persisted_eq recorded.journal
    refine ⟨same, acts, recorded.journal, recorded.log, ?_, fun done => ⟨?_, ?_⟩⟩
    · rw [← persisted]
      exact (persisted_saveAll s g roots withReferences w).1
    · rw [recorded.log]
      exact SaveAct.map_exchange? (sent done)
    · rintro rfl id
      rw [← persisted]
      refine mem_persisted_saveAll ?_ id
      rw [← same]
      exact done

variable {s : Session c (StateM σ)} {g : Graph c} {roots : List NodeId} {w w' : σ}
  {st : SaveState c}

/-- **After a call every field holds the key that it is asked to hold, and every write is up to
date.** The graph that is given has to be consistent where the roots reach, the call has to succeed,
and what it saved has to have keys in the end. Then along every plan of a node that the roots reach
the children hold their parent's key, or the parent the key of the first child; and the last
insertion or update of the node carries the values that it has. That is also true of what is sent:
of the acts of the call, each of which has sent its statement, the last one that writes the node
carries these values. -/
theorem saveAll_settles_keys (hg : g.Consistent (g.Reached roots))
    (h : (s.saveAll g roots true).run w = ((.ok (), st), w'))
    (hkeys : ∀ id ∈ st.persisted,
      (st.graph.key id).isUnassignedKey = false ∧ st.graph.key id ≠ .float .nan)
    (id : NodeId) (hid : g.Reached roots id) (hn : (g.node? id).isSome) :
    (∀ hold ∈ g.holdings id,
      (st.graph.valueAt hold.holder hold.field).same (st.graph.key hold.owner) = true) ∧
    st.UpToDate id ∧
    ∃ log, (s.observed.saveAll g roots true).run (w, []) = ((.ok (), st), (w', log)) ∧
      ∃ (before after : List SaveAct) (act : SaveAct),
        st.journal = (before ++ act :: after).flatMap SaveAct.events ∧
        (before ++ act :: after).map (SaveAct.exchange? g s.dialect) = log.map some ∧
        (∃ n, st.graph.node? id = some n ∧
          ∃ event ∈ act.events, event.writes id = true ∧ event.Carries n) ∧
        ∀ later ∈ after, ¬ later.Writes id := by
  have upToDate := (settled_saveAll hg h (mem_visited_saveAll h hid hn)).1
  refine ⟨fun hold hmem => same_key_saveAll hg h hkeys hid hn hmem, upToDate, ?_⟩
  have same := s.saveAll_observed g roots true w []
  obtain ⟨acts, recorded, sent⟩ := s.recorded_saveAll g roots true w
  obtain ⟨log, call⟩ : ∃ log,
      (s.observed.saveAll g roots true).run (w, []) = ((.ok (), st), (w', log)) := by
    obtain ⟨ends, left⟩ := Prod.mk.inj (same.trans h)
    exact ⟨_, Prod.ext ends (Prod.ext left rfl)⟩
  rw [call] at recorded sent
  obtain ⟨n, event, hn, last, carries⟩ := upToDate
  rw [lastWrite?, recorded.journal] at last
  obtain ⟨before, act, after, rfl, mem, writes, unwritten⟩ := SaveAct.exists_last_write last
  refine ⟨log, call, before, after, act, recorded.journal, ?_,
    ⟨n, hn, event, mem, writes, carries⟩, unwritten⟩
  exact (SaveAct.map_exchange? (sent rfl)).trans (congrArg (List.map some) recorded.log.symm)

end Session

namespace Sample

/-- The author and the favourite book are persisted once each, also where both are roots. -/
theorem saveAll_cyclic :
    (session.saveAll cyclic [0, 1] true).run 1 =
      (([0, 1].forM (Saving.saveWithin session true (fun _ => return) 4)).run.run
        (Session.start cyclic)).run 1 ∧
    ((session.saveAll cyclic [0, 1] true).run 1).1.2.persisted = [0, 1] ∧
    (∀ id, id ∈ ((session.saveAll cyclic [0, 1] true).run 1).1.2.persisted ↔
      (cyclic.node? id).isSome ∧ cyclic.Reached [0, 1] id) := by
  obtain ⟨hdepth, -, hreach, -⟩ := Session.saveAll_persists_reachable session cyclic [0, 1] true 1
  exact ⟨hdepth _ 4 (by decide), rfl, hreach rfl rfl⟩

/-- The author and the favourite book after they have been saved. -/
def saved : SaveState catalog := ((session.saveAll cyclic [0] true).run 1).1.2

theorem saveAll_cyclic_eq : (session.saveAll cyclic [0] true).run 1 = ((.ok (), saved), 3) := rfl

theorem keys_saved : ∀ id ∈ saved.persisted,
    (saved.graph.key id).isUnassignedKey = false ∧ saved.graph.key id ≠ .float .nan := by
  decide

/-- Each of the two holds the other's key, which the database has generated, and the author, who
was inserted without the key of the book, has been updated. -/
theorem saveAll_cyclic_keys :
    (saved.graph.valueAt 0 2).same (saved.graph.key 1) = true ∧
    (saved.graph.valueAt 1 2).same (saved.graph.key 0) = true ∧
    saved.UpToDate 0 ∧ saved.UpToDate 1 := by
  have author := Session.saveAll_settles_keys consistent_cyclic saveAll_cyclic_eq keys_saved 0
    (Graph.reached_of_mem 0 List.mem_cons_self) rfl
  have book := Session.saveAll_settles_keys consistent_cyclic saveAll_cyclic_eq keys_saved 1
    ⟨0, List.mem_cons_self, .single (List.mem_cons_self : 1 ∈ [1])⟩ rfl
  exact ⟨author.1 ⟨0, 2, 1⟩ List.mem_cons_self, book.1 ⟨1, 2, 0⟩ List.mem_cons_self, author.2.1,
    book.2.1⟩

end Sample

end RowGraph
