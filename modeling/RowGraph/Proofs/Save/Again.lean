import Mathlib.Data.List.Forall2
import RowGraph.Proofs.Entity.RowStatements
import RowGraph.Proofs.Save.Order
import RowGraph.Proofs.Save.Stored

/-!
# Saving again

A call that has succeeded leaves a graph whose fields hold the keys that they are asked to hold, and
whose rows are stored. A second call finds nothing to take over and nothing to insert: it probes for
each row once and updates it once.

Only one thing may still change. A field may hold a floating-point zero and be asked to hold the
zero of the other sign. The two are the same number, so the first call has left the field alone
where it found that out after the child was saved. The second finds the child's key before that, and
takes it over as it is.

* `Graph.Alike`: graphs with the same values, where zeros may differ in their sign.
* `SaveState.Steady`: what holds in the course of the second call.
* **`saveAll_again`**: the second call succeeds, changes no value, and sends for each node that the
  roots reach a probe and an update, and nothing else.
-/

namespace RowGraph

variable {c : Catalog} {σ : Type}

open Process SaveState Saving

/-! ## The same values -/

namespace Graph

/-- The same nodes with the same values. -/
structure Alike (a b : Graph c) : Prop where
  frame : a.frame = b.frame
  values : ∀ id i, (a.valueAt id i).Equals (b.valueAt id i)

theorem leads_of_frame {g g' : Graph c} (h : g'.frame = g.frame) : g'.Leads = g.Leads := by
  funext id target
  rw [Leads, Leads, planned, planned, alongPlans_of_frame h]

theorem reached_of_frame {g g' : Graph c} (h : g'.frame = g.frame) (roots : List NodeId) :
    g'.Reached roots = g.Reached roots := by
  funext id
  rw [Reached, Reached, leads_of_frame h]

theorem isSome_of_frame {g g' : Graph c} (h : g'.frame = g.frame) (id : NodeId) :
    (g'.node? id).isSome = (g.node? id).isSome := by
  cases hn : g.node? id with
  | none => rw [node?_eq_none_of_frame h hn]
  | some n =>
    obtain ⟨n', hn', -⟩ := node?_of_frame h hn
    rw [hn']
    rfl

/-- The key is a value, null where the node or its entity has none. -/
theorem key_of_frame {g g' : Graph c} (h : g'.frame = g.frame) {id : NodeId} {n : Node c}
    (hn : g.node? id = some n) :
    g'.key id = (n.entity.primaryKey.map Fin.val).elim .null (g'.valueAt id ·) := by
  obtain ⟨m, hm, type, -⟩ := node?_of_frame h hn
  have place : m.entity.primaryKey.map Fin.val = n.entity.primaryKey.map Fin.val :=
    congrArg (fun t => (c.entity t).primaryKey.map Fin.val) type
  rw [← place, key, hm, Option.map_some, Option.getD_some, Node.key]
  cases m.entity.primaryKey with
  | none => rfl
  | some i => simp [valueAt, hm]

/-- What is sent for a node whose row is there: a probe for its key and an update of its row. -/
def Refreshes (g : Graph c) (d : Dialect) (id : NodeId) (sent : List Sent) : Prop :=
  ∃ n probe update, g.node? id = some n ∧ n.entity.countByKey d n.key = .ok probe ∧
    n.entity.updateByKey d n.values = .ok update ∧
    sent = [⟨.scalar, probe.sql, probe.values⟩, ⟨.effect, update.sql, update.values⟩]

/-- What is sent for nodes depends on these nodes alone. -/
theorem refreshes_congr {g g' : Graph c} {d : Dialect} {ids : List NodeId}
    {parts : List (List Sent)} (same : ∀ id ∈ ids, g'.node? id = g.node? id)
    (h : List.Forall₂ (g.Refreshes d) ids parts) : List.Forall₂ (g'.Refreshes d) ids parts := by
  refine ((List.forall₂_and_left ids parts).mpr ⟨same, h⟩).imp fun id sent ⟨node, refreshes⟩ => ?_
  obtain ⟨n, probe, update, hn, rest⟩ := refreshes
  exact ⟨n, probe, update, node.trans hn, rest⟩

/-- A graph as a call leaves it in a region: each field holds the key that it is asked to hold, up
to the sign of zeros, all keys are assigned, and plans can be made. -/
structure Saved (g₁ g : Graph c) (X : NodeId → Prop) : Prop where
  frame : g₁.frame = g.frame
  plans : ∀ id, X id → ∀ n, g.node? id = some n → ∃ plans, n.entity.plans c .all = .ok plans
  keys : ∀ id, X id → (g.node? id).isSome → (g₁.key id).Assigned
  held : ∀ id, X id → ∀ h ∈ g.holdings id,
    (g₁.valueAt h.holder h.field).same (g₁.key h.owner) = true

end Graph

/-! ## The course of the second call -/

namespace SaveState

/-- Every field is as it was, or holds the key that it is asked to hold; the nodes that have been
visited have been persisted but those of `begun`; and for each of them a probe and an update have
been sent since `log`. -/
structure Steady (g g₁ : Graph c) (X : NodeId → Prop) (written : σ → EntityType → Value → Prop)
    (d : Dialect) (log : List Sent) (begun : List NodeId) (st : SaveState c)
    (w : σ × List Sent) : Prop where
  frame : st.graph.frame = g.frame
  values : ∀ id i, st.graph.valueAt id i = g₁.valueAt id i ∨
    ∃ j, X j ∧ ∃ h ∈ g.holdings j, h.holder = id ∧ h.field = i ∧
      st.graph.valueAt id i = g₁.key h.owner
  visited : st.visited = st.persisted ++ begun
  rows : ∀ id, X id → ∀ n, g.node? id = some n → written w.1 n.type (g₁.key id)
  sent : ∃ parts, List.Forall₂ (st.graph.Refreshes d) st.persisted parts ∧
    w.2 = log ++ parts.flatten

variable {g g₁ : Graph c} {X : NodeId → Prop} {written : σ → EntityType → Value → Prop}
  {d : Dialect} {log : List Sent} {begun : List NodeId} {st : SaveState c} {w : σ × List Sent}
  {id : NodeId}

namespace Steady

/-- No key has changed. -/
theorem key_eq (h : Steady g g₁ X written d log begun st w) (R : g.Region X)
    (frame : g₁.frame = g.frame) (id : NodeId) : st.graph.key id = g₁.key id := by
  cases hn : g.node? id with
  | none =>
    rw [Graph.key, Graph.key, Graph.node?_eq_none_of_frame h.frame hn,
      Graph.node?_eq_none_of_frame frame hn]
  | some n =>
    rw [Graph.key_of_frame h.frame hn, Graph.key_of_frame frame hn]
    cases hk : n.entity.primaryKey.map Fin.val with
    | none => rfl
    | some i =>
      obtain same | ⟨j, hx, hold, hh, rfl, rfl, -⟩ := h.values id i
      · exact same
      · exact absurd hk (R.primaryKey_ne hx hh hn)

/-- Every field still holds the key that it is asked to hold. -/
theorem held (h : Steady g g₁ X written d log begun st w) (R : g.Region X)
    (saved : g₁.Saved g X) (hx : X id) {hold : Holding} (hh : hold ∈ g.holdings id) :
    (st.graph.valueAt hold.holder hold.field).same (g₁.key hold.owner) = true := by
  obtain same | ⟨j, hj, other, ho, holder, field, same⟩ := h.values hold.holder hold.field
  · rw [same]
    exact saved.held id hx hold hh
  · obtain ⟨hx', there⟩ := R.owner hx hh
    rw [same, R.agree j id hj hx other ho hold hh holder field]
    exact Value.same_self (saved.keys _ hx' there).2

/-- A field of a node that has not been persisted is given the key that it is asked to hold. -/
theorem withValue (h : Steady g g₁ X written d log begun st w) (R : g.Region X) (hx : X id)
    {hold : Holding} (hh : hold ∈ g.holdings id) (fresh : hold.holder ∉ st.persisted)
    {key : Value} (hkey : key = g₁.key hold.owner) :
    Steady g g₁ X written d log begun (st.withValue hold.holder hold.field key) w := by
  refine ⟨(still_withValue st _ _ key).frame.trans h.frame, fun other i => ?_, h.visited, h.rows,
    ?_⟩
  · by_cases here : hold.holder = other ∧ hold.field = i
    · obtain ⟨rfl, rfl⟩ := here
      have there : st.graph.HasField hold.holder hold.field := .of_frame h.frame (R.holder hx hh).2
      refine .inr ⟨id, hx, hold, hh, rfl, rfl, ?_⟩
      rw [SaveState.withValue, Graph.valueAt_setAt_self there, hkey]
    · rw [SaveState.withValue, Graph.valueAt_setAt_of_ne here]
      exact h.values other i
  · obtain ⟨parts, sent, flat⟩ := h.sent
    refine ⟨parts, Graph.refreshes_congr (fun other hother => ?_) sent, flat⟩
    have ne : hold.holder ≠ other := fun same => fresh (same ▸ hother)
    rw [SaveState.withValue, Graph.setAt, Graph.node?_modify, if_neg ne]

/-- A node is marked, and is yet to be persisted. -/
theorem marked (h : Steady g g₁ X written d log [] st w) (id : NodeId) :
    Steady g g₁ X written d log [id] (st.marked id) w := by
  refine ⟨h.frame, h.values, ?_, h.rows, h.sent⟩
  rw [SaveState.marked, h.visited, List.append_nil]
  rfl

end Steady

end SaveState

/-- A node with an assigned key has a key field, and does not await a key. -/
theorem Node.not_awaits_of_assigned {n : Node c} (h : n.key.Assigned) :
    ∃ i, n.entity.primaryKey = some i ∧ Entity.valueAt n.values i = n.key ∧
      n.entity.awaitsKey n.values i = false := by
  cases hi : n.entity.primaryKey with
  | none =>
    have null : n.key = .null := by rw [key, hi]
    rw [null] at h
    cases h.1
  | some i =>
    have key : Entity.valueAt n.values i = n.key := by rw [Node.key, hi]; rfl
    refine ⟨i, rfl, key, ?_⟩
    simp [Entity.awaitsKey, hi, key, h.1]

namespace Saving

variable {s : Session c (StateM σ)} {g g₁ : Graph c} {X : NodeId → Prop}
  {written : σ → EntityType → Value → Prop} (hs : s.Remembers written) {log : List Sent}
  {id : NodeId} {st : SaveState c} {w : σ × List Sent}
include hs

/-- The first write of a node whose row is there: a probe and an update are sent. -/
theorem runs_persist_of_written {n : Node c} (hn : st.graph.node? id = some n)
    (hk : n.key.Assigned) (there : written w.1 n.type n.key) :
    ∃ probe update v, n.entity.countByKey s.dialect n.key = .ok probe ∧
      n.entity.updateByKey s.dialect n.values = .ok update ∧
      (∀ type key, written w.1 type key → written v type key) ∧
      Runs (persist s.recorded id) st w ()
        ((st.noted (.persist id)).noted (.update id n.values))
        (v, w.2 ++ [⟨.scalar, probe.sql, probe.values⟩] ++
          [⟨.effect, update.sql, update.values⟩]) := by
  obtain ⟨i, hi, value, awaits⟩ := Node.not_awaits_of_assigned hk
  obtain ⟨probe, made⟩ := Entity.countByKey_eq_ok hi s.dialect n.key
  obtain ⟨update, made'⟩ := Entity.updateByKey_eq_ok hi s.dialect n.values
  obtain ⟨count, v, probed, found⟩ := hs.probe w.1 n.type made hk
  obtain ⟨changed, v', updated⟩ := hs.update n.type hi made' (value ▸ hk)
    (value ▸ hs.scalar probed there)
  refine ⟨probe, update, v', made, made', fun _ _ h => hs.execute updated (hs.scalar probed h), ?_⟩
  refine (runs_persist_iff hn).mpr ⟨i, hi, ?_⟩
  rw [awaits, if_neg Bool.false_ne_true]
  refine runs_insertOrUpdate_iff.mpr ⟨probe, made, count, _, Sent.run_noted.mpr ⟨probed, rfl⟩, ?_⟩
  rw [if_pos (found.mpr there)]
  exact runs_updateRow_iff.mpr ⟨update, made', changed, Sent.run_noted.mpr ⟨updated, rfl⟩, rfl⟩

theorem yields_persist (R : g.Region X) (saved : g₁.Saved g X)
    (h : Steady g g₁ X written s.dialect log [id] st w) (hx : X id) {n : Node c}
    (hn : st.graph.node? id = some n) :
    Yields False (fun _ => Steady g g₁ X written s.dialect log []) (persist s.recorded id)
      st w := by
  obtain ⟨m, hm, type, -⟩ := Graph.node?_of_frame h.frame.symm hn
  have key : n.key = g₁.key id := by
    rw [← h.key_eq R saved.frame, Graph.key, hn]
    rfl
  have assigned : n.key.Assigned := key ▸ saved.keys id hx (by rw [hm]; rfl)
  have there : written w.1 n.type n.key := key ▸ type ▸ h.rows id hx m hm
  obtain ⟨probe, update, v, made, made', kept, run⟩ :=
    runs_persist_of_written hs hn assigned there
  have persisted : ((st.noted (.persist id)).noted (.update id n.values)).persisted =
      st.persisted ++ [id] :=
    (still_noted rfl).persisted.trans (persisted_noted_persist st id)
  refine (yields_of_runs run).mpr
    ⟨h.frame, h.values, ?_, fun j hj k hk => kept _ _ (h.rows j hj k hk), ?_⟩
  · rw [persisted, List.append_nil]
    exact h.visited
  · obtain ⟨parts, sent, flat⟩ := h.sent
    refine ⟨parts ++ [[⟨.scalar, probe.sql, probe.values⟩, ⟨.effect, update.sql, update.values⟩]],
      ?_, ?_⟩
    · rw [persisted]
      exact List.rel_append sent (.cons ⟨n, probe, update, hn, made, made', rfl⟩ .nil)
    · rw [flat]
      simp

end Saving

/-- In the course of the second call nothing changes, and it may not fail. -/
def Course.repeating {s : Session c (StateM σ)} {g g₁ : Graph c} {X : NodeId → Prop}
    {written : σ → EntityType → Value → Prop} (hs : s.Remembers written) (R : g.Region X)
    (saved : g₁.Saved g X) (log : List Sent) : Course s.recorded g X False where
  Inv := Steady g g₁ X written s.dialect log []
  Begun id st w := Steady g g₁ X written s.dialect log [id] st w ∧ id ∉ st.persisted
  Key id key := key = g₁.key id
  Again := False
  frame h := h.frame
  frame_begun h := h.1.frame
  key id h := h.key_eq R saved.frame id
  plans := by
    intro st w id n h hx hn _ why hp
    obtain ⟨m, hm, type, -⟩ := Graph.node?_of_frame h.frame.symm hn
    obtain ⟨plans, made⟩ := saved.plans id hx m hm
    have entity : m.entity = n.entity := congrArg c.entity type
    rw [← entity, made] at hp
    cases hp
  begin h _ _ hid _ := ⟨h.marked _, fun hp => hid (by rw [h.visited, List.append_nil]; exact hp)⟩
  link h hx hh _ := ⟨h.1.withValue R hx hh h.2 (h.1.key_eq R saved.frame _), h.2⟩
  persist h hx hn := yields_persist hs R saved h.1 hx hn
  give h hx hh hid hkey := by
    refine h.withValue R hx hh (fun hp => hid ?_) hkey
    rw [h.visited, List.append_nil]
    exact hp
  renew h hx hh _ differs hkey := by
    have same := h.held R saved hx hh
    rw [hkey, same] at differs
    cases differs
  take h hx hh _ differs := by
    have same := h.held R saved hx hh
    rw [h.key_eq R saved.frame, same] at differs
    cases differs
  again := False.elim

/-! ## Calls -/

namespace Session

variable {s : Session c (StateM σ)} {g : Graph c} {roots : List NodeId}
  {written : σ → EntityType → Value → Prop}

/-- What a successful call leaves of what its roots reach. -/
theorem saved_saveAll (hs : s.Remembers written) (hg : g.Consistent (g.Reached roots))
    {st : SaveState c} {w w' : σ} (h : (s.saveAll g roots true).run w = ((.ok (), st), w'))
    (hkeys : ∀ id ∈ st.persisted, (st.graph.key id).Assigned) :
    st.graph.Saved g (g.Reached roots) ∧ ∀ id, g.Reached roots id → ∀ n, g.node? id = some n →
      written w' n.type (st.graph.key id) := by
  have stored := saveAll_stores hs hg h
  have persisted : ∀ id, g.Reached roots id → (g.node? id).isSome → id ∈ st.persisted := by
    intro id hx there
    have mem := mem_persisted_saveAll (congrArg (·.1.1) h) id
    rw [h] at mem
    exact mem.mpr ⟨there, hx⟩
  have there {id : NodeId} {n : Node c} (hn : g.node? id = some n) : (g.node? id).isSome := by
    rw [hn]
    rfl
  refine ⟨⟨stored.frame, fun id hx n hn => ?_, fun id hx hn => ?_, fun id hx hold hh => ?_⟩,
    fun id hx n hn => ?_⟩
  · exact stored.plans id (persisted id hx (there hn)) n hn
  · exact hkeys id (persisted id hx hn)
  · obtain ⟨n, hn, -⟩ := Graph.mem_alongPlans.mp hh
    exact same_key_saveAll hg h hkeys hx (there hn) hh
  · have hp := persisted id hx (there hn)
    exact stored.rows id hp n hn (hkeys id hp)

/-- **Saving again changes nothing.** Over a consistent part of a graph, and with a database that
remembers the rows that it has been sent, let a call be successful and leave the nodes with keys.
Then a second call on the graph that is left is successful too. It changes no value, and sends a
probe for the key and an update of the row of each node that the roots reach, in the order in which
the nodes are persisted, and nothing else. -/
theorem saveAll_again (hs : s.Remembers written) (hg : g.Consistent (g.Reached roots))
    {st₁ : SaveState c} {w₀ w₁ : σ} {log₀ log₁ : List Sent}
    (first : (s.recorded.saveAll g roots true).run (w₀, log₀) = ((.ok (), st₁), (w₁, log₁)))
    (hkeys : ∀ id ∈ st₁.persisted, (st₁.graph.key id).Assigned) :
    ∃ st₂ w₂ parts,
      (s.recorded.saveAll st₁.graph roots true).run (w₁, log₁) =
        ((.ok (), st₂), (w₂, log₁ ++ parts.flatten)) ∧
      st₂.graph.Alike st₁.graph ∧
      List.Forall₂ (st₂.graph.Refreshes s.dialect) st₂.persisted parts ∧
      st₂.persisted.Nodup ∧
      ∀ id, id ∈ st₂.persisted ↔ (g.node? id).isSome ∧ g.Reached roots id := by
  obtain ⟨saved, rows⟩ := saved_saveAll hs.recorded hg first hkeys
  have R : g.Region (g.Reached roots) := region_reached hg
  have begun : Steady g st₁.graph (g.Reached roots) written s.dialect log₁ [] (start st₁.graph)
      (w₁, log₁) :=
    ⟨saved.frame, fun _ _ => .inl rfl, rfl, rows, [], .nil, (List.append_nil log₁).symm⟩
  obtain ⟨⟨⟩, st₂, ⟨w₂, log₂⟩, second, steady⟩ :=
    yields_false.mp ((Course.repeating hs R saved log₁).yields_saveAll Graph.Reached.closed
      st₁.graph.nodes.length Graph.reached_of_mem begun)
  have second : (s.recorded.saveAll st₁.graph roots true).run (w₁, log₁) =
      ((.ok (), st₂), (w₂, log₂)) := second
  obtain ⟨parts, sent, rfl⟩ := steady.sent
  have nodup := (persisted_saveAll s.recorded st₁.graph roots true (w₁, log₁)).1
  have reached := mem_persisted_saveAll (congrArg (·.1.1) second)
  rw [second] at nodup reached
  refine ⟨st₂, w₂, parts, second, ⟨steady.frame.trans saved.frame.symm, fun id i => ?_⟩, sent,
    nodup, fun id => ?_⟩
  · obtain same | ⟨j, hx, hold, hh, rfl, rfl, same⟩ := steady.values id i
    · exact .inl same
    · rw [same]
      exact Value.equals_of_same ((Value.same_comm _ _).trans (saved.held j hx hold hh))
  · rw [reached id, Graph.isSome_of_frame saved.frame, Graph.reached_of_frame saved.frame]

end Session

/-! ## Two nodes that lead to each other, saved twice -/

namespace Sample

theorem takeWhile_append_stop {α : Type} {p : α → Bool} {stop : α} (h : p stop = false)
    (before after : List α) :
    (before ++ stop :: after).takeWhile p = (before ++ [stop]).takeWhile p := by
  induction before with
  | nil => simp [h]
  | cons a before ih => simp only [List.cons_append, List.takeWhile_cons, ih]

/-- The table in a statement is the first one that is named. -/
theorem tableOf_append {lead : String} (h : '"' ∉ lead.toList) (e : Entity) (rest : String) :
    tableOf (lead ++ e.quotedTable .sqlite ++ rest) = tableOf (e.quotedTable .sqlite) := by
  obtain ⟨name, hq⟩ : ∃ name, e.quotedTable .sqlite = Text.enclosed '"' '"' name := by
    unfold Entity.quotedTable Dialect.quoteTable
    split
    · exact ⟨_, rfl⟩
    · exact ⟨_, rfl⟩
  have skipped : ∀ a ∈ lead.toList, decide (a ≠ '"') = true := fun a ha =>
    decide_eq_true fun same => h (same ▸ ha)
  rw [hq, Text.enclosed, tableOf, tableOf]
  simp only [String.toList_append, String.toList_ofList, List.append_assoc,
    List.dropWhile_append_of_pos skipped, List.cons_append, List.nil_append]
  simp only [List.dropWhile_cons, ne_eq, not_true_eq_false, decide_false, Bool.false_eq_true,
    if_false, List.drop_succ_cons, List.drop_zero]
  exact takeWhile_append_stop (by decide) _ _

/-- The sample entities have their keys first. -/
theorem primaryKey_catalog {type : EntityType} {i : Fin (catalog.entity type).fields.length}
    (h : (catalog.entity type).primaryKey = some i) : i.val = 0 := by
  have keyed : ∀ d ∈ descriptions.map Prod.snd,
      (keyIndex? (EntityDraft.addAll d.clauses .empty).fields).map Fin.val = some 0 := by
    decide
  have place (d : Description) : (d.build type).primaryKey.map Fin.val =
      (keyIndex? (EntityDraft.addAll d.clauses .empty).fields).map Fin.val := by
    rw [Description.build, Option.map_map]
    rfl
  have there : (catalog.entity type).primaryKey.map Fin.val = some i.val := by rw [h]; rfl
  change Option.map Fin.val (Description.build _ type).primaryKey = _ at there
  rw [place] at there
  generalize found : List.lookup type _ = entry at there
  cases entry with
  | none => cases there
  | some d =>
    obtain ⟨before, after, split, -⟩ := List.lookup_eq_some_iff.mp found
    have mem : (type, d) ∈ before ++ (type, d) :: after := by simp
    obtain ⟨⟨name, d'⟩, hd, same⟩ := List.mem_map.mp (split ▸ mem)
    obtain ⟨-, rfl⟩ := Prod.mk.inj same
    rw [Option.getD_some, keyed d' (List.mem_map_of_mem hd)] at there
    exact (Option.some.inj there).symm

/-- A row of an entity is on the shelf. -/
def onShelf (shelf : Shelf) (type : EntityType) (key : Value) : Prop :=
  (tableOf ((catalog.entity type).quotedTable .sqlite), key) ∈ shelf.rows

theorem execute_insert {sql : String} {params : List Value} {shelf : Shelf}
    (h : verbOf sql = "INSERT".toList) : (keeping.execute sql params).run shelf =
      (.ok 1, { shelf with rows := (tableOf sql, params.headD .null) :: shelf.rows }) :=
  if_pos h

theorem execute_other {sql : String} {params : List Value} {shelf : Shelf}
    (h : verbOf sql ≠ "INSERT".toList) :
    (keeping.execute sql params).run shelf = (.ok 1, shelf) :=
  if_neg h

theorem scalar_insert {sql : String} {params : List Value} {shelf : Shelf}
    (h : verbOf sql = "INSERT".toList) : (keeping.scalar sql params).run shelf =
      (.ok (some (.int (.ofNat shelf.next))), ⟨shelf.next + 1,
        (tableOf sql, .int (.ofNat shelf.next)) :: shelf.rows⟩) :=
  if_pos h

theorem scalar_other {sql : String} {params : List Value} {shelf : Shelf}
    (h : verbOf sql ≠ "INSERT".toList) : (keeping.scalar sql params).run shelf =
      (.ok (some (.int (if (tableOf sql, params.headD .null) ∈ shelf.rows then 1 else 0))),
        shelf) :=
  if_neg h

/-- The office remembers its rows. -/
theorem remembers_office : office.Remembers onShelf where
  execute {sql params w answer v type key} run hw := by
    have run : (keeping.execute sql params).run w = (answer, v) := run
    by_cases h : verbOf sql = "INSERT".toList
    · rw [execute_insert h] at run
      obtain ⟨-, rfl⟩ := Prod.mk.inj run
      exact List.mem_cons_of_mem _ hw
    · rw [execute_other h] at run
      obtain ⟨-, rfl⟩ := Prod.mk.inj run
      exact hw
  scalar {sql params w answer v type key} run hw := by
    have run : (keeping.scalar sql params).run w = (answer, v) := run
    by_cases h : verbOf sql = "INSERT".toList
    · rw [scalar_insert h] at run
      obtain ⟨-, rfl⟩ := Prod.mk.inj run
      exact List.mem_cons_of_mem _ hw
    · rw [scalar_other h] at run
      obtain ⟨-, rfl⟩ := Prod.mk.inj run
      exact hw
  probe w type key probe made _ := by
    have made : (catalog.entity type).countByKey .sqlite key = .ok probe := made
    obtain ⟨rest, sql⟩ := Entity.sql_countByKey made
    have verb : verbOf probe.sql ≠ "INSERT".toList := by rw [sql]; simp [verbOf]
    have table : tableOf probe.sql = tableOf ((catalog.entity type).quotedTable .sqlite) := by
      rw [sql, tableOf_append (by decide)]
    refine ⟨_, _, scalar_other verb, ?_⟩
    rw [Entity.values_countByKey made, table, List.headD_cons]
    change _ ↔ (_, key) ∈ w.rows
    split
    · next there => exact iff_of_true (by decide) there
    · next missing => exact iff_of_false (by decide) missing
  insert {type values i count w v} hi awaits _ run := by
    obtain ⟨rest, sql⟩ := Entity.sql_insertion (catalog.entity type) .sqlite values
    have verb : verbOf ((catalog.entity type).insertion .sqlite values).sql = "INSERT".toList := by
      rw [sql]; simp [verbOf]
    have table : tableOf ((catalog.entity type).insertion .sqlite values).sql =
        tableOf ((catalog.entity type).quotedTable .sqlite) := by
      rw [sql, tableOf_append (by decide)]
    obtain ⟨-, rfl⟩ := Prod.mk.inj ((execute_insert verb).symm.trans run)
    refine List.mem_cons.mpr (.inl ?_)
    rw [← Entity.head_values_insertion (primaryKey_catalog hi) .sqlite awaits, ← table]
    rfl
  insertForKey {type values i statement key w v} _ _ made _ run := by
    have made : (catalog.entity type).insertionWithKey .sqlite values = .ok statement := made
    obtain ⟨rest, sql⟩ := Entity.sql_insertionWithKey made
    have verb : verbOf statement.sql = "INSERT".toList := by rw [sql]; simp [verbOf]
    have table : tableOf statement.sql = tableOf ((catalog.entity type).quotedTable .sqlite) := by
      rw [sql, tableOf_append (by decide)]
    obtain ⟨answer, rfl⟩ := Prod.mk.inj ((scalar_insert verb).symm.trans run)
    refine List.mem_cons.mpr (.inl ?_)
    rw [← Option.some.inj (Except.ok.inj answer), table]
  update type values i statement w _ made _ _ := by
    obtain ⟨rest, sql⟩ := Entity.sql_updateByKey made
    have verb : verbOf statement.sql ≠ "INSERT".toList := by rw [sql]; simp [verbOf]
    exact ⟨_, _, execute_other verb⟩

/-- The author and the favourite book saved in the office, with what was sent. -/
def kept : (Except GraphError Unit × SaveState catalog) × Shelf × List Sent :=
  (office.recorded.saveAll cyclic [0] true).run (⟨1, []⟩, [])

/-- The author was inserted without the book's key, and was updated when the book was there. Saved
again, each of the two is probed for and updated once. -/
theorem saveAll_again_cyclic :
    let again := (office.recorded.saveAll kept.1.2.graph [0] true).run (kept.2.1, kept.2.2)
    again.1.1 = .ok () ∧ again.1.2.graph.Alike kept.1.2.graph ∧
    kept.2.2.map Sent.params = [[.null, .null], [.null, .int 1], [.null, .int 2, .int 1]] ∧
    (again.2.2.drop 3).map (fun note => (note.sql, note.params)) =
      [("SELECT COUNT(*) FROM \"Author\" WHERE \"Id\"=@0", [.int 1]),
        ("UPDATE \"Author\" SET \"Name\"=@0, \"FavoriteBookId\"=@1 WHERE \"Id\"=@2",
          [.null, .int 2, .int 1]),
        ("SELECT COUNT(*) FROM \"Book\" WHERE \"Id\"=@0", [.int 2]),
        ("UPDATE \"Book\" SET \"Title\"=@0, \"AuthorId\"=@1 WHERE \"Id\"=@2",
          [.null, .int 1, .int 2])] := by
  have whole (x : (Except GraphError Unit × SaveState catalog) × Shelf × List Sent)
      (h : x.1.1 = .ok ()) : x = ((.ok (), x.1.2), (x.2.1, x.2.2)) :=
    Prod.ext (Prod.ext h rfl) rfl
  obtain ⟨st₂, w₂, parts, second, alike, -⟩ :=
    Session.saveAll_again remembers_office consistent_cyclic (whole kept (by decide +kernel))
      (by decide +kernel)
  intro again
  have second : again = ((.ok (), st₂), (w₂, kept.2.2 ++ parts.flatten)) := second
  refine ⟨congrArg (·.1.1) second, by rw [second]; exact alike, by decide +kernel, ?_⟩
  decide +kernel

end Sample

end RowGraph
