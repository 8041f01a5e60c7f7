import RowGraph.Proofs.Save.Copies
import RowGraph.Proofs.Save.Keys

/-!
# The order of writes

A write that carries the key of another node follows the write of that node. Where a value that is
sent is not the one that was given, some plan asked for the key of a node whose row was there by
then, or it is the key that the database had generated for the row itself.

This fails where a child has been given a key and has no row: its parent takes the key over before
it is written, since `linkKeyedChildren` asks whether the child has a key and not whether it has a
row, and the child is written after it.

* `keeps_saveNodeBy`: guarded saving accounts for every value that it changes or sends.
* **`saveAll_order`**: so does saving, where the children whose keys parents hold have rows as soon
  as they have keys.
* `Sample.order_of_hired`: a team that is inserted with the key of a leader without a row.
-/

namespace RowGraph

variable {c : Catalog}

/-! ## Where values come from -/

/-- The row that an entry of the journal sends. -/
def SaveEvent.row? : SaveEvent → Option (NodeId × List Value)
  | .persist _ => none
  | .insert id values => some (id, values)
  | .update id values => some (id, values)

/-- Why a value may be another one than was given, after these steps: some plan asks that the field
holds the key of a node whose row is there, or the database has generated the key. -/
def Graph.Sourced (g : Graph c) (stored : NodeId → Bool) (journal : List SaveEvent) (id : NodeId)
    (i : Nat) : Prop :=
  (∃ owner, g.Asks ⟨id, i, owner⟩ ∧
      (owner = id ∨ stored owner = true ∨ journal.any (·.writes owner) = true)) ∨
    (journal.any (·.writes id) = true ∧
      ((g.node? id).bind fun n => n.entity.primaryKey.map Fin.val) = some i)

/-- Every row that is sent has values that were given or may be other ones by then. -/
def Graph.Ordered (g : Graph c) (stored : NodeId → Bool) (journal : List SaveEvent) : Prop :=
  ∀ before event after, journal = before ++ event :: after →
    ∀ id values, event.row? = some (id, values) →
      ∀ i, Entity.valueAt values i ≠ g.valueAt id i → g.Sourced stored before id i

namespace Graph

variable {g : Graph c} {stored : NodeId → Bool} {journal : List SaveEvent}

theorem Sourced.append {id : NodeId} {i : Nat} (h : g.Sourced stored journal id i)
    (event : SaveEvent) : g.Sourced stored (journal ++ [event]) id i := by
  have grows {node : NodeId} (wrote : journal.any (·.writes node) = true) :
      (journal ++ [event]).any (·.writes node) = true := by
    rw [List.any_append, wrote, Bool.true_or]
  obtain ⟨owner, asks, there⟩ | ⟨wrote, key⟩ := h
  · exact .inl ⟨owner, asks, there.imp_right (Or.imp_right grows)⟩
  · exact .inr ⟨grows wrote, key⟩

/-- One more entry of the journal. -/
theorem Ordered.append (h : g.Ordered stored journal) {event : SaveEvent}
    (last : ∀ id values, event.row? = some (id, values) →
      ∀ i, Entity.valueAt values i ≠ g.valueAt id i → g.Sourced stored journal id i) :
    g.Ordered stored (journal ++ [event]) := by
  intro before entry after split
  obtain rfl | ⟨rest, final, rfl⟩ := List.eq_nil_or_concat after
  · obtain ⟨rfl, here⟩ := List.append_inj' split rfl
    obtain rfl := List.singleton_inj.mp here
    exact last
  · have parts : journal ++ [event] = (before ++ entry :: rest) ++ [final] := by
      simpa using split
    exact h before entry rest (List.append_inj' parts rfl).1

end Graph

namespace SaveState

/-- Every value is the one that was given, or may be another one by now, and so was every value that
was sent. -/
structure Accounted (g : Graph c) (stored : NodeId → Bool) (st : SaveState c) : Prop where
  frame : st.graph.frame = g.frame
  values : ∀ id i, st.graph.valueAt id i ≠ g.valueAt id i → g.Sourced stored st.journal id i
  ordered : g.Ordered stored st.journal

variable {g : Graph c} {stored : NodeId → Bool} {st : SaveState c} {id : NodeId}

/-- One more entry, whose values are the node's. -/
theorem Accounted.noted (h : Accounted g stored st) {event : SaveEvent}
    (sends : ∀ id values, event.row? = some (id, values) →
      ∀ i, Entity.valueAt values i = st.graph.valueAt id i) :
    Accounted g stored (st.noted event) := by
  refine ⟨h.frame, fun id i ne => (h.values id i ne).append event, h.ordered.append ?_⟩
  intro id values row i ne
  rw [sends id values row i] at ne
  exact h.values id i ne

/-- A row of a node is sent as it is. -/
theorem Accounted.sent (h : Accounted g stored st) {n : Node c} (hn : st.graph.node? id = some n)
    {event : SaveEvent} (row : event.row? = some (id, n.values)) :
    Accounted g stored (st.noted event) := by
  refine h.noted fun other values same i => ?_
  rw [row] at same
  cases same
  rw [Graph.valueAt, hn]
  rfl

/-- A value is set that may be another one than was given. -/
theorem Accounted.withValue (h : Accounted g stored st) {i : Nat}
    (sourced : g.Sourced stored st.journal id i) (v : Value) :
    Accounted g stored (st.withValue id i v) := by
  refine ⟨(still_withValue st id i v).frame.trans h.frame, fun other j ne => ?_, h.ordered⟩
  by_cases here : id = other ∧ i = j
  · obtain ⟨rfl, rfl⟩ := here
    exact sourced
  · refine h.values other j fun same => ne ?_
    rw [← same]
    exact Graph.valueAt_setAt_of_ne here v

theorem Accounted.marked (h : Accounted g stored st) (id : NodeId) :
    Accounted g stored (st.marked id) :=
  ⟨h.frame, h.values, h.ordered⟩

end SaveState

namespace Saving

open Process SaveState

variable {σ : Type} {s : Session c (StateM σ)} {g : Graph c} {stored : NodeId → Bool}
  {st : SaveState c} {w : σ} {id : NodeId}

/-! ## Writes -/

theorem keeps_ask {α : Type} {P : SaveState c → Prop}
    (answer : StateM σ (Except ExecutionError α)) :
    Keeps P (ask answer : Saving c (StateM σ) α) := by
  intro st w h
  rwa [after_ask]

theorem keeps_ofCatalog {α : Type} {P : SaveState c → Prop} (x : Except CatalogError α) :
    Keeps P (ofCatalog x : Saving c (StateM σ) α) := by
  intro st w h
  rwa [after_ofCatalog]

section Writes

variable {n : Node c} (h : Accounted g stored st) (hn : st.graph.node? id = some n)
include h hn

theorem accounted_insertRow : Accounted g stored (after (insertRow s id n) st w) := by
  refine pred_after_bind (h.sent hn rfl) fun _ t v run => ?_
  obtain ⟨rfl, rfl⟩ := runs_note.mp run
  rw [after_discard, after_ask]
  exact h.sent hn rfl

theorem accounted_updateRow : Accounted g stored (after (updateRow s id n) st w) := by
  refine pred_after_bind (keeps_ofCatalog _ st w h) fun _ t v run => ?_
  obtain ⟨-, rfl, rfl⟩ := runs_ofCatalog.mp run
  refine pred_after_bind (h.sent hn rfl) fun _ t v run => ?_
  obtain ⟨rfl, rfl⟩ := runs_note.mp run
  rw [after_discard, after_ask]
  exact h.sent hn rfl

theorem accounted_insertOrUpdate : Accounted g stored (after (insertOrUpdate s id n) st w) := by
  refine pred_after_bind (keeps_ofCatalog _ st w h) fun _ t v run => ?_
  obtain ⟨-, rfl, rfl⟩ := runs_ofCatalog.mp run
  refine pred_after_bind (keeps_ask _ _ _ h) fun count t v run => ?_
  obtain ⟨-, rfl⟩ := runs_ask.mp run
  split
  · exact accounted_updateRow h hn
  · exact accounted_insertRow h hn

/-- A generated key is set after the row has been sent. -/
theorem accounted_insertForKey : Accounted g stored (after (insertForKey s id n) st w) := by
  have sent : Accounted g stored (st.noted (.insert id n.values)) := h.sent hn rfl
  refine pred_after_bind (keeps_ofCatalog _ st w h) fun _ t v run => ?_
  obtain ⟨-, rfl, rfl⟩ := runs_ofCatalog.mp run
  refine pred_after_bind sent fun _ t v run => ?_
  obtain ⟨rfl, rfl⟩ := runs_note.mp run
  refine pred_after_bind (keeps_ask _ _ _ sent) fun answer t v run => ?_
  obtain ⟨-, rfl⟩ := runs_ask.mp run
  cases answer with
  | none => exact sent
  | some key =>
    dsimp only
    split
    · exact sent
    · refine pred_after_bind (keeps_ofCatalog _ _ _ sent) fun keyed t v run => ?_
      obtain ⟨hk, rfl, rfl⟩ := runs_ofCatalog.mp run
      obtain ⟨i, hi, rfl⟩ := Node.setKey_eq_ok hk
      have put : after (modify fun s => { s with graph := s.graph.put id (n.setAt i key) })
          (st.noted (.insert id n.values)) v =
            (st.noted (.insert id n.values)).withValue id i key :=
        congrArg (fun g => SaveState.mk g _ _) (Graph.put_setAt hn i key)
      rw [put]
      refine sent.withValue (.inr ⟨?_, ?_⟩) key
      · simp [SaveState.noted, SaveEvent.writes]
      · obtain ⟨given, hg, type, -⟩ := Graph.node?_of_frame h.frame.symm hn
        have entity : given.entity = n.entity := congrArg c.entity type
        rw [hg, Option.bind_some, entity, hi]
        rfl

end Writes

theorem keeps_update : Keeps (Accounted g stored) (update s id) := by
  refine keeps_get_bind fun st w h => ?_
  cases hn : st.graph.node? id with
  | none => exact h
  | some n => exact accounted_updateRow h hn

theorem keeps_persist : Keeps (Accounted g stored) (persist s id) := by
  refine keeps_get_bind fun st w h => ?_
  cases hn : st.graph.node? id with
  | none => exact h
  | some n =>
    have noted : Accounted g stored (st.noted (.persist id)) := h.noted nofun
    refine pred_after_bind noted fun _ t v run => ?_
    obtain ⟨rfl, rfl⟩ := runs_note.mp run
    refine pred_after_bind (keeps_ofCatalog _ _ _ noted) fun key t v run => ?_
    obtain ⟨-, rfl, rfl⟩ := runs_ofCatalog.mp run
    split
    · exact accounted_insertForKey noted hn
    · exact accounted_insertOrUpdate noted hn

/-! ## Guarded saving -/

/-- Saving that fails instead of taking a key over too early. -/
abbrev strict (g : Graph c) (stored : NodeId → Bool) (why : GraphError) :
    Copying c (StateM σ) :=
  Copying.guarded g stored fun _ _ _ _ => throw why

variable {why : GraphError}

theorem keeps_strict (holder : NodeId) (field : Nat) (owner : NodeId) (key : Value) :
    Keeps (Accounted g stored)
      (strict g stored why holder field owner key : Saving c (StateM σ) Unit) := by
  refine keeps_get_bind fun st w h => ?_
  split
  · next there => exact h.withValue (.inl ⟨owner, there⟩) key
  · exact h

theorem keeps_linkKeyedChildrenBy {e : Entity} (plan : Plan c e) :
    Keeps (Accounted g stored)
      (linkKeyedChildrenBy (strict g stored why) id plan : Saving c (StateM σ) Unit) := by
  refine keeps_get_bind fun st w h => ?_
  dsimp only
  split
  · exact h
  · split
    · exact h
    · split
      · exact h
      · exact keeps_strict _ _ _ _ st w h

theorem keeps_takeChildKeyBy (field : Nat) (child : NodeId) :
    Keeps (Accounted g stored)
      (takeChildKeyBy (strict g stored why) id field child : Saving c (StateM σ) Bool) := by
  refine keeps_get_bind fun st w h => ?_
  dsimp only
  split
  · exact h
  · exact keeps_bind (keeps_strict _ _ _ _) (fun _ => keeps_pure true) st w h

section References

variable {save : NodeId → Saving c (StateM σ) Unit}
  (hsave : ∀ id, Keeps (Accounted g stored) (save id))
include hsave

theorem keeps_saveChildBy (parent : NodeId) (key : Value) (field : Nat) (child : NodeId) :
    Keeps (Accounted g stored)
      (saveChildBy (strict g stored why) s save parent key field child) := by
  refine keeps_get_bind fun st w h => ?_
  split
  · split
    · exact h
    · exact keeps_bind (keeps_strict _ _ _ _) (fun _ => keeps_update) st w h
  · exact keeps_bind (keeps_strict _ _ _ _) (fun _ => hsave child) st w h

theorem keeps_saveReferenceBy {e : Entity} (plan : Plan c e) :
    Keeps (Accounted g stored) (saveReferenceBy (strict g stored why) s save id plan) := by
  refine keeps_get_bind fun st w h => ?_
  dsimp only
  split
  · exact keeps_bind (keeps_forM fun child _ => keeps_saveChildBy hsave _ _ _ child)
      (fun _ => keeps_pure false) st w h
  · split
    · exact h
    · split
      · exact keeps_takeChildKeyBy _ _ st w h
      · exact keeps_bind (hsave _) (fun _ => keeps_takeChildKeyBy _ _) st w h

theorem keeps_saveVisitedBy (n : Node c) :
    Keeps (Accounted g stored) (saveVisitedBy (strict g stored why) s save id n) := by
  unfold saveVisitedBy
  split
  · refine keeps_bind (keeps_forM fun plan _ => keeps_linkKeyedChildrenBy plan) fun _ => ?_
    refine keeps_bind keeps_persist fun _ => ?_
    refine keeps_bind (keeps_mapM fun plan _ => keeps_saveReferenceBy hsave plan) fun _ => ?_
    split
    · exact keeps_update
    · exact keeps_pure ()
  · exact keeps_throw _

theorem keeps_visitBy (id : NodeId) :
    Keeps (Accounted g stored) (visitBy (strict g stored why) s save id) := by
  refine keeps_get_bind fun st w h => ?_
  split
  · exact h
  · split
    · exact h
    · exact keeps_saveVisitedBy hsave _ (st.marked id) w (h.marked id)

end References

/-- Guarded saving accounts for every value that it changes or sends. -/
theorem keeps_saveNodeBy (fuel : Nat) (id : NodeId) :
    Keeps (Accounted g stored) (saveNodeBy (strict g stored why) s fuel id) := by
  induction fuel generalizing id with
  | zero => exact keeps_pure ()
  | succ fuel ih => exact keeps_visitBy ih id

end Saving

/-! ## Calls -/

namespace Session

open Process SaveState Saving

variable {σ : Type}

/-- **Rows before the keys that refer to them.** Where the children whose keys parents hold have
rows as soon as they have keys, any call takes over keys of rows that are there and no others: what
would be done instead makes no difference, and every row that is sent, also by a call that fails,
has a value other than the given one only where a plan asks for the key of a row that has been
stored or sent before, or where the database has generated the row's own key. -/
theorem saveAll_order (s : Session c (StateM σ)) (g : Graph c) (roots : List NodeId)
    (stored : NodeId → Bool) (w : σ) (keyed : KeyedChildrenStored g (g.Reached roots) stored) :
    (∀ otherwise, (s.saveAllBy (Copying.guarded g stored otherwise) g roots).run w =
      (s.saveAll g roots true).run w) ∧
    g.Ordered stored ((s.saveAll g roots true).run w).1.2.journal := by
  refine ⟨fun otherwise => saveAll_guarded keyed s otherwise w, ?_⟩
  rw [← saveAll_guarded keyed s (fun _ _ _ _ => throw (.missingGeneratedKey "")) w]
  have begun : Accounted g stored (start g) :=
    ⟨rfl, fun _ _ ne => absurd rfl ne, fun before _ _ split => by simp [start] at split⟩
  exact (keeps_forM (fun root _ => keeps_saveNodeBy g.nodes.length root) (start g) w begun).ordered

end Session

namespace Sample

/-- What a database holds: the next key to generate, and the keys of the rows of its tables. -/
structure Shelf where
  next : Nat
  rows : List (List Char × Value)

/-- The name of the table in a statement: the first name in quotes. -/
def tableOf (sql : String) : List Char :=
  ((sql.toList.dropWhile (· ≠ '"')).drop 1).takeWhile (· ≠ '"')

/-- The first word of a statement. -/
def verbOf (sql : String) : List Char := sql.toList.takeWhile (· ≠ ' ')

/-- A database that holds keys. Rows have them in their first column, and a row that is inserted
without one gets the next. -/
def keeping : Database (StateM Shelf) where
  query _ _ := pure (.ok [])
  execute sql params := modifyGet fun shelf =>
    if verbOf sql = "INSERT".toList then
      (.ok 1, { shelf with rows := (tableOf sql, params.headD .null) :: shelf.rows })
    else (.ok 1, shelf)
  scalar sql params := modifyGet fun shelf =>
    if verbOf sql = "INSERT".toList then
      let key := Value.int (.ofNat shelf.next)
      (.ok (some key), ⟨shelf.next + 1, (tableOf sql, key) :: shelf.rows⟩)
    else
      (.ok (some (.int (if (tableOf sql, params.headD .null) ∈ shelf.rows then 1 else 0))), shelf)

/-- A session with that database. -/
def office : Session catalog (StateM Shelf) := ⟨keeping, .sqlite, ⟨true, false, 10⟩, []⟩

/-- A team that has no key yet, led by a user with a key. -/
def hired : Graph catalog :=
  ⟨[{ Node.ofValues (type "Team") [.null, .text "Red"] with
        references := [("TeamLeader", .single 1)] },
    Node.ofValues (type "TeamUser") [.int 7]]⟩

theorem holdings_hired : ∀ id, hired.holdings id =
    match id with
    | 0 => [⟨0, 2, 1⟩]
    | _ => []
  | 0 => rfl
  | 1 => rfl
  | _ + 2 => rfl

/-- Where the leader is a user already, the team is inserted with the leader's key, and after the
leader's row has been brought up to date nothing is left to do. -/
theorem order_of_stored :
    let stored := fun id => id == 1
    let after := (office.saveAll hired [0] true).run ⟨100, [("TeamUser".toList, .int 7)]⟩
    after.1.2.journal =
      [.persist 0, .insert 0 [.null, .text "Red", .int 7],
        .persist 1, .update 1 [.int 7, .null, .null, .null]] ∧
    hired.Ordered stored after.1.2.journal := by
  have keyed : Saving.KeyedChildrenStored hired (hired.Reached [0]) fun id => id == 1 := by
    intro id _ h hh _ _ _
    rw [holdings_hired] at hh
    split at hh
    · rw [List.mem_singleton.mp hh]
      rfl
    · cases hh
  exact ⟨by decide +kernel,
    (office.saveAll_order hired [0] _ ⟨100, [("TeamUser".toList, .int 7)]⟩ keyed).2⟩

/-- **Where the leader has a key and no row**, the team is inserted with the key of a user who is
inserted after it. -/
theorem order_of_hired :
    let after := (office.saveAll hired [0] true).run ⟨100, []⟩
    after.1.2.journal =
      [.persist 0, .insert 0 [.null, .text "Red", .int 7],
        .persist 1, .insert 1 [.int 7, .null, .null, .null]] ∧
    ¬ hired.Ordered (fun _ => false) after.1.2.journal := by
  intro after
  have journal : after.1.2.journal =
      [.persist 0, .insert 0 [.null, .text "Red", .int 7],
        .persist 1, .insert 1 [.int 7, .null, .null, .null]] := by
    decide +kernel
  refine ⟨journal, fun ordered => ?_⟩
  rw [journal] at ordered
  have sourced : hired.Sourced (fun _ => false) [.persist 0] 0 2 :=
    ordered [.persist 0] (.insert 0 [.null, .text "Red", .int 7]) _ rfl 0 _ rfl 2 (by decide)
  obtain ⟨owner, asks, there⟩ | ⟨wrote, -⟩ := sourced
  · obtain rfl : owner = 1 := by
      obtain asks | asks := asks <;> rw [holdings_hired] at asks <;> split at asks <;> simp_all
    revert there
    decide
  · cases wrote

end Sample

end RowGraph
