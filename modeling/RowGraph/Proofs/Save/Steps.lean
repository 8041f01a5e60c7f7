import RowGraph.Graph.Save
import RowGraph.Proofs.Outcome

/-!
# What a step of saving can do

Saving changes values of nodes, marks nodes and keeps a journal. It leaves the frame of the graph
alone: the types of the nodes and what is attached to their references. So which references are
planned and where they lead is the same before, during and after a call.

* `Still`: values may have moved and rows may have been written, but no node has been marked.
* `Onward`: the frame is kept and marked nodes stay marked.
* `Later`: what holds between the beginning and the end of any part of a call, also of one that
  fails: besides, nodes are persisted once, when they are marked.
* `later_saveNode`: saving a node is such a part, for every executor.
-/

namespace RowGraph

variable {c : Catalog}

/-! ## The frame of a graph -/

namespace Graph

/-- The types of the nodes and what is attached to their references. -/
def frame (g : Graph c) : List (EntityType × List (String × Attached)) :=
  g.nodes.map fun n => (n.type, n.references)

theorem frame_modify (g : Graph c) (id : NodeId) {f : Node c → Node c}
    (h : ∀ n, g.node? id = some n → (f n).type = n.type ∧ (f n).references = n.references) :
    (g.modify id f).frame = g.frame := by
  refine List.ext_getElem? fun i => ?_
  simp only [frame, modify, List.getElem?_map, List.getElem?_modify]
  split
  · next hi =>
    subst hi
    cases hn : g.nodes[id]? with
    | none => rfl
    | some n => simp [h n hn]
  · simp

@[simp] theorem frame_setAt (g : Graph c) (id : NodeId) (i : Nat) (v : Value) :
    (g.setAt id i v).frame = g.frame :=
  g.frame_modify id fun _ _ => ⟨rfl, rfl⟩

/-- A value of the node that is there changed by putting a whole node in its place. -/
theorem put_setAt {g : Graph c} {id : NodeId} {n : Node c} (hn : g.node? id = some n) (i : Nat)
    (v : Value) : g.put id (n.setAt i v) = g.setAt id i v := by
  have hn : g.nodes[id]? = some n := hn
  simp only [put, setAt, modify, Graph.mk.injEq]
  refine List.ext_getElem? fun j => ?_
  simp only [List.getElem?_modify]
  split
  · next hj =>
    subst hj
    simp [hn]
  · rfl

/-- Graphs of one frame have nodes of the same type with the same references. -/
theorem node?_of_frame {g g' : Graph c} (h : g'.frame = g.frame) {id : NodeId} {n : Node c}
    (hn : g.node? id = some n) :
    ∃ n', g'.node? id = some n' ∧ n'.type = n.type ∧ n'.references = n.references := by
  have hi := congrArg (·[id]?) h
  simp only [frame, List.getElem?_map, show g.nodes[id]? = some n from hn, Option.map_some,
    Option.map_eq_some_iff, Prod.mk.injEq] at hi
  exact hi

theorem node?_eq_none_of_frame {g g' : Graph c} (h : g'.frame = g.frame) {id : NodeId}
    (hn : g.node? id = none) : g'.node? id = none := by
  cases hn' : g'.node? id with
  | none => rfl
  | some n' =>
    obtain ⟨n, hn', -⟩ := node?_of_frame h.symm hn'
    rw [hn] at hn'
    cases hn'

theorem length_nodes_of_frame {g g' : Graph c} (h : g'.frame = g.frame) :
    g'.nodes.length = g.nodes.length := by
  simpa [frame] using congrArg List.length h

theorem children_of_frame {g g' : Graph c} (h : g'.frame = g.frame) (id : NodeId)
    (name : String) : g'.children id name = g.children id name := by
  cases hn : g.node? id with
  | none => simp [children, hn, node?_eq_none_of_frame h hn]
  | some n =>
    obtain ⟨n', hn', -, hr⟩ := node?_of_frame h hn
    simp [children, hn, hn', Node.children, Node.many?, Node.attached?, hr]

end Graph

/-- A node whose key has been set is the node with another value at its key's place. -/
theorem Node.setKey_eq_ok {n keyed : Node c} {key : Value} (h : n.setKey key = .ok keyed) :
    ∃ i, n.entity.primaryKey = some i ∧ n.setAt i key = keyed := by
  unfold Node.setKey Entity.requireKey at h
  cases hp : n.entity.primaryKey with
  | none =>
    rw [hp] at h
    cases h
  | some i =>
    rw [hp] at h
    cases h
    exact ⟨i, rfl, rfl⟩

/-! ## States of a call -/

/-- The node that an entry of the journal persists. -/
def SaveEvent.persisted? : SaveEvent → Option NodeId
  | .persist id => some id
  | _ => none

namespace SaveState

/-- The nodes that have been persisted, in order. -/
def persisted (st : SaveState c) : List NodeId := st.journal.filterMap SaveEvent.persisted?

/-- The state after one more entry of the journal. -/
def noted (st : SaveState c) (event : SaveEvent) : SaveState c :=
  { st with journal := st.journal ++ [event] }

/-- The state after a value has been set. -/
def withValue (st : SaveState c) (id : NodeId) (i : Nat) (v : Value) : SaveState c :=
  { st with graph := st.graph.setAt id i v }

/-- The state after a node has been marked. -/
def marked (st : SaveState c) (id : NodeId) : SaveState c :=
  { st with visited := st.visited ++ [id] }

/-- Between the two no node has been marked or persisted. -/
structure Still (a b : SaveState c) : Prop where
  frame : b.graph.frame = a.graph.frame
  visited : b.visited = a.visited
  persisted : b.persisted = a.persisted

theorem Still.refl (a : SaveState c) : Still a a := ⟨rfl, rfl, rfl⟩

theorem Still.trans {a b d : SaveState c} (h : Still a b) (k : Still b d) : Still a d :=
  ⟨k.frame.trans h.frame, k.visited.trans h.visited, k.persisted.trans h.persisted⟩

/-- A node has been marked and persisted, and nothing else. -/
structure Entered (id : NodeId) (a b : SaveState c) : Prop where
  frame : b.graph.frame = a.graph.frame
  visited : b.visited = a.visited ++ [id]
  persisted : b.persisted = a.persisted ++ [id]

/-- The frame is kept and no mark is lost. -/
structure Onward (a b : SaveState c) : Prop where
  frame : b.graph.frame = a.graph.frame
  visited : a.visited ⊆ b.visited

theorem Still.onward {a b : SaveState c} (h : Still a b) : Onward a b :=
  ⟨h.frame, h.visited ▸ List.Subset.refl _⟩

theorem Onward.trans {a b d : SaveState c} (h : Onward a b) (k : Onward b d) : Onward a d :=
  ⟨k.frame.trans h.frame, fun _ hi => k.visited (h.visited hi)⟩

/-- What holds between the beginning and the end of a part of a call: besides, the nodes that were
persisted meanwhile are different ones that had no mark before. -/
structure Later (a b : SaveState c) : Prop extends Onward a b where
  persisted : ∃ new, b.persisted = a.persisted ++ new ∧ new.Nodup ∧
    ∀ id ∈ new, id ∉ a.visited ∧ id ∈ b.visited

theorem Still.later {a b : SaveState c} (h : Still a b) : Later a b :=
  ⟨h.onward, [], by simp [h.persisted], by simp, by simp⟩

theorem Entered.later {id : NodeId} {a b : SaveState c} (h : Entered id a b)
    (hid : id ∉ a.visited) : Later a b :=
  ⟨⟨h.frame, h.visited ▸ List.subset_append_left _ _⟩, [id], h.persisted, by simp,
    by simp [hid, h.visited]⟩

theorem later_marked (st : SaveState c) (id : NodeId) : Later st (st.marked id) :=
  ⟨⟨rfl, List.subset_append_left _ _⟩, [], by simp [marked, persisted], by simp, by simp⟩

theorem Later.refl (a : SaveState c) : Later a a := (Still.refl a).later

theorem Later.trans {a b d : SaveState c} (h : Later a b) (k : Later b d) : Later a d := by
  obtain ⟨new, hp, hn, hm⟩ := h.persisted
  obtain ⟨more, kp, kn, km⟩ := k.persisted
  refine ⟨h.toOnward.trans k.toOnward, new ++ more,
    by rw [kp, hp, List.append_assoc], ?_, fun id hid => ?_⟩
  · refine List.nodup_append.mpr ⟨hn, kn, fun i hi j hj hij => ?_⟩
    exact (km j hj).1 (hij ▸ (hm i hi).2)
  · rcases List.mem_append.mp hid with hid | hid
    · exact ⟨(hm id hid).1, k.visited (hm id hid).2⟩
    · exact ⟨fun hv => (km id hid).1 (h.visited hv), (km id hid).2⟩

theorem persisted_noted_persist (st : SaveState c) (id : NodeId) :
    (st.noted (.persist id)).persisted = st.persisted ++ [id] := by
  simp [noted, persisted, SaveEvent.persisted?]

theorem still_noted {st : SaveState c} {event : SaveEvent} (h : event.persisted? = none) :
    Still st (st.noted event) :=
  ⟨rfl, rfl, by simp [noted, persisted, h]⟩

theorem still_withValue (st : SaveState c) (id : NodeId) (i : Nat) (v : Value) :
    Still st (st.withValue id i v) :=
  ⟨by simp [withValue], rfl, rfl⟩

end SaveState

/-! ## Outcomes of the steps -/

namespace Saving

open Process SaveState

variable {σ : Type}

@[simp] theorem outcome_note (event : SaveEvent) (st : SaveState c) (w : σ) :
    outcome (note event : Saving c (StateM σ) Unit) st w = ((.ok (), st.noted event), w) := rfl

@[simp] theorem outcome_setAt (id : NodeId) (i : Nat) (v : Value) (st : SaveState c) (w : σ) :
    outcome (setAt id i v : Saving c (StateM σ) Unit) st w =
      ((.ok (), st.withValue id i v), w) := rfl

theorem outcome_ask {α : Type} (answer : StateM σ (Except ExecutionError α)) (st : SaveState c)
    (w : σ) :
    outcome (ask answer : Saving c (StateM σ) α) st w =
      ((((answer.run w).1).mapError .execution, st), (answer.run w).2) := by
  rw [ask, outcome_bind, outcome_lift]
  cases (answer.run w).1 <;> rfl

@[simp] theorem outcome_ofCatalog {α : Type} (x : Except CatalogError α) (st : SaveState c)
    (w : σ) :
    outcome (ofCatalog x : Saving c (StateM σ) α) st w = ((x.mapError .catalog, st), w) := by
  cases x <;> rfl

@[simp] theorem after_ask {α : Type} (answer : StateM σ (Except ExecutionError α))
    (st : SaveState c) (w : σ) : after (ask answer : Saving c (StateM σ) α) st w = st := by
  rw [after, outcome_ask]

@[simp] theorem after_ofCatalog {α : Type} (x : Except CatalogError α) (st : SaveState c) (w : σ) :
    after (ofCatalog x : Saving c (StateM σ) α) st w = st := by
  rw [after, outcome_ofCatalog]

@[simp] theorem runs_note {event : SaveEvent} {st st' : SaveState c} {u : Unit} {w w' : σ} :
    Runs (note event : Saving c (StateM σ) Unit) st w u st' w' ↔ st.noted event = st' ∧ w = w' := by
  simp [Runs]

@[simp] theorem runs_setAt {id : NodeId} {i : Nat} {v : Value} {st st' : SaveState c} {u : Unit}
    {w w' : σ} : Runs (setAt id i v : Saving c (StateM σ) Unit) st w u st' w' ↔
      st.withValue id i v = st' ∧ w = w' := by
  simp [Runs]

@[simp] theorem runs_ofCatalog {α : Type} {x : Except CatalogError α} {a : α}
    {st st' : SaveState c} {w w' : σ} :
    Runs (ofCatalog x : Saving c (StateM σ) α) st w a st' w' ↔ x = .ok a ∧ st = st' ∧ w = w' := by
  rw [Runs, outcome_ofCatalog]
  cases x with
  | error why =>
    change (((Except.error _, st), w) = ((.ok a, st'), w')) ↔ _
    simp
  | ok b =>
    change (((Except.ok b, st), w) = ((.ok a, st'), w')) ↔ _
    simp [and_assoc]

theorem runs_ask {α : Type} {answer : StateM σ (Except ExecutionError α)} {a : α}
    {st st' : SaveState c} {w w' : σ} :
    Runs (ask answer : Saving c (StateM σ) α) st w a st' w' ↔
      answer.run w = (.ok a, w') ∧ st = st' := by
  rw [Runs, outcome_ask]
  constructor
  · intro h
    rcases ha : answer.run w with ⟨r, v⟩
    rw [ha] at h
    cases r <;> cases h
    exact ⟨rfl, rfl⟩
  · rintro ⟨ha, rfl⟩
    rw [ha]
    rfl

/-! ## No single write marks or persists a node -/

section Still

variable (s : Session c (StateM σ)) (st : SaveState c) (w : σ)

theorem Still.after_bind {α β : Type} {x : Saving c (StateM σ) α} {f : α → Saving c (StateM σ) β}
    {st : SaveState c} {w : σ} (hx : Still st (after x st w))
    (hf : ∀ a t v, Runs x st w a t v → Still t (after (f a) t v)) :
    Still st (after (x >>= f) st w) :=
  rel_after_bind (R := Still) Still.trans hx hf

theorem still_note {event : SaveEvent} (h : event.persisted? = none) :
    Still st (after (note event : Saving c (StateM σ) Unit) st w) := by
  rw [after, outcome_note]
  exact still_noted h

theorem still_setAt (id : NodeId) (i : Nat) (v : Value) :
    Still st (after (setAt id i v : Saving c (StateM σ) Unit) st w) := by
  rw [after, outcome_setAt]
  exact still_withValue st id i v

theorem still_insertRow (id : NodeId) (n : Node c) :
    Still st (after (insertRow s id n) st w) := by
  refine Still.after_bind (still_note st w rfl) fun _ t v _ => ?_
  rw [after_discard, after_ask]
  exact .refl t

theorem still_updateRow (id : NodeId) (n : Node c) :
    Still st (after (updateRow s id n) st w) := by
  refine Still.after_bind (by rw [after_ofCatalog]; exact .refl st) fun _ t v _ => ?_
  refine Still.after_bind (still_note t v rfl) fun _ t v _ => ?_
  rw [after_discard, after_ask]
  exact .refl t

theorem still_insertOrUpdate (id : NodeId) (n : Node c) :
    Still st (after (insertOrUpdate s id n) st w) := by
  refine Still.after_bind (by rw [after_ofCatalog]; exact .refl st) fun _ t v _ => ?_
  refine Still.after_bind (by rw [after_ask]; exact .refl t) fun count t v _ => ?_
  split
  · exact still_updateRow s t v id n
  · exact still_insertRow s t v id n

theorem still_update (id : NodeId) : Still st (after (update s id) st w) := by
  refine Still.after_bind (.refl st) fun st' t v h => ?_
  cases hn : st'.graph.node? id with
  | none => exact .refl t
  | some n => exact still_updateRow s t v id n

theorem still_insertForKey {id : NodeId} {n : Node c} (hn : st.graph.node? id = some n) :
    Still st (after (insertForKey s id n) st w) := by
  refine Still.after_bind (by rw [after_ofCatalog]; exact .refl st) fun _ t v h => ?_
  obtain ⟨-, rfl, rfl⟩ := runs_ofCatalog.mp h
  refine Still.after_bind (still_note st w rfl) fun _ t v h => ?_
  obtain ⟨rfl, rfl⟩ := runs_note.mp h
  refine Still.after_bind (by rw [after_ask]; exact .refl _) fun answer t v h => ?_
  obtain ⟨-, rfl⟩ := runs_ask.mp h
  split
  · next key =>
    dsimp only
    split
    · exact .refl _
    · refine Still.after_bind (by rw [after_ofCatalog]; exact .refl _) fun keyed t v h => ?_
      obtain ⟨hk, rfl, rfl⟩ := runs_ofCatalog.mp h
      obtain ⟨i, -, rfl⟩ := Node.setKey_eq_ok hk
      have hput : after (modify fun s => { s with graph := s.graph.put id (n.setAt i key) })
          (st.noted (.insert id n.values)) v =
            (st.noted (.insert id n.values)).withValue id i key :=
        congrArg (fun g => SaveState.mk g _ _) (Graph.put_setAt hn i key)
      rw [hput]
      exact still_withValue _ id i key
  · exact .refl _

theorem still_linkKeyedChildren {e : Entity} (id : NodeId) (plan : Plan c e) :
    Still st (after (linkKeyedChildren id plan) st w) := by
  refine Still.after_bind (.refl st) fun st' t v h => ?_
  dsimp only
  split
  · exact .refl t
  · split
    · exact .refl t
    · split
      · exact .refl t
      · exact still_setAt t v id _ _

theorem still_takeChildKey (id : NodeId) (field : Nat) (child : NodeId) :
    Still st (after (takeChildKey id field child) st w) := by
  refine Still.after_bind (.refl st) fun st' t v h => ?_
  dsimp only
  split
  · exact .refl t
  · exact Still.after_bind (still_setAt t v id _ _) fun _ t v _ => .refl t

end Still

/-! ## A node visited -/

/-- The first write of a node that is there: it is persisted, and then only its values change. -/
theorem still_persist (s : Session c (StateM σ)) (st : SaveState c) (w : σ) {id : NodeId}
    {n : Node c} (hn : st.graph.node? id = some n) :
    Still (st.noted (.persist id)) (after (persist s id) st w) := by
  rw [persist, after_get_bind, hn]
  refine pred_after_bind (.refl _) fun _ t v h => ?_
  obtain ⟨rfl, rfl⟩ := runs_note.mp h
  refine Still.after_bind (by rw [after_ofCatalog]; exact .refl _) fun key t v h => ?_
  obtain ⟨-, rfl, rfl⟩ := runs_ofCatalog.mp h
  split
  · exact still_insertForKey s _ _ hn
  · exact still_insertOrUpdate s _ _ id n

/-- The plans are made first. -/
theorem saveVisited_eq (s : Session c (StateM σ)) (withReferences : Bool)
    (save : NodeId → Saving c (StateM σ) Unit) (id : NodeId) (n : Node c) :
    saveVisited s withReferences save id n =
      match n.entity.plans c (if withReferences then .all else .nothing) with
      | .ok plans => do
        plans.forM (linkKeyedChildren id)
        persist s id
        let changes ← plans.mapM (saveReference s save id)
        if changes.any (·) then update s id
      | .error why => throw why := by
  rw [saveVisited]
  cases n.entity.plans c (if withReferences then .all else .nothing) with
  | ok plans => exact pure_bind _ _
  | error why => rfl

section Later

variable (s : Session c (StateM σ))

theorem still_linked {e : Entity} (id : NodeId) (plans : List (Plan c e)) (st : SaveState c)
    (w : σ) : Still st (after (plans.forM (linkKeyedChildren id)) st w) :=
  rel_after_forM (R := Still) Still.refl Still.trans
    (fun plan _ st w => still_linkKeyedChildren st w id plan) st w

/-- A node that has just been marked has been entered when it is persisted. -/
theorem entered_persist {st t : SaveState c} {id : NodeId} {n : Node c}
    (hn : st.graph.node? id = some n) (ht : Still (st.marked id) t) (w : σ) :
    Entered id st (after (persist s id) t w) := by
  obtain ⟨n', hn', -⟩ := Graph.node?_of_frame ht.frame hn
  have h := still_persist s t w hn'
  refine ⟨h.frame.trans ht.frame, h.visited.trans ht.visited, ?_⟩
  rw [h.persisted, persisted_noted_persist, ht.persisted]
  rfl

theorem Later.after_bind {α β : Type} {x : Saving c (StateM σ) α} {f : α → Saving c (StateM σ) β}
    {st : SaveState c} {w : σ} (hx : Later st (after x st w))
    (hf : ∀ a t v, Runs x st w a t v → Later t (after (f a) t v)) :
    Later st (after (x >>= f) st w) :=
  rel_after_bind (R := Later) Later.trans hx hf

variable {save : NodeId → Saving c (StateM σ) Unit}
  (hsave : ∀ id st w, Later st (after (save id) st w))
include hsave

theorem later_saveChild (key : Value) (field : Nat) (child : NodeId) (st : SaveState c) (w : σ) :
    Later st (after (saveChild s save key field child) st w) := by
  rw [saveChild, after_get_bind]
  split
  · split
    · exact .refl st
    · exact Later.after_bind (still_setAt st w child field key).later fun _ t v _ =>
        (still_update s t v child).later
  · exact Later.after_bind (still_setAt st w child field key).later fun _ t v _ => hsave child t v

theorem later_saveReference {e : Entity} (id : NodeId) (plan : Plan c e) (st : SaveState c)
    (w : σ) : Later st (after (saveReference s save id plan) st w) := by
  rw [saveReference, after_get_bind]
  dsimp only
  cases plan.link with
  | childHoldsKey field =>
    refine Later.after_bind ?_ fun _ t v _ => .refl t
    exact rel_after_forM (R := Later) Later.refl Later.trans
      (fun child _ => later_saveChild s hsave _ _ child) st w
  | parentHoldsKey field =>
    dsimp only
    cases (st.graph.children id plan.reference.name).head? with
    | none => exact .refl st
    | some child =>
      dsimp only
      split
      · exact (still_takeChildKey st w id field child).later
      · exact Later.after_bind (hsave child st w) fun _ t v _ =>
          (still_takeChildKey t v id field child).later

/-- What follows when a node has been marked: it is persisted, and then others may be. -/
theorem later_saveVisited (withReferences : Bool) {st : SaveState c} {id : NodeId} {n : Node c}
    (hn : st.graph.node? id = some n) (hid : id ∉ st.visited) (w : σ) :
    Later st (after (saveVisited s withReferences save id n) (st.marked id) w) := by
  rw [saveVisited_eq]
  cases n.entity.plans c (if withReferences then .all else .nothing) with
  | error why => exact later_marked st id
  | ok plans =>
    have hlink := still_linked id plans (st.marked id) w
    refine pred_after_bind ((later_marked st id).trans hlink.later) fun _ t v h => ?_
    rw [after_of_runs h] at hlink
    have hpersist := (entered_persist s hn hlink v).later hid
    refine pred_after_bind hpersist fun _ t' v' h' => ?_
    rw [after_of_runs h'] at hpersist
    refine hpersist.trans (Later.after_bind ?_ fun changes u x _ => ?_)
    · exact rel_after_mapM (R := Later) Later.refl Later.trans
        (fun plan _ => later_saveReference s hsave id plan) t' v'
    · split
      · exact (still_update s u x id).later
      · exact .refl u

theorem later_visit (withReferences : Bool) (id : NodeId) (st : SaveState c) (w : σ) :
    Later st (after (visit s withReferences save id) st w) := by
  rw [visit, after_get_bind]
  cases hn : st.graph.node? id with
  | none => exact .refl st
  | some n =>
    dsimp only
    split
    · exact .refl st
    · next hid => exact later_saveVisited s hsave withReferences hn hid w

omit hsave

theorem later_saveNode (withReferences : Bool) (fuel : Nat) (id : NodeId) (st : SaveState c)
    (w : σ) : Later st (after (saveNode s withReferences fuel id) st w) := by
  induction fuel generalizing id st w with
  | zero => exact .refl st
  | succ fuel ih => exact later_visit s ih withReferences id st w

end Later

end Saving

end RowGraph
