import RowGraph.Graph.Suspended.Load
import RowGraph.Graph.Suspended.Save
import RowGraph.Proofs.Following
import RowGraph.Proofs.Save.Stored

/-!
# Waiting for answers changes nothing

Saving and loading are written twice, at once and as conversations. Whatever the database answers to
each statement, rows or a failure, the conversation that is held with it takes the same course: it
sends the same statements in the same order, fails at the same point, and leaves the same graph.

The two walks of saving differ in how they are written. At once, the references of a node say which
of them changed it, and the node is updated if one did; in a conversation a flag collects that in a
loop. Loading at once joins the children of all statements, in a conversation they are appended one
statement after the other.

Results:
* `follows_saveNode`: the walk over a graph, by induction on its depth.
* `follows_fillReferences`: the references of loaded rows.
* `run_save` and its like: whole calls, with any database.
* **`suspended_same_course`**: with a database that is a state machine, also the statements that
  are sent are the same.
-/

namespace RowGraph

variable {c : Catalog} {m : Type → Type} [Monad m]

/-- The session whose statements are waited for. -/
def Session.suspended (s : Session c m) : Session c Conversation :=
  { s with database := Conversation.database }

/-! ## Saving -/

namespace Saving

variable {db : Database m}

theorem follows_ofCatalog {α : Type} (x : Except CatalogError α) :
    Follows db (ofCatalog x : Saving c Conversation α) (ofCatalog x) := by
  cases x with
  | ok a => exact follows_pure a
  | error why => exact follows_throw _

variable [LawfulMonad m]

theorem follows_ask {α : Type} {x : Conversation (Except ExecutionError α)}
    {y : m (Except ExecutionError α)} (h : Conversation.run db x = y) :
    Follows db (ask x : Saving c Conversation α) (ask y) := by
  unfold ask
  refine follows_bind (follows_answer h) fun answer => ?_
  cases answer with
  | ok a => exact follows_pure a
  | error why => exact follows_throw _

theorem follows_note (event : SaveEvent) :
    Follows db (note event : Saving c Conversation Unit) (note event) :=
  follows_modify _

theorem follows_setAt (id : NodeId) (i : Nat) (v : Value) :
    Follows db (setAt id i v : Saving c Conversation Unit) (setAt id i v) :=
  follows_modify _

theorem follows_linkKeyedChildren {e : Entity} (id : NodeId) (plan : Plan c e) :
    Follows db (linkKeyedChildren id plan : Saving c Conversation Unit)
      (linkKeyedChildren id plan) := by
  unfold linkKeyedChildren
  refine follows_bind follows_get fun st => ?_
  rcases plan with ⟨reference, field | field⟩
  · exact follows_pure ()
  · dsimp only
    cases (st.graph.children id reference.name).head? with
    | none => exact follows_pure ()
    | some child =>
      dsimp only
      split
      · exact follows_pure ()
      · exact follows_setAt _ _ _

theorem follows_takeChildKey (id : NodeId) (field : Nat) (child : NodeId) :
    Follows db (takeChildKey id field child : Saving c Conversation Bool)
      (takeChildKey id field child) := by
  unfold takeChildKey
  refine follows_bind follows_get fun st => ?_
  dsimp only
  split
  · exact follows_pure false
  · exact follows_bind (follows_setAt _ _ _) fun _ => follows_pure true

end Saving

namespace Suspended

open Saving

variable [LawfulMonad m] {s : Session c m}

theorem scalar_suspended (sql : String) (params : List Value) :
    Conversation.run s.database (s.suspended.database.scalar sql params) =
      s.database.scalar sql params := by
  simp [Session.suspended, Conversation.database, Conversation.run]

theorem execute_suspended (sql : String) (params : List Value) :
    Conversation.run s.database (s.suspended.database.execute sql params) =
      s.database.execute sql params := by
  simp [Session.suspended, Conversation.database, Conversation.run]

theorem query_suspended (sql : String) (params : List Value) :
    Conversation.run s.database (s.suspended.database.query sql params) =
      s.database.query sql params := by
  simp [Session.suspended, Conversation.database, Conversation.run]

/-- A statement whose answer is not looked at. -/
theorem follows_execute (statement : Statement) :
    Follows s.database
      (do
        let _ ← ask (s.suspended.database.execute statement.sql statement.values)
        pure () : Saving c Conversation Unit)
      (discard (ask (s.database.execute statement.sql statement.values))) := by
  have ignored : (discard (ask (s.database.execute statement.sql statement.values)) :
      Saving c m Unit) = (do
        let _ ← ask (s.database.execute statement.sql statement.values)
        pure ()) := by
    rw [Functor.discard, map_const]
    simp [Function.comp]
  rw [ignored]
  exact follows_bind (follows_ask (execute_suspended _ _)) fun _ => follows_pure ()

theorem follows_update (id : NodeId) :
    Follows s.database (update s.suspended id) (Saving.update s id) := by
  unfold update Saving.update updateRow
  refine follows_bind follows_get fun st => ?_
  cases st.graph.node? id with
  | none => exact follows_pure ()
  | some n =>
    refine follows_bind (follows_ofCatalog _) fun statement => ?_
    exact follows_bind (follows_note _) fun _ => follows_execute statement

theorem follows_persist (id : NodeId) :
    Follows s.database (persist s.suspended id) (Saving.persist s id) := by
  unfold persist Saving.persist
  refine follows_bind follows_get fun st => ?_
  cases st.graph.node? id with
  | none => exact follows_pure ()
  | some n =>
    dsimp only
    refine follows_bind (follows_note _) fun _ => ?_
    refine follows_bind (follows_ofCatalog _) fun key => ?_
    split
    · unfold insertForKey
      refine follows_bind (follows_ofCatalog _) fun statement => ?_
      refine follows_bind (follows_note _) fun _ => ?_
      refine follows_bind (follows_ask (scalar_suspended _ _)) fun answer => ?_
      cases answer with
      | none => exact follows_throw _
      | some key =>
        cases hnull : key.isNull with
        | true =>
          simp only [Option.filter_some, hnull, Bool.not_true, Bool.false_eq_true, if_false,
            if_true]
          intro st
          rw [run_throw_bind]
          rfl
        | false =>
          simp only [Option.filter_some, hnull, Bool.not_false, Bool.false_eq_true, if_false,
            if_true]
          exact follows_bind (follows_ofCatalog _) fun keyed => follows_modify _
    · unfold insertOrUpdate
      refine follows_bind (follows_ofCatalog _) fun probe => ?_
      refine follows_bind (follows_ask (scalar_suspended _ _)) fun count => ?_
      split
      · refine follows_bind (follows_ofCatalog _) fun statement => ?_
        exact follows_bind (follows_note _) fun _ => follows_execute statement
      · exact follows_bind (follows_note _) fun _ => follows_execute _

/-- A flag that takes in each of these says in the end whether one of them was set. -/
theorem foldl_or (changes : List Bool) (dirty : Bool) :
    changes.foldl (fun dirty changed => changed || dirty) dirty =
      ((changes.any fun changed => changed) || dirty) := by
  induction changes generalizing dirty with
  | nil => rfl
  | cons changed rest ih =>
    rw [List.foldl_cons, ih, List.any_cons, Bool.or_left_comm, Bool.or_assoc]

section Walk

variable {wait : NodeId → Saving c Conversation Unit} {save : NodeId → Saving c m Unit}
  (h : ∀ id, Follows s.database (wait id) (save id))
include h

theorem follows_saveHolders (id : NodeId) (name : String) (field : Nat) :
    Follows s.database (saveHolders s.suspended wait id name field)
      (do
        let st ← get
        (st.graph.children id name).forM (saveChild s save (st.graph.key id) field)) := by
  intro st
  rw [saveHolders, run_get_bind, run_get_bind, run_get_bind, bind_pure_unit]
  generalize st.graph.key id = key
  refine follows_loop (m := m) (fun child => ?_) (st.graph.children id name) st
  intro now
  rw [saveChild, bind_assoc, run_get_bind, run_get_bind]
  split
  · rw [run_get_bind]
    cases (now.graph.valueAt child field).same key with
    | true =>
      simp only [Bool.not_true, Bool.false_eq_true, if_true, if_false, pure_bind]
      rfl
    | false =>
      simp only [Bool.not_false, Bool.false_eq_true, if_true, if_false, bind_assoc]
      exact follows_bind (follows_setAt child field key)
        (fun _ => follows_bind (follows_update child) fun _ => follows_pure _) now
  · rw [bind_assoc]
    exact follows_bind (follows_setAt child field key)
      (fun _ => follows_bind (h child) fun _ => follows_pure _) now

theorem follows_saveHeld (id : NodeId) (name : String) (field : Nat) :
    Follows s.database (saveHeld wait id name field)
      (do
        let st ← get
        match (st.graph.children id name).head? with
        | none => return false
        | some child =>
          unless child ∈ st.visited do save child
          takeChildKey id field child) := by
  intro st
  rw [saveHeld, run_get_bind, run_get_bind]
  cases (st.graph.children id name).head? with
  | none => rfl
  | some child =>
    dsimp only
    rw [run_get_bind]
    by_cases visited : child ∈ st.visited
    · rw [if_neg (not_not_intro visited), if_pos visited]
      exact follows_takeChildKey id field child st
    · rw [if_pos visited, if_neg visited]
      exact follows_bind (h child) (fun _ => follows_takeChildKey id field child) st

theorem follows_saveReference {e : Entity} (id : NodeId) (plan : Plan c e) (dirty : Bool) :
    Follows s.database (saveReference s.suspended wait id plan dirty)
      (do return (← Saving.saveReference s save id plan) || dirty) := by
  rcases plan with ⟨reference, field | field⟩
  · have held := follows_bind (follows_saveHolders h id reference.name field)
      fun _ => follows_pure dirty
    simp only [Saving.saveReference, bind_assoc, pure_bind, Bool.false_or] at held ⊢
    exact held
  · exact follows_bind (follows_saveHeld h id reference.name field) fun changed => follows_pure _

/-- The references of a node, with a flag for the keys that it takes over. -/
theorem follows_saveReferences {e : Entity} (id : NodeId) (plans : List (Plan c e)) :
    Follows s.database
      (forIn plans false fun plan dirty => do
        return .yield (← saveReference s.suspended wait id plan dirty))
      (do
        let changes ← plans.mapM (Saving.saveReference s save id)
        return changes.any fun changed => changed) := by
  have collected : (do
      let changes ← plans.mapM (Saving.saveReference s save id)
      return changes.any fun changed => changed) = (do
      let changes ← plans.mapM (Saving.saveReference s save id)
      return changes.foldl (fun dirty changed => changed || dirty) false) := by
    simp only [foldl_or, Bool.or_false]
  rw [collected]
  refine follows_fold _ (fun plan dirty => ?_) plans false
  have step := follows_bind (follows_saveReference h id plan dirty)
    fun dirty => follows_pure (ForInStep.yield dirty)
  rw [bind_assoc] at step
  simpa only [pure_bind] using step

end Walk

/-- **The walk that waits follows the walk that does not.** -/
theorem follows_saveNode (withReferences : Bool) (fuel : Nat) (id : NodeId) :
    Follows s.database (saveNode s.suspended withReferences fuel id)
      (Saving.saveNode s withReferences fuel id) := by
  induction fuel generalizing id with
  | zero => exact follows_pure ()
  | succ fuel ih =>
    intro st
    rw [saveNode, Saving.saveNode, visit, run_get_bind, run_get_bind]
    cases st.graph.node? id with
    | none => rfl
    | some n =>
      dsimp only
      rw [run_get_bind]
      split
      · rfl
      · rw [run_modify_bind, run_set_bind, saveVisited, plans]
        cases n.entity.plans c (if withReferences then .all else .nothing) with
        | error why =>
          dsimp only
          rw [run_throw_bind, run_throw_bind]
          rfl
        | ok plans =>
          dsimp only
          rw [pure_bind, pure_bind]
          have linked : Follows s.database
              (forIn plans PUnit.unit fun plan _ => do
                linkKeyedChildren id plan
                return ForInStep.yield PUnit.unit)
              (plans.forM (linkKeyedChildren id)) :=
            follows_loop (fun plan => follows_bind (follows_linkKeyedChildren id plan) fun _ =>
              follows_pure _) plans
          have collected : (do
              let changes ← plans.mapM
                (Saving.saveReference s (Saving.saveNode s withReferences fuel) id)
              if (changes.any fun x => x) = true then Saving.update s id else pure ()) = (do
              let dirty ← (do
                let changes ← plans.mapM
                  (Saving.saveReference s (Saving.saveNode s withReferences fuel) id)
                return changes.any fun x => x)
              if dirty = true then Saving.update s id else pure ()) := by
            simp only [bind_assoc, pure_bind]
          have updated (dirty : Bool) : Follows s.database
              (if dirty = true then update s.suspended id else pure ())
              (if dirty = true then Saving.update s id else pure ()) := by
            cases dirty with
            | true => exact follows_update id
            | false => exact follows_pure ()
          rw [collected]
          exact follows_bind linked (fun _ => follows_bind (follows_persist id) fun _ =>
            follows_bind (follows_saveReferences ih id plans) updated) _

end Suspended

/-! ## Loading -/

namespace Loading

variable [LawfulMonad m] {db : Database m} {s : Session c m}

theorem follows_query (statement : Statement) :
    Follows s.database (query s.suspended statement) (query s statement) := by
  unfold query
  refine follows_bind (follows_answer (Suspended.query_suspended _ _)) fun answer => ?_
  cases answer with
  | ok rows => exact follows_pure rows
  | error why => exact follows_throw _

theorem follows_add (n : Node c) :
    Follows db (add n : Loading c Conversation NodeId) (add n) :=
  follows_bind follows_get fun g => follows_bind (follows_set (g.add n)) fun _ => follows_pure _

theorem follows_materialize (type : EntityType) (rows : List Row) :
    Follows s.database (materialize s.suspended type rows) (materialize s type rows) := by
  have strict : s.suspended.settings = s.settings := rfl
  unfold materialize
  rw [strict]
  cases (c.entity type).readRows s.settings.strictColumnMapping rows with
  | ok rows => exact follows_mapM fun values _ => follows_add _
  | error why => exact follows_throw _

theorem follows_attach (id : NodeId) (name : String) (a : Attached) :
    Follows db (attach id name a : Loading c Conversation Unit) (attach id name a) := by
  unfold attach
  refine follows_bind follows_get fun g => ?_
  cases g.node? id with
  | none => exact follows_pure ()
  | some n =>
    dsimp only
    cases n.attach name a with
    | ok n => exact follows_set _
    | error why => exact follows_throw _

theorem follows_stitchParent {e : Entity} (ignoreCase : Bool) (p : Plan c e) (field : Nat)
    (children : List NodeId) (parent : NodeId) :
    Follows db (stitchParent ignoreCase p field children parent : Loading c Conversation Unit)
      (stitchParent ignoreCase p field children parent) := by
  unfold stitchParent
  refine follows_bind follows_get fun g => ?_
  dsimp only
  split
  · exact follows_pure ()
  · cases p.reference.cardinality with
    | many => exact follows_attach _ _ _
    | one =>
      cases children.filter fun child =>
          (g.valueAt child field).matchKey ignoreCase ==
            (p.parentKey g parent).matchKey ignoreCase with
      | nil => exact follows_pure ()
      | cons first rest => exact follows_attach _ _ _

theorem follows_stitch {e : Entity} (ignoreCase : Bool) (p : Plan c e)
    (parents children : List NodeId) :
    Follows db (stitch ignoreCase p parents children : Loading c Conversation Unit)
      (stitch ignoreCase p parents children) := by
  unfold stitch
  cases p.childField with
  | error why => exact follows_throw why
  | ok field => exact follows_forM fun parent _ => follows_stitchParent _ _ _ _ _

end Loading

namespace Suspended

open Loading

variable [LawfulMonad m] {s : Session c m}

/-- Appending lists one after the other appends them all. -/
theorem foldl_append (lists : List (List NodeId)) (before : List NodeId) :
    lists.foldl (· ++ ·) before = before ++ lists.flatten := by
  induction lists generalizing before with
  | nil => simp
  | cons list rest ih => rw [List.foldl_cons, ih, List.flatten_cons, List.append_assoc]

/-- The children of all statements, each of which is waited for before the next one is sent. -/
theorem follows_children (type : EntityType) (statements : List Statement) :
    Follows s.database
      (forIn statements [] fun statement children => do
        let rows ← query s.suspended statement
        let loaded ← materialize s.suspended type rows
        return .yield (children ++ loaded))
      (do
        let children ← statements.mapM fun statement => do
          materialize s type (← query s statement)
        return children.flatten) := by
  have collected : (do
      let children ← statements.mapM fun statement => do
        materialize s type (← query s statement)
      return children.flatten) = (do
      let children ← statements.mapM fun statement => do
        materialize s type (← query s statement)
      return children.foldl (· ++ ·) []) := by
    simp only [foldl_append, List.nil_append]
  rw [collected]
  refine follows_fold _ (fun statement children => ?_) statements []
  rw [bind_assoc]
  exact follows_bind (follows_query statement) fun rows =>
    follows_bind (follows_materialize type rows) fun loaded => follows_pure _

theorem follows_fillReference {e : Entity} (parents : List NodeId) (plan : Plan c e) :
    Follows s.database (fillReference s.suspended parents plan)
      (loadReference s parents plan) := by
  unfold fillReference loadReference
  refine follows_bind follows_get fun g => ?_
  have same : s.suspended.referenceStatements plan g parents =
      s.referenceStatements plan g parents := rfl
  rw [same]
  cases s.referenceStatements plan g parents with
  | error why => exact follows_throw why
  | ok statements =>
    have stitched := follows_bind (follows_children (s := s) plan.reference.target statements)
      fun children => follows_stitch s.settings.caseInsensitive plan parents children
    simp only [bind_assoc, pure_bind] at stitched
    exact stitched

theorem follows_fillReferences (parents : List NodeId) (selection : Include) :
    Follows s.database (fillReferences s.suspended parents selection)
      (Loading.loadReferences s parents selection) := by
  unfold fillReferences Loading.loadReferences
  cases parents.head? with
  | none => exact follows_pure ()
  | some first =>
    refine follows_bind follows_get fun g => ?_
    cases g.node? first with
    | none => exact follows_pure ()
    | some n =>
      dsimp only
      cases n.entity.plans c selection with
      | error why => exact follows_throw why
      | ok plans =>
        dsimp only
        rw [bind_pure_unit]
        exact follows_loop (fun plan => follows_bind (follows_fillReference parents plan)
          fun _ => follows_pure _) plans

end Suspended

/-! ## Calls -/

namespace Session

variable [LawfulMonad m] (s : Session c m)

theorem run_save (g : Graph c) (root : NodeId) (withReferences : Bool) :
    Conversation.run s.database (Suspended.save s.suspended g root withReferences) =
      s.save g root withReferences := by
  have alone : s.save g root withReferences =
      (Saving.saveNode s withReferences g.nodes.length root).run.run ⟨g, [], []⟩ := by
    change (Saving.saveNode s withReferences g.nodes.length root >>= fun _ =>
      pure PUnit.unit).run.run _ = _
    rw [bind_pure_unit]
  rw [alone]
  exact Suspended.follows_saveNode withReferences g.nodes.length root ⟨g, [], []⟩

theorem run_saveAll (g : Graph c) (roots : List NodeId) (withReferences : Bool) :
    Conversation.run s.database (Suspended.saveAll s.suspended g roots withReferences) =
      s.saveAll g roots withReferences := by
  have walked : Follows s.database
      (forIn roots PUnit.unit fun root _ => do
        Suspended.saveNode s.suspended withReferences g.nodes.length root
        return ForInStep.yield PUnit.unit)
      (roots.forM (Saving.saveNode s withReferences g.nodes.length)) :=
    follows_loop (fun root => follows_bind
      (Suspended.follows_saveNode withReferences g.nodes.length root) fun _ => follows_pure _) roots
  unfold Suspended.saveAll saveAll
  rw [bind_pure_unit]
  exact walked ⟨g, [], []⟩

theorem run_loadReferences (g : Graph c) (parents : List NodeId) (selection : Include) :
    Conversation.run s.database (Suspended.loadReferences s.suspended g parents selection) =
      s.loadReferences g parents selection :=
  Suspended.follows_fillReferences parents selection g

theorem run_load (q : Query c) (g : Graph c) (selection : Include) :
    Conversation.run s.database (Suspended.load s.suspended q g selection) =
      s.load q g selection := by
  have same : s.suspended.rootStatement q = s.rootStatement q := rfl
  unfold Suspended.load load
  rw [same]
  cases s.rootStatement q with
  | error why => rfl
  | ok statement =>
    exact follows_bind (Loading.follows_query statement) (fun rows =>
      follows_bind (Loading.follows_materialize q.root.entity rows) fun ids =>
        follows_bind (Suspended.follows_fillReferences ids selection) fun _ =>
          follows_pure ids) g

theorem run_loadByKey (type : EntityType) (key : Value) (g : Graph c) (selection : Include) :
    Conversation.run s.database (Suspended.loadByKey s.suspended type key g selection) =
      s.loadByKey type key g selection := by
  have same : s.suspended.byKeyQuery type key = s.byKeyQuery type key := rfl
  unfold Suspended.loadByKey loadByKey
  rw [same]
  cases s.byKeyQuery type key with
  | error why => rfl
  | ok q =>
    dsimp only
    rw [Conversation.run_bind, run_load]
    rfl

end Session

/-! ## The same statements -/

/-- From every state of the session's database, the conversation held with it and the computation
take the same course. -/
structure SameCourse {α : Type} {σ : Type} (s : Session c (StateM σ)) (x : Conversation α)
    (y : ∀ {σ : Type}, Session c (StateM σ) → StateM σ α) : Prop where
  /-- They end with the same result and leave the database in the same state. -/
  ends : ∀ w, (Conversation.run s.database x).run w = (y s).run w
  /-- They send the same statements with the same parameters in the same order. -/
  sends : ∀ w, ((Conversation.run s.recorded.database x).run (w, [])).2.2 =
    ((y s.recorded).run (w, [])).2.2

/-- **Waiting for the answers changes nothing**: with every database, whatever it answers, a graph
or several are saved, rows are loaded by a query or a key, and references are filled by the same
statements with the same parameters in the same order, with the same result or error, and the same
nodes in the end, as without waiting. -/
theorem suspended_same_course {σ : Type} (s : Session c (StateM σ)) :
    (∀ g root withReferences, SameCourse s (Suspended.save s.suspended g root withReferences)
      fun s => s.save g root withReferences) ∧
    (∀ g roots withReferences, SameCourse s (Suspended.saveAll s.suspended g roots withReferences)
      fun s => s.saveAll g roots withReferences) ∧
    (∀ q g selection, SameCourse s (Suspended.load s.suspended q g selection)
      fun s => s.load q g selection) ∧
    (∀ type key g selection, SameCourse s (Suspended.loadByKey s.suspended type key g selection)
      fun s => s.loadByKey type key g selection) ∧
    ∀ g parents selection, SameCourse s (Suspended.loadReferences s.suspended g parents selection)
      fun s => s.loadReferences g parents selection := by
  have course {α : Type} {x : Conversation α}
      {y : ∀ {σ : Type}, Session c (StateM σ) → StateM σ α}
      (h : ∀ {σ : Type} (t : Session c (StateM σ)), t.suspended = s.suspended →
        Conversation.run t.database x = y t) : SameCourse s x y := by
    refine ⟨fun w => ?_, fun w => ?_⟩
    · rw [h s rfl]
    · rw [h s.recorded rfl]
  refine ⟨?_, ?_, ?_, ?_, ?_⟩
  · intro g root withReferences
    exact course fun t same => by rw [← same]; exact t.run_save g root withReferences
  · intro g roots withReferences
    exact course fun t same => by rw [← same]; exact t.run_saveAll g roots withReferences
  · intro q g selection
    exact course fun t same => by rw [← same]; exact t.run_load q g selection
  · intro type key g selection
    exact course fun t same => by rw [← same]; exact t.run_loadByKey type key g selection
  · intro g parents selection
    exact course fun t same => by rw [← same]; exact t.run_loadReferences g parents selection

end RowGraph
