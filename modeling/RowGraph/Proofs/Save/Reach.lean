import Mathlib.Logic.Relation
import RowGraph.Proofs.Save.Depth
import RowGraph.Proofs.Save.Holdings
import RowGraph.Proofs.Save.Runs
import RowGraph.Sample

/-!
# What saving reaches

A call that saves with references and succeeds has persisted what its roots reach along the plans,
and nothing else.

* `Explores`: what a part of a successful call does to the nodes that it marks: they are persisted,
  and what their plans lead to is marked by the end.
* `persisted_saveAll`: whatever the database answers, no node is persisted twice in a call.
* `mem_persisted_saveAll`: a successful call has persisted the nodes that the roots reach.
-/

namespace RowGraph

variable {c : Catalog}

/-- The nodes that some of the roots reach along the plans. -/
def Graph.Reached (g : Graph c) (roots : List NodeId) (id : NodeId) : Prop :=
  ∃ root ∈ roots, Relation.ReflTransGen g.Leads root id

theorem Graph.Reached.closed {g : Graph c} {roots : List NodeId} (id : NodeId)
    (h : g.Reached roots id) (target : NodeId) (ht : target ∈ g.planned id) :
    g.Reached roots target := by
  obtain ⟨root, hr, hid⟩ := h
  exact ⟨root, hr, hid.tail ht⟩

theorem Graph.reached_of_mem {g : Graph c} {roots : List NodeId} (root : NodeId)
    (h : root ∈ roots) : g.Reached roots root :=
  ⟨root, h, .refl⟩

namespace SaveState

/-- What part of a successful call does in a region of the graph: the nodes that it marks are in the
region and have been persisted, and what their plans lead to is marked in the end. -/
structure Explores (g : Graph c) (X : NodeId → Prop) (a b : SaveState c) : Prop
    extends Later a b where
  fresh : ∀ id ∈ b.visited, id ∉ a.visited → X id ∧ (g.node? id).isSome ∧ id ∈ b.persisted ∧
    ∀ target ∈ g.planned id, (g.node? target).isSome → target ∈ b.visited

variable {g : Graph c} {X : NodeId → Prop}

theorem Still.explores {a b : SaveState c} (h : Still a b) : Explores g X a b :=
  ⟨h.later, fun _ hb ha => absurd (h.visited ▸ hb) ha⟩

theorem persisted_subset {a b : SaveState c} (h : Later a b) : a.persisted ⊆ b.persisted := by
  obtain ⟨new, hp, -⟩ := h.persisted
  exact hp ▸ List.subset_append_left _ _

theorem Explores.trans {a b d : SaveState c} (h : Explores g X a b) (k : Explores g X b d) :
    Explores g X a d := by
  refine ⟨h.toLater.trans k.toLater, fun id hd ha => ?_⟩
  by_cases hb : id ∈ b.visited
  · obtain ⟨hx, hn, hp, ht⟩ := h.fresh id hb ha
    exact ⟨hx, hn, persisted_subset k.toLater hp, fun t hmem ht' => k.visited (ht t hmem ht')⟩
  · exact k.fresh id hd hb

end SaveState

namespace Saving

open Process SaveState

variable {σ : Type} {g : Graph c} {X : NodeId → Prop}

/-! ## A success of saving explores -/

section Explores

variable (s : Session c (StateM σ)) {save : NodeId → Saving c (StateM σ) Unit}
  (explores : ∀ id, X id → ∀ st w st' w', st.graph.frame = g.frame →
    Runs (save id) st w () st' w' →
    Explores g X st st' ∧ ((g.node? id).isSome → id ∈ st'.visited))
include explores

theorem explores_saveChild (key : Value) (field : Nat) {child : NodeId} (hx : X child)
    {st st' : SaveState c} {w w' : σ} (hst : st.graph.frame = g.frame)
    (h : Runs (saveChild s save key field child) st w () st' w') :
    Explores g X st st' ∧ ((g.node? child).isSome → child ∈ st'.visited) := by
  have hset := still_withValue st child field key
  obtain ⟨hc, -, rfl⟩ | ⟨hc, h⟩ | ⟨hc, h⟩ := runs_saveChild h
  · exact ⟨(Still.refl st').explores, fun _ => hc⟩
  · have hup : Still _ st' := after_of_runs h ▸ still_update s _ w child
    exact ⟨(hset.trans hup).explores, fun _ => (hset.trans hup).visited ▸ hc⟩
  · obtain ⟨he, hv⟩ := explores child hx _ w st' w' (hset.frame.trans hst) h
    exact ⟨hset.explores.trans he, hv⟩

theorem explores_forM_saveChild (key : Value) (field : Nat) {children : List NodeId}
    (hx : ∀ child ∈ children, X child) {st st' : SaveState c} {w w' : σ}
    (hst : st.graph.frame = g.frame)
    (h : Runs (children.forM (saveChild s save key field)) st w () st' w') :
    Explores g X st st' ∧ ∀ child ∈ children, (g.node? child).isSome → child ∈ st'.visited := by
  induction children generalizing st w with
  | nil =>
    obtain ⟨-, rfl, -⟩ := runs_pure.mp h
    exact ⟨(Still.refl st).explores, by simp⟩
  | cons child rest ih =>
    obtain ⟨t, v, hchild, hrest⟩ := runs_forM_cons.mp h
    obtain ⟨he, hv⟩ := explores_saveChild s explores key field (hx child List.mem_cons_self) hst
      hchild
    obtain ⟨ke, kv⟩ := ih (fun i hi => hx i (List.mem_cons_of_mem child hi))
      (he.frame.trans hst) hrest
    refine ⟨he.trans ke, fun i hi hs => ?_⟩
    rcases List.mem_cons.mp hi with rfl | hi
    · exact ke.visited (hv hs)
    · exact kv i hi hs

/-- A reference saved: what the plan leads to is marked in the end. -/
theorem explores_saveReference {e : Entity} {id : NodeId} {plan : Plan c e}
    (hx : ∀ target ∈ plan.targets (g.children id plan.reference.name), X target) {changed : Bool}
    {st st' : SaveState c} {w w' : σ} (hst : st.graph.frame = g.frame)
    (h : Runs (saveReference s save id plan) st w changed st' w') :
    Explores g X st st' ∧ ∀ target ∈ plan.targets (g.children id plan.reference.name),
      (g.node? target).isSome → target ∈ st'.visited := by
  have hchildren := Graph.children_of_frame hst id plan.reference.name
  cases hl : plan.link with
  | childHoldsKey field =>
    simp only [Plan.targets, hl] at hx ⊢
    have h := (runs_saveReference_child hl h).2
    rw [hchildren] at h
    exact explores_forM_saveChild s explores _ field hx hst h
  | parentHoldsKey field =>
    simp only [Plan.targets, hl, Option.mem_toList] at hx ⊢
    obtain ⟨hn, -, rfl⟩ | ⟨child, t, v, hc, hsave, htake⟩ := runs_saveReference_parent hl h
    · rw [hchildren] at hn
      exact ⟨(Still.refl st').explores, by simp [hn]⟩
    · rw [hchildren] at hc
      have htaken : Still t st' := after_of_runs htake ▸ still_takeChildKey t v id field child
      have hreached : Explores g X st t ∧ ((g.node? child).isSome → child ∈ t.visited) := by
        rcases hsave with ⟨hv, rfl⟩ | ⟨-, hsave⟩
        · exact ⟨(Still.refl t).explores, fun _ => hv⟩
        · exact explores child (hx child hc) st w t v hst hsave
      refine ⟨hreached.1.trans htaken.explores, fun target ht hs => ?_⟩
      obtain rfl : child = target := Option.some.inj (hc.symm.trans ht)
      exact htaken.visited ▸ hreached.2 hs

theorem explores_mapM_saveReference {e : Entity} {id : NodeId} {plans : List (Plan c e)}
    (hx : ∀ plan ∈ plans, ∀ target ∈ plan.targets (g.children id plan.reference.name), X target)
    {changes : List Bool} {st st' : SaveState c} {w w' : σ} (hst : st.graph.frame = g.frame)
    (h : Runs (plans.mapM (saveReference s save id)) st w changes st' w') :
    Explores g X st st' ∧
      ∀ plan ∈ plans, ∀ target ∈ plan.targets (g.children id plan.reference.name),
        (g.node? target).isSome → target ∈ st'.visited := by
  induction plans generalizing st w changes with
  | nil =>
    obtain ⟨-, rfl, -⟩ := runs_pure.mp h
    exact ⟨(Still.refl st).explores, by simp⟩
  | cons plan rest ih =>
    obtain ⟨b, bs, t, v, -, hplan, hrest⟩ := runs_mapM_cons.mp h
    obtain ⟨he, hv⟩ := explores_saveReference s explores (hx plan List.mem_cons_self) hst hplan
    obtain ⟨ke, kv⟩ := ih (fun p hp => hx p (List.mem_cons_of_mem plan hp))
      (he.frame.trans hst) hrest
    refine ⟨he.trans ke, fun p hp target ht hs => ?_⟩
    rcases List.mem_cons.mp hp with rfl | hp
    · exact ke.visited (hv target ht hs)
    · exact kv p hp target ht hs

/-- A node visited: it is marked in the end, and so is what its plans lead to. -/
theorem explores_visit (closed : ∀ id, X id → ∀ target ∈ g.planned id, X target) {id : NodeId}
    (hx : X id) {st st' : SaveState c} {w w' : σ} (hst : st.graph.frame = g.frame)
    (h : Runs (visit s true save id) st w () st' w') :
    Explores g X st st' ∧ ((g.node? id).isSome → id ∈ st'.visited) := by
  obtain ⟨hn, rfl⟩ | ⟨n, hn, ⟨hid, rfl⟩ | ⟨hid, h⟩⟩ := runs_visit h
  · rw [Graph.node?_eq_none_of_frame hst.symm hn]
    exact ⟨(Still.refl st').explores, by simp⟩
  · exact ⟨(Still.refl st').explores, fun _ => hid⟩
  · obtain ⟨plans, changes, t, v, u, x, y, z, hp, ht, hu, hy, hlast⟩ := runs_saveVisited h
    have hlinked : Still (st.marked id) t := after_of_runs ht ▸ still_linked id plans _ w
    have hentered : Entered id st u := after_of_runs hu ▸ entered_persist s hn hlinked v
    have hplanned : g.planned id =
        plans.flatMap fun p => p.targets (g.children id p.reference.name) := by
      rw [Graph.planned, ← Graph.alongPlans_of_frame hst, Graph.alongPlans_of_plans hn hp,
        funext (Graph.children_of_frame hst id)]
    have hx' : ∀ plan ∈ plans, ∀ target ∈ plan.targets (g.children id plan.reference.name),
        X target := fun plan hplan target ht =>
      closed id hx target (hplanned ▸ List.mem_flatMap.mpr ⟨plan, hplan, ht⟩)
    obtain ⟨hrest, htargets⟩ := explores_mapM_saveReference s explores hx'
      (hentered.frame.trans hst) hy
    have hupdated : Still y st' := by
      rcases hlast with ⟨-, rfl⟩ | ⟨-, hlast⟩
      · exact .refl _
      · exact after_of_runs hlast ▸ still_update s y z id
    have hall : Explores g X u st' := hrest.trans hupdated.explores
    have hin : id ∈ u.visited := by simp [hentered.visited]
    refine ⟨⟨(hentered.later hid).trans hall.toLater, fun i hi hst' => ?_⟩,
      fun _ => hall.visited hin⟩
    by_cases hiu : i ∈ u.visited
    · obtain rfl : i = id := by simpa [hentered.visited, hst'] using hiu
      refine ⟨hx, ?_, persisted_subset hall.toLater (by simp [hentered.persisted]), ?_⟩
      · obtain ⟨n', hn', -⟩ := Graph.node?_of_frame hst.symm hn
        rw [hn']
        rfl
      · intro target ht hs
        obtain ⟨plan, hplan, ht⟩ := List.mem_flatMap.mp (hplanned ▸ ht)
        exact hupdated.visited ▸ htargets plan hplan target ht hs
    · exact hall.fresh i hi hiu

end Explores

/-- Where calls that are nested too deep fail, a node that is saved has been visited. -/
theorem explores_saveWithin (s : Session c (StateM σ)) (why : GraphError)
    (closed : ∀ id, X id → ∀ target ∈ g.planned id, X target) (depth : Nat) {id : NodeId}
    (hx : X id) {st st' : SaveState c} {w w' : σ} (hst : st.graph.frame = g.frame)
    (h : Runs (saveWithin s true (fun _ => throw why) depth id) st w () st' w') :
    Explores g X st st' ∧ ((g.node? id).isSome → id ∈ st'.visited) := by
  induction depth generalizing id st w st' w' with
  | zero => exact absurd h runs_throw
  | succ depth ih =>
    exact explores_visit s (fun i hi t v t' v' ht hrun => ih hi ht hrun) closed hx hst h

theorem explores_forM_saveWithin (s : Session c (StateM σ)) (why : GraphError)
    (closed : ∀ id, X id → ∀ target ∈ g.planned id, X target) (depth : Nat) {roots : List NodeId}
    (hx : ∀ root ∈ roots, X root) {st st' : SaveState c} {w w' : σ}
    (hst : st.graph.frame = g.frame)
    (h : Runs (roots.forM (saveWithin s true (fun _ => throw why) depth)) st w () st' w') :
    Explores g X st st' ∧ ∀ root ∈ roots, (g.node? root).isSome → root ∈ st'.visited := by
  induction roots generalizing st w with
  | nil =>
    obtain ⟨-, rfl, -⟩ := runs_pure.mp h
    exact ⟨(Still.refl st).explores, by simp⟩
  | cons root rest ih =>
    obtain ⟨t, v, hroot, hrest⟩ := runs_forM_cons.mp h
    obtain ⟨he, hv⟩ := explores_saveWithin s why closed depth (hx root List.mem_cons_self) hst hroot
    obtain ⟨ke, kv⟩ := ih (fun i hi => hx i (List.mem_cons_of_mem root hi))
      (he.frame.trans hst) hrest
    refine ⟨he.trans ke, fun i hi hs => ?_⟩
    rcases List.mem_cons.mp hi with rfl | hi
    · exact ke.visited (hv hs)
    · exact kv i hi hs

end Saving

/-! ## Calls -/

namespace Session

open Process SaveState Saving

variable {σ : Type}

/-- The state in which a call begins. -/
def start (g : Graph c) : SaveState c := ⟨g, [], []⟩

theorem length_unvisited_start (g : Graph c) : (start g).unvisited.length ≤ g.nodes.length :=
  Nat.le_trans (List.length_filter_le _ _) (Nat.le_of_eq List.length_range)

/-- Whatever the database answers, the nodes that have been persisted are different ones, and are
marked in the end. -/
theorem persisted_saveAll (s : Session c (StateM σ)) (g : Graph c) (roots : List NodeId)
    (withReferences : Bool) (w : σ) :
    ((s.saveAll g roots withReferences).run w).1.2.persisted.Nodup ∧
    ((s.saveAll g roots withReferences).run w).1.2.persisted ⊆
      ((s.saveAll g roots withReferences).run w).1.2.visited := by
  have h : Later (start g) ((s.saveAll g roots withReferences).run w).1.2 :=
    rel_after_forM (R := Later) Later.refl Later.trans
      (fun id _ => later_saveNode s withReferences g.nodes.length id) (start g) w
  obtain ⟨new, hp, hn, hm⟩ := h.persisted
  rw [hp]
  exact ⟨hn, fun id hid => (hm id hid).2⟩

/-- A success of a call is one of its loop, where calls that are nested too deep would fail. -/
theorem runs_of_saveAll {s : Session c (StateM σ)} {g : Graph c} {roots : List NodeId}
    {withReferences : Bool} {w : σ}
    (h : ((s.saveAll g roots withReferences).run w).1.1 = .ok ()) (why : GraphError) :
    Runs (roots.forM (saveWithin s withReferences (fun _ => throw why) (g.nodes.length + 1)))
      (start g) w () ((s.saveAll g roots withReferences).run w).1.2
      ((s.saveAll g roots withReferences).run w).2 := by
  rw [Runs, ← outcome_forM_saveWithin s withReferences _ (Nat.lt_succ_self _)
    (length_unvisited_start g)]
  exact Prod.ext (Prod.ext h rfl) rfl

/-- What a successful call has persisted is what its roots reach. -/
theorem mem_persisted_saveAll {s : Session c (StateM σ)} {g : Graph c} {roots : List NodeId}
    {w : σ} (h : ((s.saveAll g roots true).run w).1.1 = .ok ()) (id : NodeId) :
    id ∈ ((s.saveAll g roots true).run w).1.2.persisted ↔
      (g.node? id).isSome ∧ g.Reached roots id := by
  obtain ⟨he, hroots⟩ := explores_forM_saveWithin s (.missingGeneratedKey "") Graph.Reached.closed
    _ Graph.reached_of_mem rfl (runs_of_saveAll h _)
  constructor
  · intro hid
    have hv := (persisted_saveAll s g roots true w).2 hid
    obtain ⟨hx, hn, -⟩ := he.fresh id hv List.not_mem_nil
    exact ⟨hn, hx⟩
  · rintro ⟨hn, root, hr, hid⟩
    have hv : id ∈ ((s.saveAll g roots true).run w).1.2.visited := by
      induction hid with
      | refl => exact hroots root hr hn
      | tail _ ht ih =>
        have hv := ih (Graph.isSome_of_mem_planned ht)
        exact (he.fresh _ hv List.not_mem_nil).2.2.2 _ ht hn
    exact (he.fresh id hv List.not_mem_nil).2.2.1

end Session

/-! ## Two nodes that lead to each other -/

namespace Sample

/-- A database without rows that hands out keys in order. -/
def counting : Database (StateM Nat) where
  query _ _ := pure (.ok [])
  execute _ _ := pure (.ok 1)
  scalar _ _ := modifyGet fun key => (.ok (some (.int (.ofNat key))), key + 1)

/-- A session with that database. -/
def session : Session catalog (StateM Nat) := ⟨counting, .sqlite, ⟨true, false, 10⟩, []⟩

/-- An author and the favourite book, of which the author is the author; the other book is not
attached to anything. -/
def cyclic : Graph catalog :=
  ⟨[{ Node.empty (type "Author") with references := [("FavoriteBook", .single 1)] },
    { Node.empty (type "Book") with references := [("Author", .single 0)] },
    Node.empty (type "Book")]⟩

end Sample

end RowGraph
