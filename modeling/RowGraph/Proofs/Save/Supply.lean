import RowGraph.Proofs.Save.Demands
import RowGraph.Proofs.Save.Reach
import RowGraph.Proofs.Save.Written

/-!
# Demands are met in the course of a call

Foreign keys are set before the first write of the parent, before the write of the child, when a
reference leads back to a node that has been written, and when the child of a parent that holds its
key has been written. These moments interleave along the cycles of a graph. What carries through is
that each of them writes to a field a key that is due there, of a node whose key stays.

* `KeyFixed`: the key of a marked node never changes, nor does a key that has been assigned.
* `Met`: a field is supplied, once the owner of the key has been marked and the key is due.
* `Supplies`: any part of a successful call keeps the fields supplied and the marked nodes up to
  date, except for a few nodes that it names and that are written later.
* `supplies_saveAll`: so a successful call has met all demands along the plans that it followed.

Nothing is asked of the graph but that no key is itself asked to hold another. Where different keys
are demanded of one field, it is supplied with one of them.
-/

namespace RowGraph

variable {c : Catalog}

/-- The database generates the primary key where none is assigned. -/
def Entity.generatesKey (e : Entity) : Bool := e.primaryKey.any fun i => (e.fieldAt i).isGenerated

/-- Only an entity whose key is generated awaits it, and only where none is assigned. -/
theorem Entity.generatesKey_of_awaitsKey {e : Entity} {values : List Value} {i : Nat}
    (h : e.awaitsKey values i = true) :
    e.generatesKey = true ∧ ∃ key, e.primaryKey = some key ∧
      (valueAt values key).isUnassignedKey = true := by
  unfold awaitsKey at h
  cases hk : e.primaryKey with
  | none => simp [hk] at h
  | some key =>
    simp only [hk, Option.any_some, Bool.and_eq_true, beq_iff_eq] at h
    obtain ⟨⟨rfl, generated⟩, unassigned⟩ := h
    exact ⟨by simpa [generatesKey, hk] using generated, key, rfl, unassigned⟩

/-- The key of the node is not one that the database generates. -/
def Graph.GivenKey (g : Graph c) (id : NodeId) : Prop :=
  ∀ n, g.node? id = some n → n.entity.generatesKey = false

namespace SaveState

/-- The key of a node does not change any more. -/
def KeyFixed (st : SaveState c) (id : NodeId) : Prop :=
  id ∈ st.visited ∨ (st.graph.key id).isUnassignedKey = false

/-- If the owner of the key is there, it has been marked, and where the key is due the field is
supplied. -/
def Met (g : Graph c) (X : NodeId → Prop) (st : SaveState c) (d : Demand) : Prop :=
  (g.node? d.owner).isSome → d.owner ∈ st.visited ∧
    (d.Due st.graph → g.HasField d.holder d.field →
      g.Supplied X st.visited st.graph d.toHolding)

/-- What part of a successful call does in an area. The nodes of `D` need not be up to date in the
end, even if they were in the beginning. -/
structure Supplies (g : Graph c) (X D : NodeId → Prop) (a b : SaveState c) : Prop
    extends Onward a b where
  keys : ∀ id, KeyFixed a id ∨ g.GivenKey id → b.graph.key id = a.graph.key id
  supplied : ∀ h, g.Supplied X a.visited a.graph h → g.Supplied X b.visited b.graph h
  kept : ∀ h : Holding, g.keyPlace? h.holder ≠ some h.field →
    b.graph.valueAt h.holder h.field = a.graph.valueAt h.holder h.field ∨
      g.Supplied X b.visited b.graph h
  upToDate : ∀ id ∈ a.visited, ¬ D id → UpToDate a id → UpToDate b id
  fresh : ∀ id ∈ b.visited, id ∉ a.visited →
    X id ∧ UpToDate b id ∧ ∀ d ∈ g.demands id, Met g X b d

section Supplies

variable {g : Graph c} {X D D' : NodeId → Prop} {a b e : SaveState c}

theorem Supplies.refl (a : SaveState c) : Supplies g X D a a :=
  ⟨(Still.refl a).onward, fun _ _ => rfl, fun _ h => h, fun _ _ => .inl rfl, fun _ _ _ h => h,
    fun _ hb ha => absurd hb ha⟩

theorem Supplies.keyFixed (h : Supplies g X D a b) {id : NodeId} (hid : KeyFixed a id) :
    KeyFixed b id := by
  rcases hid with hv | hk
  · exact .inl (h.visited hv)
  · refine .inr ?_
    rw [h.keys id (.inl (.inr hk))]
    exact hk

/-- What has been met stays met, since the owner has been marked. -/
theorem Supplies.met (h : Supplies g X D a b) {d : Demand} (met : Met g X a d) : Met g X b d := by
  intro there
  obtain ⟨hv, supplied⟩ := met there
  refine ⟨h.visited hv, fun due field => h.supplied _ (supplied (fun taken => ?_) field)⟩
  rw [← h.keys d.owner (.inl (.inl hv))]
  exact due taken

theorem Supplies.trans (h : Supplies g X D a b) (k : Supplies g X D b e)
    (hD : ∀ id, D id → id ∈ a.visited) : Supplies g X D a e := by
  refine ⟨h.toOnward.trans k.toOnward, fun id hid => ?_,
    fun hold hs => k.supplied _ (h.supplied _ hs), fun hold hk => ?_, fun id hv hd hu => ?_,
    fun id he ha => ?_⟩
  · exact (k.keys id (hid.imp_left h.keyFixed)).trans (h.keys id hid)
  · rcases k.kept hold hk with same | supplied
    · exact (h.kept hold hk).imp same.trans (k.supplied hold)
    · exact .inr supplied
  · exact k.upToDate id (h.visited hv) hd (h.upToDate id hv hd hu)
  · by_cases hb : id ∈ b.visited
    · obtain ⟨hx, hu, met⟩ := h.fresh id hb ha
      exact ⟨hx, k.upToDate id hb (fun hid => ha (hD id hid)) hu, fun d hd => k.met (met d hd)⟩
    · exact k.fresh id he hb

/-- Nodes that are up to date in the end if they were in the beginning need not be named. -/
theorem Supplies.mono (h : Supplies g X D a b)
    (hD : ∀ id ∈ a.visited, D id → UpToDate a id → D' id ∨ UpToDate b id) :
    Supplies g X D' a b := by
  refine ⟨h.toOnward, h.keys, h.supplied, h.kept, fun id hv hd' hu => ?_, h.fresh⟩
  by_cases hd : D id
  · exact (hD id hv hd hu).resolve_left hd'
  · exact h.upToDate id hv hd hu

/-- No key changes when a field is set that is asked to hold one. -/
theorem key_withValue (A : g.Area X) (ha : a.graph.frame = g.frame) {id : NodeId} (hx : X id)
    {d : Demand} (hd : d ∈ g.demands id) (v : Value) (other : NodeId) :
    (a.graph.setAt d.holder d.field v).key other = a.graph.key other := by
  refine Graph.key_setAt (fun same => ?_) v
  rw [Graph.keyPlace?_of_frame ha, ← same]
  exact A.apart id hx _ (Graph.mem_holdings_of_demand hd)

/-- A field given a key that is due. -/
theorem supplies_withValue (A : g.Area X) (ha : a.graph.frame = g.frame) {id : NodeId} (hx : X id)
    {d : Demand} (hd : d ∈ g.demands id) (due : d.Due a.graph) (fixed : KeyFixed a d.owner) :
    Supplies g X (· = d.holder) a (a.withValue d.holder d.field (a.graph.key d.owner)) ∧
    (g.HasField d.holder d.field → g.Supplied X a.visited
      (a.withValue d.holder d.field (a.graph.key d.owner)).graph d.toHolding) := by
  have keys := key_withValue A ha hx hd (a.graph.key d.owner)
  refine ⟨⟨(still_withValue a _ _ _).onward, fun other _ => keys other, fun h supplied => ?_,
    fun h _ => ?_, fun other _ ne hu => hu.withValue (fun h => ne h.symm) _ _,
    fun _ hb hnot => absurd hb hnot⟩, fun there => ?_⟩
  · exact supplied.setAt hx hd due fixed keys
  · exact Graph.kept_setAt hx hd due fixed keys h
  · exact Graph.supplied_setAt hx hd due fixed keys (there.of_frame ha)

/-- Before the first write of a node, only its own fields have changed, and no key. -/
structure Linked (g : Graph c) (X : NodeId → Prop) (id : NodeId) (a b : SaveState c) : Prop
    extends Still a b where
  keys : ∀ i, b.graph.key i = a.graph.key i
  supplied : ∀ V h, g.Supplied X V a.graph h → g.Supplied X V b.graph h
  kept : ∀ V (h : Holding), b.graph.valueAt h.holder h.field = a.graph.valueAt h.holder h.field ∨
    g.Supplied X V b.graph h
  upToDate : ∀ i, i ≠ id → UpToDate a i → UpToDate b i

theorem Linked.refl (id : NodeId) (a : SaveState c) : Linked g X id a a :=
  ⟨.refl a, fun _ => rfl, fun _ _ h => h, fun _ _ => .inl rfl, fun _ _ h => h⟩

theorem Linked.trans {id : NodeId} (h : Linked g X id a b) (k : Linked g X id b e) :
    Linked g X id a e := by
  refine ⟨h.toStill.trans k.toStill, fun i => (k.keys i).trans (h.keys i),
    fun V hold hs => k.supplied V hold (h.supplied V hold hs), fun V hold => ?_,
    fun i ne hu => k.upToDate i ne (h.upToDate i ne hu)⟩
  rcases k.kept V hold with same | supplied
  · exact (h.kept V hold).imp same.trans (k.supplied V hold)
  · exact .inr supplied

/-- The beginning of a visit: the node is marked and written for the first time, with the key that
it then has. -/
structure Begins (g : Graph c) (X : NodeId → Prop) (id : NodeId) (a b : SaveState c) : Prop where
  frame : b.graph.frame = a.graph.frame
  visited : b.visited = a.visited ++ [id]
  keys : ∀ i, KeyFixed a i ∨ g.GivenKey i → b.graph.key i = a.graph.key i
  supplied : ∀ h, g.Supplied X a.visited a.graph h → g.Supplied X b.visited b.graph h
  kept : ∀ h : Holding, g.keyPlace? h.holder ≠ some h.field →
    b.graph.valueAt h.holder h.field = a.graph.valueAt h.holder h.field ∨
      g.Supplied X b.visited b.graph h
  upToDate : ∀ i ∈ a.visited, UpToDate a i → UpToDate b i
  own : UpToDate b id

/-- A visit supplies what is demanded if what follows its beginning does, and meets the demands of
the node. -/
theorem Begins.supplies {id : NodeId} (h : Begins g X id a b) (hx : X id) (hid : id ∉ a.visited)
    (k : Supplies g X (fun _ => False) b e) (met : ∀ d ∈ g.demands id, Met g X e d) :
    Supplies g X (fun _ => False) a e := by
  have hvisited : a.visited ⊆ b.visited := h.visited ▸ List.subset_append_left _ _
  have hfixed : ∀ i, KeyFixed a i → KeyFixed b i := by
    rintro i (hv | hk)
    · exact .inl (hvisited hv)
    · refine .inr ?_
      rw [h.keys i (.inl (.inr hk))]
      exact hk
  refine ⟨Onward.trans ⟨h.frame, hvisited⟩ k.toOnward, fun i hi => ?_,
    fun hold hs => k.supplied _ (h.supplied _ hs), fun hold hk => ?_, fun i hv _ hu => ?_,
    fun i he hnot => ?_⟩
  · exact (k.keys i (hi.imp_left (hfixed i))).trans (h.keys i hi)
  · rcases k.kept hold hk with same | supplied
    · exact (h.kept hold hk).imp same.trans (k.supplied hold)
    · exact .inr supplied
  · exact k.upToDate i (hvisited hv) not_false (h.upToDate i hv hu)
  · by_cases hb : i ∈ b.visited
    · obtain rfl : i = id := by simpa [h.visited, hnot] using hb
      exact ⟨hx, k.upToDate i hb not_false h.own, met⟩
    · exact k.fresh i he hb

/-- A write of a node as it is. -/
theorem supplies_noted {id : NodeId} {n : Node c} (hn : a.graph.node? id = some n) :
    Supplies g X D a (a.noted (.update id n.values)) := by
  refine ⟨(still_noted rfl).onward, fun _ _ => rfl, fun _ hs => hs, fun _ _ => .inl rfl,
    fun other _ _ hu => ?_, fun _ hb ha => absurd hb ha⟩
  by_cases hid : id = other
  · subst hid
    exact upToDate_update hn
  · exact hu.noted (by simpa [SaveEvent.writes] using hid)

end Supplies

end SaveState

namespace Saving

open Process SaveState

variable {σ : Type} {s : Session c (StateM σ)} {g : Graph c} {X : NodeId → Prop}
  {st st' : SaveState c} {w w' : σ} {id : NodeId}

/-! ## The first write -/

section Persist

variable {n : Node c} (hn : st.graph.node? id = some n)
  (h : Runs (persist s id) st w () st' w') {other : NodeId}
include hn h

/-- The first write changes a key only where it is the node's own and the node awaits it. -/
theorem key_of_persist (hk : other = id → ∀ i, n.entity.awaitsKey n.values i = false) :
    st'.graph.key other = st.graph.key other := by
  obtain rfl | rfl | ⟨i, key, hi, hawaits, rfl⟩ := runs_persist hn h
  · rfl
  · rfl
  · have hne : id ≠ other := fun same => by
      rw [hk same.symm i] at hawaits
      cases hawaits
    simp [SaveState.withValue, SaveState.noted, Graph.key, Graph.setAt, Graph.node?_modify, hne]

/-- The first write changes no field beside the primary key. -/
theorem valueAt_of_persist {field : Nat} (hne : st.graph.keyPlace? other ≠ some field) :
    st'.graph.valueAt other field = st.graph.valueAt other field := by
  obtain rfl | rfl | ⟨i, key, hi, -, rfl⟩ := runs_persist hn h
  · rfl
  · rfl
  · refine Graph.valueAt_setAt_of_ne (g := st.graph) (fun here => hne ?_) key
    rw [← here.1, Graph.keyPlace?_of_node hn, hi, ← here.2]
    rfl

theorem upToDate_other_of_persist (hne : other ≠ id) (hu : UpToDate st other) :
    UpToDate st' other := by
  have hu' : UpToDate (st.noted (.persist id)) other := hu.noted rfl
  have hsent : (id == other) = false := by simpa using hne.symm
  obtain rfl | rfl | ⟨i, key, -, -, rfl⟩ := runs_persist hn h
  · exact hu'.noted hsent
  · exact hu'.noted hsent
  · have hu'' : UpToDate ((st.noted (.persist id)).noted (.insert id n.values)) other :=
      hu'.noted hsent
    exact hu''.withValue hne.symm i key

end Persist

/-- A node whose key is assigned or given does not await it. -/
theorem awaitsKey_eq_false {n : Node c} (hst : st.graph.frame = g.frame)
    (hn : st.graph.node? id = some n)
    (hk : (st.graph.key id).isUnassignedKey = false ∨ g.GivenKey id) (i : Nat) :
    n.entity.awaitsKey n.values i = false := by
  refine Bool.eq_false_iff.mpr fun awaits => ?_
  obtain ⟨generates, place, hp, unassigned⟩ := Entity.generatesKey_of_awaitsKey awaits
  rcases hk with assigned | given
  · have key : st.graph.key id = Entity.valueAt n.values place := by
      simp [Graph.key, hn, Node.key, hp, Node.valueAt, Entity.valueAt]
    rw [key, unassigned] at assigned
    cases assigned
  · obtain ⟨m, hm, type, -⟩ := Graph.node?_of_frame hst.symm hn
    have entity : m.entity = n.entity := congrArg c.entity type
    rw [← entity, given m hm] at generates
    cases generates

/-! ## A success of saving supplies what is demanded -/

/-- The keys of children taken over before the first write. -/
theorem linked_of_runs (A : g.Area X) (hst : st.graph.frame = g.frame) (hx : X id) {e : Entity}
    {plans : List (Plan c e)}
    (hd : ∀ plan ∈ plans, ∀ d ∈ plan.demands id (g.children id plan.reference.name),
      d ∈ g.demands id)
    (h : Runs (plans.forM (linkKeyedChildren id) : Saving c (StateM σ) Unit) st w () st' w') :
    Linked g X id st st' := by
  induction plans generalizing st w with
  | nil =>
    obtain ⟨-, rfl, -⟩ := runs_pure.mp h
    exact .refl id st
  | cons plan rest ih =>
    obtain ⟨t, v, hplan, hrest⟩ := runs_forM_cons.mp h
    have first : Linked g X id st t := by
      obtain rfl | ⟨field, child, hl, hc, assigned, rfl⟩ := runs_linkKeyedChildren hplan
      · exact .refl id t
      · rw [Graph.children_of_frame hst] at hc
        have hmem := hd plan List.mem_cons_self ⟨⟨id, field, child⟩, true⟩
          (Plan.mem_demands.mpr (.inr ⟨field, child, hl, hc, rfl⟩))
        have keys := key_withValue A hst hx hmem (st.graph.key child)
        refine ⟨still_withValue st _ _ _, keys, fun V hold supplied => ?_, fun V hold => ?_,
          fun i ne hu => hu.withValue ne.symm _ _⟩
        · exact supplied.setAt hx hmem (fun _ => assigned) (.inr assigned) keys
        · exact Graph.kept_setAt hx hmem (fun _ => assigned) (.inr assigned) keys hold
    exact first.trans (ih (first.frame.trans hst)
      (fun p hp => hd p (List.mem_cons_of_mem plan hp)) hrest)

/-- The first write of a node that has been marked. -/
theorem begins_persist (A : g.Area X) (hst : st.graph.frame = g.frame) {n : Node c}
    (hn : st.graph.node? id = some n) (hid : id ∉ st.visited) {t : SaveState c} {v : σ}
    (ht : Linked g X id (st.marked id) t) (h : Runs (persist s id) t v () st' w') :
    Begins g X id st st' := by
  have frame : t.graph.frame = g.frame := ht.frame.trans hst
  obtain ⟨n', hn', -⟩ := Graph.node?_of_frame ht.frame hn
  have still : Still (t.noted (.persist id)) st' := after_of_runs h ▸ still_persist s t v hn'
  have kept : ∀ i, KeyFixed st i ∨ g.GivenKey i → st'.graph.key i = t.graph.key i := by
    refine fun i hi => key_of_persist hn' h fun same => awaitsKey_eq_false frame hn' ?_
    subst same
    refine hi.imp_left fun fixed => ?_
    rw [ht.keys]
    exact fixed.resolve_left hid
  -- A field that is supplied before the first write, by a key that is fixed, is supplied after it.
  have supplied : ∀ hold, g.Supplied X st.visited t.graph hold →
      g.Supplied X st'.visited st'.graph hold := by
    rintro hold ⟨d, suppliedBy⟩
    refine ⟨d, suppliedBy.of_eq ?_ ?_ ?_⟩
    · rw [still.visited]
      exact ht.visited ▸ List.subset_append_left _ _
    · refine kept d.owner (.inl (suppliedBy.fixed.imp_right fun assigned => ?_))
      rwa [ht.keys] at assigned
    · obtain ⟨i, hx, hd⟩ := suppliedBy.demanded
      refine valueAt_of_persist hn' h ?_
      rw [Graph.keyPlace?_of_frame frame, ← suppliedBy.holder, ← suppliedBy.field]
      exact A.apart i hx _ (Graph.mem_holdings_of_demand hd)
  refine ⟨still.frame.trans ht.frame, still.visited.trans ht.visited, fun i hi => ?_,
    fun hold hs => supplied hold (ht.supplied st.visited hold hs), fun hold hk => ?_,
    fun i hv hu => ?_, upToDate_of_persist hn' h⟩
  · exact (kept i hi).trans (ht.keys i)
  · rw [valueAt_of_persist hn' h (by rwa [Graph.keyPlace?_of_frame frame])]
    exact (ht.kept st.visited hold).imp_right (supplied hold)
  · have ne : i ≠ id := fun same => hid (same ▸ hv)
    exact upToDate_other_of_persist hn' h ne (ht.upToDate i ne (hu.of_eq rfl rfl))

theorem supplies_update {D : NodeId → Prop} (h : Runs (update s id) st w () st' w') :
    Supplies g X D st st' ∧ ((st.graph.node? id).isSome → UpToDate st' id) := by
  cases hn : st.graph.node? id with
  | none =>
    rw [update, runs_get_bind, hn] at h
    obtain ⟨-, rfl, -⟩ := runs_pure.mp h
    exact ⟨.refl st, by simp⟩
  | some n =>
    refine ⟨?_, fun _ => upToDate_of_update hn h⟩
    rw [runs_update hn h]
    exact supplies_noted hn

/-- A parent that takes over the key of its child: it is supplied if the key is due. If the key is
new, the parent has to be written again. -/
theorem supplies_takeChildKey (A : g.Area X) (hst : st.graph.frame = g.frame) (hx : X id)
    {child : NodeId} {field : Nat} (hd : ⟨⟨id, field, child⟩, true⟩ ∈ g.demands id)
    (hc : (g.node? child).isSome → child ∈ st.visited) {changed : Bool}
    (h : Runs (takeChildKey id field child : Saving c (StateM σ) Bool) st w changed st' w') :
    Supplies g X (fun i => i = id ∧ changed = true) st st' ∧
      Met g X st' ⟨⟨id, field, child⟩, true⟩ := by
  obtain ⟨rfl, rfl, hkey⟩ | ⟨rfl, assigned, rfl⟩ := runs_takeChildKey h
  · refine ⟨.refl st', fun there => ⟨hc there, fun due _ => ?_⟩⟩
    have same := hkey.resolve_left (by rw [due rfl]; exact Bool.false_ne_true)
    exact ⟨_, ⟨id, hx, hd⟩, rfl, rfl, due, .inr (due rfl), Value.equals_of_same same⟩
  · obtain ⟨hgive, supplied⟩ := supplies_withValue A hst hx hd (fun _ => assigned) (.inr assigned)
    exact ⟨hgive.mono fun i _ hi _ => .inl ⟨hi, rfl⟩, fun there => ⟨hc there, fun _ => supplied⟩⟩

section References

variable {save : NodeId → Saving c (StateM σ) Unit} (A : g.Area X)
  (hsave : ∀ id, X id → ∀ st w st' w', st.graph.frame = g.frame →
    Runs (save id) st w () st' w' →
    Supplies g X (fun _ => False) st st' ∧ ((g.node? id).isSome → id ∈ st'.visited))
include A hsave

/-- A child given the key of its parent: it is supplied in the end, and up to date. -/
theorem supplies_saveChild (hst : st.graph.frame = g.frame) (hx : X id) (hid : id ∈ st.visited)
    {child : NodeId} {field : Nat} (hd : ⟨⟨child, field, id⟩, false⟩ ∈ g.demands id)
    (h : Runs (saveChild s save (st.graph.key id) field child) st w () st' w') :
    Supplies g X (fun _ => False) st st' ∧ Met g X st' ⟨⟨child, field, id⟩, false⟩ := by
  obtain ⟨hgive, supplied⟩ := supplies_withValue A hst hx hd nofun (.inl hid)
  have frame := hgive.frame.trans hst
  have met : Met g X (st.withValue child field (st.graph.key id)) ⟨⟨child, field, id⟩, false⟩ :=
    fun _ => ⟨hid, fun _ => supplied⟩
  obtain ⟨-, hsame, rfl⟩ | ⟨hc, h⟩ | ⟨hc, h⟩ := runs_saveChild h
  · refine ⟨.refl st', fun _ => ⟨hid, fun due _ => ?_⟩⟩
    exact ⟨_, ⟨id, hx, hd⟩, rfl, rfl, due, .inl hid, Value.equals_of_same hsame⟩
  · obtain ⟨hup, hu⟩ := supplies_update h
    refine ⟨(hgive.trans hup fun i hi => hi ▸ hc).mono fun i _ hi known => .inr ?_, hup.met met⟩
    obtain ⟨n, -, hn, -⟩ := known
    obtain ⟨n', hn', -⟩ := Graph.node?_of_frame hgive.frame (hi ▸ hn)
    exact hi ▸ hu (by rw [hn']; rfl)
  · obtain ⟨hrest, -⟩ := hsave child (A.holder hx hd) _ w st' w' frame h
    have fresh : ∀ i ∈ st.visited, i ≠ child := fun i hi same => hc (same ▸ hi)
    exact ⟨(hgive.mono fun i hi same _ => absurd same (fresh i hi)).trans hrest fun _ => False.elim,
      hrest.met met⟩

theorem supplies_forM_saveChild (hst : st.graph.frame = g.frame) (hx : X id)
    (hid : id ∈ st.visited) {key : Value} (hkey : st.graph.key id = key) {field : Nat}
    {children : List NodeId}
    (hd : ∀ child ∈ children, ⟨⟨child, field, id⟩, false⟩ ∈ g.demands id)
    (h : Runs (children.forM (saveChild s save key field)) st w () st' w') :
    Supplies g X (fun _ => False) st st' ∧
      ∀ child ∈ children, Met g X st' ⟨⟨child, field, id⟩, false⟩ := by
  subst hkey
  induction children generalizing st w with
  | nil =>
    obtain ⟨-, rfl, -⟩ := runs_pure.mp h
    exact ⟨.refl st, by simp⟩
  | cons child rest ih =>
    obtain ⟨t, v, hchild, hrest⟩ := runs_forM_cons.mp h
    obtain ⟨ha, met⟩ :=
      supplies_saveChild A hsave hst hx hid (hd child List.mem_cons_self) hchild
    rw [← ha.keys id (.inl (.inl hid))] at hrest
    obtain ⟨ka, others⟩ := ih (ha.frame.trans hst) (ha.visited hid)
      (fun i hi => hd i (List.mem_cons_of_mem child hi)) hrest
    refine ⟨ha.trans ka fun _ => False.elim, fun i hi => ?_⟩
    rcases List.mem_cons.mp hi with rfl | hi
    · exact ka.met met
    · exact others i hi

/-- A reference saved: its demands are met in the end. -/
theorem supplies_saveReference (hst : st.graph.frame = g.frame) (hx : X id)
    (hid : id ∈ st.visited) {e : Entity} {plan : Plan c e}
    (hd : ∀ d ∈ plan.demands id (g.children id plan.reference.name), d ∈ g.demands id)
    {changed : Bool} (h : Runs (saveReference s save id plan) st w changed st' w') :
    Supplies g X (fun i => i = id ∧ changed = true) st st' ∧
      ∀ d ∈ plan.demands id (g.children id plan.reference.name), Met g X st' d := by
  have hchildren := Graph.children_of_frame hst id plan.reference.name
  cases hl : plan.link with
  | childHoldsKey field =>
    simp only [Plan.demands, hl, List.forall_mem_map] at hd ⊢
    obtain ⟨rfl, hloop⟩ := runs_saveReference_child hl h
    rw [hchildren] at hloop
    obtain ⟨ha, met⟩ := supplies_forM_saveChild A hsave hst hx hid rfl hd hloop
    exact ⟨ha.mono fun _ _ => False.elim, met⟩
  | parentHoldsKey field =>
    simp only [Plan.demands, hl, List.forall_mem_map, Option.mem_toList] at hd ⊢
    obtain ⟨hn, rfl, rfl⟩ | ⟨child, t, v, hc, hsaved, htake⟩ := runs_saveReference_parent hl h
    · rw [hchildren] at hn
      exact ⟨.refl st', by simp [hn]⟩
    · rw [hchildren] at hc
      have hmem := hd child hc
      have reached : Supplies g X (fun _ => False) st t ∧
          ((g.node? child).isSome → child ∈ t.visited) := by
        rcases hsaved with ⟨hv, rfl⟩ | ⟨-, hsaved⟩
        · exact ⟨.refl t, fun _ => hv⟩
        · exact hsave child (A.owner hx hmem) st w t v hst hsaved
      obtain ⟨ha, hv⟩ := reached
      obtain ⟨ka, met⟩ := supplies_takeChildKey A (ha.frame.trans hst) hx hmem hv htake
      refine ⟨(ha.mono fun _ _ => False.elim).trans ka fun i hi => hi.1 ▸ hid, fun i hi => ?_⟩
      obtain rfl : child = i := Option.some.inj (hc.symm.trans hi)
      exact met

theorem supplies_mapM_saveReference (hst : st.graph.frame = g.frame) (hx : X id)
    (hid : id ∈ st.visited) {e : Entity} {plans : List (Plan c e)}
    (hd : ∀ plan ∈ plans, ∀ d ∈ plan.demands id (g.children id plan.reference.name),
      d ∈ g.demands id)
    {changes : List Bool} (h : Runs (plans.mapM (saveReference s save id)) st w changes st' w') :
    Supplies g X (fun i => i = id ∧ changes.any (·) = true) st st' ∧
      ∀ plan ∈ plans, ∀ d ∈ plan.demands id (g.children id plan.reference.name),
        Met g X st' d := by
  induction plans generalizing st w changes with
  | nil =>
    obtain ⟨-, rfl, -⟩ := runs_pure.mp h
    exact ⟨.refl st, by simp⟩
  | cons plan rest ih =>
    obtain ⟨changed, others, t, v, rfl, hplan, hrest⟩ := runs_mapM_cons.mp h
    obtain ⟨ha, met⟩ :=
      supplies_saveReference A hsave hst hx hid (hd plan List.mem_cons_self) hplan
    obtain ⟨ka, more⟩ := ih (ha.frame.trans hst) (ha.visited hid)
      (fun p hp => hd p (List.mem_cons_of_mem plan hp)) hrest
    refine ⟨?_, fun p hp d hmem => ?_⟩
    · refine Supplies.trans (ha.mono fun i _ hi _ => .inl ?_) (ka.mono fun i _ hi _ => .inl ?_)
        fun i hi => hi.1 ▸ hid
      · exact ⟨hi.1, by simp [hi.2]⟩
      · exact ⟨hi.1, by simp [hi.2]⟩
    · rcases List.mem_cons.mp hp with rfl | hp
      · exact ka.met (met d hmem)
      · exact more p hp d hmem

/-- A node visited in an area: it is marked in the end. -/
theorem supplies_visit (hst : st.graph.frame = g.frame) (hx : X id)
    (h : Runs (visit s true save id) st w () st' w') :
    Supplies g X (fun _ => False) st st' ∧ ((g.node? id).isSome → id ∈ st'.visited) := by
  obtain ⟨hn, rfl⟩ | ⟨n, hn, ⟨hid, rfl⟩ | ⟨hid, h⟩⟩ := runs_visit h
  · rw [Graph.node?_eq_none_of_frame hst.symm hn]
    exact ⟨.refl st', by simp⟩
  · exact ⟨.refl st', fun _ => hid⟩
  · obtain ⟨plans, changes, t, v, u, x, y, z, hp, ht, hu, hy, hlast⟩ := runs_saveVisited h
    have demands : g.demands id =
        plans.flatMap fun p => p.demands id (g.children id p.reference.name) := by
      rw [Graph.demands, ← Graph.alongPlans_of_frame hst, Graph.alongPlans_of_plans hn hp,
        funext (Graph.children_of_frame hst id)]
    have hmem : ∀ plan ∈ plans, ∀ d ∈ plan.demands id (g.children id plan.reference.name),
        d ∈ g.demands id := fun plan hplan d hd =>
      demands ▸ List.mem_flatMap.mpr ⟨plan, hplan, hd⟩
    have begins := begins_persist A hst hn hid
      (linked_of_runs A (show (st.marked id).graph.frame = _ from hst) hx hmem ht) hu
    have hin : id ∈ u.visited := by simp [begins.visited]
    obtain ⟨rest, met⟩ :=
      supplies_mapM_saveReference A hsave (begins.frame.trans hst) hx hin hmem hy
    have met : ∀ d ∈ g.demands id, Met g X y d := fun d hd => by
      obtain ⟨plan, hplan, hd⟩ := List.mem_flatMap.mp (demands ▸ hd)
      exact met plan hplan d hd
    -- The node itself may be behind when a child's key was taken over, and is then written again.
    have all : Supplies g X (fun _ => False) u st' ∧ ∀ d ∈ g.demands id, Met g X st' d := by
      rcases hlast with ⟨hno, rfl⟩ | ⟨-, hlast⟩
      · exact ⟨rest.mono fun i _ hi _ => absurd (hno.symm.trans hi.2) Bool.false_ne_true, met⟩
      · obtain ⟨m, hm, -⟩ := Graph.node?_of_frame (rest.frame.trans begins.frame) hn
        obtain ⟨again, behind⟩ := supplies_update (g := g) (X := X) (D := fun _ => False) hlast
        have now : UpToDate st' id := behind (by rw [hm]; rfl)
        refine ⟨(rest.trans (again.mono fun _ _ => False.elim) fun i hi => hi.1 ▸ hin).mono
          fun i _ hi _ => .inr (hi.1 ▸ now), fun d hd => again.met (met d hd)⟩
    exact ⟨begins.supplies hx hid all.1 all.2, fun _ => all.1.visited hin⟩

end References

/-- Where calls that are nested too deep fail, saving a node supplies what is demanded. -/
theorem supplies_saveWithin (A : g.Area X) (why : GraphError) (depth : Nat) (hx : X id)
    (hst : st.graph.frame = g.frame)
    (h : Runs (saveWithin s true (fun _ => throw why) depth id) st w () st' w') :
    Supplies g X (fun _ => False) st st' ∧ ((g.node? id).isSome → id ∈ st'.visited) := by
  induction depth generalizing id st w st' w' with
  | zero => exact absurd h runs_throw
  | succ depth ih =>
    exact supplies_visit A (fun i hi t v t' v' ht hrun => ih hi ht hrun) hst hx h

theorem supplies_forM_saveWithin (A : g.Area X) (why : GraphError) (depth : Nat)
    {roots : List NodeId} (hx : ∀ root ∈ roots, X root) (hst : st.graph.frame = g.frame)
    (h : Runs (roots.forM (saveWithin s true (fun _ => throw why) depth)) st w () st' w') :
    Supplies g X (fun _ => False) st st' := by
  induction roots generalizing st w with
  | nil =>
    obtain ⟨-, rfl, -⟩ := runs_pure.mp h
    exact .refl st
  | cons root rest ih =>
    obtain ⟨t, v, hroot, hrest⟩ := runs_forM_cons.mp h
    obtain ⟨ha, -⟩ := supplies_saveWithin A why depth (hx root List.mem_cons_self) hst hroot
    exact ha.trans (ih (fun i hi => hx i (List.mem_cons_of_mem root hi))
      (ha.frame.trans hst) hrest) fun _ => False.elim

end Saving

/-! ## Calls -/

namespace Session

open SaveState Saving

variable {σ : Type} {s : Session c (StateM σ)} {g : Graph c} {roots : List NodeId} {w w' : σ}
  {st : SaveState c}

/-- What a successful call does to what its roots reach. -/
theorem supplies_saveAll (A : g.Area (g.Reached roots))
    (h : (s.saveAll g roots true).run w = ((.ok (), st), w')) :
    Supplies g (g.Reached roots) (fun _ => False) (start g) st := by
  have hruns := runs_of_saveAll (congrArg (·.1.1) h) (.missingGeneratedKey "")
  rw [h] at hruns
  exact supplies_forM_saveWithin A _ _ Graph.reached_of_mem rfl hruns

/-- A successful call has visited what its roots reach. -/
theorem mem_visited_saveAll (h : (s.saveAll g roots true).run w = ((.ok (), st), w')) {id : NodeId}
    (hid : g.Reached roots id) (there : (g.node? id).isSome) : id ∈ st.visited := by
  have persisted := mem_persisted_saveAll (congrArg (·.1.1) h) id
  have visited := (persisted_saveAll s g roots true w).2
  rw [h] at persisted visited
  exact visited (persisted.mpr ⟨there, hid⟩)

end Session

end RowGraph
