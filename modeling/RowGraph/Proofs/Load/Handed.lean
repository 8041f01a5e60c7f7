import RowGraph.Proofs.Load.NullKeys
import RowGraph.Proofs.Load.Served

/-!
# What parents are handed

Loading a reference to several rows ends, where the statements can be made and are answered from a
table, with each parent that has a key holding rows of the table: those that a query for the first
key that matches its own would yield. Other references that are loaded before or after do not change
this, as long as none behind it has the same name.

* `Holds`: the rows that a node has under a reference.
* `yields_turn`, `yields_stitch`: the loop over the parents hands each of them the children that
  match it.
* `yields_loadReference`: what a reference that is loaded leaves.
* **`holds_after_loadReferences`**: what all references that are loaded leave.
-/

namespace RowGraph

variable {c : Catalog} {e : Entity}

namespace Graph

theorem lt_of_row? {g : Graph c} {id : NodeId} {type : EntityType}
    (h : (g.row? id).map Prod.fst = some type) : id < g.nodes.length := by
  rw [← isSome_row?, ← Option.isSome_map, h]
  rfl

/-- The nodes of a graph are still there, with their rows. -/
structure Grown (g x : Graph c) : Prop where
  size : g.nodes.length ≤ x.nodes.length
  rows : ∀ id < g.nodes.length, x.row? id = g.row? id

namespace Grown

variable {g x y : Graph c}

theorem refl (g : Graph c) : g.Grown g := ⟨Nat.le_refl _, fun _ _ => rfl⟩

theorem extend (h : g.Grown x) (more : List (Node c)) : g.Grown (x.extend more) := by
  refine ⟨?_, fun id hid => ?_⟩
  · rw [length_nodes_extend]
    exact Nat.le_add_right_of_le h.size
  · rw [row?_extend (Nat.lt_of_lt_of_le hid h.size), h.rows id hid]

/-- A graph with the same rows has as many nodes. -/
theorem of_row?_eq (h : g.Grown x) (hrows : y.row? = x.row?) : g.Grown y := by
  refine ⟨Nat.le_of_not_lt fun hlt => ?_, fun id hid => hrows ▸ h.rows id hid⟩
  have there : (y.row? y.nodes.length).isSome = true := by
    rw [hrows, isSome_row?]
    exact Nat.lt_of_lt_of_le hlt h.size
  exact Nat.lt_irrefl _ ((isSome_row? y _).mp there)

end Grown

/-- A node has these rows under a reference to several. -/
def Holds (x : Graph c) (id : NodeId) (name : String) (rows : List (EntityType × List Value)) :
    Prop :=
  ∃ children, x.attached? id name = some (.many children) ∧ children.map x.row? = rows.map some

theorem Holds.unique {x : Graph c} {id : NodeId} {name : String}
    {rows others : List (EntityType × List Value)} (h : x.Holds id name rows)
    (k : x.Holds id name others) : rows = others := by
  obtain ⟨children, hattached, hrows⟩ := h
  obtain ⟨children', hattached', hothers⟩ := k
  obtain rfl : children = children' := by
    have same := hattached.symm.trans hattached'
    cases same
    rfl
  have hmaps := hrows.symm.trans hothers
  rwa [List.map_inj_right fun _ _ => Option.some.inj] at hmaps

/-- What a node holds it still holds when the graph has grown and the reference is kept. -/
theorem Holds.of_kept {x y : Graph c} {id : NodeId} {name : String}
    {rows : List (EntityType × List Value)} (h : x.Holds id name rows) (hkept : Kept id name x y) :
    y.Holds id name rows := by
  obtain ⟨children, hattached, hrows⟩ := h
  refine ⟨children, hkept.attached.trans hattached, ?_⟩
  rw [← hrows]
  refine List.map_congr_left fun child hchild => hkept.rows child ?_
  obtain ⟨row, -, hrow⟩ := List.mem_map.mp (hrows ▸ List.mem_map_of_mem hchild)
  rw [← isSome_row?, ← hrow]
  rfl

end Graph

/-- A row of a table as it is seen once it is attached. -/
def Plan.seen (p : Plan c e) (r : Row) : EntityType × List Value :=
  (p.reference.target, p.child.fields.map r.cell)

theorem Plan.map_seen (p : Plan c e) (rows : List Row) :
    (rows.map (Row.node p.reference.target)).map (fun n : Node c => some (n.type, n.values)) =
      (rows.map p.seen).map some := by
  rw [List.map_map, List.map_map]
  refine List.map_congr_left fun r _ => ?_
  simp [Row.node, Node.ofValues, Plan.seen, Plan.child, List.take_of_length_le]

/-- A plan that is loaded for these parents, behind which none of the same name is. -/
structure LoadedLast (g : Graph c) (parents : List NodeId) (selection : Include) (n : Node c)
    (p : Plan c n.entity) : Prop where
  node : ∃ first, parents.head? = some first ∧ g.node? first = some n
  plan : ∃ before later, n.entity.plans c selection = .ok (before ++ p :: later) ∧
    ∀ q ∈ later, Text.sameName q.reference.name p.reference.name = false

theorem LoadedLast.loaded {g : Graph c} {parents : List NodeId} {selection : Include} {n : Node c}
    {p : Plan c n.entity} (h : LoadedLast g parents selection n p) :
    Loaded g parents selection n p := by
  obtain ⟨before, later, hplans, -⟩ := h.plan
  exact ⟨h.node, _, hplans, List.mem_append_right _ List.mem_cons_self⟩

namespace Loaded

variable {g : Graph c} {parents : List NodeId} {selection : Include} {n : Node c}
  {p : Plan c n.entity} {type : EntityType}

theorem type_eq (h : Loaded g parents selection n p)
    (hparents : ∀ parent ∈ parents, (g.row? parent).map Prod.fst = some type) : n.type = type := by
  obtain ⟨first, hfirst, hn⟩ := h.node
  have htype := hparents first (List.mem_of_mem_head? hfirst)
  rw [Graph.row?, hn] at htype
  exact Option.some.inj htype

/-- The entity of the parents has the reference that is loaded. -/
theorem isSome_reference? (h : Loaded g parents selection n p)
    (hparents : ∀ parent ∈ parents, (g.row? parent).map Prod.fst = some type) :
    ((c.entity type).reference? p.reference.name).isSome := by
  obtain ⟨plans, hplans, hp⟩ := h.plan
  obtain rfl := h.type_eq hparents
  exact List.find?_isSome.mpr
    ⟨p.reference, Entity.reference_mem_of_plans hplans hp, Text.sameName_refl _⟩

end Loaded

/-- The database looks children up in a table, of which the select filters let some rows pass, and
does so in whichever case keys match. -/
def Session.LooksUpIn {σ : Type} (s : Session c (StateM σ)) (p : Plan c e) (table : Table p.child)
    (allowed : Row → Bool) : Prop :=
  ∀ field, p.childField = .ok field → ∀ ignoreCase : Bool,
    (s.ignoringCase ignoreCase).LooksUp p field table allowed

/-- The references can be planned, and the statements for their children can be made. -/
def Session.Prepares {m : Type → Type} (s : Session c m) (g : Graph c) (parents : List NodeId)
    (selection : Include) : Prop :=
  ∀ first, parents.head? = some first → ∀ n, g.node? first = some n →
    ∃ plans, n.entity.plans c selection = .ok plans ∧ ∀ p ∈ plans,
      ∃ field, ∃ make : List Value → Statement, p.childField = .ok field ∧
        ∀ keys, s.batchStatement p (p.child.fieldAt field) keys = .ok (make keys)

namespace Loading

open Process

variable {σ : Type}

/-! ## The loop over the parents -/

section Stitch

variable {p : Plan c e} {ignoreCase : Bool} {field : Nat} {children : List NodeId}

/-- Attaching to a reference that the node's entity has: it succeeds, leaves all rows, and is found
under the name, and under it no other node has anything else. -/
theorem yields_attach {id : NodeId} {name : String} (a : Attached) {g : Graph c} {n : Node c}
    (hn : g.node? id = some n) (hr : (n.entity.reference? name).isSome) (w : σ) :
    Yields False (fun _ x _ => x.row? = g.row? ∧ ∀ other,
      x.attached? other name = if id = other then some a else g.attached? other name)
      (attach id name a : Loading c (StateM σ) Unit) g w := by
  obtain ⟨r, hr⟩ := Option.isSome_iff_exists.mp hr
  have hattach : ∃ m, n.attach name a = .ok m := by
    rw [Node.attach_eq, hr]
    exact ⟨_, rfl⟩
  obtain ⟨m, hm⟩ := hattach
  have hrows := row?_after_attach (σ := σ) id name a g w
  rw [attach, after_get_bind] at hrows
  rw [attach, yields_get_bind]
  rw [hn] at hrows ⊢
  dsimp only at hrows ⊢
  rw [hm] at hrows ⊢
  refine ⟨funext hrows, fun other => ?_⟩
  rw [Graph.attached?, Graph.attached?, Graph.node?_put hn]
  split
  · exact (Node.attached?_attach hm name).trans (if_pos (Text.sameName_refl name))
  · rfl

/-- In `x` the parent has been given the children that match the key it has in `g`. -/
def Given (p : Plan c e) (ignoreCase : Bool) (field : Nat) (children : List NodeId) (g x : Graph c)
    (parent : NodeId) : Prop :=
  x.attached? parent p.reference.name = some (.many (children.filter fun child =>
    (g.valueAt child field).matchKey ignoreCase == (p.parentKey g parent).matchKey ignoreCase))

/-- One parent: the rows stay, and if it has a key, it gets the children that match it. -/
theorem yields_stitchParent {parent : NodeId} {g : Graph c} {n : Node c}
    (hn : g.node? parent = some n) (hr : (n.entity.reference? p.reference.name).isSome) (w : σ) :
    Yields False (fun _ x _ => x.row? = g.row? ∧ (p.reference.cardinality = .many → ∀ other,
      x.attached? other p.reference.name =
        if parent = other ∧ (p.parentKey g parent).isNull = false then
          some (.many (children.filter fun child => (g.valueAt child field).matchKey ignoreCase ==
            (p.parentKey g parent).matchKey ignoreCase))
        else g.attached? other p.reference.name))
      (stitchParent ignoreCase p field children parent : Loading c (StateM σ) Unit) g w := by
  cases hnull : (p.parentKey g parent).isNull with
  | true =>
    rw [yields_congr (y := pure ()) (outcome_stitchParent_of_isNull hnull w)]
    exact ⟨rfl, fun _ other => (if_neg fun h => Bool.noConfusion h.2).symm⟩
  | false =>
    rw [yields_congr (outcome_stitchParent_of_isNull_eq_false hnull w)]
    unfold attachChildren
    cases p.reference.cardinality with
    | many =>
      refine (yields_attach _ hn hr w).mono fun _ x _ hx => ⟨hx.1, fun _ other => ?_⟩
      rw [hx.2 other]
      simp only [eq_self, and_true]
    | one =>
      generalize children.filter _ = matching
      cases matching with
      | nil => exact ⟨rfl, fun h => by cases h⟩
      | cons first rest =>
        exact (yields_attach _ hn hr w).mono fun _ x _ hx => ⟨hx.1, fun h => by cases h⟩

/-- One turn of the loop: the rows stay those of `g`, a parent with a key is given its children, and
a parent that was given its children before keeps them. -/
theorem yields_turn {first : NodeId} {g x : Graph c} {type : EntityType} (hx : x.row? = g.row?)
    (hfirst : (g.row? first).map Prod.fst = some type)
    (hr : ((c.entity type).reference? p.reference.name).isSome) (w : σ) :
    Yields False (fun _ y _ => y.row? = g.row? ∧ (p.reference.cardinality = .many → ∀ parent,
        (parent = first ∧ (p.parentKey g parent).isNull = false ∨
          Given p ignoreCase field children g x parent) →
        Given p ignoreCase field children g y parent))
      (stitchParent ignoreCase p field children first : Loading c (StateM σ) Unit) x w := by
  obtain ⟨n, hn, htype⟩ : ∃ n, x.node? first = some n ∧ n.type = type := by
    rw [← hx, Graph.row?] at hfirst
    simpa using hfirst
  refine (yields_stitchParent hn (by rw [Node.entity, htype]; exact hr) w).mono fun _ y _ hy =>
    ⟨hy.1.trans hx, fun hcard parent h => ?_⟩
  have hvalues : ∀ child, x.valueAt child field = g.valueAt child field := fun child => by
    rw [valueAt_eq_row?, valueAt_eq_row?, hx]
  have hkey : p.parentKey x first = p.parentKey g first := parentKey_congr p (congrFun hx first)
  have hthen := hy.2 hcard parent
  simp only [hvalues, hkey] at hthen
  by_cases hturn : first = parent ∧ (p.parentKey g first).isNull = false
  · obtain ⟨rfl, hnull⟩ := hturn
    exact hthen.trans (if_pos ⟨rfl, hnull⟩)
  · rw [if_neg hturn] at hthen
    rcases h with ⟨rfl, hnull⟩ | hgiven
    · exact absurd ⟨rfl, hnull⟩ hturn
    · exact hthen.trans hgiven

/-- **Each parent that has a key gets the children that match it**, and the rows stay. What a parent
has been given it keeps, since it is given the same whenever its turn comes. -/
theorem yields_stitch {parents : List NodeId} {g x : Graph c} {type : EntityType}
    (hx : x.row? = g.row?)
    (hparents : ∀ parent ∈ parents, (g.row? parent).map Prod.fst = some type)
    (hr : ((c.entity type).reference? p.reference.name).isSome) (w : σ) :
    Yields False (fun _ y _ => y.row? = g.row? ∧ (p.reference.cardinality = .many → ∀ parent,
        (parent ∈ parents ∧ (p.parentKey g parent).isNull = false ∨
          Given p ignoreCase field children g x parent) →
        Given p ignoreCase field children g y parent))
      (parents.forM (stitchParent ignoreCase p field children) : Loading c (StateM σ) Unit)
      x w := by
  induction parents generalizing x w with
  | nil => exact ⟨hx, fun _ parent h => h.resolve_left fun h => by cases h.1⟩
  | cons first rest ih =>
    rw [List.forM]
    refine yields_bind (yields_turn hx (hparents first List.mem_cons_self) hr w)
      fun _ y v hy => ?_
    have hrest := ih hy.1 (fun parent h => hparents parent (List.mem_cons_of_mem _ h)) v
    refine hrest.mono fun _ z _ hz => ⟨hz.1, fun hcard parent h => hz.2 hcard parent ?_⟩
    rcases h with ⟨hmem, hnull⟩ | hgiven
    · rcases List.mem_cons.mp hmem with hturn | hmem
      · exact .inr (hy.2 hcard parent (.inl ⟨hturn, hnull⟩))
      · exact .inl ⟨hmem, hnull⟩
    · exact .inr (hy.2 hcard parent (.inr hgiven))

end Stitch

/-! ## One reference -/

section Reference

variable {s : Session c (StateM σ)} {p : Plan c e} {field : Fin p.child.fields.length}
  {table : Table p.child} {allowed : Row → Bool} {parents : List NodeId} {g : Graph c}
  {type : EntityType}

/-- The rows that a parent is handed: those that a query for the first key that matches its own
yields. -/
def handed (s : Session c (StateM σ)) (p : Plan c e) (field : Fin p.child.fields.length)
    (table : Table p.child) (allowed : Row → Bool) (g : Graph c) (parents : List NodeId)
    (parent : NodeId) : List Row :=
  table.selected s.settings.caseInsensitive (p.child.fieldAt field) allowed
    [askedFor s.settings.caseInsensitive (parents.map (p.parentKey g)) (p.parentKey g parent)]

/-- **A reference whose statements can be made and are answered is loaded, and its parents hold what
they are handed.** -/
theorem yields_loadReference (h : s.LooksUp p field table allowed)
    (hfield : p.childField = .ok field) {make : List Value → Statement}
    (hmake : ∀ keys, s.batchStatement p (p.child.fieldAt field) keys = .ok (make keys))
    (hparents : ∀ parent ∈ parents, (g.row? parent).map Prod.fst = some type)
    (hr : ((c.entity type).reference? p.reference.name).isSome) {x : Graph c} (hx : g.Grown x)
    (w : σ) :
    Yields False (fun _ y _ => g.Grown y ∧ (p.reference.cardinality = .many →
      ∀ parent ∈ parents, (p.parentKey g parent).isNull = false →
        y.Holds parent p.reference.name
          ((handed s p field table allowed g parents parent).map p.seen)))
      (loadReference s parents p) x w := by
  have hlt : ∀ parent ∈ parents, parent < g.nodes.length :=
    fun parent hparent => Graph.lt_of_row? (hparents parent hparent)
  obtain ⟨all, hall⟩ : ∃ all, all = (batches s.settings.inBatchSize (s.keysOf p x parents)).flatMap
      (table.selected s.settings.caseInsensitive (p.child.fieldAt field) allowed) := ⟨_, rfl⟩
  obtain ⟨w', hrun⟩ := outcome_loadReference_of_answers h.answersWith hfield hmake hall w
  have hgrown := hx.extend (all.map (Row.node p.reference.target))
  have hrows : ∀ parent ∈ parents, ∀ y : Graph c, g.Grown y →
      p.parentKey y parent = p.parentKey g parent :=
    fun parent hparent y hy => parentKey_congr p (hy.rows parent (hlt parent hparent))
  have hkeys : parents.map (p.parentKey x) = parents.map (p.parentKey g) :=
    List.map_congr_left fun parent hparent => hrows parent hparent x hx
  rw [yields_congr hrun]
  refine (yields_stitch rfl (fun parent hparent => ?_) hr w').mono fun _ y _ hy =>
    ⟨hgrown.of_row?_eq hy.1, fun hcard parent hparent hnull => ?_⟩
  · rw [hgrown.rows parent (hlt parent hparent)]
    exact hparents parent hparent
  · obtain ⟨k, hk⟩ := Value.exists_matchKey hnull s.settings.caseInsensitive
    have hkey := hrows parent hparent _ hgrown
    refine ⟨_, hy.2 hcard parent (.inl ⟨hparent, hkey.symm ▸ hnull⟩), ?_⟩
    have hmatching := map_row?_matching (x := x.extend (all.map (Row.node p.reference.target)))
      (hkeys ▸ List.mem_map_of_mem hparent) hk hall rfl
    rw [hy.1, hkey, hmatching, hkeys, p.map_seen]
    rfl

/-- Where such a reference is loaded with success, a parent that has a key holds what it is
handed. -/
theorem holds_of_runs_loadReference (h : s.LooksUp p field table allowed)
    (hfield : p.childField = .ok field)
    (hparents : ∀ parent ∈ parents, (g.row? parent).map Prod.fst = some type)
    (hr : ((c.entity type).reference? p.reference.name).isSome) {x y : Graph c} (hx : g.Grown x)
    {w v : σ} (hruns : Runs (loadReference s parents p) x w () y v)
    (hmany : p.reference.cardinality = .many) {parent : NodeId} (hparent : parent ∈ parents)
    (hkey : (p.parentKey g parent).isNull = false) :
    g.Grown y ∧ y.Holds parent p.reference.name
      ((handed s p field table allowed g parents parent).map p.seen) := by
  obtain ⟨made, hmade⟩ := s.batchStatement_uniform p (p.child.fieldAt field)
  cases made with
  | error why =>
    have hkeyx : (p.parentKey x parent).isNull = false :=
      (parentKey_congr p (hx.rows parent (Graph.lt_of_row? (hparents parent hparent)))).symm ▸ hkey
    rw [Runs, outcome_loadReference_of_refused hfield hmade ⟨parent, hparent, hkeyx⟩] at hruns
    cases hruns
  | ok make =>
    have hyields := yields_loadReference h hfield hmade hparents hr hx w
    rw [yields_of_runs hruns] at hyields
    exact ⟨hyields.1, hyields.2 hmany parent hparent hkey⟩

end Reference

/-! ## All references -/

section LookedUp

variable {s : Session c (StateM σ)} {p : Plan c e} {table : Table p.child} {allowed : Row → Bool}
  {parents : List NodeId} {g : Graph c} {type : EntityType}

/-- How the loading of a reference ends does not depend on the case of letters, nor on what was
loaded before. -/
theorem ends_loadReference (h : s.LooksUpIn p table allowed)
    (hparents : ∀ parent ∈ parents, (g.row? parent).map Prod.fst = some type)
    (hr : ((c.entity type).reference? p.reference.name).isSome) :
    ∃ result, ∀ ignoreCase x w, g.Grown x →
      (outcome (loadReference (s.ignoringCase ignoreCase) parents p) x w).1.1 = result ∧
        g.Grown (after (loadReference (s.ignoringCase ignoreCase) parents p) x w) := by
  cases hfield : p.childField with
  | error why =>
    refine ⟨.error why, fun ignoreCase x w hx => ?_⟩
    rw [after, outcome_loadReference_of_error hfield]
    exact ⟨rfl, hx⟩
  | ok field =>
    obtain ⟨made, hmade⟩ := s.batchStatement_ignoringCase p (p.child.fieldAt field)
    cases made with
    | ok make =>
      refine ⟨.ok (), fun ignoreCase x w hx => ?_⟩
      obtain ⟨_, y, v, hruns, hy⟩ := yields_false.mp (yields_loadReference
        (h field hfield ignoreCase) hfield (hmade ignoreCase) hparents hr hx w)
      rw [after, hruns]
      exact ⟨rfl, hy.1⟩
    | error why =>
      have hkeys : ∀ x : Graph c, g.Grown x → ∀ parent ∈ parents,
          p.parentKey x parent = p.parentKey g parent := fun x hx parent hparent =>
        parentKey_congr p (hx.rows parent (Graph.lt_of_row? (hparents parent hparent)))
      by_cases hsome : ∃ parent ∈ parents, (p.parentKey g parent).isNull = false
      · obtain ⟨parent, hparent, hkey⟩ := hsome
        refine ⟨.error (.query why), fun ignoreCase x w hx => ?_⟩
        rw [after, outcome_loadReference_of_refused hfield (hmade ignoreCase)
          ⟨parent, hparent, (hkeys x hx parent hparent).symm ▸ hkey⟩]
        exact ⟨rfl, hx⟩
      · refine ⟨.ok (), fun ignoreCase x w hx => ?_⟩
        have hnull : ∀ parent ∈ parents, (p.parentKey x parent).isNull = true := by
          intro parent hparent
          rw [hkeys x hx parent hparent, ← Bool.not_eq_false]
          exact fun hkey => hsome ⟨parent, hparent, hkey⟩
        rw [after, outcome_loadReference_of_null hfield hnull]
        exact ⟨rfl, hx⟩

end LookedUp

section All

variable {s : Session c (StateM σ)} {parents : List NodeId} {g : Graph c} {selection : Include}
  {n : Node c} {type : EntityType}

/-- Behind a loaded plan for another name a parent still holds what it holds. -/
theorem holds_after_others (s : Session c (StateM σ)) (parents : List NodeId)
    {later : List (Plan c e)} {name : String}
    (hlater : ∀ q ∈ later, Text.sameName q.reference.name name = false) {x : Graph c}
    {parent : NodeId} (hparent : parent < x.nodes.length)
    {rows : List (EntityType × List Value)} (h : x.Holds parent name rows) (w : σ) :
    (after (later.forM (loadReference s parents)) x w).Holds parent name rows := by
  refine h.of_kept (rel_after_forM
    (R := fun y z : Graph c => Kept parent name x y → Kept parent name x z)
    (fun _ hy => hy) (fun hyz hzu hy => hzu (hyz hy)) (fun q hq y v hy => ?_) x w
    (Kept.refl parent name x))
  refine kept_after_loadReference hparent (fun hsame => ?_) hy parents v
  rw [hlater q hq] at hsame
  cases hsame

theorem outcome_loadReferences {s : Session c (StateM σ)} {first : NodeId}
    (hfirst : parents.head? = some first) (hn : g.node? first = some n)
    {plans : List (Plan c n.entity)} (hplans : n.entity.plans c selection = .ok plans) (w : σ) :
    outcome (loadReferences s parents selection) g w =
      outcome (plans.forM (loadReference s parents)) g w := by
  rw [loadReferences, hfirst]
  dsimp only
  rw [outcome_get_bind, hn]
  dsimp only
  rw [hplans]

/-- Where the statements can be made, the references are loaded. -/
theorem ok_of_prepares (hprepares : s.Prepares g parents selection)
    (hparents : ∀ parent ∈ parents, (g.row? parent).map Prod.fst = some type)
    (hlooked : ∀ n p, Loaded g parents selection n p → ∃ table allowed, s.LooksUpIn p table allowed)
    (ignoreCase : Bool) (w : σ) :
    (outcome (loadReferences (s.ignoringCase ignoreCase) parents selection) g w).1.1 = .ok () := by
  cases hfirst : parents.head? with
  | none =>
    rw [loadReferences, hfirst]
    rfl
  | some first =>
    obtain ⟨⟨typeOfFirst, values⟩, hrow, -⟩ :=
      Option.map_eq_some_iff.mp (hparents first (List.mem_of_mem_head? hfirst))
    obtain ⟨n, hn, -⟩ := Option.map_eq_some_iff.mp hrow
    obtain ⟨plans, hplans, hmade⟩ := hprepares first hfirst n hn
    rw [outcome_loadReferences hfirst hn hplans]
    have hall : Yields False (fun _ x _ => g.Grown x)
        (plans.forM (loadReference (s.ignoringCase ignoreCase) parents)) g w := by
      refine yields_forM (P := fun x _ => g.Grown x) (fun p hp x w hx => ?_) (.refl g)
      have hloaded : Loaded g parents selection n p := ⟨⟨first, hfirst, hn⟩, plans, hplans, hp⟩
      obtain ⟨_, _, htable⟩ := hlooked n p hloaded
      obtain ⟨field, make, hfield, hmake⟩ := hmade p hp
      obtain ⟨make', hmake'⟩ := s.exists_make_ignoringCase hmake ignoreCase
      exact (yields_loadReference (htable field hfield ignoreCase) hfield hmake' hparents
        (hloaded.isSome_reference? hparents) hx w).mono fun _ _ _ hy => hy.1
    obtain ⟨_, x, v, hruns, -⟩ := yields_false.mp hall
    rw [hruns]

/-- **After all references are loaded a parent holds what it is handed** under the last plan of a
name. -/
theorem holds_after_loadReferences
    (hparents : ∀ parent ∈ parents, (g.row? parent).map Prod.fst = some type)
    (hlooked : ∀ n p, Loaded g parents selection n p → ∃ table allowed, s.LooksUpIn p table allowed)
    {p : Plan c n.entity} {table : Table p.child} {allowed : Row → Bool}
    (htable : s.LooksUpIn p table allowed) (hlast : LoadedLast g parents selection n p)
    (hmany : p.reference.cardinality = .many) {field : Fin p.child.fields.length}
    (hfield : p.childField = .ok field) {parent : NodeId} (hparent : parent ∈ parents)
    (hkey : (p.parentKey g parent).isNull = false) (ignoreCase : Bool) (w : σ)
    (hok : (outcome (loadReferences (s.ignoringCase ignoreCase) parents selection) g w).1.1 =
      .ok ()) :
    (after (loadReferences (s.ignoringCase ignoreCase) parents selection) g w).Holds parent
      p.reference.name ((handed (s.ignoringCase ignoreCase) p field table allowed g parents
        parent).map p.seen) := by
  have hreference := hlast.loaded.isSome_reference? hparents
  obtain ⟨⟨first, hfirst, hn⟩, before, later, hplans, hlater⟩ := hlast
  rw [outcome_loadReferences hfirst hn hplans] at hok
  rw [after, outcome_loadReferences hfirst hn hplans]
  generalize hend : outcome ((before ++ p :: later).forM
    (loadReference (s.ignoringCase ignoreCase) parents)) g w = ended at hok ⊢
  obtain ⟨⟨result, z⟩, u⟩ := ended
  obtain rfl : result = .ok () := hok
  obtain ⟨x, v, hbefore, hbehind⟩ := runs_forM_append.mp hend
  obtain ⟨y, v', hp, hothers⟩ := runs_forM_cons.mp hbehind
  have hx : g.Grown x := by
    rw [← after_of_runs hbefore]
    refine keeps_forM (P := g.Grown) (fun q hq y v hy => ?_) g w (.refl g)
    have hloaded : Loaded g parents selection n q :=
      ⟨⟨first, hfirst, hn⟩, _, hplans, List.mem_append_left _ hq⟩
    obtain ⟨_, _, hq⟩ := hlooked n q hloaded
    obtain ⟨result, hends⟩ :=
      ends_loadReference hq hparents (hloaded.isSome_reference? hparents)
    exact (hends ignoreCase y v hy).2
  obtain ⟨hy, hholds⟩ := holds_of_runs_loadReference (htable field hfield ignoreCase) hfield
    hparents hreference hx hp hmany hparent hkey
  have hlt : parent < y.nodes.length :=
    Nat.lt_of_lt_of_le (Graph.lt_of_row? (hparents parent hparent)) hy.size
  have hend := holds_after_others (s.ignoringCase ignoreCase) parents hlater hlt hholds v'
  rwa [after_of_runs hothers] at hend

end All

end Loading

end RowGraph
