import RowGraph.Proofs.Load.Matching
import RowGraph.Proofs.Load.Statements

/-!
# Parents without a key

A parent whose key is null asks for nothing. Whatever the database answers to the statements for
others, and whether the loading fails or not, it keeps what is attached to the reference.

* `outcome_loadReference_of_null`: where no parent has a key, no query is made.
* `Kept`: the rows of a graph stay, and a node keeps what is attached under a name.
* `kept_after_loadReferences`: the references that are loaded for null keys are kept.
-/

namespace RowGraph

variable {c : Catalog} {e : Entity}

namespace Loading

open Process

variable {σ : Type} {s : Session c (StateM σ)} {p : Plan c e}

/-- Where a reference has no field to look for the loading stops, one way or the other. -/
theorem outcome_loadReference_of_error {why : GraphError} (hfield : p.childField = .error why)
    (parents : List NodeId) (g : Graph c) (w : σ) :
    outcome (loadReference s parents p) g w = ((.error why, g), w) := by
  rw [loadReference, outcome_get_bind, Session.referenceStatements]
  cases distinctKeys s.settings.caseInsensitive [] (parents.map (p.parentKey g)) with
  | nil =>
    change outcome (List.mapM _ [] >>= _) g w = _
    rw [List.mapM_nil, pure_bind, stitch, hfield]
    rfl
  | cons key rest =>
    rw [hfield]
    rfl

/-- Where no parent has a key nothing is done. -/
theorem outcome_loadReference_of_null {field : Fin p.child.fields.length}
    (hfield : p.childField = .ok field) {parents : List NodeId}
    {g : Graph c} (h : ∀ parent ∈ parents, (p.parentKey g parent).isNull = true) (w : σ) :
    outcome (loadReference s parents p) g w = ((.ok (), g), w) := by
  rw [loadReference, outcome_get_bind, s.referenceStatements_of_null h]
  change outcome (List.mapM _ [] >>= _) g w = _
  rw [List.mapM_nil, pure_bind, stitch, hfield]
  exact outcome_forM_of_return fun parent hparent =>
    outcome_stitchParent_of_isNull (h parent hparent) w

end Loading

/-- A plan of the references that are loaded for these parents: one of those that the entity of the
first parent has for the selection. -/
structure Loaded (g : Graph c) (parents : List NodeId) (selection : Include) (n : Node c)
    (p : Plan c n.entity) : Prop where
  node : ∃ first, parents.head? = some first ∧ g.node? first = some n
  plan : ∃ plans, n.entity.plans c selection = .ok plans ∧ p ∈ plans

/-! ## What is kept -/

/-- What is attached to a reference of a node, if anything. -/
def Graph.attached? (g : Graph c) (id : NodeId) (name : String) : Option Attached :=
  (g.node? id).bind (·.attached? name)

/-- The rows of a graph stay, and a node keeps what is attached under a name. -/
structure Kept (parent : NodeId) (name : String) (g x : Graph c) : Prop where
  size : g.nodes.length ≤ x.nodes.length
  rows : ∀ id < g.nodes.length, x.row? id = g.row? id
  attached : x.attached? parent name = g.attached? parent name

namespace Kept

variable {parent : NodeId} {name : String} {g x : Graph c}

theorem refl (parent : NodeId) (name : String) (g : Graph c) : Kept parent name g g :=
  ⟨Nat.le_refl _, fun _ _ => rfl, rfl⟩

theorem extend (h : Kept parent name g x) (hparent : parent < g.nodes.length)
    (more : List (Node c)) : Kept parent name g (x.extend more) := by
  refine ⟨?_, fun id hid => ?_, ?_⟩
  · rw [Graph.length_nodes_extend]
    exact Nat.le_add_right_of_le h.size
  · rw [Graph.row?_extend (Nat.lt_of_lt_of_le hid h.size)]
    exact h.rows id hid
  · rw [Graph.attached?, Graph.node?_extend (Nat.lt_of_lt_of_le hparent h.size)]
    exact h.attached

end Kept

namespace Loading

open Process

variable {σ : Type} {s : Session c (StateM σ)} {p : Plan c e} {parent : NodeId} {name : String}
  {g : Graph c}

theorem kept_after_attach {x : Graph c} (h : Kept parent name g x) {id : NodeId} {asked : String}
    (hother : id = parent → Text.sameName asked name = false) (a : Attached) (w : σ) :
    Kept parent name g (after (attach id asked a : Loading c (StateM σ) Unit) x w) := by
  have hrows := row?_after_attach (σ := σ) id asked a x w
  unfold after at hrows ⊢
  rw [attach, outcome_get_bind] at hrows ⊢
  cases hn : x.node? id with
  | none => exact h
  | some n =>
    rw [hn] at hrows
    dsimp only at hrows ⊢
    cases hm : n.attach asked a with
    | error why => exact h
    | ok m =>
      rw [hm] at hrows
      refine ⟨?_, fun other hlt => (hrows other).trans (h.rows other hlt), ?_⟩
      · exact (Graph.length_nodes_modify x id _).symm ▸ h.size
      · refine Eq.trans ?_ h.attached
        change (x.put id m).attached? parent name = _
        rw [Graph.attached?, Graph.attached?, Graph.node?_put hn]
        split
        · next hid =>
          subst hid
          rw [hn]
          exact (Node.attached?_attach hm name).trans (if_neg (by simp [hother rfl]))
        · rfl

theorem kept_after_attachChildren {x : Graph c} (h : Kept parent name g x) {id : NodeId}
    (hother : id = parent → Text.sameName p.reference.name name = false) (children : List NodeId)
    (w : σ) :
    Kept parent name g
      (after (attachChildren p id children : Loading c (StateM σ) Unit) x w) := by
  unfold attachChildren
  split
  · exact kept_after_attach h hother _ w
  · exact kept_after_attach h hother _ w
  · exact h

theorem after_query (s : Session c (StateM σ)) (statement : Statement) (x : Graph c) (w : σ) :
    after (query s statement) x w = x := by
  rw [query, after, outcome_bind, outcome_lift]
  cases ((s.database.query statement.sql statement.values).run w).1 <;> rfl

section

variable (hparent : parent < g.nodes.length)
include hparent

theorem kept_after_materialize {x : Graph c} (h : Kept parent name g x) (type : EntityType)
    (rows : List Row) (w : σ) : Kept parent name g (after (materialize s type rows) x w) := by
  rw [materialize]
  cases (c.entity type).readRows s.settings.strictColumnMapping rows with
  | error why => exact h
  | ok values =>
    dsimp only
    rw [after, outcome_mapM_add]
    exact h.extend hparent _

variable (hkey : Text.sameName p.reference.name name = true →
  (p.parentKey g parent).isNull = true)
include hkey

theorem kept_after_stitchParent {x : Graph c} (h : Kept parent name g x) (ignoreCase : Bool)
    (field : Nat) (children : List NodeId) (id : NodeId) (w : σ) :
    Kept parent name g
      (after (stitchParent ignoreCase p field children id : Loading c (StateM σ) Unit) x w) := by
  cases hnull : (p.parentKey x id).isNull with
  | true =>
    rw [after, outcome_stitchParent_of_isNull hnull]
    exact h
  | false =>
    rw [after, outcome_stitchParent_of_isNull_eq_false hnull]
    refine kept_after_attachChildren h (fun hid => ?_) _ w
    rw [Bool.eq_false_iff]
    intro hsame
    have hgiven := hkey hsame
    rw [← parentKey_congr p (h.rows parent hparent), ← hid, hnull] at hgiven
    cases hgiven

/-- A reference that is loaded for a null key is kept. -/
theorem kept_after_loadReference {x : Graph c} (h : Kept parent name g x) (parents : List NodeId)
    (w : σ) : Kept parent name g (after (loadReference s parents p) x w) := by
  rw [loadReference, after_get_bind]
  cases s.referenceStatements p x parents with
  | error why => exact h
  | ok statements =>
    have hchildren : Kept parent name g (after (statements.mapM fun statement => do
        materialize s p.reference.target (← query s statement)) x w) := by
      refine rel_after_mapM (R := fun y z : Graph c => Kept parent name g y → Kept parent name g z)
        (fun _ hy => hy) (fun hyz hzu hy => hzu (hyz hy)) (fun statement _ y v hy => ?_) x w h
      have hquery : Kept parent name g (after (query s statement) y v) := by
        rw [after_query]
        exact hy
      exact pred_after_bind (P := Kept parent name g) hquery fun rows t v' hruns =>
        kept_after_materialize hparent (after_of_runs hruns ▸ hquery) _ rows v'
    refine pred_after_bind (P := Kept parent name g) hchildren fun children t v hruns => ?_
    have ht : Kept parent name g t := after_of_runs hruns ▸ hchildren
    rw [stitch]
    cases p.childField with
    | error why => exact ht
    | ok field =>
      refine rel_after_forM (R := fun y z : Graph c => Kept parent name g y → Kept parent name g z)
        (fun _ hy => hy) (fun hyz hzu hy => hzu (hyz hy)) (fun id _ y v hy => ?_) t v ht
      exact kept_after_stitchParent hparent hkey hy _ field _ id v

end

/-- **The references that are loaded for null keys are kept**, whatever the database answers. -/
theorem kept_after_loadReferences {parents : List NodeId} {selection : Include}
    (hparent : parent < g.nodes.length)
    (hkeys : ∀ n p, Loaded g parents selection n p → Text.sameName p.reference.name name = true →
      (p.parentKey g parent).isNull = true) (w : σ) :
    Kept parent name g (after (loadReferences s parents selection) g w) := by
  have hrefl := Kept.refl parent name g
  rw [loadReferences]
  cases hfirst : parents.head? with
  | none => exact hrefl
  | some first =>
    dsimp only
    rw [after_get_bind]
    cases hn : g.node? first with
    | none => exact hrefl
    | some n =>
      dsimp only
      cases hplans : n.entity.plans c selection with
      | error why => exact hrefl
      | ok plans =>
        refine rel_after_forM
          (R := fun y z : Graph c => Kept parent name g y → Kept parent name g z)
          (fun _ hy => hy) (fun hyz hzu hy => hzu (hyz hy)) (fun p hp y v hy => ?_) g w hrefl
        exact kept_after_loadReference hparent
          (hkeys n p ⟨⟨first, hfirst, hn⟩, ⟨plans, hplans, hp⟩⟩) hy parents v

end Loading

end RowGraph
