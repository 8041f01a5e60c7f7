import RowGraph.Proofs.Load.KeyLists
import RowGraph.Proofs.Load.Shown

/-!
# Handing children to parents

Parents and children are matched by the values of their rows, so it does not matter at which places
the children stand or what else the graph holds.

* `parentKey_congr`, `map_row?_filter`: keys and the children that have them, by rows.
* `stitchParent_eq`: a parent without a key is left alone, others get the children with their key.
* `similar_attachChildren`: children with the same rows show the same.
-/

namespace RowGraph

variable {c : Catalog} {e : Entity}

namespace Loading

/-- Children attached to a parent: all of them, or the first one if there is one. -/
def attachChildren {m : Type → Type} [Monad m] (p : Plan c e) (parent : NodeId)
    (children : List NodeId) : Loading c m Unit :=
  match p.reference.cardinality, children with
  | .many, children => attach parent p.reference.name (.many children)
  | .one, first :: _ => attach parent p.reference.name (.single first)
  | .one, [] => return

open Process

variable {σ : Type}

/-! ## Matching by rows -/

theorem valueAt_eq_row? (g : Graph c) (id : NodeId) (i : Nat) :
    g.valueAt id i = ((g.row? id).map fun r => Entity.valueAt r.2 i).getD .null := by
  rw [Graph.valueAt, Graph.row?]
  cases g.node? id <;> rfl

theorem key_congr {g g' : Graph c} {id : NodeId} (h : g.row? id = g'.row? id) :
    g.key id = g'.key id := by
  rw [Graph.row?, Graph.row?, eq_comm] at h
  rw [Graph.key, Graph.key]
  cases hn : g.node? id with
  | none =>
    rw [hn, Option.map_none, Option.map_eq_none_iff] at h
    rw [h]
  | some n =>
    rw [hn, Option.map_some, Option.map_eq_some_iff] at h
    obtain ⟨⟨type, values, references, hlength⟩, hn', heq⟩ := h
    cases n
    cases heq
    simp only [hn', Option.map_some, Node.key, Node.entity, Node.valueAt]
    cases (c.entity type).primaryKey <;> rfl

/-- The key of a parent is a matter of its row. -/
theorem parentKey_congr (p : Plan c e) {g g' : Graph c} {parent : NodeId}
    (h : g.row? parent = g'.row? parent) : p.parentKey g parent = p.parentKey g' parent := by
  unfold Plan.parentKey
  cases p.link with
  | childHoldsKey field =>
    exact key_congr h
  | parentHoldsKey field =>
    exact (valueAt_eq_row? g parent field).trans (h ▸ (valueAt_eq_row? g' parent field).symm)

/-- The children with a key are found by their rows. -/
theorem map_row?_filter (g : Graph c) (field : Nat) (ignoreCase : Bool) (key : Option String)
    (children : List NodeId) :
    (children.filter fun child => (g.valueAt child field).matchKey ignoreCase == key).map g.row? =
      (children.map g.row?).filter fun row =>
        ((row.map fun r => Entity.valueAt r.2 field).getD .null).matchKey ignoreCase == key := by
  rw [List.filter_map]
  refine congrArg (List.map g.row?) (List.filter_congr fun child _ => ?_)
  rw [valueAt_eq_row?]
  rfl

/-! ## One parent -/

/-- A parent without a key keeps what it has, and others get the children with their key. -/
theorem stitchParent_eq (ignoreCase : Bool) (p : Plan c e) (field : Nat) (children : List NodeId)
    (parent : NodeId) :
    (stitchParent ignoreCase p field children parent : Loading c (StateM σ) Unit) = (do
      let g ← get
      let key := (p.parentKey g parent).matchKey ignoreCase
      if key.isNone then return
      attachChildren p parent
        (children.filter fun child => (g.valueAt child field).matchKey ignoreCase == key)) := by
  unfold stitchParent attachChildren
  refine congrArg (bind get) (funext fun g => ite_congr rfl (fun _ => rfl) fun _ => ?_)
  generalize children.filter _ = found
  cases p.reference.cardinality with
  | many => rfl
  | one => cases found <;> rfl

/-- Attaching children leaves the rows of all nodes. -/
theorem row?_after_attachChildren (p : Plan c e) (parent : NodeId) (children : List NodeId)
    (g : Graph c) (w : σ) (id : NodeId) :
    (after (attachChildren p parent children : Loading c (StateM σ) Unit) g w).row? id =
      g.row? id := by
  unfold attachChildren
  split
  · exact row?_after_attach parent _ _ g w id
  · exact row?_after_attach parent _ _ g w id
  · rfl

/-- Children with the same rows attached: both graphs show the same again. -/
theorem similar_attachChildren {size : Nat} {a b : Graph c} (h : Similar size a b) (p : Plan c e)
    {parent : NodeId} (hparent : parent < size) {xs ys : List NodeId}
    (hrows : xs.map a.row? = ys.map b.row?) (hx : ∀ child ∈ xs, child < a.nodes.length)
    (hy : ∀ child ∈ ys, child < b.nodes.length) (w v : σ) :
    (outcome (attachChildren p parent xs : Loading c (StateM σ) Unit) a w).1.1 =
      (outcome (attachChildren p parent ys : Loading c (StateM σ) Unit) b v).1.1 ∧
    Similar size (after (attachChildren p parent xs : Loading c (StateM σ) Unit) a w)
      (after (attachChildren p parent ys : Loading c (StateM σ) Unit) b v) := by
  unfold attachChildren
  cases p.reference.cardinality with
  | many =>
    exact similar_attach (x := .many xs) (y := .many ys) h hparent _
      (congrArg AttachedRows.many hrows) hx hy w v
  | one =>
    cases xs with
    | nil =>
      obtain rfl : ys = [] := List.map_eq_nil_iff.mp hrows.symm
      exact ⟨rfl, h⟩
    | cons x xs =>
      cases ys with
      | nil => cases hrows
      | cons y ys =>
        refine similar_attach (x := .single x) (y := .single y) h hparent _ ?_ ?_ ?_ w v
        · exact congrArg AttachedRows.single (List.cons.inj hrows).1
        · intro child hchild
          exact hx child (List.mem_singleton.mp hchild ▸ List.mem_cons_self)
        · intro child hchild
          exact hy child (List.mem_singleton.mp hchild ▸ List.mem_cons_self)

theorem outcome_stitchParent_of_isNull {p : Plan c e} {ignoreCase : Bool} {field : Nat}
    {children : List NodeId} {parent : NodeId} {g : Graph c}
    (h : (p.parentKey g parent).isNull = true) (w : σ) :
    outcome (stitchParent ignoreCase p field children parent) g w = ((.ok (), g), w) := by
  rw [stitchParent_eq, outcome_get_bind]
  dsimp only
  rw [Value.isNone_matchKey, if_pos h]
  rfl

theorem outcome_stitchParent_of_isNull_eq_false {p : Plan c e} {ignoreCase : Bool} {field : Nat}
    {children : List NodeId} {parent : NodeId} {g : Graph c}
    (h : (p.parentKey g parent).isNull = false) (w : σ) :
    outcome (stitchParent ignoreCase p field children parent) g w =
      outcome (attachChildren p parent (children.filter fun child =>
        (g.valueAt child field).matchKey ignoreCase ==
          (p.parentKey g parent).matchKey ignoreCase)) g w := by
  rw [stitchParent_eq, outcome_get_bind]
  dsimp only
  rw [Value.isNone_matchKey, h]
  rfl

end Loading

end RowGraph
