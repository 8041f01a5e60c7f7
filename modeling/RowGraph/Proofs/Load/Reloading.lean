import RowGraph.Proofs.Load.Handed
import RowGraph.Sample

/-!
# References that are loaded again

A call loads its references in turn. In a turn rows are read and become nodes, and each parent is
handed those that match its key; what was attached to it before is replaced by what it is handed. A
parent without a key is handed nothing, and neither is one without a match for a reference to one:
these keep what they had, however old it is.

* `Turn.hands`: what a node is handed in a turn; `Turn.Fetched`: what is read for it.
* `overlaid_stitch`: the loop over the parents lays what they are handed over what they have.
* `exists_turns_of_runs`: the turns of a call that succeeds, and what is attached after them.
* **`references_of_loading`**: it is what was handed last, or else what was there; so a reference
  shows what has just been read exactly if something was handed or nothing was there.
-/

namespace RowGraph

variable {c : Catalog} {e : Entity}

/-! ## Turns -/

/-- What is attached for these children: all of them, or the first one if there is one. -/
def Cardinality.attachment : Cardinality → List NodeId → Option Attached
  | .many, children => some (.many children)
  | .one, children => children.head?.map .single

/-- A reference in its turn, with the nodes made of the rows that are read for it. -/
structure Turn (c : Catalog) (e : Entity) where
  plan : Plan c e
  children : List NodeId

namespace Turn

variable (turn : Turn c e) (ignoreCase : Bool) (g : Graph c)

/-- The reference has this name. -/
def Named (name : String) : Prop := Text.sameName turn.plan.reference.name name = true

instance (name : String) : Decidable (turn.Named name) :=
  inferInstanceAs (Decidable (_ = true))

/-- The children whose key is that of the parent; none if the parent has no key. -/
def matching (parent : NodeId) : List NodeId :=
  match turn.plan.childField, (turn.plan.parentKey g parent).matchKey ignoreCase with
  | .ok field, some key =>
    turn.children.filter fun child => (g.valueAt child field).matchKey ignoreCase == some key
  | _, _ => []

/-- What a parent is handed. -/
def handed (parent : NodeId) : Option Attached :=
  if (turn.plan.parentKey g parent).isNull then none
  else turn.plan.reference.cardinality.attachment (turn.matching ignoreCase g parent)

/-- What a node is handed under a name. -/
def hands (parents : List NodeId) (id : NodeId) (name : String) : Option Attached :=
  if id ∈ parents ∧ turn.Named name then turn.handed ignoreCase g id else none

/-- In this turn the database is asked for the children of the parents; the rows of all its answers
are read, and they are the children in `g'`, none of which is a node of `g`. -/
def Fetched {σ : Type} (s : Session c (StateM σ)) (parents : List NodeId) (g g' : Graph c)
    (w v : σ) : Prop :=
  ∃ (statements : List Statement) (answers : List (List Row)) (read : List (List (List Value))),
    s.referenceStatements turn.plan g parents = .ok statements ∧
    (statements.mapM fun st => s.database.query st.sql st.values).run w =
      (answers.map .ok, v) ∧
    answers.mapM (turn.plan.child.readRows s.settings.strictColumnMapping) = .ok read ∧
    turn.children.map g'.row? =
      read.flatten.map (fun values => some (turn.plan.reference.target, values)) ∧
    ∀ child ∈ turn.children, g.nodes.length ≤ child

end Turn

/-- The turns of a call follow each other on the database. -/
def Fetches {σ : Type} (s : Session c (StateM σ)) (parents : List NodeId) (g g' : Graph c) :
    List (Turn c e) → (w v : σ) → Prop
  | [], w, v => w = v
  | turn :: rest, w, v =>
    ∃ u, turn.Fetched s parents g g' w u ∧ Fetches s parents g g' rest u v

/-- What a node is handed last under a name. -/
def handedLast (ignoreCase : Bool) (g : Graph c) (parents : List NodeId) (turns : List (Turn c e))
    (id : NodeId) (name : String) : Option Attached :=
  turns.reverse.findSome? fun turn => turn.hands ignoreCase g parents id name

/-- A parent has, under the name of a loaded reference, nothing but children of this call that have
its key, and nothing at all if the reference is to one and there is no such child. -/
structure Current (ignoreCase : Bool) (g : Graph c) (turns : List (Turn c e)) (parent : NodeId)
    (name : String) : Prop where
  fresh : ∀ a, g.attached? parent name = some a → ∀ child ∈ a.children,
    ∃ turn ∈ turns, turn.Named name ∧ child ∈ turn.matching ignoreCase g parent
  unset : (∀ turn ∈ turns, turn.Named name → turn.plan.reference.cardinality = .one ∧
    turn.matching ignoreCase g parent = []) → g.attached? parent name = none

namespace Turn

variable {turn : Turn c e} {ignoreCase : Bool} {g x y : Graph c} {parents : List NodeId}

theorem matching_eq {field : Fin turn.plan.child.fields.length}
    (hfield : turn.plan.childField = .ok field) {parent : NodeId}
    (hkey : (turn.plan.parentKey g parent).isNull = false) :
    turn.matching ignoreCase g parent = turn.children.filter fun child =>
      (g.valueAt child field).matchKey ignoreCase ==
        (turn.plan.parentKey g parent).matchKey ignoreCase := by
  obtain ⟨key, hsome⟩ := Value.exists_matchKey hkey ignoreCase
  rw [matching, hfield, hsome]

theorem matching_of_isNull {parent : NodeId} (hkey : (turn.plan.parentKey g parent).isNull = true) :
    turn.matching ignoreCase g parent = [] := by
  have hnone : (turn.plan.parentKey g parent).matchKey ignoreCase = none := by
    rw [← Option.isNone_iff_eq_none, Value.isNone_matchKey, hkey]
  rw [matching, hnone]
  split
  · next h => cases h
  · rfl

/-- What is handed is a matter of the rows of the parent and the children. -/
theorem hands_congr {id : NodeId} (hid : x.row? id = y.row? id)
    (hchildren : ∀ child ∈ turn.children, x.row? child = y.row? child) (name : String) :
    turn.hands ignoreCase x parents id name = turn.hands ignoreCase y parents id name := by
  have hkey := Loading.parentKey_congr turn.plan hid
  have hmatching : turn.matching ignoreCase x id = turn.matching ignoreCase y id := by
    rw [matching, matching, hkey]
    split
    · refine List.filter_congr fun child hchild => ?_
      rw [Loading.valueAt_eq_row?, Loading.valueAt_eq_row?, hchildren child hchild]
    · rfl
  rw [hands, hands, handed, handed, hkey, hmatching]

theorem mem_matching_of_handed {parent : NodeId} {a : Attached}
    (h : turn.handed ignoreCase g parent = some a) :
    ∀ child ∈ a.children, child ∈ turn.matching ignoreCase g parent := by
  intro child hchild
  rw [handed] at h
  split at h
  · cases h
  · cases hcard : turn.plan.reference.cardinality with
    | many =>
      rw [hcard] at h
      cases h
      exact hchild
    | one =>
      rw [hcard] at h
      obtain ⟨first, hfirst, rfl⟩ := Option.map_eq_some_iff.mp h
      obtain rfl := List.mem_singleton.mp hchild
      exact List.mem_of_mem_head? hfirst

/-- Nothing is handed where there is no match for a reference to one, and only without a match. -/
theorem handed_of_matching_eq_nil {parent : NodeId}
    (hone : turn.plan.reference.cardinality = .one)
    (h : turn.matching ignoreCase g parent = []) : turn.handed ignoreCase g parent = none := by
  rw [handed, hone, h]
  split <;> rfl

theorem matching_of_handed_eq_none {parent : NodeId} (h : turn.handed ignoreCase g parent = none) :
    turn.matching ignoreCase g parent = [] := by
  rw [handed] at h
  split at h
  · next hnull => exact matching_of_isNull hnull
  · cases hcard : turn.plan.reference.cardinality with
    | many =>
      rw [hcard] at h
      cases h
    | one =>
      rw [hcard] at h
      exact List.head?_eq_none_iff.mp (Option.map_eq_none_iff.mp h)

theorem hands_eq_some_iff {id : NodeId} {name : String} {a : Attached} :
    turn.hands ignoreCase g parents id name = some a ↔
      id ∈ parents ∧ turn.Named name ∧ turn.handed ignoreCase g id = some a := by
  rw [hands]
  split
  · next h => exact ⟨fun ha => ⟨h.1, h.2, ha⟩, fun ha => ha.2.2⟩
  · next h => exact ⟨(nomatch ·), fun ha => absurd ⟨ha.1, ha.2.1⟩ h⟩

/-- Where the turn of a parent comes again it is handed the same. -/
theorem hands_cons (turn : Turn c e) (ignoreCase : Bool) (g : Graph c) (first : NodeId)
    (rest : List NodeId) (id : NodeId) (name : String) :
    turn.hands ignoreCase g (first :: rest) id name =
      (turn.hands ignoreCase g rest id name).or (turn.hands ignoreCase g [first] id name) := by
  simp only [hands, List.mem_cons, List.not_mem_nil, or_false, or_and_right]
  by_cases hfirst : id = first ∧ turn.Named name
  · rw [if_pos (.inl hfirst), if_pos hfirst]
    split
    · exact Option.or_self.symm
    · rfl
  · simp only [hfirst, false_or, if_false, Option.or_none]

section

variable {σ : Type} {s : Session c (StateM σ)} {w v : σ}

theorem Fetched.lt_length (h : turn.Fetched s parents g x w v) :
    ∀ child ∈ turn.children, child < x.nodes.length := by
  obtain ⟨_, _, read, -, -, -, hrows, -⟩ := h
  intro child hchild
  obtain ⟨_, -, hrow⟩ := List.mem_map.mp (hrows ▸ List.mem_map_of_mem hchild)
  rw [← Graph.isSome_row?, ← hrow]
  rfl

/-- The children stay what they are in a graph that has grown. -/
theorem Fetched.of_grown (h : turn.Fetched s parents g x w v) (hgrown : x.Grown y) :
    turn.Fetched s parents g y w v := by
  have hlt := h.lt_length
  obtain ⟨statements, answers, read, hmade, hanswered, hread, hrows, hnew⟩ := h
  refine ⟨statements, answers, read, hmade, hanswered, hread, ?_, hnew⟩
  rw [← hrows]
  exact List.map_congr_left fun child hchild => hgrown.rows child (hlt child hchild)

end

end Turn

/-! ## What lies over what was there -/

namespace Graph

theorem Grown.trans {g x y : Graph c} (h : g.Grown x) (k : x.Grown y) : g.Grown y :=
  ⟨Nat.le_trans h.size k.size, fun id hid =>
    (k.rows id (Nat.lt_of_lt_of_le hid h.size)).trans (h.rows id hid)⟩

/-- The rows of a graph are left, and what nodes are given lies over what they had. -/
structure Overlaid (given : NodeId → String → Option Attached) (g x : Graph c) : Prop where
  rows : x.row? = g.row?
  attached : ∀ id name, x.attached? id name = (given id name).or (g.attached? id name)

namespace Overlaid

variable {given others : NodeId → String → Option Attached} {g x y : Graph c}

theorem refl (g : Graph c) : Overlaid (fun _ _ => none) g g := ⟨rfl, fun _ _ => rfl⟩

theorem trans (h : Overlaid given g x) (k : Overlaid others x y) :
    Overlaid (fun id name => (others id name).or (given id name)) g y := by
  refine ⟨k.rows.trans h.rows, fun id name => ?_⟩
  rw [k.attached, h.attached, Option.or_assoc]

theorem congr (h : Overlaid given g x) (same : ∀ id name, given id name = others id name) :
    Overlaid others g x :=
  ⟨h.rows, fun id name => same id name ▸ h.attached id name⟩

end Overlaid

end Graph

namespace Loading

open Process RowGraph.Graph

variable {σ : Type} {g x : Graph c} {w v : σ}

theorem overlaid_attach {id : NodeId} {name : String} {a : Attached} (hid : id < g.nodes.length)
    (h : Runs (attach id name a : Loading c (StateM σ) Unit) g w () x v) :
    v = w ∧ Overlaid (fun other asked => if other = id ∧ Text.sameName name asked = true then some a
      else none) g x := by
  have hrows := row?_after_attach (σ := σ) id name a g w
  rw [after_of_runs h] at hrows
  obtain ⟨n, hn⟩ : ∃ n, g.node? id = some n := ⟨_, List.getElem?_eq_getElem hid⟩
  rw [attach, runs_get_bind, hn] at h
  dsimp only at h
  cases hm : n.attach name a with
  | error why =>
    rw [hm] at h
    exact (runs_throw h).elim
  | ok m =>
    rw [hm] at h
    cases h
    refine ⟨rfl, funext hrows, fun other asked => ?_⟩
    rw [Graph.attached?, Graph.attached?, node?_put hn]
    by_cases hother : other = id
    · subst hother
      rw [if_pos rfl, hn]
      by_cases hname : Text.sameName name asked = true
      · rw [if_pos ⟨rfl, hname⟩]
        exact (Node.attached?_attach hm asked).trans (if_pos hname)
      · rw [if_neg fun h => hname h.2]
        exact (Node.attached?_attach hm asked).trans (if_neg hname)
    · rw [if_neg (Ne.symm hother), if_neg fun h => hother h.1]
      rfl

theorem overlaid_attachChildren {p : Plan c e} {id : NodeId} {children : List NodeId}
    (hid : id < g.nodes.length)
    (h : Runs (attachChildren p id children : Loading c (StateM σ) Unit) g w () x v) :
    v = w ∧ Overlaid (fun other asked =>
      if other = id ∧ Text.sameName p.reference.name asked = true then
        p.reference.cardinality.attachment children else none) g x := by
  unfold attachChildren at h
  cases hcard : p.reference.cardinality with
  | many =>
    rw [hcard] at h
    exact overlaid_attach hid h
  | one =>
    rw [hcard] at h
    cases children with
    | nil =>
      cases h
      refine ⟨rfl, (Overlaid.refl g).congr fun _ _ => ?_⟩
      exact (ite_self none).symm
    | cons first rest => exact overlaid_attach hid h

/-- One parent: what it is handed lies over what it had. -/
theorem overlaid_stitchParent {turn : Turn c e} {ignoreCase : Bool}
    {field : Fin turn.plan.child.fields.length} (hfield : turn.plan.childField = .ok field)
    {parent : NodeId} (hparent : parent < g.nodes.length)
    (h : Runs (stitchParent ignoreCase turn.plan field turn.children parent :
      Loading c (StateM σ) Unit) g w () x v) :
    v = w ∧ Overlaid (turn.hands ignoreCase g [parent]) g x := by
  cases hnull : (turn.plan.parentKey g parent).isNull with
  | true =>
    rw [Runs, outcome_stitchParent_of_isNull hnull] at h
    cases h
    refine ⟨rfl, (Overlaid.refl g).congr fun id name => ?_⟩
    rw [Turn.hands]
    split
    · next hid => rw [List.mem_singleton.mp hid.1, Turn.handed, if_pos hnull]
    · rfl
  | false =>
    rw [Runs, outcome_stitchParent_of_isNull_eq_false hnull] at h
    obtain ⟨hv, hlaid⟩ := overlaid_attachChildren hparent h
    refine ⟨hv, hlaid.congr fun id name => ?_⟩
    simp only [Turn.hands, List.mem_singleton]
    refine ite_congr rfl (fun hid => ?_) fun _ => rfl
    rw [hid.1, Turn.handed, hnull, Turn.matching_eq hfield hnull]
    rfl

/-- **The loop over the parents**: what each of them is handed lies over what it had. -/
theorem overlaid_stitch {turn : Turn c e} {ignoreCase : Bool}
    {field : Fin turn.plan.child.fields.length} (hfield : turn.plan.childField = .ok field)
    {parents : List NodeId} (hparents : ∀ parent ∈ parents, parent < g.nodes.length)
    (h : Runs (parents.forM (stitchParent ignoreCase turn.plan field turn.children) :
      Loading c (StateM σ) Unit) g w () x v) :
    v = w ∧ Overlaid (turn.hands ignoreCase g parents) g x := by
  induction parents generalizing g w with
  | nil =>
    obtain ⟨-, rfl, rfl⟩ := runs_pure.mp h
    exact ⟨rfl, (Overlaid.refl g).congr fun _ _ => (if_neg fun h => List.not_mem_nil h.1).symm⟩
  | cons first rest ih =>
    obtain ⟨y, u, hturn, hrest⟩ := runs_forM_cons.mp h
    obtain ⟨rfl, hfirst⟩ := overlaid_stitchParent hfield (hparents first List.mem_cons_self) hturn
    have hlt : ∀ parent ∈ rest, parent < y.nodes.length := fun parent hparent => by
      rw [← isSome_row?, hfirst.rows, isSome_row?]
      exact hparents parent (List.mem_cons_of_mem _ hparent)
    obtain ⟨rfl, hothers⟩ := ih hlt hrest
    refine ⟨rfl, (hfirst.trans hothers).congr fun id name => ?_⟩
    rw [Turn.hands_congr (congrFun hfirst.rows id) fun child _ => congrFun hfirst.rows child]
    exact (turn.hands_cons ignoreCase g first rest id name).symm

/-! ## What is read in a turn -/

theorem runs_query_iff {s : Session c (StateM σ)} {statement : Statement} {rows : List Row} :
    Runs (query s statement) g w rows x v ↔
      (s.database.query statement.sql statement.values).run w = (.ok rows, v) ∧ x = g := by
  rw [Runs, query, outcome_bind, outcome_lift]
  rcases (s.database.query statement.sql statement.values).run w with ⟨answer, u⟩
  cases answer with
  | error why =>
    constructor
    · intro h
      cases h
    · rintro ⟨h, -⟩
      cases h
  | ok found =>
    constructor
    · intro h
      cases h
      exact ⟨rfl, rfl⟩
    · rintro ⟨h, rfl⟩
      cases h
      rfl

/-- The values that are read of rows are as many as the fields. -/
theorem length_of_readRows {strict : Bool} {rows : List Row} {read : List (List Value)}
    (h : e.readRows strict rows = .ok read) : ∀ values ∈ read, values.length = e.fields.length := by
  cases rows with
  | nil =>
    cases h
    exact fun _ hvalues => absurd hvalues List.not_mem_nil
  | cons r rest =>
    rw [Entity.readRows] at h
    cases hplan : e.columnPlan strict r.columns with
    | error why =>
      rw [hplan] at h
      cases h
    | ok plan =>
      rw [hplan] at h
      cases h
      intro values hvalues
      obtain ⟨_, -, rfl⟩ := List.mem_map.mp hvalues
      rw [applyPlan, List.length_map, Entity.length_columnPlan hplan]

/-- Nodes made of rows that have been read are these rows. -/
theorem map_row?_ofValues {strict : Bool} {type : EntityType} {answers : List (List Row)}
    {read : List (List (List Value))}
    (h : answers.mapM ((c.entity type).readRows strict) = .ok read) (g : Graph c) :
    (List.range' g.nodes.length read.flatten.length).map
        (g.extend (read.flatten.map (Node.ofValues type))).row? =
      read.flatten.map fun values => some (type, values) := by
  have hlength : ∀ values ∈ read.flatten, values.length = (c.entity type).fields.length := by
    intro values hvalues
    obtain ⟨part, hpart, hmem⟩ := List.mem_flatten.mp hvalues
    obtain ⟨rows, -, hrows⟩ := List.mem_map.mp (mapM_eq_ok_iff.mp h ▸ List.mem_map_of_mem hpart)
    exact length_of_readRows hrows values hmem
  have hrows := map_row?_extend g (read.flatten.map (Node.ofValues type))
  rw [List.length_map] at hrows
  rw [hrows, List.map_map]
  refine List.map_congr_left fun values hvalues => ?_
  simp [Node.ofValues, List.take_of_length_le, hlength values hvalues]

/-- The answers to statements become nodes behind those that are there. -/
theorem runs_materialize_answers {s : Session c (StateM σ)} {type : EntityType}
    {statements : List Statement} {children : List (List NodeId)}
    (h : Runs (statements.mapM fun statement => do
      materialize s type (← query s statement)) g w children x v) :
    ∃ (answers : List (List Row)) (read : List (List (List Value))),
      (statements.mapM fun st => s.database.query st.sql st.values).run w =
        (answers.map .ok, v) ∧
      answers.mapM ((c.entity type).readRows s.settings.strictColumnMapping) = .ok read ∧
      x = g.extend (read.flatten.map (Node.ofValues type)) ∧
      children.flatten = List.range' g.nodes.length read.flatten.length := by
  induction statements generalizing g w children with
  | nil =>
    obtain ⟨rfl, rfl, rfl⟩ := runs_pure.mp h
    exact ⟨[], [], rfl, rfl, (Graph.extend_nil g).symm, rfl⟩
  | cons statement rest ih =>
    obtain ⟨ids, others, y, u, rfl, hone, hrest⟩ := runs_mapM_cons.mp h
    obtain ⟨rows, y', u', hquery, hmade⟩ := runs_bind.mp hone
    obtain ⟨hanswer, rfl⟩ := runs_query_iff.mp hquery
    rw [materialize] at hmade
    cases hvalues : (c.entity type).readRows s.settings.strictColumnMapping rows with
    | error why =>
      rw [hvalues] at hmade
      exact (runs_throw hmade).elim
    | ok values =>
      rw [hvalues, Runs, outcome_mapM_add] at hmade
      cases hmade
      obtain ⟨answers, read, hanswers, hread, rfl, hids⟩ := ih hrest
      refine ⟨rows :: answers, values :: read, ?_, ?_, ?_, ?_⟩
      · rw [List.mapM_cons, StateT.run_bind, hanswer]
        change (StateT.run (List.mapM _ rest >>= _) u) = _
        rw [StateT.run_bind, hanswers]
        rfl
      · exact mapM_cons_eq_ok.mpr ⟨values, read, hvalues, hread, rfl⟩
      · rw [Graph.extend_extend, List.flatten_cons, List.map_append]
      · rw [List.flatten_cons, hids, List.flatten_cons, List.length_append, ← List.range'_append]
        simp

/-! ## One reference and all of them -/

variable {s : Session c (StateM σ)} {parents : List NodeId}

theorem referenceStatements_congr {p : Plan c e} (hgrown : g.Grown x)
    (hparents : ∀ parent ∈ parents, parent < g.nodes.length) :
    s.referenceStatements p x parents = s.referenceStatements p g parents := by
  have hkeys : parents.map (p.parentKey x) = parents.map (p.parentKey g) :=
    List.map_congr_left fun parent hparent =>
      parentKey_congr p (hgrown.rows parent (hparents parent hparent))
  rw [Session.referenceStatements, hkeys, ← Session.referenceStatements]

/-- **One reference**: rows are read, and what is handed lies over what was there. -/
theorem exists_turn_of_runs {p : Plan c e} {y : Graph c} (hx : g.Grown x)
    (hparents : ∀ parent ∈ parents, parent < g.nodes.length)
    (h : Runs (loadReference s parents p) x w () y v) :
    ∃ turn : Turn c e, turn.plan = p ∧ turn.Fetched s parents g y w v ∧ x.Grown y ∧
      ∀ id < x.nodes.length, ∀ name, y.attached? id name =
        (turn.hands s.settings.caseInsensitive y parents id name).or (x.attached? id name) := by
  rw [loadReference, runs_get_bind] at h
  cases hmade : s.referenceStatements p x parents with
  | error why =>
    rw [hmade] at h
    exact (runs_throw h).elim
  | ok statements =>
    rw [hmade] at h
    obtain ⟨children, z, u, hread, hstitch⟩ := runs_bind.mp h
    obtain ⟨answers, read, hanswers, hvalues, rfl, hids⟩ := runs_materialize_answers hread
    rw [stitch] at hstitch
    cases hfield : p.childField with
    | error why =>
      rw [hfield] at hstitch
      exact (runs_throw hstitch).elim
    | ok field =>
      rw [hfield] at hstitch
      obtain ⟨turn, hturn⟩ : ∃ turn : Turn c e, turn = ⟨p, children.flatten⟩ := ⟨_, rfl⟩
      obtain rfl : turn.plan = p := by rw [hturn]
      have hchildren : turn.children = children.flatten := by rw [hturn]
      have hgrown := (Grown.refl x).extend
        (read.flatten.map (Node.ofValues turn.plan.reference.target))
      have hlt : ∀ parent ∈ parents, parent < (x.extend (read.flatten.map
          (Node.ofValues turn.plan.reference.target))).nodes.length := fun parent hparent =>
        Nat.lt_of_lt_of_le (hparents parent hparent) (Nat.le_trans hx.size hgrown.size)
      obtain ⟨rfl, hlaid⟩ := overlaid_stitch hfield hlt (hchildren ▸ hstitch)
      have hy := hgrown.of_row?_eq hlaid.rows
      refine ⟨turn, rfl, ⟨statements, answers, read, ?_, hanswers, hvalues, ?_, ?_⟩, hy, ?_⟩
      · rw [← referenceStatements_congr hx hparents, hmade]
      · rw [hlaid.rows, hchildren, hids]
        exact map_row?_ofValues hvalues x
      · intro child hchild
        rw [hchildren, hids, List.mem_range'_1] at hchild
        exact Nat.le_trans hx.size hchild.1
      · intro id hid name
        rw [hlaid.attached, Turn.hands_congr (congrFun hlaid.rows id)
          fun child _ => congrFun hlaid.rows child, Graph.attached?, Graph.attached?,
          node?_extend hid]

/-- **All references**: the turns follow each other, and what is handed last lies over what was
there. -/
theorem exists_turns_of_runs {plans : List (Plan c e)} {y : Graph c} (hx : g.Grown x)
    (hparents : ∀ parent ∈ parents, parent < g.nodes.length)
    (h : Runs (plans.forM (loadReference s parents)) x w () y v) :
    ∃ turns : List (Turn c e), turns.map Turn.plan = plans ∧ Fetches s parents g y turns w v ∧
      x.Grown y ∧ ∀ id < x.nodes.length, ∀ name, y.attached? id name =
        (handedLast s.settings.caseInsensitive y parents turns id name).or
          (x.attached? id name) := by
  induction plans generalizing x w with
  | nil =>
    obtain ⟨-, rfl, rfl⟩ := runs_pure.mp h
    exact ⟨[], rfl, rfl, .refl x, fun _ _ _ => rfl⟩
  | cons p rest ih =>
    obtain ⟨z, u, hfirst, hrest⟩ := runs_forM_cons.mp h
    obtain ⟨turn, rfl, hfetched, hxz, hattached⟩ := exists_turn_of_runs hx hparents hfirst
    obtain ⟨turns, rfl, hfetches, hzy, hothers⟩ := ih (hx.trans hxz) hrest
    refine ⟨turn :: turns, rfl, ⟨u, hfetched.of_grown hzy, hfetches⟩, hxz.trans hzy,
      fun id hid name => ?_⟩
    have hidz : id < z.nodes.length := Nat.lt_of_lt_of_le hid hxz.size
    rw [hothers id hidz name, hattached id hid name, handedLast, handedLast, List.reverse_cons,
      List.findSome?_append, Option.or_assoc, Turn.hands_congr (hzy.rows id hidz).symm
        fun child hchild => (hzy.rows child (hfetched.lt_length child hchild)).symm]
    cases hands : turn.hands s.settings.caseInsensitive y parents id name <;>
      simp [List.findSome?, hands]

end Loading

/-! ## What a reference shows -/

section Shows

variable {σ : Type} {s : Session c (StateM σ)} {ignoreCase : Bool} {g g' : Graph c}
  {parents : List NodeId} {turns : List (Turn c e)} {parent : NodeId} {name : String} {w v : σ}

theorem Turn.mem_children_of_mem_matching {turn : Turn c e} {child : NodeId}
    (h : child ∈ turn.matching ignoreCase g parent) : child ∈ turn.children := by
  rw [matching] at h
  split at h
  · exact (List.mem_filter.mp h).1
  · cases h

/-- The children of all turns are new nodes. -/
theorem Fetches.le_of_mem_children (h : Fetches s parents g g' turns w v) :
    ∀ turn ∈ turns, ∀ child ∈ turn.children, g.nodes.length ≤ child := by
  induction turns generalizing w with
  | nil => exact fun _ hturn => absurd hturn List.not_mem_nil
  | cons first rest ih =>
    obtain ⟨_, ⟨_, _, _, -, -, -, -, hnew⟩, hrest⟩ := h
    exact List.forall_mem_cons.mpr ⟨hnew, ih hrest⟩

/-- A reference under which a node has one that was there before does not show what has just been
read. -/
theorem not_current_of_lt (h : Fetches s parents g g' turns w v) {a : Attached}
    (ha : g'.attached? parent name = some a) {child : NodeId} (hchild : child ∈ a.children)
    (hlt : child < g.nodes.length) : ¬ Current ignoreCase g' turns parent name := by
  intro hcurrent
  obtain ⟨turn, hturn, -, hmatch⟩ := hcurrent.fresh a ha child hchild
  exact Nat.not_lt.mpr (h.le_of_mem_children turn hturn child
    (Turn.mem_children_of_mem_matching hmatch)) hlt

/-- Something is handed to a parent that has a key, under a reference to several or with a match. -/
def Turn.Attaches (turn : Turn c e) (ignoreCase : Bool) (g : Graph c) (parent : NodeId) : Prop :=
  (turn.plan.parentKey g parent).isNull = false ∧
    (turn.plan.reference.cardinality = .many ∨ turn.matching ignoreCase g parent ≠ [])

theorem Turn.handed_eq_none_iff {turn : Turn c e} :
    turn.handed ignoreCase g parent = none ↔ ¬ turn.Attaches ignoreCase g parent := by
  rw [handed, Attaches]
  cases (turn.plan.parentKey g parent).isNull with
  | true => simp
  | false =>
    cases turn.plan.reference.cardinality with
    | many => simp [Cardinality.attachment]
    | one => simp [Cardinality.attachment]

/-- Nothing that is not empty is attached, and nothing at all if all references of the name are to
one. -/
def Vacant (g : Graph c) (turns : List (Turn c e)) (parent : NodeId) (name : String) : Prop :=
  (∀ a, g.attached? parent name = some a → a.children = []) ∧
    ((∀ turn ∈ turns, turn.Named name → turn.plan.reference.cardinality = .one) →
      g.attached? parent name = none)

/-- A reference shows what it is handed. -/
theorem current_of_handed {a : Attached}
    (hlast : handedLast ignoreCase g' parents turns parent name = some a)
    (h : g'.attached? parent name = some a) :
    (∃ turn ∈ turns, turn.Named name ∧ turn.Attaches ignoreCase g' parent) ∧
      Current ignoreCase g' turns parent name := by
  obtain ⟨turn, hturn, hhands⟩ := List.exists_of_findSome?_eq_some hlast
  rw [List.mem_reverse] at hturn
  obtain ⟨-, hnamed, hhanded⟩ := Turn.hands_eq_some_iff.mp hhands
  have hattaches : turn.Attaches ignoreCase g' parent := by
    by_contra hnot
    rw [Turn.handed_eq_none_iff.mpr hnot] at hhanded
    cases hhanded
  refine ⟨⟨turn, hturn, hnamed, hattaches⟩, fun b hb child hchild => ?_, fun hnone => ?_⟩
  · obtain rfl : a = b := Option.some.inj (h.symm.trans hb)
    exact ⟨turn, hturn, hnamed, Turn.mem_matching_of_handed hhanded child hchild⟩
  · obtain ⟨hone, hnil⟩ := hnone turn hturn hnamed
    rw [Turn.handed_of_matching_eq_nil hone hnil] at hhanded
    cases hhanded

/-- A reference that is handed nothing shows what has just been read if nothing was there. -/
theorem current_iff_vacant (hparent : parent ∈ parents)
    (hlast : handedLast ignoreCase g' parents turns parent name = none)
    (h : g'.attached? parent name = g.attached? parent name) :
    (¬ ∃ turn ∈ turns, turn.Named name ∧ turn.Attaches ignoreCase g' parent) ∧
      (Current ignoreCase g' turns parent name ↔ Vacant g turns parent name) := by
  have hnone : ∀ turn ∈ turns, turn.Named name → turn.handed ignoreCase g' parent = none := by
    intro turn hturn hnamed
    have hhands := List.findSome?_eq_none_iff.mp hlast turn (List.mem_reverse.mpr hturn)
    rwa [Turn.hands, if_pos ⟨hparent, hnamed⟩] at hhands
  have hnil : ∀ turn ∈ turns, turn.Named name → turn.matching ignoreCase g' parent = [] :=
    fun turn hturn hnamed => Turn.matching_of_handed_eq_none (hnone turn hturn hnamed)
  refine ⟨?_, fun hcurrent => ⟨?_, ?_⟩, fun hvacant => ⟨?_, ?_⟩⟩
  · rintro ⟨turn, hturn, hnamed, hattach⟩
    exact Turn.handed_eq_none_iff.mp (hnone turn hturn hnamed) hattach
  · refine fun a ha => List.eq_nil_iff_forall_not_mem.mpr fun child hchild => ?_
    obtain ⟨turn, hturn, hnamed, hmatch⟩ := hcurrent.fresh a (h.trans ha) child hchild
    rw [hnil turn hturn hnamed] at hmatch
    cases hmatch
  · exact fun hone => h.symm.trans (hcurrent.unset fun turn hturn hnamed =>
      ⟨hone turn hturn hnamed, hnil turn hturn hnamed⟩)
  · intro a ha child hchild
    rw [hvacant.1 a (h.symm.trans ha)] at hchild
    cases hchild
  · exact fun hone => h.trans (hvacant.2 fun turn hturn hnamed => (hone turn hturn hnamed).1)

/-- Where what is handed last lies over what was there, a reference shows what has just been read
exactly if something is handed or nothing was there. -/
theorem current_iff (hparent : parent ∈ parents)
    (h : g'.attached? parent name =
      (handedLast ignoreCase g' parents turns parent name).or (g.attached? parent name)) :
    Current ignoreCase g' turns parent name ↔
      (∃ turn ∈ turns, turn.Named name ∧ turn.Attaches ignoreCase g' parent) ∨
        Vacant g turns parent name := by
  cases hlast : handedLast ignoreCase g' parents turns parent name with
  | some a =>
    rw [hlast, Option.some_or] at h
    obtain ⟨hhanded, hcurrent⟩ := current_of_handed hlast h
    exact iff_of_true hcurrent (.inl hhanded)
  | none =>
    rw [hlast, Option.none_or] at h
    obtain ⟨hhanded, hiff⟩ := current_iff_vacant hparent hlast h
    rw [or_iff_right hhanded, hiff]

end Shows

namespace Session

variable {σ : Type}

/-- **What references hold after they are loaded is what was handed last, or else what was there.**
Every parent with a key is handed the children just read that have its key, if the reference is to
several or there is such a child; the others keep what they had, whether it has just been read or
not. So a reference shows what has just been read exactly if it is handed something or had nothing
before. -/
theorem references_of_loading (s : Session c (StateM σ)) {g g' : Graph c} {parents : List NodeId}
    {selection : Include} {first : NodeId} {n : Node c} (hfirst : parents.head? = some first)
    (hn : g.node? first = some n) (hparents : ∀ parent ∈ parents, parent < g.nodes.length) {w v : σ}
    (hok : (s.loadReferences g parents selection).run w = ((.ok (), g'), v)) :
    ∃ turns : List (Turn c n.entity),
      n.entity.plans c selection = .ok (turns.map Turn.plan) ∧ Fetches s parents g g' turns w v ∧
      g.Grown g' ∧
      (∀ id < g.nodes.length, ∀ name, g'.attached? id name =
        (handedLast s.settings.caseInsensitive g' parents turns id name).or
          (g.attached? id name)) ∧
      ∀ parent ∈ parents, ∀ name, Current s.settings.caseInsensitive g' turns parent name ↔
        (∃ turn ∈ turns, turn.Named name ∧ turn.Attaches s.settings.caseInsensitive g' parent) ∨
          Vacant g turns parent name := by
  have hruns : Process.Runs (Loading.loadReferences s parents selection) g w () g' v := hok
  cases hplans : n.entity.plans c selection with
  | error why =>
    rw [Loading.loadReferences, hfirst] at hruns
    dsimp only at hruns
    rw [Process.runs_get_bind, hn] at hruns
    dsimp only at hruns
    rw [hplans] at hruns
    exact (Process.runs_throw hruns).elim
  | ok plans =>
    rw [Process.Runs, Loading.outcome_loadReferences hfirst hn hplans] at hruns
    obtain ⟨turns, rfl, hfetches, hgrown, hattached⟩ :=
      Loading.exists_turns_of_runs (.refl g) hparents hruns
    exact ⟨turns, rfl, hfetches, hgrown, hattached, fun parent hparent name =>
      current_iff hparent (hattached parent (hparents parent hparent) name)⟩

end Session

namespace Sample

/-- A database without any row. -/
def emptyDatabase : Database (StateM Unit) where
  query _ _ := pure (.ok [])
  execute _ _ := pure (.ok 0)
  scalar _ _ := pure (.ok none)

/-- A session with that database. -/
def emptySession : Session catalog (StateM Unit) := ⟨emptyDatabase, .sqlite, ⟨false, false, 2⟩, []⟩

/-- A team, whose leader has this key in its row, with a user attached as leader and as member. -/
def ledTeam (leaderId : Value) : Graph catalog :=
  ⟨[{ Node.ofValues (type "Team") [.int 1, .text "Red", leaderId] with
      references := [("TeamLeader", .single 1), ("Users", .many [1])] },
    .ofValues (type "TeamUser") [.int 7, .text "Ann", .int 1, .bool false]]⟩

/-- A team whose leader is not found keeps the one that has been attached to it. -/
theorem not_current_ledTeam :
    let loaded := (emptySession.loadReferences (ledTeam (.int 9)) [0] .all).run ()
    loaded.1.1 = .ok () ∧ loaded.1.2.attached? 0 "TeamLeader" = some (.single 1) ∧
      ∀ turns : List (Turn catalog (catalog.entity (type "Team"))),
        Fetches emptySession [0] (ledTeam (.int 9)) loaded.1.2 turns () () →
          ¬ Current false loaded.1.2 turns 0 "TeamLeader" := by
  intro loaded
  have hok : loaded.1.1 = .ok () := by decide +kernel
  have hleader : loaded.1.2.attached? 0 "TeamLeader" = some (.single 1) := by decide +kernel
  have hlt : 1 < (ledTeam (.int 9)).nodes.length := Nat.lt_add_one 1
  exact ⟨hok, hleader, fun _ hfetches => not_current_of_lt hfetches hleader List.mem_cons_self hlt⟩

/-- The members of a team. -/
def usersPlan : Plan catalog (catalog.entity (type "Team")) :=
  ⟨⟨"Users", type "TeamUser", .many, none, none⟩, .childHoldsKey ⟨2, by decide⟩⟩

/-- Loading all references of a team hands its members to it. -/
theorem exists_attaches_users {g : Graph catalog}
    {turns : List (Turn catalog (catalog.entity (type "Team")))}
    (hplans : (catalog.entity (type "Team")).plans catalog .all = .ok (turns.map Turn.plan))
    (hkey : (usersPlan.parentKey g 0).isNull = false) :
    ∃ turn ∈ turns, turn.Named "Users" ∧ turn.Attaches false g 0 := by
  have husers : usersPlan ∈ turns.map Turn.plan := by
    rw [← Except.ok.inj hplans]
    exact List.mem_cons_self
  obtain ⟨turn, hturn, hplan⟩ := List.mem_map.mp husers
  refine ⟨turn, hturn, ?_, hplan.symm ▸ hkey, .inl ?_⟩
  · rw [Turn.Named, hplan]
    rfl
  · rw [hplan]
    rfl

/-- A team whose leader is not found keeps the one that has been attached to it, while its members
are those that are found: none. -/
theorem current_ledTeam_users :
    let loaded := (emptySession.loadReferences (ledTeam (.int 9)) [0] .all).run ()
    loaded.1.1 = .ok () ∧ ∃ turns : List (Turn catalog (catalog.entity (type "Team"))),
      (catalog.entity (type "Team")).plans catalog .all = .ok (turns.map Turn.plan) ∧
      loaded.1.2.attached? 0 "Users" = some (.many []) ∧
      Current false loaded.1.2 turns 0 "Users" ∧
      loaded.1.2.attached? 0 "TeamLeader" = some (.single 1) ∧
      ¬ Current false loaded.1.2 turns 0 "TeamLeader" := by
  intro loaded
  have hok : loaded.1.1 = .ok () := by decide +kernel
  have husers : loaded.1.2.attached? 0 "Users" = some (.many []) := by decide +kernel
  have hleader : loaded.1.2.attached? 0 "TeamLeader" = some (.single 1) := by decide +kernel
  have hkey : (usersPlan.parentKey loaded.1.2 0).isNull = false := by decide +kernel
  have hfirst : [0].head? = some 0 := rfl
  have hteam : (ledTeam (.int 9)).node? 0 = (ledTeam (.int 9)).nodes.head? := rfl
  have hrun : (emptySession.loadReferences (ledTeam (.int 9)) [0] .all).run () =
      ((.ok (), loaded.1.2), ()) := Prod.ext (Prod.ext hok rfl) rfl
  obtain ⟨turns, hplans, hfetches, -, -, hcurrent⟩ :=
    emptySession.references_of_loading hfirst hteam (by decide) hrun
  have hattaches := exists_attaches_users hplans hkey
  exact ⟨hok, turns, hplans, husers, (hcurrent 0 List.mem_cons_self "Users").mpr (.inl hattaches),
    hleader, not_current_of_lt hfetches hleader List.mem_cons_self (by decide)⟩

end Sample

end RowGraph
