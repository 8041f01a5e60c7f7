import RowGraph.Proofs.Load.NullKeys
import RowGraph.Proofs.Load.Served
import RowGraph.Sample

/-!
# Loading as if one by one

References are loaded with one query for each batch of distinct keys, and the rows are handed out to
the parents afterwards. A caller cannot tell this from loading each parent by a query of its own:
no child is lost, doubled or moved, whatever the size of the batches and whether keys match in any
case.

* `loadReferenceEach`: the plain way, one query for each parent that has a key.
* `agree_loadReference`: both ways end alike, and in graphs that show the same.
* `loadReferences_as_each`: so do runs over all references that are asked for.
-/

namespace RowGraph

variable {c : Catalog} {e : Entity}

namespace Loading

section Each

variable {m : Type → Type} [Monad m]

/-- One reference of one parent filled by a query for its key. -/
def loadFor (s : Session c m) (p : Plan c e) (field : Fin p.child.fields.length)
    (parent : NodeId) : Loading c m Unit := do
  let key := p.parentKey (← get) parent
  if key.isNull then return
  match s.batchStatement p (p.child.fieldAt field) [key] with
  | .error why => throw (.query why)
  | .ok statement =>
    let children ← materialize s p.reference.target (← query s statement)
    attachChildren p parent children

/-- One reference of these parents filled, parent by parent. -/
def loadReferenceEach (s : Session c m) (parents : List NodeId) (p : Plan c e) :
    Loading c m Unit := do
  match p.childField with
  | .ok field => parents.forM (loadFor s p field)
  | .error why => throw why

/-- The references of these parents filled, parent by parent. -/
def loadReferencesEach (s : Session c m) (parents : List NodeId) (selection : Include) :
    Loading c m Unit := do
  let some first := parents.head? | return
  let some n := (← get).node? first | return
  match n.entity.plans c selection with
  | .ok plans => plans.forM (loadReferenceEach s parents)
  | .error why => throw why

end Each

open Process

variable {σ : Type}

/-! ## One reference -/

section Reference

variable {s : Session c (StateM σ)} {p : Plan c e} {field : Fin p.child.fields.length}

theorem outcome_loadFor_of_isNull {parent : NodeId} {g : Graph c}
    (h : (p.parentKey g parent).isNull = true) (w : σ) :
    outcome (loadFor s p field parent) g w = ((.ok (), g), w) := by
  rw [loadFor, outcome_get_bind]
  dsimp only
  rw [if_pos h]
  rfl

/-- A parent that has a key gets the children that the query for it makes. -/
theorem outcome_loadFor_of_runs {parent : NodeId} {g g' : Graph c} {key : Value}
    (hkey : p.parentKey g parent = key) (h : key.isNull = false) {statement : Statement}
    (hmade : s.batchStatement p (p.child.fieldAt field) [key] = .ok statement)
    {children : List NodeId} {w w' : σ}
    (hruns : Runs (do materialize s p.reference.target (← query s statement)) g w children g' w') :
    outcome (loadFor s p field parent) g w =
      outcome (attachChildren p parent children) g' w' := by
  rw [loadFor, outcome_get_bind]
  dsimp only
  rw [hkey, if_neg (by rw [h]; exact Bool.false_ne_true), hmade]
  dsimp only
  rw [← bind_assoc]
  exact outcome_bind_of_runs hruns _

/-- Where the statement for a key cannot be made, the parent that has it stops the loading. -/
theorem outcome_loadFor_of_error {parent : NodeId} {g : Graph c}
    (h : (p.parentKey g parent).isNull = false) {why : QueryError}
    (hmade : s.batchStatement p (p.child.fieldAt field) [p.parentKey g parent] = .error why)
    (w : σ) : outcome (loadFor s p field parent) g w = ((.error (.query why), g), w) := by
  rw [loadFor, outcome_get_bind]
  dsimp only
  rw [if_neg (by rw [h]; exact Bool.false_ne_true), hmade]
  rfl

section Answered

variable {table : Table p.child} {allowed : Row → Bool} (h : s.ServesFrom p field table allowed)
include h

/-- Among the rows of all batches a parent finds those that a query for its key yields. -/
theorem map_row?_matching_of_answers {a x : Graph c} {parents : List NodeId} {key : Value}
    (hkey : key ∈ parents.map (p.parentKey a)) (hnull : key.isNull = false)
    {all : List Row}
    (hall : all = (batches s.settings.inBatchSize (s.keysOf p a parents)).flatMap h.rows)
    (hx : x.row? = (a.extend (all.map (Row.node p.reference.target))).row?) :
    ((List.range' a.nodes.length all.length).filter fun child =>
        (x.valueAt child field).matchKey s.settings.caseInsensitive ==
          key.matchKey s.settings.caseInsensitive).map x.row? =
      ((h.rows [key]).map (Row.node p.reference.target)).map
        fun n : Node c => some (n.type, n.values) := by
  obtain ⟨k, hk⟩ := Value.exists_matchKey hnull s.settings.caseInsensitive
  have hasked := (matchKey_askedFor s.settings.caseInsensitive (parents.map (p.parentKey a))
    key).trans hk
  rw [map_row?_matching hkey hk hall hx, Session.ServesFrom.rows,
    table.selected_congr _ _ _ h.textual hasked hk]

/-- One parent: it gets from the rows of all batches what it gets from a query for its key. -/
theorem agree_stitchParent {make : List Value → Statement}
    (hmake : ∀ keys, s.batchStatement p (p.child.fieldAt field) keys = .ok (make keys))
    {size : Nat} {a : Graph c} (hsize : size ≤ a.nodes.length) {parents : List NodeId}
    {parent : NodeId} (hparent : parent ∈ parents) (hlt : parent < size) {all : List Row}
    (hall : all = (batches s.settings.inBatchSize (s.keysOf p a parents)).flatMap h.rows) :
    Agree (fun x y => Similar size x y ∧
        x.row? = (a.extend (all.map (Row.node p.reference.target))).row?)
      (stitchParent s.settings.caseInsensitive p field
        (List.range' a.nodes.length all.length) parent : Loading c (StateM σ) Unit)
      (loadFor s p field parent) := by
  intro x y w v hxy
  obtain ⟨hsimilar, hx⟩ := hxy
  have hkeyx : p.parentKey x parent = p.parentKey a parent := by
    refine parentKey_congr p ?_
    rw [hx, Graph.row?_extend (Nat.lt_of_lt_of_le hlt hsize)]
  have hkeyy : p.parentKey y parent = p.parentKey a parent :=
    (parentKey_congr p (hsimilar.row? hlt)).symm.trans hkeyx
  cases hnull : (p.parentKey a parent).isNull with
  | true =>
    rw [← hkeyx] at hnull
    rw [after, after, outcome_stitchParent_of_isNull hnull, outcome_loadFor_of_isNull
      (hkeyy.trans hkeyx.symm ▸ hnull)]
    exact ⟨rfl, hsimilar, hx⟩
  | false =>
    obtain ⟨v', hruns⟩ := runs_children h.answersWith
      (List.cons_ne_nil (p.parentKey a parent) []) (hmake _) y v
    rw [after, after, outcome_stitchParent_of_isNull_eq_false (hkeyx.symm ▸ hnull),
      outcome_loadFor_of_runs hkeyy hnull (hmake _) hruns, hkeyx]
    have hright := hsimilar.extend_right
      (references_nodes p.reference.target (h.rows [p.parentKey a parent]))
    have hnew := map_row?_extend y ((h.rows [p.parentKey a parent]).map
      (Row.node p.reference.target))
    rw [List.length_map] at hnew
    have hrows := (map_row?_matching_of_answers h (List.mem_map_of_mem hparent) hnull hall
      hx).trans hnew.symm
    refine ((similar_attachChildren hright p hlt hrows ?_ ?_ w v').imp_right fun hend =>
      ⟨hend, funext fun id => ?_⟩)
    · intro child hchild
      have hmem := List.mem_range'_1.mp (List.mem_filter.mp hchild).1
      rw [← Graph.isSome_row?, hx, Graph.isSome_row?, Graph.length_nodes_extend, List.length_map]
      exact hmem.2
    · intro child hchild
      rw [Graph.length_nodes_extend, List.length_map]
      exact (List.mem_range'_1.mp hchild).2
    · rw [← hx]
      exact row?_after_attachChildren p parent _ x w id

end Answered

theorem outcome_loadReferenceEach_of_null (hfield : p.childField = .ok field)
    {parents : List NodeId} {g : Graph c}
    (h : ∀ parent ∈ parents, (p.parentKey g parent).isNull = true) (w : σ) :
    outcome (loadReferenceEach s parents p) g w = ((.ok (), g), w) := by
  rw [loadReferenceEach, hfield]
  exact outcome_forM_of_return fun parent hparent => outcome_loadFor_of_isNull (h parent hparent) w

/-- Where no statement can be made, the first parent that has a key stops the loading. -/
theorem outcome_loadReferenceEach_of_error (hfield : p.childField = .ok field) {why : QueryError}
    (hmade : ∀ keys, s.batchStatement p (p.child.fieldAt field) keys = .error why)
    {parents : List NodeId} {g : Graph c}
    (h : ∃ parent ∈ parents, (p.parentKey g parent).isNull = false) (w : σ) :
    outcome (loadReferenceEach s parents p) g w = ((.error (.query why), g), w) := by
  rw [loadReferenceEach, hfield]
  change outcome (parents.forM (loadFor s p field)) g w = _
  induction parents with
  | nil => simp at h
  | cons parent rest ih =>
    rw [List.forM]
    cases hnull : (p.parentKey g parent).isNull with
    | true =>
      rw [outcome_bind_of_runs (outcome_loadFor_of_isNull hnull w)]
      obtain ⟨other, hother, hkey⟩ := h
      rcases List.mem_cons.mp hother with rfl | hother
      · rw [hnull] at hkey
        cases hkey
      · exact ih ⟨other, hother, hkey⟩
    | false => rw [outcome_bind, outcome_loadFor_of_error hnull (hmade _)]

/-- **A reference loaded in batches shows as one that is loaded parent by parent.** -/
theorem agree_loadReference (hserves : s.Serves p) {size : Nat} {parents : List NodeId}
    (hparents : ∀ parent ∈ parents, parent < size) :
    Agree (Similar size) (loadReference s parents p) (loadReferenceEach s parents p) := by
  intro a b w v hab
  have hkeys : ∀ parent ∈ parents, p.parentKey b parent = p.parentKey a parent :=
    fun parent hparent => parentKey_congr p (hab.row? (hparents parent hparent)).symm
  cases hfield : p.childField with
  | error why =>
    rw [after, after, outcome_loadReference_of_error hfield, loadReferenceEach, hfield]
    exact ⟨rfl, hab⟩
  | ok field =>
    obtain ⟨table, allowed, h⟩ := hserves field hfield
    obtain ⟨made, hmade⟩ := s.batchStatement_uniform p (p.child.fieldAt field)
    cases made with
    | error why =>
      by_cases hsome : ∃ parent ∈ parents, (p.parentKey a parent).isNull = false
      · obtain ⟨parent, hparent, hkey⟩ := hsome
        rw [after, after, outcome_loadReference_of_refused hfield hmade ⟨parent, hparent, hkey⟩,
          outcome_loadReferenceEach_of_error hfield hmade
            ⟨parent, hparent, (hkeys parent hparent).symm ▸ hkey⟩]
        exact ⟨rfl, hab⟩
      · have hnull : ∀ parent ∈ parents, (p.parentKey a parent).isNull = true := by
          intro parent hparent
          rw [← Bool.not_eq_false]
          exact fun hkey => hsome ⟨parent, hparent, hkey⟩
        rw [after, after, outcome_loadReference_of_null hfield hnull,
          outcome_loadReferenceEach_of_null hfield fun parent hparent =>
            hkeys parent hparent ▸ hnull parent hparent]
        exact ⟨rfl, hab⟩
    | ok make =>
      obtain ⟨all, hall⟩ : ∃ all, all =
          (batches s.settings.inBatchSize (s.keysOf p a parents)).flatMap h.rows := ⟨_, rfl⟩
      obtain ⟨w', hbatched⟩ := outcome_loadReference_of_answers h.answersWith hfield hmade hall w
      rw [after, hbatched, loadReferenceEach, hfield]
      have hloop := agree_forM fun parent hparent =>
        agree_stitchParent h hmade hab.leftSize hparent (hparents parent hparent) hall
      exact (hloop _ b w' v ⟨hab.extend_left (references_nodes _ _), rfl⟩).imp_right And.left

end Reference

/-! ## All references -/

theorem similar_loadReferences {s : Session c (StateM σ)} {g : Graph c} (hg : g.Closed)
    {parents : List NodeId} (hparents : ∀ parent ∈ parents, parent < g.nodes.length)
    {selection : Include} (hserves : ∀ n p, Loaded g parents selection n p → s.Serves p)
    (w v : σ) :
    (outcome (loadReferences s parents selection) g w).1.1 =
      (outcome (loadReferencesEach s parents selection) g v).1.1 ∧
    Similar g.nodes.length (after (loadReferences s parents selection) g w)
      (after (loadReferencesEach s parents selection) g v) := by
  have hrefl := Similar.refl hg
  unfold loadReferences loadReferencesEach
  cases hfirst : parents.head? with
  | none => exact ⟨rfl, hrefl⟩
  | some first =>
    dsimp only
    rw [after_get_bind, after_get_bind, outcome_get_bind, outcome_get_bind]
    cases hn : g.node? first with
    | none => exact ⟨rfl, hrefl⟩
    | some n =>
      dsimp only
      cases hplans : n.entity.plans c selection with
      | error why => exact ⟨rfl, hrefl⟩
      | ok plans =>
        have hloop : Agree (Similar g.nodes.length) (plans.forM (loadReference s parents))
            (plans.forM (loadReferenceEach s parents)) := agree_forM fun p hp =>
          agree_loadReference (hserves n p ⟨⟨first, hfirst, hn⟩, ⟨plans, hplans, hp⟩⟩) hparents
        exact hloop g g w v hrefl

end Loading

namespace Session

open Process

/-- The session with another size of the batches. -/
def inBatches {m : Type → Type} (s : Session c m) (size : Nat) : Session c m :=
  { s with settings := { s.settings with inBatchSize := size } }

/-- References of nodes of one entity filled, parent by parent. -/
def loadReferencesEach {m : Type → Type} [Monad m] (s : Session c m) (g : Graph c)
    (parents : List NodeId) (selection : Include) : m (Except GraphError Unit × Graph c) :=
  (Loading.loadReferencesEach s parents selection).run.run g

variable {σ : Type}

/-- Loading keeps graphs closed. -/
theorem closed_loadReferences {s : Session c (StateM σ)} {g : Graph c} (hg : g.Closed)
    {parents : List NodeId} (hparents : ∀ parent ∈ parents, parent < g.nodes.length)
    {selection : Include} (hserves : ∀ n p, Loaded g parents selection n p → s.Serves p) (w : σ) :
    ((s.loadReferences g parents selection).run w).1.2.Closed :=
  (Loading.similar_loadReferences hg hparents hserves w w).2.leftClosed

theorem serves_inBatches {s : Session c (StateM σ)} {p : Plan c e} (h : s.Serves p) (size : Nat) :
    (s.inBatches size).Serves p := by
  intro field hfield
  obtain ⟨table, allowed, hserves⟩ := h field hfield
  exact ⟨table, allowed, hserves.looksUp, hserves.textual⟩

/-- The plain way makes no batches. -/
theorem loadReferencesEach_inBatches {m : Type → Type} [Monad m] (s : Session c m) (size : Nat) :
    (s.inBatches size).loadReferencesEach = s.loadReferencesEach := rfl

/-- **References loaded in batches, of whatever size, show as references that are loaded parent by
parent.** Null keys are asked for by nobody: they change no statement, the references of their
parents are kept, and where all keys are null the database is left alone. -/
theorem loadReferences_as_each (s : Session c (StateM σ)) {g : Graph c} (hg : g.Closed)
    {parents : List NodeId} (hparents : ∀ parent ∈ parents, parent < g.nodes.length)
    {selection : Include} (hserves : ∀ n p, Loaded g parents selection n p → s.Serves p) :
    (∀ size w v,
      let batched := (((s.inBatches size).loadReferences g parents selection).run w).1
      let each := ((s.loadReferencesEach g parents selection).run v).1
      batched.1 = each.1 ∧ ∀ id < g.nodes.length, batched.2.shown id = each.2.shown id) ∧
    (∀ size other w v,
      let batched := (((s.inBatches size).loadReferences g parents selection).run w).1
      let others := (((s.inBatches other).loadReferences g parents selection).run v).1
      batched.1 = others.1 ∧ ∀ id < g.nodes.length, batched.2.shown id = others.2.shown id) ∧
    (∀ (e : Entity) (p : Plan c e) (x : Graph c),
      s.referenceStatements p x (parents.filter fun parent => !(p.parentKey x parent).isNull) =
        s.referenceStatements p x parents) ∧
    (∀ parent ∈ parents, ∀ name, (∀ n p, Loaded g parents selection n p →
        Text.sameName p.reference.name name = true → (p.parentKey g parent).isNull = true) →
      ∀ w, ((s.loadReferences g parents selection).run w).1.2.attached? parent name =
        g.attached? parent name) ∧
    ∀ (e : Entity) (p : Plan c e) (x : Graph c),
      (∀ parent ∈ parents, (p.parentKey x parent).isNull = true) →
        s.referenceStatements p x parents = .ok [] ∧
        ∀ w, (outcome (Loading.loadReference s parents p) x w).1.2 = x ∧
          (outcome (Loading.loadReference s parents p) x w).2 = w := by
  have heach : ∀ size w v,
      let batched := (((s.inBatches size).loadReferences g parents selection).run w).1
      let each := ((s.loadReferencesEach g parents selection).run v).1
      batched.1 = each.1 ∧ ∀ id < g.nodes.length, batched.2.shown id = each.2.shown id := by
    intro size w v
    rw [← s.loadReferencesEach_inBatches size]
    obtain ⟨hresult, hsimilar⟩ := Loading.similar_loadReferences hg hparents
      (fun n p hp => serves_inBatches (hserves n p hp) size) w v
    exact ⟨hresult, hsimilar.shown⟩
  refine ⟨heach, fun size other w v => ?_, fun e p x => s.referenceStatements_filter p x parents,
    fun parent hparent name hnull w => ?_, fun e p x hnull => ⟨s.referenceStatements_of_null hnull,
      fun w => ?_⟩⟩
  · obtain ⟨hleft, hshown⟩ := heach size w w
    obtain ⟨hright, hshown'⟩ := heach other v w
    exact ⟨hleft.trans hright.symm, fun id hid => (hshown id hid).trans (hshown' id hid).symm⟩
  · exact (Loading.kept_after_loadReferences (hparents parent hparent) hnull w).attached
  · cases hfield : p.childField with
    | error why =>
      rw [Loading.outcome_loadReference_of_error hfield]
      exact ⟨rfl, rfl⟩
    | ok field =>
      rw [Loading.outcome_loadReference_of_null hfield hnull]
      exact ⟨rfl, rfl⟩

end Session

namespace Sample

/-- Some stores. -/
def stores : Table (catalog.entity (type "Store")) where
  columns := ["Id", "RegionCode"]
  rows := [⟨["Id", "RegionCode"], [.int 1, .text "DE"]⟩, ⟨["Id", "RegionCode"], [.int 2, .null]⟩,
    ⟨["Id", "RegionCode"], [.int 3, .text "it"]⟩, ⟨["Id", "RegionCode"], [.int 4, .text "de"]⟩]
  columns_eq := by decide
  hasColumn := by decide

/-- What stands before the condition of a query for stores. -/
def storesLead : String :=
  "SELECT \"Store\".\"Id\", \"Store\".\"RegionCode\"\nFROM \"Store\"\nWHERE "

/-- A database that looks up codes among these stores, in small letters where a query says so, and
counts the queries. -/
def storeKeeper : Database (StateM Nat) where
  query sql codes := modifyGet fun queries =>
    (.ok (stores.listed ((catalog.entity (type "Store")).fieldAt ⟨1, by decide⟩) (fun _ => true)
      (readsLowered storesLead sql) codes), queries + 1)
  execute _ _ := pure (.ok 0)
  scalar _ _ := pure (.ok none)

/-- A session with that database, in which keys match in any case. -/
def storeSession : Session catalog (StateM Nat) :=
  ⟨storeKeeper, .sqlite, ⟨true, false, 2⟩, []⟩

/-- Regions, one of them without a code and two with one code but for the case. -/
def regions : Graph catalog :=
  ⟨[.ofValues (type "Region") [.text "de"], .ofValues (type "Region") [.null],
    .ofValues (type "Region") [.text "fr"], .ofValues (type "Region") [.text "De"],
    .ofValues (type "Region") [.text "it"]]⟩

theorem closed_regions : regions.Closed := by
  have hnone : ∀ n ∈ regions.nodes, n.references = [] := by decide
  intro id n hn r hr
  rw [hnone n (List.mem_of_getElem? hn)] at hr
  cases hr

/-- The stores of a region. -/
def storesPlan : Plan catalog (catalog.entity (type "Region")) :=
  ⟨⟨"Stores", type "Store", .many, none, none⟩, .childHoldsKey ⟨1, by decide⟩⟩

/-- The stores are the one reference of regions. -/
theorem loaded_regions {P : ∀ n : Node catalog, Plan catalog n.entity → Prop}
    (h : P (.ofValues (type "Region") [.text "de"]) storesPlan) (n : Node catalog)
    (p : Plan catalog n.entity) (hloaded : Loaded regions [0, 1, 2, 3, 4] .all n p) : P n p := by
  obtain ⟨⟨first, hfirst, hn⟩, plans, hplans, hp⟩ := hloaded
  cases hfirst
  cases hn
  cases hplans
  cases hp with
  | head => exact h
  | tail _ hp => cases hp

theorem serves_stores : storeSession.Serves storesPlan := by
  intro field hfield
  cases hfield
  have columns : (Projection.entity catalog .sqlite ⟨type "Store", none⟩).toFragment =
      .sql "\"Store\".\"Id\", \"Store\".\"RegionCode\"" := by decide
  have lead : "SELECT " ++ "\"Store\".\"Id\", \"Store\".\"RegionCode\"" ++ "\nFROM " ++
      Source.tableReference catalog .sqlite ⟨type "Store", none⟩ ++ "\nWHERE " = storesLead := by
    decide
  exact ⟨stores, fun _ => true, looksUp_of_lookUp rfl rfl columns lead fun _ _ _ => rfl,
    fun h => by cases h⟩

/-- What is seen of a region with its stores. -/
def regionShown (code : String) (stores : List (Int64 × String)) :
    Option (EntityType × List Value × List (String × AttachedRows)) :=
  some (type "Region", [.text code, .null], [("Stores", .many (stores.map fun (id, code) =>
    some (type "Store", [.int id, .text code])))])

set_option maxRecDepth 4000 in
/-- Regions with one code but for the case get the same stores, in the order of the table. -/
theorem loadReferences_regions :
    let loaded := ((storeSession.loadReferences regions [0, 1, 2, 3, 4] .all).run 0).1
    loaded.1 = .ok () ∧ loaded.2.shown 0 = regionShown "de" [(1, "DE"), (4, "de")] ∧
      loaded.2.attached? 1 "Stores" = none ∧ loaded.2.shown 2 = regionShown "fr" [] ∧
      loaded.2.shown 3 = regionShown "De" [(1, "DE"), (4, "de")] ∧
      loaded.2.shown 4 = regionShown "it" [(3, "it")] := by
  have hparents : ∀ parent ∈ [0, 1, 2, 3, 4], parent < regions.nodes.length := by decide
  obtain ⟨heach, -, -, hkept, -⟩ := Session.loadReferences_as_each storeSession closed_regions
    hparents (loaded_regions (P := fun _ p => storeSession.Serves p) serves_stores)
  obtain ⟨hresult, hshown⟩ := heach 2 0 0
  have hnull := hkept 1 (by decide) "Stores" (loaded_regions
    (P := fun _ p => Text.sameName p.reference.name "Stores" = true →
      (p.parentKey regions 1).isNull = true) fun _ => rfl) 0
  exact ⟨hresult, hshown 0 (by decide), hnull, hshown 2 (by decide), hshown 3 (by decide),
    hshown 4 (by decide)⟩

end Sample

end RowGraph
