import RowGraph.Proofs.Compile.JoinTarget
import RowGraph.Proofs.Compile.Leaves

/-!
# Columns with their sources spelled out

A column that names only its entity belongs to a source of the query. The same column can be asked
for under the token of that source. The two are looked up in different ways, one by the entity and
the other by the alias, and each finds the field in its own entity; but what is written for them is
the same, wherever in an expression they stand.

It takes the tokens of the sources to see that: an alias in another case finds the source that it
was taken from because no other one has this token in any case.

Results:
* `Compiler.SpellsOut`: some columns are asked for under the tokens of their sources.
* `qualified_spelledOut`: one column in a place.
* `part_spelledOut`: a part, with any of its columns spelled out.
* **`compile_spelledOut`**: expressions in clauses, items of projections and projections.
-/

namespace RowGraph

open Attempt

namespace Compiler

/-- A column that names only its entity is asked for under the token, in any case, of the source
that it belongs to. -/
inductive Spelling (t : Compiler) : Expr → Expr → Prop
  | column {r : ColumnRef} {source : Source} {aliasName : String}
    (belongs : t.sourceOf r.entity = .ok source)
    (named : Text.sameName (source.token t.catalog) aliasName = true) :
    Spelling t (.column r) (.qualified r aliasName .table)

/-- Any of the columns are asked for under the tokens of their sources. Each column in each place is
free to be, or not to be, and in any case of letters. -/
def SpellsOut (t : Compiler) (f : Expr.Path → Expr → Expr) : Prop :=
  ∀ p leaf, f p leaf = leaf ∨ t.Spelling leaf (f p leaf)

/-- The sources have different tokens in any case, and a join's own is among them. -/
structure Settled (t : Compiler) : Prop where
  distinct : t.scope.Distinct t.catalog
  joined : ∀ own, t.target = some own → own ∈ t.scope.sources

variable {t : Compiler} {f : Expr.Path → Expr → Expr}

theorem SpellsOut.below (h : t.SpellsOut f) (i : Nat) : t.SpellsOut (Expr.Path.below i f) :=
  fun p => h (i :: p)

/-! ## One column -/

section Column

variable {r : ColumnRef} {source : Source} {aliasName : String}

/-- The source that a column belongs to is found under its token, in any case. -/
theorem Settled.byAlias_of_sourceOf (h : t.Settled) (belongs : t.sourceOf r.entity = .ok source)
    (named : Text.sameName (source.token t.catalog) aliasName = true) :
    t.scope.byAlias t.catalog aliasName = .ok source := by
  rw [sourceOf_eq_forEntity h.distinct h.joined] at belongs
  exact h.distinct.byAlias_of_sameName (Scope.mem_of_forEntity belongs).1 named

theorem resolve_of_sourceOf (belongs : t.sourceOf r.entity = .ok source) :
    t.resolve r =
      match (t.catalog.entity r.entity).field? r.field with
      | some field => .ok (source, field)
      | none => .error (.unknownField r (t.catalog.entity r.entity).name) := by
  have entity := entity_of_sourceOf t belongs
  cases found : (t.catalog.entity r.entity).field? r.field <;>
    simp [resolve, belongs, entity, found]

/-- A column compiles under the token of its source exactly as it does by its entity. -/
theorem qualified_spelledOut (h : t.Settled) (x : Context)
    (belongs : t.sourceOf r.entity = .ok source)
    (named : Text.sameName (source.token t.catalog) aliasName = true) (fragment : Fragment) :
    t.qualified x r aliasName .table = .ok fragment ↔ t.column x r = .ok fragment := by
  rw [qualified, column, resolve_of_sourceOf belongs, h.byAlias_of_sourceOf belongs named]
  cases (t.catalog.entity r.entity).field? r.field with
  | none => simp [Except.map]
  | some field => exact Iff.rfl

theorem projectionItem_spelledOut (h : t.Settled) (belongs : t.sourceOf r.entity = .ok source)
    (named : Text.sameName (source.token t.catalog) aliasName = true) :
    Coincide (t.projectionItems (.qualified r aliasName .table))
      (t.projectionItems (.column r)) := by
  rw [projectionItems, projectionItems, part, qualified, resolve_of_sourceOf belongs,
    h.byAlias_of_sourceOf belongs named]
  cases (t.catalog.entity r.entity).field? r.field with
  | none =>
    intro before items after
    rw [runs_bind, runs_bind]
    simp
  | some field => exact .refl _

end Column

/-! ## Parts -/

theorem leaf_spelledOut (h : t.Settled) (x : Context) {leaf leaf' : Expr}
    (spelling : leaf' = leaf ∨ t.Spelling leaf leaf') :
    Coincide (t.part x leaf') (t.part x leaf) := by
  obtain rfl | ⟨belongs, named⟩ := spelling
  · exact .refl _
  · rw [part, part]
    exact coincide_lift (qualified_spelledOut h x belongs named)

theorem leafClause_spelledOut (h : t.Settled) (position : Position) {leaf leaf' : Expr}
    (spelling : leaf' = leaf ∨ t.Spelling leaf leaf') :
    Coincide (t.compile position leaf') (t.compile position leaf) := by
  obtain rfl | spelled := spelling
  · exact .refl _
  · have whole := leaf_spelledOut h (Context.top position) (.inr spelled)
    obtain ⟨-, -⟩ := spelled
    cases position <;> exact whole

theorem leafItem_spelledOut (h : t.Settled) {leaf leaf' : Expr}
    (spelling : leaf' = leaf ∨ t.Spelling leaf leaf') :
    Coincide (t.projectionItems leaf') (t.projectionItems leaf) := by
  obtain rfl | ⟨belongs, named⟩ := spelling
  · exact .refl _
  · exact projectionItem_spelledOut h belongs named

/-- Neither a column nor a column under a token is a value. -/
theorem value?_of_spelling {leaf leaf' : Expr} (spelling : leaf' = leaf ∨ t.Spelling leaf leaf') :
    t.value? leaf' = t.value? leaf := by
  obtain rfl | ⟨-, -⟩ := spelling <;> rfl

theorem value?_spelledOut (spells : t.SpellsOut f) (e : Expr) :
    t.value? (e.mapLeaves f) = t.value? e := by
  cases e <;> rw [Expr.mapLeaves] <;> first | rfl | exact value?_of_spelling (spells _ _)

theorem operand_spelledOut {x : Context} {e e' : Expr} (v : Option Value)
    (h : Coincide (t.part x.value e') (t.part x.value e)) :
    Coincide (t.operand x e' v) (t.operand x e v) := by
  cases v with
  | none => exact h
  | some v => exact .refl _

theorem comparison_spelledOut {x : Context} (op : Comparison) {left left' right right' : Expr}
    (l r : Option Value) (hl : Coincide (t.part x.value left') (t.part x.value left))
    (hr : Coincide (t.part x.value right') (t.part x.value right)) :
    Coincide (t.comparison x op left' right' l r) (t.comparison x op left right l r) := by
  refine comparison_related t (fun _ h => ?_) (fun hf hg => ?_) Iff.rfl Iff.rfl
    (operand_spelledOut l hl) (operand_spelledOut r hr)
  · exact coincide_return _ h
  · exact coincide_bind hf fun _ => coincide_return _ hg

mutual

/-- **A part compiles with its columns spelled out exactly as it does without**, with the same
fragment, wherever the columns stand. -/
theorem part_spelledOut (h : t.Settled) {f : Expr.Path → Expr → Expr} (spells : t.SpellsOut f)
    (x : Context) : ∀ e : Expr, Coincide (t.part x (e.mapLeaves f)) (t.part x e)
  | .column _ | .literal _ | .captured _ | .existence _ _ | .aggregateAll _ | .custom _
  | .qualified _ _ _ | .endOfTuple | .allFields _ _ => by
    rw [Expr.mapLeaves]
    exact leaf_spelledOut h x (spells _ _)
  | .not e => by
    rw [Expr.mapLeaves, part, part]
    exact coincide_return _ (part_spelledOut h (spells.below 0) x.condition e)
  | .negate e => by
    rw [Expr.mapLeaves, part, part]
    exact coincide_return _ (part_spelledOut h (spells.below 0) x.arithmetic e)
  | .compare op left right => by
    rw [Expr.mapLeaves, part_compare, part_compare, value?_spelledOut (spells.below 0),
      value?_spelledOut (spells.below 1)]
    refine coincide_bind (.refl _) fun l => coincide_bind (.refl _) fun r => ?_
    exact comparison_spelledOut op l r (part_spelledOut h (spells.below 0) x.value left)
      (part_spelledOut h (spells.below 1) x.value right)
  | .connect op left right => by
    rw [Expr.mapLeaves, part, part]
    exact coincide_bind (part_spelledOut h (spells.below 0) x.condition left) fun _ =>
      coincide_return _ (part_spelledOut h (spells.below 1) x.condition right)
  | .compute op left right => by
    rw [Expr.mapLeaves, part, part]
    exact coincide_bind (part_spelledOut h (spells.below 0) x.arithmetic left) fun _ =>
      coincide_return _ (part_spelledOut h (spells.below 1) x.arithmetic right)
  | .coalesce args => by
    rw [Expr.mapLeaves, part, part, Expr.length_mapLeavesFrom]
    exact coincide_unless _ _ (coincide_return _ (parts_spelledOut h spells x.value 0 args))
  | .function name args => by
    rw [Expr.mapLeaves, part, part]
    exact coincide_bind (parts_spelledOut h spells x.value 0 args) fun _ => .refl _
  | .like kind e pattern => by
    rw [Expr.mapLeaves, part, part, value?_spelledOut (spells.below 1)]
    refine coincide_bind (.refl _) fun v => ?_
    split
    · exact coincide_return _ (part_spelledOut h (spells.below 0) x.value e)
    · exact .refl _
  | .isIn e source => by
    rw [Expr.mapLeaves, part, part]
    exact coincide_unless _ _
      (coincide_return (t.membership · source) (part_spelledOut h (spells.below 0) x.value e))
  | .aggregate g arg => by
    rw [Expr.mapLeaves, part, part]
    exact coincide_bind (.refl _) fun _ =>
      coincide_return _ (part_spelledOut h (spells.below 0) x.aggregate arg)
  | .aliased e aliasName => by
    rw [Expr.mapLeaves, part, part]
    exact .refl _
  | .ordered e descending => by
    rw [Expr.mapLeaves, part, part]
    exact .refl _
  | .cast e type => by
    rw [Expr.mapLeaves, part, part]
    exact coincide_return (t.dialect.cast · type) (part_spelledOut h (spells.below 0) x.value e)

theorem parts_spelledOut (h : t.Settled) {f : Expr.Path → Expr → Expr} (spells : t.SpellsOut f)
    (x : Context) (i : Nat) : ∀ es : List Expr,
    Coincide (t.parts x (Expr.mapLeavesFrom f i es)) (t.parts x es)
  | [] => .refl _
  | e :: rest => by
    rw [Expr.mapLeavesFrom, parts, parts]
    exact coincide_bind (part_spelledOut h (spells.below i) x e) fun _ =>
      coincide_return _ (parts_spelledOut h spells x (i + 1) rest)

end

/-! ## Clauses and projections -/

theorem clause_spelledOut (h : t.Settled) (spells : t.SpellsOut f) (position : Position)
    (e : Expr) : Coincide (t.compile position (e.mapLeaves f)) (t.compile position e) := by
  have whole := part_spelledOut h spells (Context.top position) e
  cases e with
  | ordered item descending =>
    rw [Expr.mapLeaves] at whole ⊢
    cases position with
    | orderItem => exact coincide_return _ (part_spelledOut h (spells.below 0) _ item)
    | _ => exact whole
  | aliased item aliasName =>
    rw [Expr.mapLeaves] at whole ⊢
    cases position with
    | projection => exact coincide_return _ (part_spelledOut h (spells.below 0) _ item)
    | _ => exact whole
  | column _ | literal _ | captured _ | existence _ _ | aggregateAll _ | custom _
  | qualified _ _ _ | endOfTuple | allFields _ _ =>
    rw [Expr.mapLeaves]
    exact leafClause_spelledOut h position (spells _ _)
  | _ =>
    rw [Expr.mapLeaves] at whole ⊢
    cases position <;> exact whole

theorem item_spelledOut (h : t.Settled) (spells : t.SpellsOut f) (e : Expr) :
    Coincide (t.projectionItems (e.mapLeaves f)) (t.projectionItems e) := by
  have whole := part_spelledOut h spells (Context.top .projection) e
  cases e with
  | aliased item aliasName =>
    rw [Expr.mapLeaves]
    exact coincide_return (fun f => [ProjectionItem.column ⟨f, some aliasName⟩])
      (coincide_return _ (part_spelledOut h (spells.below 0) (Context.top .projection) item))
  | column _ | literal _ | captured _ | existence _ _ | aggregateAll _ | custom _
  | qualified _ _ _ | endOfTuple | allFields _ _ =>
    rw [Expr.mapLeaves]
    exact leafItem_spelledOut h (spells _ _)
  | _ =>
    rw [Expr.mapLeaves] at whole ⊢
    exact coincide_return (fun f => [ProjectionItem.column ⟨f, none⟩]) whole

theorem items_spelledOut (h : t.Settled) (spells : t.SpellsOut f) (i : Nat) (es : List Expr) :
    Coincide ((Expr.mapLeavesFrom f i es).mapM t.projectionItems)
      (es.mapM t.projectionItems) := by
  induction es generalizing i with
  | nil => exact .refl _
  | cons e rest ih =>
    rw [Expr.mapLeavesFrom, List.mapM_cons, List.mapM_cons]
    exact coincide_bind (item_spelledOut h (spells.below i) e) fun _ =>
      coincide_return _ (ih (i + 1))

/-- **Columns with their sources spelled out.** Over sources that were added one after the other,
for a filter as well as for the condition of a join: whichever columns of an expression are asked
for under the tokens of their sources, and in whatever case, the expression compiles in each clause
exactly if it compiles without, to the same fragment and with the same captured values read. So does
an item of a projection, whose columns keep their names, and a projection. -/
theorem compile_spelledOut {t : Compiler} (reached : t.scope.Reachable t.catalog)
    (joined : ∀ own, t.target = some own → own ∈ t.scope.sources)
    {f : Expr.Path → Expr → Expr} (spells : t.SpellsOut f) :
    (∀ position e, Coincide (t.compile position (e.mapLeaves f)) (t.compile position e)) ∧
      (∀ e, Coincide (t.projectionItems (e.mapLeaves f)) (t.projectionItems e)) ∧
      ∀ items, Coincide (Projection.compile t (Expr.mapLeavesFrom f 0 items))
        (Projection.compile t items) := by
  have settled : t.Settled := ⟨reached.distinct, joined⟩
  exact ⟨clause_spelledOut settled spells, item_spelledOut settled spells,
    fun items => coincide_bind (items_spelledOut settled spells 0 items) fun _ => .refl _⟩

end Compiler

namespace Sample

/-- The compiler of filters on teams that are joined to themselves. -/
def filterTeamsTwice : Compiler := ⟨catalog, .sqlite, teamsTwice, none, fun _ _ => .int 7⟩

/-- Columns of teams are asked for under the name of their table, in capitals. -/
def inCapitals (_ : Expr.Path) : Expr → Expr
  | .column r => if r.entity = type "Team" then .qualified r "TEAM" .table else .column r
  | leaf => leaf

theorem spellsOut_inCapitals : filterTeamsTwice.SpellsOut inCapitals := by
  intro p leaf
  cases leaf with
  | column r =>
    by_cases ofTeam : r.entity = type "Team"
    · have belongs : filterTeamsTwice.sourceOf r.entity = .ok ⟨type "Team", none⟩ := by
        rw [ofTeam]
        rfl
      rw [inCapitals, if_pos ofTeam]
      exact .inr (.column belongs rfl)
    · exact .inl (if_neg ofTeam)
  | _ => exact .inl rfl

/-- The teams without an alias are known by the name of their table. -/
theorem spelledOut_seventhTeam :
    let spelled : Expr := .compare .eq (.qualified ⟨type "Team", "Id"⟩ "TEAM" .table) (.captured 0)
    filterTeamsTwice.scope.Reachable catalog ∧ filterTeamsTwice.target = none ∧
      filterTeamsTwice.SpellsOut inCapitals ∧ seventhTeam.mapLeaves inCapitals = spelled ∧
      Runs (filterTeamsTwice.compile .predicate spelled) []
        (.operation (.sql "\"Team\".\"Id\"") "=" (.param (.int 7))) [0] := by
  have alike := Compiler.compile_spelledOut (t := filterTeamsTwice) reachable_teamsTwice nofun
    spellsOut_inCapitals
  exact ⟨reachable_teamsTwice, rfl, spellsOut_inCapitals, rfl,
    (alike.1 .predicate seventhTeam _ _ _).mpr rfl⟩

end Sample

end RowGraph
