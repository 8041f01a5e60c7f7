import RowGraph.Projection
import RowGraph.Proofs.Compile.Parts

/-!
# Names of sources in expressions

An expression reaches the sources of a query by their names alone: by an entity, in a column or in
all columns of the entity, and by an alias. Compilers that find the same source under each of these
names compile the expression alike, whatever else they have among their sources, and whichever join
they compile a condition for.

Results:
* `Expr.sourceNames`: the names in an expression, at every depth.
* `find_append`: a further source is found only by its entity and by its own token.
* `part_elsewhere`: a part depends on what its names lead to.
* **`compile_elsewhere`**, **`projection_elsewhere`**: so do expressions in a clause, and
  projections.
* `compile_withScope`, `projection_withScope`: outside of joins it is enough to look at the sources.
-/

namespace RowGraph

/-- A name by which an expression reaches a source. -/
inductive SourceName
  /-- The source of an entity's columns. -/
  | entity (entity : EntityType)
  /-- The source with this token, in any case. -/
  | named (aliasName : String)
deriving DecidableEq, Repr

/-- The source cannot be meant by the name. -/
def SourceName.Misses (c : Catalog) (new : Source) : SourceName → Prop
  | .entity wanted => wanted ≠ new.entity
  | .named aliasName => Text.sameName (new.token c) aliasName = false

namespace Expr

mutual

/-- The names of sources in an expression, at every depth. The pattern of a search is read and not
compiled, and embedded queries have sources of their own. -/
def sourceNames : Expr → List SourceName
  | .column r => [.entity r.entity]
  | .qualified _ aliasName _ => [.named aliasName]
  | .allFields entity none => [.entity entity]
  | .allFields _ (some aliasName) => [.named aliasName]
  | .not e | .negate e | .isIn e _ | .aggregate _ e | .aliased e _ | .ordered e _ | .cast e _
  | .like _ e _ => e.sourceNames
  | .compare _ left right | .connect _ left right | .compute _ left right =>
    left.sourceNames ++ right.sourceNames
  | .coalesce args | .function _ args => sourceNamesOf args
  | .literal _ | .captured _ | .existence _ _ | .aggregateAll _ | .custom _ | .endOfTuple => []

/-- The names of sources in several expressions. -/
def sourceNamesOf : List Expr → List SourceName
  | [] => []
  | e :: rest => e.sourceNames ++ sourceNamesOf rest

end

end Expr

namespace Scope

/-- What a name leads to. -/
def find (c : Catalog) (s : Scope) : SourceName → Except AliasError Source
  | .entity entity => s.forEntity entity
  | .named aliasName => s.byAlias c aliasName

theorem forEntity_append {new : Source} {entity : EntityType} (s : Scope)
    (h : entity ≠ new.entity) : forEntity ⟨s.sources ++ [new]⟩ entity = s.forEntity entity := by
  have other : (new.entity == entity) = false := beq_false_of_ne (Ne.symm h)
  have same : (s.sources ++ [new]).filter (·.entity == entity) =
      s.sources.filter (·.entity == entity) := by
    simp [List.filter_append, other]
  unfold forEntity
  rw [same]

theorem byAlias_append {c : Catalog} {new : Source} {aliasName : String} (s : Scope)
    (h : Text.sameName (new.token c) aliasName = false) :
    byAlias c ⟨s.sources ++ [new]⟩ aliasName = s.byAlias c aliasName := by
  have same : (s.sources ++ [new]).find? (fun b => Text.sameName (b.token c) aliasName) =
      s.sources.find? fun b => Text.sameName (b.token c) aliasName := by
    simp [List.find?_append, h]
  unfold byAlias
  rw [same]

/-- **A further source changes nothing for names that miss it.** -/
theorem find_append {c : Catalog} {new : Source} {name : SourceName} (s : Scope)
    (h : name.Misses c new) : find c ⟨s.sources ++ [new]⟩ name = s.find c name := by
  cases name with
  | entity wanted => exact forEntity_append s h
  | named aliasName => exact byAlias_append s h

end Scope

namespace Compiler

/-- The compiler over other sources, for the condition of another join. -/
def elsewhere (t : Compiler) (s : Scope) (target : Option Source) : Compiler :=
  { t with scope := s, target }

/-- The compiler over other sources. -/
def withScope (t : Compiler) (s : Scope) : Compiler := { t with scope := s }

/-- Each of these names leads to the same source here and there, or fails for the same reason. -/
def FindsAlike (t : Compiler) (s : Scope) (names : List SourceName) : Prop :=
  ∀ name ∈ names, s.find t.catalog name = t.scope.find t.catalog name

/-- Each of these names means the same here and there, for a column of its own as well as for all
columns. -/
def LeadsAlike (t : Compiler) (s : Scope) (target : Option Source) (names : List SourceName) :
    Prop :=
  ∀ name ∈ names, s.find t.catalog name = t.scope.find t.catalog name ∧
    ∀ entity, name = .entity entity → (t.elsewhere s target).sourceOf entity = t.sourceOf entity

variable {t : Compiler} {s : Scope} {target : Option Source}

theorem FindsAlike.left {names more : List SourceName} (h : t.FindsAlike s (names ++ more)) :
    t.FindsAlike s names :=
  fun name hn => h name (List.mem_append_left _ hn)

theorem LeadsAlike.left {names more : List SourceName}
    (h : t.LeadsAlike s target (names ++ more)) : t.LeadsAlike s target names :=
  fun name hn => h name (List.mem_append_left _ hn)

theorem LeadsAlike.right {names more : List SourceName}
    (h : t.LeadsAlike s target (names ++ more)) : t.LeadsAlike s target more :=
  fun name hn => h name (List.mem_append_right _ hn)

/-- Names that miss a further source lead where they led before. -/
theorem findsAlike_append {new : Source} {names : List SourceName}
    (h : ∀ name ∈ names, name.Misses t.catalog new) :
    t.FindsAlike ⟨t.scope.sources ++ [new]⟩ names :=
  fun name hn => Scope.find_append t.scope (h name hn)

/-- Outside of joins an entity's columns are looked up among the sources. -/
theorem sourceOf_of_no_target (own : t.target = none) (entity : EntityType) :
    t.sourceOf entity = t.scope.forEntity entity := by
  rw [sourceOf, own]

/-- Outside of joins it is enough to find the same sources. -/
theorem FindsAlike.leadsAlike {names : List SourceName} (h : t.FindsAlike s names)
    (own : t.target = none) : t.LeadsAlike s t.target names := by
  intro name hn
  refine ⟨h name hn, ?_⟩
  rintro entity rfl
  have found : s.forEntity entity = t.scope.forEntity entity := h _ hn
  rw [sourceOf_of_no_target own, sourceOf_of_no_target (t := t.elsewhere s t.target) own]
  exact found

/-! ## Parts -/

theorem resolve_elsewhere {r : ColumnRef} (h : t.LeadsAlike s target [.entity r.entity]) :
    (t.elsewhere s target).resolve r = t.resolve r := by
  have here := (h _ List.mem_cons_self).2 r.entity rfl
  unfold resolve
  rw [here]
  rfl

theorem qualified_elsewhere (x : Context) {r : ColumnRef} {aliasName : String}
    (kind : QualifierKind) (h : t.LeadsAlike s target [.named aliasName]) :
    (t.elsewhere s target).qualified x r aliasName kind = t.qualified x r aliasName kind := by
  have found : s.byAlias t.catalog aliasName = t.scope.byAlias t.catalog aliasName :=
    (h _ List.mem_cons_self).1
  unfold qualified
  rw [show (t.elsewhere s target).scope.byAlias (t.elsewhere s target).catalog aliasName =
    t.scope.byAlias t.catalog aliasName from found]
  rfl

theorem comparison_elsewhere (x : Context) (op : Comparison) {left right : Expr}
    (hl : (t.elsewhere s target).part x.value left = t.part x.value left)
    (hr : (t.elsewhere s target).part x.value right = t.part x.value right)
    (l r : Option Value) :
    (t.elsewhere s target).comparison x op left right l r =
      t.comparison x op left right l r := by
  refine comparison_related (R := Eq) _ (fun _ h => by rw [h]) (fun hf hg => by rw [hf, hg])
    Iff.rfl Iff.rfl ?_ ?_
  · cases l with
    | none => exact hl
    | some v => rfl
  · cases r with
    | none => exact hr
    | some v => rfl

theorem value?_elsewhere (e : Expr) : (t.elsewhere s target).value? e = t.value? e := by
  cases e <;> rfl

mutual

/-- A part depends on the sources, and on the join that it is for, only through what its names lead
to. -/
theorem part_elsewhere (x : Context) : ∀ e : Expr, t.LeadsAlike s target e.sourceNames →
    (t.elsewhere s target).part x e = t.part x e
  | .column r, h => by
    rw [part, part, column, column, resolve_elsewhere h]
    rfl
  | .literal v, _ => by
    rw [part, part]
    rfl
  | .captured source, _ => by
    rw [part, part]
    rfl
  | .not e, h => by
    rw [part, part, part_elsewhere x.condition e h]
  | .negate e, h => by
    rw [part, part, part_elsewhere x.arithmetic e h]
  | .compare op left right, h => by
    have hl := part_elsewhere x.value left h.left
    have hr := part_elsewhere x.value right h.right
    rw [part_compare, part_compare, value?_elsewhere, value?_elsewhere]
    refine bind_congr fun l => bind_congr fun r => ?_
    exact comparison_elsewhere x op hl hr l r
  | .connect op left right, h => by
    rw [part, part, part_elsewhere x.condition left h.left,
      part_elsewhere x.condition right h.right]
  | .compute op left right, h => by
    rw [part, part, part_elsewhere x.arithmetic left h.left,
      part_elsewhere x.arithmetic right h.right]
    rfl
  | .coalesce args, h => by
    rw [part, part, parts_elsewhere x.value args h]
    rfl
  | .function name args, h => by
    rw [part, part, parts_elsewhere x.value args h]
    rfl
  | .like kind e pattern, h => by
    rw [part, part, value?_elsewhere, part_elsewhere x.value e h]
  | .isIn e source, h => by
    rw [part, part, part_elsewhere x.value e h]
    rfl
  | .existence negated query, _ => by
    rw [part, part]
  | .aggregate f arg, h => by
    rw [part, part, part_elsewhere x.aggregate arg h]
    rfl
  | .aggregateAll f, _ => by
    rw [part, part]
  | .aliased e aliasName, _ => by
    rw [part, part]
  | .custom sql, _ => by
    rw [part, part]
  | .qualified r aliasName kind, h => by
    rw [part, part, qualified_elsewhere x kind h]
  | .ordered e descending, _ => by
    rw [part, part]
  | .endOfTuple, _ => by
    rw [part, part]
  | .allFields entity aliasName, _ => by
    rw [part, part]
  | .cast e type, h => by
    rw [part, part, part_elsewhere x.value e h]
    rfl

theorem parts_elsewhere (x : Context) : ∀ es : List Expr,
    t.LeadsAlike s target (Expr.sourceNamesOf es) →
      (t.elsewhere s target).parts x es = t.parts x es
  | [], _ => by
    rw [parts, parts]
  | e :: rest, h => by
    rw [parts, parts, part_elsewhere x e h.left, parts_elsewhere x rest h.right]

end

/-! ## Clauses and projections -/

theorem aliased_elsewhere (x : Context) {e : Expr} (aliasName : String)
    (h : t.LeadsAlike s target e.sourceNames) :
    (t.elsewhere s target).aliased x e aliasName = t.aliased x e aliasName := by
  rw [aliased, aliased, part_elsewhere x e h]
  rfl

/-- **An expression in a clause** depends on the sources, and on the join that it is for, only
through what its names lead to. -/
theorem compile_elsewhere (position : Position) {e : Expr}
    (h : t.LeadsAlike s target e.sourceNames) :
    (t.elsewhere s target).compile position e = t.compile position e := by
  have whole := part_elsewhere (Context.top position) e h
  cases e with
  | ordered item descending =>
    cases position with
    | orderItem =>
      rw [compile, compile, part_elsewhere (Context.top .orderItem) item h]
    | _ => exact whole
  | aliased item aliasName =>
    cases position with
    | projection => exact aliased_elsewhere _ aliasName h
    | _ => exact whole
  | _ => cases position <;> exact whole

theorem fieldsSource_elsewhere {entity : EntityType} {aliasName : Option String}
    (h : t.LeadsAlike s target (Expr.allFields entity aliasName).sourceNames) :
    (t.elsewhere s target).fieldsSource entity aliasName = t.fieldsSource entity aliasName := by
  cases aliasName with
  | none => exact congrArg (Except.mapError _) (h (.entity entity) List.mem_cons_self).1
  | some aliasName => exact congrArg (Except.mapError _) (h (.named aliasName) List.mem_cons_self).1

theorem projectionItems_elsewhere {e : Expr} (h : t.LeadsAlike s target e.sourceNames) :
    (t.elsewhere s target).projectionItems e = t.projectionItems e := by
  have whole := part_elsewhere (Context.top .projection) e h
  cases e with
  | column r =>
    rw [projectionItems, projectionItems, resolve_elsewhere h]
    rfl
  | allFields entity aliasName =>
    rw [projectionItems, projectionItems, fieldsSource_elsewhere h]
    rfl
  | endOfTuple => rfl
  | aliased item aliasName =>
    have named := aliased_elsewhere (Context.top .projection) (e := item) aliasName h
    exact congrArg (fun item : Compilation Fragment => do
      return [ProjectionItem.column ⟨← item, some aliasName⟩]) named
  | qualified r aliasName kind =>
    exact congrArg (fun item : Compilation Fragment => do
      return [ProjectionItem.column ⟨← item,
        ((t.catalog.entity r.entity).field? r.field).map Field.column⟩]) whole
  | _ =>
    exact congrArg (fun item : Compilation Fragment => do
      return [ProjectionItem.column ⟨← item, none⟩]) whole

/-- **A projection** depends on the sources only through what the names in its items lead to. -/
theorem projection_elsewhere {items : List Expr}
    (h : t.LeadsAlike s target (Expr.sourceNamesOf items)) :
    Projection.compile (t.elsewhere s target) items = Projection.compile t items := by
  have each : items.mapM (t.elsewhere s target).projectionItems =
      items.mapM t.projectionItems := by
    induction items with
    | nil => rfl
    | cons e rest ih =>
      rw [List.mapM_cons, List.mapM_cons, projectionItems_elsewhere h.left, ih h.right]
  rw [Projection.compile, Projection.compile, each]

/-- Outside of joins an expression depends on what it finds among the sources. -/
theorem compile_withScope (own : t.target = none) (position : Position) {e : Expr}
    (h : t.FindsAlike s e.sourceNames) :
    (t.withScope s).compile position e = t.compile position e :=
  compile_elsewhere position (h.leadsAlike own)

/-- Outside of joins a projection depends on what it finds among the sources. -/
theorem projection_withScope (own : t.target = none) {items : List Expr}
    (h : t.FindsAlike s (Expr.sourceNamesOf items)) :
    Projection.compile (t.withScope s) items = Projection.compile t items :=
  projection_elsewhere (h.leadsAlike own)

end Compiler

end RowGraph
