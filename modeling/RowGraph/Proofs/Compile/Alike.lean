import RowGraph.Projection
import RowGraph.Proofs.Compile.Parts
import RowGraph.Proofs.Query.Outline

/-!
# Compiling with other values

Two expressions are alike if they differ in values of one shape alone. Null and the truth values are
told apart, as they are written into the text; all other values become literals. Inside a list that
is looked through the values do not matter at all, and of the pattern of a search only whether it is
a text.

Results:
* `Value.Alike`, `Expr.Alike`: the shapes, with one rule for each construct.
* `agree_part`: alike expressions are refused for the same reason or compiled to alike fragments,
  and read the same captured values on the way.
* **`agree_compile`**, **`agree_projection`**: so are expressions in a clause, and projections.
-/

namespace RowGraph

open Attempt

/-! ## Values and expressions of one shape -/

namespace Value

/-- Whether the value is neither null nor a truth value. -/
def isPlain : Value → Bool
  | .null | .bool _ => false
  | .int _ | .float _ | .text _ | .bytes _ | .date _ | .dateTime _ | .uuid _ => true

/-- Two values of one shape: both null, the same truth value, or neither of these. -/
inductive Alike : Value → Value → Prop
  | null : Alike .null .null
  | bool (b : Bool) : Alike (.bool b) (.bool b)
  | plain {v w : Value} (hv : v.isPlain = true) (hw : w.isPlain = true) : Alike v w

theorem Alike.eq_null_iff {v w : Value} (h : v.Alike w) : v = .null ↔ w = .null := by
  cases h with
  | null => rfl
  | bool b => rfl
  | plain hv hw =>
    constructor
    · rintro rfl
      cases hv
    · rintro rfl
      cases hw

end Value

/-- Lists of one length, whatever is in them, or embedded queries that differ in their values. -/
inductive Membership.Alike : Membership → Membership → Prop
  | values {list other : Option (List Value)}
    (h : (list.getD []).length = (other.getD []).length) : Alike (.values list) (.values other)
  | subQuery {f g : Fragment} (h : f.Alike g) : Alike (.subQuery f) (.subQuery g)

/-- Patterns of a search, with readings for each of the two: both are texts, or neither is. -/
inductive PatternAlike (r s : Readings) : Expr → Expr → Prop
  | literal {v w : Value} (h : (∃ text, v = .text text) ↔ ∃ text, w = .text text) :
    PatternAlike r s (.literal v) (.literal w)
  | captured {source : Nat}
    (h : ∀ before, (∃ text, r before source = .text text) ↔ ∃ text, s before source = .text text) :
    PatternAlike r s (.captured source) (.captured source)
  | other {e e' : Expr} (he : e.isValue = false) (he' : e'.isValue = false) :
    PatternAlike r s e e'

mutual

/-- Two expressions that differ in values of one shape alone, with readings for each of the two. -/
inductive Expr.Alike (r s : Readings) : Expr → Expr → Prop
  | column (c : ColumnRef) : Expr.Alike r s (.column c) (.column c)
  | literal {v w : Value} (h : v.Alike w) : Expr.Alike r s (.literal v) (.literal w)
  | captured {source : Nat} (h : ∀ before, (r before source).Alike (s before source)) :
    Expr.Alike r s (.captured source) (.captured source)
  | not {e e' : Expr} (h : Expr.Alike r s e e') : Expr.Alike r s (.not e) (.not e')
  | negate {e e' : Expr} (h : Expr.Alike r s e e') : Expr.Alike r s (.negate e) (.negate e')
  | compare (op : Comparison) {left left' right right' : Expr} (hl : Expr.Alike r s left left')
    (hr : Expr.Alike r s right right') :
    Expr.Alike r s (.compare op left right) (.compare op left' right')
  | connect (op : Connective) {left left' right right' : Expr} (hl : Expr.Alike r s left left')
    (hr : Expr.Alike r s right right') :
    Expr.Alike r s (.connect op left right) (.connect op left' right')
  | compute (op : Arithmetic) {left left' right right' : Expr} (hl : Expr.Alike r s left left')
    (hr : Expr.Alike r s right right') :
    Expr.Alike r s (.compute op left right) (.compute op left' right')
  | coalesce {args args' : List Expr} (h : Expr.AllAlike r s args args') :
    Expr.Alike r s (.coalesce args) (.coalesce args')
  | function (name : String) {args args' : List Expr} (h : Expr.AllAlike r s args args') :
    Expr.Alike r s (.function name args) (.function name args')
  | like (kind : LikeKind) {e e' pattern pattern' : Expr} (h : Expr.Alike r s e e')
    (hp : PatternAlike r s pattern pattern') :
    Expr.Alike r s (.like kind e pattern) (.like kind e' pattern')
  | isIn {e e' : Expr} {source source' : Membership} (h : Expr.Alike r s e e')
    (hs : source.Alike source') : Expr.Alike r s (.isIn e source) (.isIn e' source')
  | existence (negated : Bool) {query query' : Fragment} (h : query.Alike query') :
    Expr.Alike r s (.existence negated query) (.existence negated query')
  | aggregate (f : Aggregate) {arg arg' : Expr} (h : Expr.Alike r s arg arg') :
    Expr.Alike r s (.aggregate f arg) (.aggregate f arg')
  | aggregateAll (f : Aggregate) : Expr.Alike r s (.aggregateAll f) (.aggregateAll f)
  | aliased {e e' : Expr} (h : Expr.Alike r s e e') (aliasName : String) :
    Expr.Alike r s (.aliased e aliasName) (.aliased e' aliasName)
  | custom (sql : String) : Expr.Alike r s (.custom sql) (.custom sql)
  | qualified (c : ColumnRef) (aliasName : String) (kind : QualifierKind) :
    Expr.Alike r s (.qualified c aliasName kind) (.qualified c aliasName kind)
  | ordered {e e' : Expr} (h : Expr.Alike r s e e') (descending : Bool) :
    Expr.Alike r s (.ordered e descending) (.ordered e' descending)
  | endOfTuple : Expr.Alike r s .endOfTuple .endOfTuple
  | allFields (entity : EntityType) (aliasName : Option String) :
    Expr.Alike r s (.allFields entity aliasName) (.allFields entity aliasName)
  | cast {e e' : Expr} (h : Expr.Alike r s e e') (type : ColumnType) :
    Expr.Alike r s (.cast e type) (.cast e' type)

/-- As many expressions, each one alike to the other in its place. -/
inductive Expr.AllAlike (r s : Readings) : List Expr → List Expr → Prop
  | nil : Expr.AllAlike r s [] []
  | cons {e e' : Expr} {rest rest' : List Expr} (h : Expr.Alike r s e e')
    (hs : Expr.AllAlike r s rest rest') : Expr.AllAlike r s (e :: rest) (e' :: rest')

end

/-! ## Fragments of compiled parts -/

namespace Dialect

variable (d : Dialect)

@[simp] theorem outline_modulo (f g : Fragment) :
    (d.modulo f g).outline = d.modulo f.outline g.outline := by
  cases d <;> simp [modulo]

@[simp] theorem outline_concat (args : List Fragment) :
    (d.concat args).outline = d.concat (args.map Fragment.outline) := by
  cases d <;> simp [concat, Fragment.parenthesized]

@[simp] theorem outline_applyRule (rule : ArgumentRule) (args : List Fragment) :
    (rule.apply args).map Fragment.outline = rule.apply (args.map Fragment.outline) := by
  cases rule with
  | keep => rfl
  | shiftLast =>
    simp only [ArgumentRule.apply, List.getLast?_map]
    cases args.getLast? <;> simp
  | trimEnds => simp [ArgumentRule.apply, Function.comp_def]

end Dialect

/-- The item with the outline of its column. -/
def ProjectionItem.outline : ProjectionItem → ProjectionItem
  | .column c => .column c.outline
  | .tupleEnd => .tupleEnd

/-- Two lists of items that differ in values alone. -/
def ProjectionItem.AllAlike (items others : List ProjectionItem) : Prop :=
  items.map outline = others.map outline

theorem ProjectionItem.AllAlike.refl (items : List ProjectionItem) : AllAlike items items := rfl

theorem ProjectionItem.alike_column {f g : Fragment} (h : f.Alike g) (name : Option String) :
    AllAlike [.column ⟨f, name⟩] [.column ⟨g, name⟩] := by
  have same : f.outline = g.outline := h
  simp [AllAlike, outline, OutputColumn.outline, same]

theorem ProjectionItem.groupSizes_outline (current : Nat) (items : List ProjectionItem) :
    groupSizes current (items.map outline) = groupSizes current items := by
  induction items generalizing current with
  | nil => rfl
  | cons item rest ih => cases item <;> simp [outline, groupSizes, ih]

theorem ProjectionItem.filterMap_column?_outline (items : List ProjectionItem) :
    (items.map outline).filterMap column? = (items.filterMap column?).map OutputColumn.outline := by
  induction items with
  | nil => rfl
  | cons item rest ih => cases item <;> simp [outline, column?, List.filterMap_cons, ih]

theorem Projection.map_outline_ofItems (items : List ProjectionItem) :
    (ofItems items).map outline = ofItems (items.map ProjectionItem.outline) := by
  have marks : .tupleEnd ∈ items.map ProjectionItem.outline ↔ .tupleEnd ∈ items := by
    rw [List.mem_map]
    constructor
    · rintro ⟨item, mem, same⟩
      cases item with
      | column c => cases same
      | tupleEnd => exact mem
    · exact fun mem => ⟨_, mem, rfl⟩
  unfold ofItems
  rw [ProjectionItem.filterMap_column?_outline, ProjectionItem.groupSizes_outline]
  simp only [marks]
  cases items.filterMap ProjectionItem.column? <;> rfl

namespace Compiler

variable (t : Compiler)

/-- The compiler with other readings of captured values. -/
def reading (s : Readings) : Compiler := { t with readings := s }

@[simp] theorem outline_compute (op : Arithmetic) (f g : Fragment) :
    (t.compute op f g).outline = t.compute op f.outline g.outline := by
  cases op <;> simp [compute]

@[simp] theorem outline_aggregateOf (f : Aggregate) (arg : Fragment) :
    (t.aggregateOf f arg).outline = t.aggregateOf f arg.outline := by
  cases f <;> simp [aggregateOf, Dialect.countDistinct]

theorem map_outline_function (name : String) (args : List Fragment) :
    (t.function name args).map Fragment.outline = t.function name (args.map Fragment.outline) := by
  simp only [function_eq, List.length_map]
  split
  · simp [Except.map]
  split
  · simp [Except.map, Dialect.coalesce]
  split
  · simp [Except.map]
  split
  · simp [Except.map]
  · cases t.dialect.function? name <;> simp [Except.map]

theorem literal_of_isPlain (x : Context) {v : Value} (h : v.isPlain = true) :
    t.literal x v = .param v := by
  cases v <;> first | rfl | cases h

theorem alike_literal (x : Context) {v w : Value} (h : v.Alike w) :
    (t.literal x v).Alike (t.literal x w) := by
  cases h with
  | null => rfl
  | bool b => rfl
  | plain hv hw =>
    rw [literal_of_isPlain t x hv, literal_of_isPlain t x hw]
    rfl

theorem alike_like (kind : LikeKind) {f g : Fragment} (h : f.Alike g) (text text' : String) :
    (like kind f text).Alike (like kind g text') := by
  have same : f.outline = g.outline := h
  simp [Fragment.Alike, like, same]

/-- A list of values that are looked through: it matters whether there are any. -/
theorem membership_values (f : Fragment) (list : Option (List Value)) :
    t.membership f (.values list) =
      if (list.getD []).length = 0 then .sql t.dialect.falseLiteral
      else f.wrap "(" " IN (" ++ .join "," ((list.getD []).map .param) ++ .sql "))" := by
  match list with
  | none => rfl
  | some [] => rfl
  | some (_ :: _) => rfl

theorem alike_membership {f g : Fragment} {m m' : Membership} (h : f.Alike g)
    (hm : m.Alike m') : (t.membership f m).Alike (t.membership g m') := by
  have same : f.outline = g.outline := h
  cases hm with
  | subQuery hq =>
    have sameQuery : _ = _ := hq
    simp [Fragment.Alike, membership, same, sameQuery]
  | values hl =>
    rw [membership_values, membership_values, hl]
    split
    · rfl
    · simp [Fragment.Alike, same, Function.comp_def, List.map_const', hl]

/-! ## Compilations side by side -/

variable {t : Compiler} {s : Readings}

theorem agree_read {source : Nat}
    (h : ∀ before, (t.readings before source).Alike (s before source)) :
    Agree Eq Value.Alike (t.read source) ((t.reading s).read source) := by
  rintro before _ rfl
  exact ⟨.ok (h before), rfl⟩

theorem ownReads_eq_of_alike {r : Readings} {e e' : Expr} (h : Expr.Alike r s e e') :
    e.ownReads = e'.ownReads := by
  cases h <;> rfl

theorem alike_valueAt {e e' : Expr} (h : Expr.Alike t.readings s e e') (before : List Nat) :
    Option.Rel Value.Alike (t.valueAt before e) ((t.reading s).valueAt before e') := by
  cases h with
  | literal hv => exact .some hv
  | captured hv => exact .some (hv before)
  | _ => exact .none

/-- Operands that are values are read, and then they are alike. -/
theorem agree_value? {e e' : Expr} (h : Expr.Alike t.readings s e e') :
    Agree Eq (Option.Rel Value.Alike) (t.value? e) ((t.reading s).value? e') := by
  rintro before _ rfl
  rw [ending_value?, ending_value?, ownReads_eq_of_alike h]
  exact ⟨.ok (alike_valueAt h before), rfl⟩

/-- Patterns are read, and then both are texts or neither is. -/
theorem agree_pattern {pattern pattern' : Expr} (h : PatternAlike t.readings s pattern pattern') :
    Agree Eq (fun v w => (∃ text, v = some (.text text)) ↔ ∃ text, w = some (.text text))
      (t.value? pattern) ((t.reading s).value? pattern') := by
  rintro before _ rfl
  rw [ending_value?, ending_value?]
  cases h with
  | literal hv => exact ⟨.ok (by simpa [valueAt] using hv), rfl⟩
  | captured hv => exact ⟨.ok (by simpa [valueAt, reading] using hv before), rfl⟩
  | other he he' =>
    rw [valueAt_of_isValue t he, valueAt_of_isValue (t.reading s) he',
      Expr.ownReads_of_isValue he, Expr.ownReads_of_isValue he']
    exact ⟨.ok Iff.rfl, rfl⟩

theorem null_iff_of_rel {v w : Option Value} (h : Option.Rel Value.Alike v w) :
    v = some .null ↔ w = some .null := by
  cases h with
  | none => exact Iff.rfl
  | some hv => simpa using hv.eq_null_iff

theorem agree_operand {x : Context} {e e' : Expr} {v w : Option Value}
    (hv : Option.Rel Value.Alike v w)
    (he : Agree Eq Fragment.Alike (t.part x.value e) ((t.reading s).part x.value e')) :
    Agree Eq Fragment.Alike (t.operand x e v) ((t.reading s).operand x e' w) := by
  cases hv with
  | none => exact he
  | some h => exact agree_pure (alike_literal t x.value h)

/-- Comparisons of alike operands take the same form: null stands on the same sides. -/
theorem agree_comparison {x : Context} (op : Comparison) {left left' right right' : Expr}
    {l l' r r' : Option Value} (hl : Option.Rel Value.Alike l l')
    (hr : Option.Rel Value.Alike r r')
    (hleft : Agree Eq Fragment.Alike (t.part x.value left) ((t.reading s).part x.value left'))
    (hright : Agree Eq Fragment.Alike (t.part x.value right)
      ((t.reading s).part x.value right')) :
    Agree Eq Fragment.Alike (t.comparison x op left right l r)
      ((t.reading s).comparison x op left' right' l' r') := by
  refine comparison_related t (fun _ h => ?_) (fun hf hg => ?_) (null_iff_of_rel hl)
    (null_iff_of_rel hr) (agree_operand hl hleft) (agree_operand hr hright)
  · exact agree_return h fun _ _ hf => hf.wrap _ _
  · exact agree_bind hf fun _ _ ha => agree_return hg fun _ _ hb => ha.operation _ hb

theorem length_eq_of_allAlike {r : Readings} {es es' : List Expr} :
    Expr.AllAlike r s es es' → es.length = es'.length
  | .nil => rfl
  | .cons _ hs => congrArg (· + 1) (length_eq_of_allAlike hs)

mutual

theorem agree_part (x : Context) {e e' : Expr} : Expr.Alike t.readings s e e' →
    Agree Eq Fragment.Alike (t.part x e) ((t.reading s).part x e')
  | .column c => by
    rw [part, part]
    exact agree_lift (.refl Fragment.Alike.refl _)
  | .literal h => by
    rw [part, part]
    exact agree_pure (alike_literal t x h)
  | .captured h => by
    rw [part, part]
    exact agree_return (agree_read h) fun _ _ hv => alike_literal t x hv
  | .not h => by
    rw [part, part]
    exact agree_return (agree_part x.condition h) fun _ _ hf => hf.wrap _ _
  | .negate h => by
    rw [part, part]
    exact agree_return (agree_part x.arithmetic h) fun _ _ hf => hf.wrap _ _
  | .compare op hl hr => by
    rw [part_compare, part_compare]
    exact agree_bind (agree_value? hl) fun _ _ hv => agree_bind (agree_value? hr) fun _ _ hw =>
      agree_comparison op hv hw (agree_part x.value hl) (agree_part x.value hr)
  | .connect op hl hr => by
    rw [part, part]
    exact agree_bind (agree_part x.condition hl) fun _ _ hf =>
      agree_return (agree_part x.condition hr) fun _ _ hg => hf.operation _ hg
  | .compute op hl hr => by
    rw [part, part]
    refine agree_bind (agree_part x.arithmetic hl) fun f f' hf =>
      agree_return (agree_part x.arithmetic hr) fun g g' hg => ?_
    rw [Fragment.Alike, outline_compute, hf, hg]
    exact ((t.reading s).outline_compute op f' g').symm
  | .coalesce h => by
    rw [part, part, length_eq_of_allAlike h]
    refine agree_unless _ (agree_return (agree_parts x.value h) fun _ _ hfs => ?_)
    rw [Fragment.Alike, Dialect.coalesce, Dialect.coalesce, Fragment.outline_call,
      Fragment.outline_call, hfs]
  | .function name h => by
    rw [part, part]
    refine agree_bind (agree_parts x.value h) fun fs gs hfs => agree_lift (results_of_map_eq ?_)
    rw [map_outline_function, hfs]
    exact ((t.reading s).map_outline_function name gs).symm
  | .like kind h hp => by
    rw [part, part]
    refine agree_bind (agree_pattern hp) fun v w both => ?_
    split
    · split
      · exact agree_return (agree_part x.value h) fun _ _ hf => alike_like kind hf _ _
      · next hw =>
        obtain ⟨text, rfl⟩ := both.mp ⟨_, rfl⟩
        exact absurd rfl (hw text)
    · next hv =>
      split
      · obtain ⟨text, rfl⟩ := both.mpr ⟨_, rfl⟩
        exact absurd rfl (hv text)
      · exact agree_throw _
  | .isIn h hs => by
    rw [part, part]
    exact agree_unless _ (agree_return (agree_part x.value h) fun _ _ hf =>
      alike_membership t hf hs)
  | .existence negated h => by
    rw [part, part]
    exact agree_unless _ (agree_pure (h.nested.wrap _ _))
  | .aggregate f h => by
    rw [part, part]
    refine agree_bind (agree_lift (.refl (R := fun _ _ => True) (fun _ => trivial) _)) fun _ _ _ =>
      agree_return (agree_part x.aggregate h) fun g g' hg => ?_
    rw [Fragment.Alike, outline_aggregateOf, hg]
    exact ((t.reading s).outline_aggregateOf f g').symm
  | .aggregateAll f => by
    rw [part, part]
    exact agree_lift (.refl Fragment.Alike.refl _)
  | .aliased h aliasName => by
    rw [part, part]
    exact agree_throw _
  | .custom sql => by
    rw [part, part]
    exact agree_pure (Fragment.Alike.refl _)
  | .qualified c aliasName kind => by
    rw [part, part]
    exact agree_lift (.refl Fragment.Alike.refl _)
  | .ordered h descending => by
    rw [part, part]
    exact agree_throw _
  | .endOfTuple => by
    rw [part, part]
    exact agree_throw _
  | .allFields entity aliasName => by
    rw [part, part]
    exact agree_throw _
  | .cast h type => by
    rw [part, part]
    exact agree_return (agree_part x.value h) fun _ _ hf => hf.wrap _ _

theorem agree_parts (x : Context) {es es' : List Expr} : Expr.AllAlike t.readings s es es' →
    Agree Eq (fun fs gs => fs.map Fragment.outline = gs.map Fragment.outline)
      (t.parts x es) ((t.reading s).parts x es')
  | .nil => by
    rw [parts, parts]
    exact agree_pure rfl
  | .cons h hs => by
    rw [parts, parts]
    refine agree_bind (agree_part x h) fun f g hf =>
      agree_return (agree_parts x hs) fun _ _ hfs => ?_
    rw [List.map_cons, List.map_cons, hf, hfs]

end

/-! ## Clauses and projections -/

theorem agree_aliased (x : Context) {e e' : Expr} (h : Expr.Alike t.readings s e e')
    (aliasName : String) :
    Agree Eq Fragment.Alike (t.aliased x e aliasName) ((t.reading s).aliased x e' aliasName) :=
  agree_return (agree_part x h) fun _ _ hf => hf.append (.refl _)

/-- **Alike expressions in a clause** are refused for the same reason, or become fragments that
differ in values alone. -/
theorem agree_compile (position : Position) {e e' : Expr} (h : Expr.Alike t.readings s e e') :
    Agree Eq Fragment.Alike (t.compile position e) ((t.reading s).compile position e') := by
  have whole := agree_part (Context.top position) h
  cases h with
  | ordered h descending =>
    cases position with
    | orderItem =>
      refine agree_return (agree_part _ h) fun f f' hf => ?_
      cases descending with
      | true => exact hf.append (.refl _)
      | false => exact hf
    | _ => exact whole
  | aliased h aliasName =>
    cases position with
    | projection => exact agree_aliased _ h aliasName
    | _ => exact whole
  | _ => cases position <;> exact whole

/-- Expressions stand for the same columns in a projection, up to values in them. -/
theorem agree_projectionItems {e e' : Expr} (h : Expr.Alike t.readings s e e') :
    Agree Eq ProjectionItem.AllAlike (t.projectionItems e)
      ((t.reading s).projectionItems e') := by
  have whole := agree_part (Context.top .projection) h
  cases h with
  | column c => exact agree_self ProjectionItem.AllAlike.refl (t.projectionItems (.column c))
  | allFields entity aliasName =>
    exact agree_self ProjectionItem.AllAlike.refl (t.projectionItems (.allFields entity aliasName))
  | endOfTuple => exact agree_pure (ProjectionItem.AllAlike.refl _)
  | aliased h aliasName =>
    exact agree_return (agree_aliased _ h aliasName) fun _ _ hf => ProjectionItem.alike_column hf _
  | qualified c aliasName kind =>
    exact agree_return whole fun _ _ hf => ProjectionItem.alike_column hf _
  | _ => exact agree_return whole fun _ _ hf => ProjectionItem.alike_column hf _

theorem agree_items {es es' : List Expr} : Expr.AllAlike t.readings s es es' →
    Agree Eq (fun parts others => ProjectionItem.AllAlike parts.flatten others.flatten)
      (es.mapM t.projectionItems) (es'.mapM (t.reading s).projectionItems)
  | .nil => by
    rw [List.mapM_nil, List.mapM_nil]
    exact agree_pure (ProjectionItem.AllAlike.refl _)
  | .cons h hs => by
    rw [List.mapM_cons, List.mapM_cons]
    refine agree_bind (agree_projectionItems h) fun _ _ item =>
      agree_return (agree_items hs) fun _ _ others => ?_
    rw [ProjectionItem.AllAlike] at item others ⊢
    simp [item, others]

/-- **Alike projections** are refused for the same reason, or have the same columns up to values. -/
theorem agree_projection {es es' : List Expr} (h : Expr.AllAlike t.readings s es es') :
    Agree Eq (fun p p' => p.outline = p'.outline) (Projection.compile t es)
      (Projection.compile (t.reading s) es') := by
  refine agree_bind (agree_items h) fun parts others same =>
    agree_lift (results_of_map_eq ?_)
  rw [Projection.map_outline_ofItems, Projection.map_outline_ofItems, same]

end Compiler

end RowGraph
