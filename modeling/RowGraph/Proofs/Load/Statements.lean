import RowGraph.Proofs.Load.KeyLists

/-!
# Statements for children

The statements for the children of a reference differ in the keys alone: whether they can be made
does not depend on the keys, and a statement binds the keys of its list behind what the select
filters bind.

* `batchStatement_eq`: what a statement for keys is made of.
* `Lists`, `lists_batchStatement`: the column that it reads, as it is or inside `LOWER`, and the
  values that it lists; `Lists.values_eq`: without filters, these are all that it binds.
* `batchStatement_uniform`: one text around the keys, or one failure, for all lists of keys;
  `batchStatement_ignoringCase`: the failure does not depend on the case of letters either.
* `referenceStatements_eq`: the statements for parents are those for the batches of their keys.
-/

namespace RowGraph

variable {c : Catalog}

namespace Compiler

theorem outcome_map {α β : Type} (x : Compilation α) (f : α → β) :
    Compilation.outcome (do return f (← x)) = x.outcome.map f := by
  simp only [Compilation.outcome, ExceptT.run_bind, StateT.run_bind]
  rcases x.run.run [] with ⟨r, s⟩
  cases r <;> rfl

/-- Only the expression that is looked for can be refused. -/
theorem outcome_compile_isIn (t : Compiler) (e : Expr) (source : Membership) :
    (t.compile .predicate (.isIn e source)).outcome =
      (t.part (Context.top .predicate).value e).outcome.map (t.membership · source) := by
  have hpart : t.compile .predicate (.isIn e source) =
      (do return t.membership (← t.part (Context.top .predicate).value e) source) := by
    simp only [compile, part]
    rfl
  rw [hpart]
  exact outcome_map _ fun f => t.membership f source

/-- A column that is used as a value stands as it is. -/
theorem column_value (t : Compiler) (x : Context) (r : ColumnRef) :
    t.column x.value r = (t.resolve r).map fun (source, field) =>
      .sql (source.qualify t.catalog t.dialect field.column) := rfl

theorem outcome_part_column (t : Compiler) (x : Context) (r : ColumnRef) :
    (t.part x (.column r)).outcome = t.column x r := by
  rw [part]
  rfl

theorem outcome_part_lower (t : Compiler) (x : Context) (r : ColumnRef) :
    (t.part x (Expr.column r).lower).outcome = (t.column x.value r).map t.dialect.lower := by
  simp only [Expr.lower, part, parts]
  cases t.column x.value r <;> rfl

end Compiler

namespace Fragment

/-- A column as it is, or its text in small letters. -/
def subject (column : String) (lowered : Bool) : String :=
  if lowered then "LOWER(" ++ column ++ ")" else column

/-- The condition that a column, as it is or in small letters, is one of the listed values. -/
def isListed (column : String) (lowered : Bool) (listed : List Value) : Fragment :=
  .sql ("(" ++ subject column lowered ++ " IN (") ++ .join "," (listed.map .param) ++ .sql "))"

@[simp] theorem literals_isListed (column : String) (lowered : Bool) (listed : List Value) :
    (isListed column lowered listed).literals = listed := by
  have each : listed.flatMap (fun v => (param v).literals) = listed := by
    simp only [literals_param, List.flatMap_singleton']
  simp only [isListed, literals_append, literals_sql, literals_join, List.flatMap_map, each,
    List.nil_append, List.append_nil]

/-- The text in small letters stands inside a call. -/
theorem lower_sql (d : Dialect) (column : String) :
    d.lower (.sql column) = .sql ("LOWER(" ++ column ++ ")") := by
  simp only [Dialect.lower, call, join, wrap, sql, textThen_append_left, empty_append,
    ← textThen_append]
  rfl

end Fragment

/-- A text that is looked for in a list of keys. -/
theorem Compiler.membership_sql (t : Compiler) (column : String) (lowered : Bool)
    {listed : List Value} (h : listed ≠ []) :
    t.membership (.sql (Fragment.subject column lowered)) (.values (some listed)) =
      .isListed column lowered listed := by
  obtain ⟨v, rest, rfl⟩ := List.exists_cons_of_ne_nil h
  simp only [membership, Fragment.isListed, Fragment.wrap, Fragment.sql,
    Fragment.textThen_append_left, Fragment.empty_append, Fragment.textThen_append]

namespace Query

/-- The compiler for conditions that read no captured value. -/
def plain (q : Query c) : Compiler := q.compiler (fun _ _ => .null) none

/-- The query with one more condition. -/
def conditioned (q : Query c) (condition : Fragment) : Query c :=
  { q with filter := q.filter.push condition .and }

theorem run_get_bind {α : Type} (f : Query c → Builder c α) (q : Query c) :
    (get >>= f).run.run q = (f q).run.run q := rfl

/-- A query is restricted when the condition can be compiled over its sources. -/
theorem restricted_eq (q : Query c) (condition : Expr) :
    q.restricted condition =
      ((q.plain.compile .predicate condition).outcome.mapError .compile).map q.conditioned := by
  rw [restricted, Call.apply, Call.run, addCondition, Query.compile, bind_assoc, run_get_bind]
  rw [plain]
  generalize ((q.compiler (fun _ _ => .null) none).compile .predicate condition).outcome = r
  cases r <;> rfl

/-- A query restricted to some keys: the same refusal, or the same condition around the keys. -/
theorem restricted_isIn (q : Query c) (e : Expr) (keys : List Value) :
    q.restricted (.isIn e (.values (some keys))) =
      ((q.plain.part (Context.top .predicate).value e).outcome.mapError .compile).map fun f =>
        q.conditioned (q.plain.membership f (.values (some keys))) := by
  rw [restricted_eq, Compiler.outcome_compile_isIn]
  cases (q.plain.part (Context.top .predicate).value e).outcome <;> rfl

/-- All rows of an entity with one condition: only the condition binds anything. -/
theorem literals_conditioned_ofRoot (d : Dialect) (root : Source) (condition : Fragment) :
    ((ofRoot d root : Query c).conditioned condition).toFragment.literals =
      condition.literals := by
  have hcolumns : (Projection.entity c d root).toFragment.literals = [] := by
    simp [Projection.toFragment, Projection.entity, Source.columns, Fragment.literals_join]
  have hpage : ((ofRoot d root : Query c).conditioned condition).page.literals = [] := by
    rw [page]
    split
    · exact Fragment.literals_sql _
    · rfl
  have hbody : ((ofRoot d root : Query c).conditioned condition).body.literals =
      condition.literals := by
    change (Fragment.textThen _ (.empty ++ clause "\nWHERE " (some condition.grouped) ++ .empty ++
      .empty)).literals = _
    simp [clause, Fragment.literals]
  rw [toFragment, Fragment.literals_textThen, Fragment.literals_append, Fragment.literals_append,
    Fragment.literals_append, hbody, hpage]
  change (Projection.entity c d root).toFragment.literals ++ _ ++ [] ++ [] = _
  rw [hcolumns, List.nil_append, List.append_nil, List.append_nil]

end Query

namespace Plan

variable {e : Entity}

/-- What is looked for among the keys of the parents. -/
def sought (p : Plan c e) (ignoreCase : Bool) (field : Field) : Expr :=
  let column := Expr.column ⟨p.reference.target, field.name⟩
  if ignoreCase && field.type.isTextual then column.lower else column

theorem keyCondition_eq (p : Plan c e) (ignoreCase : Bool) (field : Field) (keys : List Value) :
    p.keyCondition ignoreCase field keys =
      .isIn (p.sought ignoreCase field) (.values (some (field.bound ignoreCase keys))) := by
  rw [keyCondition, sought, Field.bound]
  split <;> rfl

/-- What is looked for is the column of the field, in small letters where it holds texts and keys
match in any case. -/
theorem outcome_sought (p : Plan c e) (ignoreCase : Bool) (field : Field) (t : Compiler)
    (x : Context) :
    (t.part x.value (p.sought ignoreCase field)).outcome =
      (t.resolve ⟨p.reference.target, field.name⟩).map fun (source, found) =>
        .sql (Fragment.subject (source.qualify t.catalog t.dialect found.column)
          (ignoreCase && field.type.isTextual)) := by
  rw [sought]
  split
  · next lowered =>
    rw [Compiler.outcome_part_lower, Compiler.column_value, lowered]
    cases t.resolve ⟨p.reference.target, field.name⟩ with
    | error why => rfl
    | ok found => exact congrArg Except.ok (Fragment.lower_sql _ _)
  · next written =>
    rw [Compiler.outcome_part_column, Compiler.column_value, Bool.eq_false_iff.mpr written]
    rfl

end Plan

namespace Session

variable {e : Entity} {m : Type → Type} (s : Session c m)

/-- The session with keys that match in any case, or as they are written. -/
def ignoringCase (ignoreCase : Bool) : Session c m :=
  { s with settings := { s.settings with caseInsensitive := ignoreCase } }

/-- A statement for keys is made of the filtered query, with one more condition: that the column of
the field is one of the keys as they are bound. -/
theorem batchStatement_eq (p : Plan c e) (field : Field) (keys : List Value) :
    s.batchStatement p field keys =
      ((Query.ofRoot s.dialect ⟨p.reference.target, none⟩).filtered s.filters).bind fun q =>
        ((q.plain.resolve ⟨p.reference.target, field.name⟩).mapError .compile).map
          fun (source, found) => (q.conditioned (q.plain.membership
            (.sql (Fragment.subject (source.qualify c q.dialect found.column)
              (s.settings.caseInsensitive && field.type.isTextual)))
            (.values (some (field.bound s.settings.caseInsensitive keys))))).selectStatement := by
  refine bind_congr fun q => ?_
  rw [p.keyCondition_eq, q.restricted_isIn, p.outcome_sought]
  cases q.plain.resolve ⟨p.reference.target, field.name⟩ <;> rfl

/-- Whether statements can be made depends neither on the keys nor on the case of letters, and all
fail alike. -/
theorem batchStatement_ignoringCase (p : Plan c e) (field : Field) :
    ∃ made : Except QueryError (Bool → List Value → Statement), ∀ ignoreCase keys,
      (s.ignoringCase ignoreCase).batchStatement p field keys = made.map (· ignoreCase keys) := by
  simp only [batchStatement_eq, ignoringCase]
  cases (Query.ofRoot s.dialect ⟨p.reference.target, none⟩ : Query c).filtered s.filters with
  | error why => exact ⟨.error why, fun _ _ => rfl⟩
  | ok q =>
    simp only [Except.bind]
    cases q.plain.resolve ⟨p.reference.target, field.name⟩ with
    | error why => exact ⟨.error (.compile why), fun _ _ => rfl⟩
    | ok found => exact ⟨.ok fun _ _ => _, fun _ _ => rfl⟩

/-- The statements for some keys differ in the keys alone, and all fail alike. -/
theorem batchStatement_uniform (p : Plan c e) (field : Field) :
    ∃ made : Except QueryError (List Value → Statement),
      ∀ keys, s.batchStatement p field keys = made.map (· keys) := by
  obtain ⟨made, hmade⟩ := s.batchStatement_ignoringCase p field
  refine ⟨made.map (· s.settings.caseInsensitive), fun keys => ?_⟩
  refine (hmade s.settings.caseInsensitive keys).trans ?_
  cases made <;> rfl

/-- Statements that can be made where keys match in one way can be made in the other way. -/
theorem exists_make_ignoringCase {p : Plan c e} {field : Field} {make : List Value → Statement}
    (h : ∀ keys, s.batchStatement p field keys = .ok (make keys)) (ignoreCase : Bool) :
    ∃ make : List Value → Statement,
      ∀ keys, (s.ignoringCase ignoreCase).batchStatement p field keys = .ok (make keys) := by
  obtain ⟨made, hmade⟩ := s.batchStatement_ignoringCase p field
  cases made with
  | error why =>
    have hrefused : s.batchStatement p field [] = .error why :=
      hmade s.settings.caseInsensitive []
    rw [h] at hrefused
    cases hrefused
  | ok make => exact ⟨make ignoreCase, hmade ignoreCase⟩

/-- The statement selects, of the rows of a reference's target that the select filters let pass,
those whose column for a field is one of the listed values: it says so in a condition of its own,
`(column IN (..))`, or `(LOWER(column) IN (..))` where it reads the column in small letters. -/
def Lists (p : Plan c e) (field : Field) (statement : Statement) (lowered : Bool)
    (listed : List Value) : Prop :=
  ∃ q source found,
    (Query.ofRoot s.dialect ⟨p.reference.target, none⟩ : Query c).filtered s.filters = .ok q ∧
    q.plain.resolve ⟨p.reference.target, field.name⟩ = .ok (source, found) ∧
    statement =
      (q.conditioned (.isListed (source.qualify c q.dialect found.column) lowered
        listed)).selectStatement

variable {s} {p : Plan c e} {field : Field} {keys : List Value} {statement : Statement}

/-- **A statement for keys lists them as they are bound**, and reads the column in small letters
where it holds texts and keys match in any case. -/
theorem lists_batchStatement (hkeys : keys ≠ [])
    (h : s.batchStatement p field keys = .ok statement) :
    s.Lists p field statement (s.settings.caseInsensitive && field.type.isTextual)
      (field.bound s.settings.caseInsensitive keys) := by
  have hbound : field.bound s.settings.caseInsensitive keys ≠ [] := by
    rw [Field.bound]
    split
    · simpa using hkeys
    · exact hkeys
  rw [batchStatement_eq] at h
  cases hq : (Query.ofRoot s.dialect ⟨p.reference.target, none⟩ : Query c).filtered s.filters with
  | error why =>
    rw [hq] at h
    cases h
  | ok q =>
    rw [hq, Except.bind] at h
    cases hfound : q.plain.resolve ⟨p.reference.target, field.name⟩ with
    | error why =>
      rw [hfound] at h
      cases h
    | ok found =>
      rw [hfound] at h
      cases h
      exact ⟨q, found.1, found.2, hq, hfound, by rw [← q.plain.membership_sql _ _ hbound]⟩

/-- Without filters a query for children is restricted by its list alone. -/
theorem Lists.statement_eq (hfilters : filtersFor s.filters p.child = []) {lowered : Bool}
    {listed : List Value} (h : s.Lists p field statement lowered listed) :
    ∃ source found,
      (Query.ofRoot s.dialect ⟨p.reference.target, none⟩ : Query c).plain.resolve
        ⟨p.reference.target, field.name⟩ = .ok (source, found) ∧
      statement = ((Query.ofRoot s.dialect ⟨p.reference.target, none⟩ : Query c).conditioned
        (.isListed (source.qualify c s.dialect found.column) lowered listed)).selectStatement := by
  obtain ⟨q, source, found, hq, hfound, rfl⟩ := h
  have hroot : filtersFor s.filters
      (Query.ofRoot s.dialect ⟨p.reference.target, none⟩ : Query c).rootEntity = [] := hfilters
  rw [Query.filtered, hroot] at hq
  cases hq
  exact ⟨source, found, hfound, rfl⟩

/-- Without filters a statement for children binds the values of its list and nothing else. -/
theorem Lists.values_eq (hfilters : filtersFor s.filters p.child = []) {lowered : Bool}
    {listed : List Value} (h : s.Lists p field statement lowered listed) :
    statement.values = listed := by
  obtain ⟨source, found, -, rfl⟩ := h.statement_eq hfilters
  rw [Query.selectStatement, Statement.values_ofFragment, Query.literals_conditioned_ofRoot,
    Fragment.literals_isListed]

variable (s)

/-- The distinct keys of some parents. -/
def keysOf (p : Plan c e) (g : Graph c) (parents : List NodeId) : List Value :=
  distinctKeys s.settings.caseInsensitive [] (parents.map (p.parentKey g))

variable {s} in
/-- Where no key is asked for, no parent has one. -/
theorem isNull_of_keysOf_eq_nil {p : Plan c e} {g : Graph c} {parents : List NodeId}
    (h : s.keysOf p g parents = []) {parent : NodeId} (hparent : parent ∈ parents) :
    (p.parentKey g parent).isNull = true := by
  rw [← Value.isNone_matchKey _ s.settings.caseInsensitive]
  cases hkey : (p.parentKey g parent).matchKey s.settings.caseInsensitive with
  | none => rfl
  | some key =>
    have hasked := filter_distinctKeys_eq_askedFor (List.mem_map_of_mem hparent) hkey
    rw [keysOf] at h
    rw [h] at hasked
    cases hasked

/-- The statements for parents are those for the batches of their keys. -/
theorem referenceStatements_eq {p : Plan c e} {field : Fin p.child.fields.length}
    (hf : p.childField = .ok field) (g : Graph c) (parents : List NodeId) :
    s.referenceStatements p g parents =
      (batches s.settings.inBatchSize (s.keysOf p g parents)).mapM fun keys =>
        (s.batchStatement p (p.child.fieldAt field) keys).mapError .query := by
  rw [referenceStatements, keysOf]
  cases distinctKeys s.settings.caseInsensitive [] (parents.map (p.parentKey g)) with
  | nil => simp [batches]
  | cons key rest =>
    rw [hf]
    rfl

/-- A parent whose key is null puts no key into any statement. -/
theorem referenceStatements_filter (p : Plan c e) (g : Graph c) (parents : List NodeId) :
    s.referenceStatements p g (parents.filter fun parent => !(p.parentKey g parent).isNull) =
      s.referenceStatements p g parents := by
  have hkeys : distinctKeys s.settings.caseInsensitive []
      ((parents.filter fun parent => !(p.parentKey g parent).isNull).map (p.parentKey g)) =
      distinctKeys s.settings.caseInsensitive [] (parents.map (p.parentKey g)) := by
    rw [← distinctKeys_filter _ _ (parents.map (p.parentKey g)), List.filter_map]
    rfl
  rw [referenceStatements, referenceStatements, hkeys]

/-- Where all keys are null there is no statement. -/
theorem referenceStatements_of_null {p : Plan c e} {g : Graph c} {parents : List NodeId}
    (h : ∀ parent ∈ parents, (p.parentKey g parent).isNull = true) :
    s.referenceStatements p g parents = .ok [] := by
  have hnone : parents.filter (fun parent => !(p.parentKey g parent).isNull) = [] :=
    List.filter_eq_nil_iff.mpr fun parent hparent => by simp [h parent hparent]
  rw [← referenceStatements_filter, hnone]
  rfl

end Session

end RowGraph
