import RowGraph.Proofs.Query.Calls
import RowGraph.Proofs.Query.Meaning

/-!
# Which rows a deletion or an update affects

A deletion or an update names its rows by a condition of its own. Where the query reads the root's
table alone and without an alias, that is the filter: groups and their condition are lost. Else it
is the keys in the body of the query, with everything but the page. So what is affected is what
another query selects, `Query.forChange`, and that is the query itself unless it asks for a page or,
in the first case, for groups.

Results:
* `whole_run`: a query that returns entities returns every column of its root, repetitions included.
* `mem_affected_iff`: the affected rows are those that `Query.forChange` selects.
* **`changes_of_run`**: so, in every query of entities, a change affects selected rows only, if the
  query asks for no page and, as long as it is plain, for no groups.
* `Sample.changes_beyond`: a deletion that takes all teams, of which the query selects none.
-/

namespace RowGraph

open Attempt

variable {c : Catalog}

/-! ## Queries of entities -/

namespace Query

/-- What a query returns is all of its root, or a list with another shape. -/
structure Whole (q : Query c) : Prop where
  distinct : q.projection = none → q.distinct = false
  listed : ∀ p, q.projection = some p → p.shape ≠ .entity

/-- The projection stays, or becomes a list with another shape. -/
def OutputStep (q t : Query c) : Prop :=
  (t.projection = q.projection ∧ t.distinct = q.distinct) ∨
    ∃ p, t.projection = some p ∧ p.shape ≠ .entity

theorem OutputStep.refl (q : Query c) : OutputStep q q := .inl ⟨rfl, rfl⟩

theorem OutputStep.trans {q t u : Query c} (h : OutputStep q t) (k : OutputStep t u) :
    OutputStep q u := by
  obtain ⟨projection, distinct⟩ | listed := k
  · obtain ⟨projection', distinct'⟩ | ⟨p, hp, shape⟩ := h
    · exact .inl ⟨projection.trans projection', distinct.trans distinct'⟩
    · exact .inr ⟨p, projection.trans hp, shape⟩
  · exact .inr listed

theorem moves_output {f : Query c → Query c}
    (h : ∀ q, (f q).projection = q.projection ∧ (f q).distinct = q.distinct) :
    Moves OutputStep (modify f : Builder c Unit) :=
  moves_modify fun q => .inl (h q)

theorem moves_output_bind (new : Source) : Moves OutputStep (bind new : Builder c Unit) := by
  intro q
  cases hs : q.scope.bind c new with
  | error why =>
    rw [ending_bind_error hs]
    exact .refl q
  | ok scope =>
    rw [ending_bind_ok hs]
    exact .inl ⟨rfl, rfl⟩

/-- A join that is refused takes its source back. -/
theorem moves_output_unbind (why : QueryError) :
    Moves OutputStep (do unbind; throw why : Builder c Unit) :=
  moves_bind .trans (moves_output fun _ => ⟨rfl, rfl⟩) fun _ q => .refl q

theorem moves_output_compile_bind {env : Environment} {position : Position} {e : Expr}
    {f : Fragment → Builder c Unit} (h : ∀ fragment, Moves OutputStep (f fragment)) :
    Moves OutputStep (compile env position e >>= f) :=
  moves_bind .trans ((reads_compile env position e).moves .refl) h

theorem moves_output_addFilter (op : Connective) (condition : Fragment) :
    Moves OutputStep (addFilter op condition : Builder c Unit) :=
  moves_output fun _ => ⟨rfl, rfl⟩

theorem moves_output_join (env : Environment) (kind : JoinKind) (new : Source) (on : Expr) :
    Moves OutputStep (join env kind new on : Builder c Unit) := by
  refine moves_bind .trans (moves_output_bind new) fun _ q => ?_
  rw [ending_get_bind]
  split
  · exact .inl ⟨rfl, rfl⟩
  · exact moves_output_unbind _ q

theorem moves_output_joinByKey (kind : JoinKind) (new : Source) :
    Moves OutputStep (joinByKey kind new : Builder c Unit) := by
  intro q
  rw [joinByKey, ending_get_bind]
  refine moves_bind .trans (moves_output_bind new) (fun _ q' => ?_) q
  split
  · exact .inl ⟨rfl, rfl⟩
  · exact moves_output_unbind _ q'

/-- A list of items is never read back as an entity. -/
theorem shape_ne_entity {t : Compiler} {items : List Expr} {p : Projection}
    (h : (Projection.compile t items).outcome = .ok p) : p.shape ≠ .entity := by
  have run : Runs (Projection.compile t items) [] p _ := Prod.ext h rfl
  obtain ⟨parts, _, -, last⟩ := runs_bind.mp run
  obtain map | ⟨sizes, tuple, -⟩ := Projection.shape_ofItems (runs_lift.mp last).1
  · simp [map]
  · simp [tuple]

theorem moves_output_select (env : Environment) (distinct : Bool) (items : List Expr) :
    Moves OutputStep (Call.run env (.select distinct items) : Builder c Unit) := by
  intro q
  rw [Call.run, ending_get_bind]
  split
  · next p compiled => exact .inr ⟨p, rfl, shape_ne_entity compiled⟩
  · exact .refl q

/-- All that a call can do to what a query returns. -/
theorem moves_output_run (env : Environment) (call : Call) :
    Moves OutputStep (call.run env : Builder c Unit) := by
  cases call with
  | join kind new on => exact moves_output_join env kind new on
  | joinByKey kind new => exact moves_output_joinByKey kind new
  | crossJoin new | customJoin new sql =>
    exact moves_bind .trans (moves_output_bind new) fun _ => moves_output fun _ => ⟨rfl, rfl⟩
  | filter op condition => exact moves_output_compile_bind (moves_output_addFilter op)
  | filterRaw sql params | filterNamed sql params =>
    exact moves_bind .trans ((reads_lift _).moves .refl) (moves_output_addFilter .and)
  | filterExists negated query => exact moves_output_compile_bind (moves_output_addFilter .and)
  | groupBy e | having e | orderBy e | thenBy e =>
    exact moves_output_compile_bind fun _ => moves_output fun _ => ⟨rfl, rfl⟩
  | select distinct items => exact moves_output_select env distinct items
  | selectRaw sql => exact fun q => .inr ⟨.raw sql, rfl, nofun⟩
  | clearFilter | clearOrder | limit rows | skip rows => exact moves_output fun _ => ⟨rfl, rfl⟩

theorem whole_ofRoot (d : Dialect) (root : Source) : (ofRoot d root : Query c).Whole :=
  ⟨fun _ => rfl, fun _ listed => by cases listed⟩

theorem Whole.step {q t : Query c} (h : q.Whole) (moved : OutputStep q t) : t.Whole := by
  obtain ⟨projection, distinct⟩ | ⟨p, hp, shape⟩ := moved
  · refine ⟨fun none => ?_, fun p hp => h.listed p (projection.symm.trans hp)⟩
    rw [distinct, h.distinct (projection.symm.trans none)]
  · refine ⟨fun none => ?_, fun p' hp' => ?_⟩
    · rw [hp] at none
      cases none
    · rw [hp] at hp'
      cases hp'
      exact shape

theorem whole_run {q : Query c} (h : q.Whole) (calls : Calls) : (calls.run q).2.Whole := by
  induction calls generalizing q with
  | nil => exact h
  | cons call rest ih => exact ih (h.step (moves_output_run call.1 call.2 q))

/-- A query of entities selects every column of its root, repetitions included. -/
theorem Whole.selectStatement_eq {q : Query c} (h : q.Whole) (shape : q.shape = .entity) :
    q.selectStatement = .ofFragment q.dialect
      (.textThen "SELECT " ((Projection.entity c q.dialect q.root).toFragment ++ q.body ++
        listClause "\nORDER BY " q.orderBy ++ q.page)) .entity := by
  have whole : q.projection = none := by
    cases hp : q.projection with
    | none => rfl
    | some p =>
      rw [Query.shape, hp] at shape
      exact absurd shape (h.listed p hp)
  rw [selectStatement, shape, toFragment, h.distinct whole, columns, whole, Option.getD_none]
  rfl

end Query

/-! ## Conditions on the root's rows -/

/-- How a change names the rows of the root's table. -/
inductive RootCondition
  | all
  /-- Those that a condition holds for. -/
  | holds (condition : Fragment)
  /-- Those with a key that the body of the query has in this column. -/
  | keyIn (key : String)

namespace Query

variable (q : Query c)

/-- Whether the query reads the root's table alone and without an alias. -/
def IsPlain : Prop := q.joins = [] ∧ q.root.aliasName c = none

instance : Decidable q.IsPlain := inferInstanceAs (Decidable (_ ∧ _))

/-- How a change of the query names its rows. -/
def changeCondition : Except QueryError RootCondition :=
  if q.IsPlain then
    match q.filter.fragment with
    | some f => .ok (.holds f)
    | none => .ok .all
  else
    match q.rootEntity.requireKey with
    | .ok i => .ok (.keyIn (q.rootEntity.fieldAt i).column)
    | .error why => .error (.catalog why)

/-- How the condition is written. -/
def conditionText : RootCondition → Option Fragment
  | .all => none
  | .holds f => some f
  | .keyIn key =>
    some (q.body.wrap
      (q.dialect.quoteName key ++ " IN (SELECT " ++ q.root.qualify c q.dialect key) ")")

/-- The deletion of the rows under a condition. -/
def deletionOf (condition : RootCondition) : Statement :=
  .ofFragment q.dialect
    (.textThen ("DELETE FROM " ++ q.rootTable) (clause " WHERE " (q.conditionText condition))) .map

/-- The update of the rows under a condition. -/
def updateOf (sets : List Fragment) (condition : RootCondition) : Statement :=
  .ofFragment q.dialect
    (.textThen ("UPDATE " ++ q.rootTable ++ " SET ")
      (Fragment.join ", " sets ++ clause " WHERE " (q.conditionText condition))) .map

theorem rootCondition_eq : q.rootCondition = q.changeCondition.map q.conditionText := by
  unfold rootCondition changeCondition
  by_cases plain : q.IsPlain
  · obtain ⟨joins, aliasName⟩ := plain
    simp only [joins, aliasName, IsPlain]
    cases q.filter.fragment <;> rfl
  · have keyed : (q.joins.isEmpty && (q.root.aliasName c).isNone) = false := by
      simpa [IsPlain, Option.isSome_iff_ne_none] using plain
    rw [keyed, if_neg plain]
    cases q.rootEntity.requireKey <;> rfl

theorem deleteStatement_eq : q.deleteStatement = q.changeCondition.map q.deletionOf := by
  rw [deleteStatement, rootCondition_eq]
  cases q.changeCondition <;> rfl

variable {q} in
theorem updateStatement_eq_ok {assignments : List (String × Value)} {st : Statement}
    (h : q.updateStatement assignments = .ok st) :
    ∃ sets condition, q.changeCondition = .ok condition ∧ st = q.updateOf sets condition := by
  unfold updateStatement at h
  rw [rootCondition_eq] at h
  generalize (assignments.mapM _ : Except _ _) = parts at h
  cases parts with
  | error why => cases h
  | ok parts =>
    dsimp only [Bind.bind, Except.bind] at h
    split at h
    · cases h
    · cases hc : q.changeCondition with
      | error why =>
        rw [hc] at h
        cases h
      | ok condition =>
        rw [hc] at h
        cases h
        exact ⟨_, condition, rfl, rfl⟩

/-- The query whose rows a change affects: all pages of it, and, if it is plain, without groups. -/
def forChange : Query c :=
  { q with
    offset := none
    rows := none
    groupBy := if q.IsPlain then [] else q.groupBy
    having := if q.IsPlain then .empty else q.having }

variable {q} in
theorem forChange_of_plain (plain : q.IsPlain) :
    q.forChange.groupBy = [] ∧ q.forChange.having.fragment = none :=
  ⟨if_pos plain, congrArg FilterChain.fragment (if_pos plain)⟩

end Query

namespace Reading

variable {R : Type} (M : Reading R) (q : Query c)

/-- Whether a row of the root's table meets a condition. -/
def meets (condition : RootCondition) (r : R) : Bool :=
  match condition with
  | .all => true
  | .holds f => M.holds f ⟨q.root, some r, []⟩
  | .keyIn key => (M.bodyRows q).any fun s => M.equal (M.cell r key) (M.cell s key)

/-- The rows that a change under a condition affects. -/
def affected (condition : RootCondition) : List R :=
  (M.rowsOf c q.dialect q.root).filter (M.meets q condition)

/-- Where rows are named by keys, no two of them have equal ones. -/
def Identifies : RootCondition → Prop
  | .keyIn key => ∀ r ∈ M.rowsOf c q.dialect q.root, ∀ s ∈ M.rowsOf c q.dialect q.root,
      M.equal (M.cell r key) (M.cell s key) = true → r = s
  | _ => True

/-- Where rows are named by keys, the row has one: it is equal to itself, as no null is. -/
def HasKey : RootCondition → R → Prop
  | .keyIn key, r => M.equal (M.cell r key) (M.cell r key) = true
  | _, _ => True

variable {M q}

/-- The combinations of a query that reads one table are its rows. -/
theorem joined_of_plain (plain : q.IsPlain) :
    M.joined q = (M.rowsOf c q.dialect q.root).map fun r => ⟨q.root, some r, []⟩ := by
  rw [joined, plain.1]
  rfl

/-- Without a filter, a plain query has all rows; with one, those that it holds for. -/
theorem mem_combinations_of_plain (plain : q.IsPlain) {condition : RootCondition}
    (h : q.changeCondition = .ok condition) {r : R} :
    (∃ x ∈ M.combinations q, x.root = some r) ↔ r ∈ M.affected q condition := by
  rw [Query.changeCondition, if_pos plain] at h
  cases hf : q.filter.fragment with
  | none =>
    rw [hf] at h
    cases h
    simp only [combinations, hf, joined_of_plain plain, affected, List.mem_filter, List.mem_map]
    constructor
    · rintro ⟨x, ⟨s, hs, rfl⟩, same⟩
      cases same
      exact ⟨hs, rfl⟩
    · exact fun hr => ⟨_, ⟨r, hr.1, rfl⟩, rfl⟩
  | some f =>
    rw [hf] at h
    cases h
    simp only [combinations, hf, joined_of_plain plain, affected, meets, List.mem_filter,
      List.mem_map]
    constructor
    · rintro ⟨x, ⟨⟨s, hs, rfl⟩, holds⟩, same⟩
      cases same
      exact ⟨hs, holds⟩
    · rintro ⟨hr, holds⟩
      exact ⟨_, ⟨⟨r, hr, rfl⟩, holds⟩, rfl⟩

/-- The groups of a plain query are lost. -/
theorem mem_bodyRows_forChange_of_plain (plain : q.IsPlain) {r : R} :
    r ∈ M.bodyRows q.forChange ↔ ∃ x ∈ M.combinations q, x.root = some r :=
  mem_bodyRows_of_ungrouped (Query.forChange_of_plain plain).1 (Query.forChange_of_plain plain).2

/-- Those of a query that is not plain are kept. -/
theorem bodyRows_forChange (keyed : ¬ q.IsPlain) : M.bodyRows q.forChange = M.bodyRows q := by
  simp only [bodyRows, groups, allGroups, Query.forChange, if_neg keyed]
  rfl

/-- Rows are named by the keys in the body exactly if they are rows of the body, with a key. -/
theorem mem_affected_keyIn {key : String} (identifies : M.Identifies q (.keyIn key)) {r : R} :
    r ∈ M.affected q (.keyIn key) ↔ r ∈ M.bodyRows q ∧ M.HasKey (.keyIn key) r := by
  simp only [affected, meets, HasKey, List.mem_filter, List.any_eq_true]
  constructor
  · rintro ⟨hr, s, hs, equal⟩
    obtain rfl := identifies r hr s (mem_rowsOf_of_mem_bodyRows hs) equal
    exact ⟨hs, equal⟩
  · rintro ⟨hr, key⟩
    exact ⟨mem_rowsOf_of_mem_bodyRows hr, r, hr, key⟩

/-- **The rows that a change affects** are those with a key that `Query.forChange` selects. -/
theorem mem_affected_iff {condition : RootCondition} (h : q.changeCondition = .ok condition)
    (identifies : M.Identifies q condition) {r : R} :
    r ∈ M.affected q condition ↔ r ∈ M.selected q.forChange ∧ M.HasKey condition r := by
  rw [mem_selected_of_unpaged (q := q.forChange) rfl rfl]
  by_cases plain : q.IsPlain
  · have named : M.HasKey condition r := by
      rw [Query.changeCondition, if_pos plain] at h
      cases hf : q.filter.fragment <;> rw [hf] at h <;> cases h <;> trivial
    rw [mem_bodyRows_forChange_of_plain plain, mem_combinations_of_plain plain h]
    exact ⟨fun hr => ⟨hr, named⟩, And.left⟩
  · rw [bodyRows_forChange plain]
    rw [Query.changeCondition, if_neg plain] at h
    cases hk : q.rootEntity.requireKey with
    | error why =>
      rw [hk] at h
      cases h
    | ok i =>
      rw [hk] at h
      cases h
      rw [mem_affected_keyIn identifies]

/-- Without a page and, if it is plain, without groups, a query is the one whose rows a change
affects. -/
theorem mem_selected_forChange (offset : q.offset = none) (rows : q.rows = none)
    (groups : q.IsPlain → q.groupBy = [] ∧ q.having.fragment = none) {r : R} :
    r ∈ M.selected q.forChange ↔ r ∈ M.selected q := by
  rw [mem_selected_of_unpaged offset rows, mem_selected_of_unpaged (q := q.forChange) rfl rfl]
  by_cases plain : q.IsPlain
  · obtain ⟨keys, having⟩ := groups plain
    rw [mem_bodyRows_forChange_of_plain plain, mem_bodyRows_of_ungrouped keys having]
  · rw [bodyRows_forChange plain]

end Reading

/-- Whatever the tables hold, a change affects no row that the query does not select. -/
def Query.ChangesOnlySelected (q : Query c) : Prop :=
  ∀ (R : Type) (M : Reading R) (condition : RootCondition), q.changeCondition = .ok condition →
    M.Identifies q condition → ∀ r ∈ M.affected q condition, r ∈ M.selected q

/-- **Which rows the changes of a query of entities affect**, however it was built: the deletion and
the update have one condition, and it names the rows that the query selects without its page and, if
it is plain, without its groups. So they affect selected rows only, unless the query asks for a page
or is plain and asks for groups. -/
theorem changes_of_run (calls : Calls) (d : Dialect) (root : Source) :
    let q : Query c := (calls.run (.ofRoot d root)).2
    q.shape = .entity →
      q.selectStatement = .ofFragment q.dialect
          (.textThen "SELECT " ((Projection.entity c q.dialect q.root).toFragment ++ q.body ++
            Query.listClause "\nORDER BY " q.orderBy ++ q.page)) .entity ∧
        q.deleteStatement = q.changeCondition.map q.deletionOf ∧
        (∀ assignments st, q.updateStatement assignments = .ok st →
          ∃ sets condition, q.changeCondition = .ok condition ∧ st = q.updateOf sets condition) ∧
        (∀ (R : Type) (M : Reading R) (condition : RootCondition),
          q.changeCondition = .ok condition → M.Identifies q condition →
            ∀ r, r ∈ M.affected q condition ↔
              r ∈ M.selected q.forChange ∧ M.HasKey condition r) ∧
        (q.offset = none → q.rows = none →
          (q.IsPlain → q.groupBy = [] ∧ q.having.fragment = none) → q.ChangesOnlySelected) := by
  intro q shape
  have whole : q.Whole := Query.whole_run (Query.whole_ofRoot d root) calls
  refine ⟨whole.selectStatement_eq shape, q.deleteStatement_eq,
    fun _ _ => Query.updateStatement_eq_ok,
    fun R M condition h identifies r => Reading.mem_affected_iff h identifies, ?_⟩
  intro offset rows groups R M condition h identifies r hr
  have affected := (Reading.mem_affected_iff h identifies).mp hr
  exact (Reading.mem_selected_forChange offset rows groups).mp affected.1

namespace Sample

/-- An engine over one table of three rows, known by their numbers, which are their only values. A
condition compares the root's row with its only literal, a condition on a group the group's size. -/
def threeRows (table : String) : Reading Nat where
  table name := if name = table then [1, 2, 3] else []
  cell r _ := .int (Int64.ofNat r)
  equal v w := v == w
  holds f x := f.literals == (x.root.map fun r => Value.int (Int64.ofNat r)).toList
  groupKey _ x := (x.root.map fun r => Value.int (Int64.ofNat r)).getD .null
  holdsOf f group := match f.literals with
    | [.int n] => n.toInt < group.length
    | _ => false
  representative := List.head?
  byHand _ _ xs := xs
  sort _ groups := groups
  representative_mem := List.mem_of_mem_head?
  representative_singleton _ := rfl
  root_byHand h _ hr := ⟨_, h, hr⟩
  sort_perm _ groups := .refl groups

/-- The number of a team is two. -/
def secondTeam : Call :=
  .filter .and (.compare .eq (.column ⟨type "Team", "Id"⟩) (.literal (.int 2)))

/-- Teams are put together by their numbers, and those groups remain that have several teams. -/
def crowded : List Call :=
  [.groupBy (.column ⟨type "Team", "Id"⟩),
    .having (.compare .gt (.aggregateAll .count) (.literal (.int 1)))]

/-- Under an alias the second team alone is deleted, and it is what the query selects. -/
theorem changes_secondTeam :
    let q : Query catalog :=
      (Calls.run [(plainly, secondTeam)] (.ofRoot .sqlite ⟨type "Team", some "t"⟩)).2
    q.changeCondition = .ok (.keyIn "Id") ∧
      (threeRows "\"Team\"").affected q (.keyIn "Id") = [2] ∧
      ∀ r, r ∈ (threeRows "\"Team\"").affected q (.keyIn "Id") →
        r ∈ (threeRows "\"Team\"").selected q := by
  intro q
  have only : q.ChangesOnlySelected :=
    (changes_of_run [(plainly, secondTeam)] .sqlite ⟨type "Team", some "t"⟩ rfl).2.2.2.2 rfl rfl
      (by decide)
  have condition : q.changeCondition = .ok (.keyIn "Id") := rfl
  have identifies : (threeRows "\"Team\"").Identifies q (.keyIn "Id") := by
    unfold Reading.Identifies
    decide
  exact ⟨condition, by decide, only Nat _ _ condition identifies⟩

/-- **Changes beyond the selection.** No group has several teams, and so the query selects none, but
the deletion has no condition and takes all three; and where one team is asked for, the deletion
takes the others as well. -/
theorem changes_beyond :
    let q := Query.after plainly crowded teams
    let first := Query.after plainly [.limit 1] teams
    q.deleteStatement.map Statement.sql = .ok "DELETE FROM \"Team\"" ∧
      (threeRows "\"Team\"").selected q = [] ∧
      (threeRows "\"Team\"").affected q .all = [1, 2, 3] ∧
      ¬ q.ChangesOnlySelected ∧ ¬ first.ChangesOnlySelected := by
  intro q first
  have deletion : (Query.after plainly crowded teams).deleteStatement.map Statement.sql =
      .ok "DELETE FROM \"Team\"" := rfl
  refine ⟨deletion, by decide, by decide, fun only => ?_, fun only => ?_⟩
  · have selected : 1 ∈ (threeRows "\"Team\"").selected q :=
      only Nat _ .all rfl trivial 1 (by decide)
    revert selected
    decide
  · have selected : 2 ∈ (threeRows "\"Team\"").selected first :=
      only Nat _ .all rfl trivial 2 (by decide)
    revert selected
    decide

end Sample

end RowGraph
