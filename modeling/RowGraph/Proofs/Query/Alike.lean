import Mathlib.Data.List.Perm.Basic
import RowGraph.Proofs.Compile.Alike
import RowGraph.Proofs.Query.Calls

/-!
# The text of statements holds no values

Two runs of the same calls, with other values in their expressions and parameters, go alike: each
call fails in both runs or in neither, and the queries in the end differ in the values of their
clauses alone. So a value cannot change the text of a statement, whatever it is.

Results:
* `results_fill`: conditions written by hand, with their tokens filled in.
* `agree_run`: one call, from queries that differ in values alone.
* `alike_run`: calls one after the other, by induction.
* **`text_without_values`**: the statements of both runs have the same text and parameters of the
  same origins.
-/

namespace RowGraph

open Attempt

variable {c : Catalog}

/-! ## Conditions written by hand -/

/-- A text filled with other values for the same tokens. -/
theorem results_fill {ε : Type} {value value' : String → Except ε Value}
    (h : ∀ name, Results (fun _ _ => True) (value name) (value' name))
    (pieces : List RawText.Piece) :
    Results Fragment.Alike (RawText.fill value pieces) (RawText.fill value' pieces) := by
  induction pieces with
  | nil => exact .ok (.refl _)
  | cons piece rest ih =>
    cases piece with
    | char char =>
      refine ih.bind fun f g hf => .ok ?_
      rw [Fragment.Alike, Fragment.outline_textThen, hf, Fragment.outline_textThen]
    | token name =>
      refine (h _).bind fun v w _ => ih.bind fun f g hf => .ok ?_
      rw [Fragment.Alike, Fragment.outline, Fragment.outline, hf]

/-- A numbered token has a value if there are enough of them. -/
theorem results_positionalValue (sql : String) {params others : List Value}
    (h : params.length = others.length) (name : String) :
    Results (fun _ _ => True) (Query.positionalValue sql params name)
      (Query.positionalValue sql others name) := by
  unfold Query.positionalValue
  generalize (Text.digitsNumber? name.toList).filter (· < UInt64.size) = index
  cases index with
  | none =>
    rw [h]
    exact .error _
  | some i =>
    by_cases hi : i < params.length
    · have hi' : i < others.length := h ▸ hi
      simp only [Option.bind_some, List.getElem?_eq_getElem hi, List.getElem?_eq_getElem hi']
      exact .ok trivial
    · have hi' : ¬ i < others.length := h ▸ hi
      simp only [Option.bind_some, List.getElem?_eq_none (Nat.le_of_not_lt hi),
        List.getElem?_eq_none (Nat.le_of_not_lt hi'), h]
      exact .error _

/-- A named token has a value if there is one of its name, in whatever order the names come. -/
theorem results_namedValue (form : String → String) {params others : List (String × Json)}
    (h : (params.map Prod.fst).Perm (others.map Prod.fst)) (name : String) :
    Results (fun _ _ => True) (Query.namedValue form params name)
      (Query.namedValue form others name) := by
  have found (list : List (String × Json)) :
      (list.reverse.find? fun p => form p.1 == form name).isSome = true ↔
        ∃ n ∈ list.map Prod.fst, form n = form name := by
    simp [List.find?_isSome]
  have same : (params.reverse.find? fun p => form p.1 == form name).isSome =
      (others.reverse.find? fun p => form p.1 == form name).isSome := by
    rw [Bool.eq_iff_iff, found, found]
    simp only [h.mem_iff]
  unfold Query.namedValue
  revert same
  generalize (params.reverse.find? fun p => form p.1 == form name) = p
  generalize (others.reverse.find? fun p => form p.1 == form name) = p'
  intro same
  cases p with
  | none => cases p' with
    | none => exact .error _
    | some _ => cases same
  | some _ => cases p' with
    | none => cases same
    | some _ => exact .ok trivial

/-! ## Calls that differ in values -/

/-- Two calls that differ in values of one shape alone, with readings for each of the two. The
parameters of a condition written by hand may have any values, and those that have names may come in
any order. -/
inductive Call.Alike (r s : Readings) : Call → Call → Prop
  | join (kind : JoinKind) (new : Source) {on on' : Expr} (h : Expr.Alike r s on on') :
    Alike r s (.join kind new on) (.join kind new on')
  | crossJoin (new : Source) : Alike r s (.crossJoin new) (.crossJoin new)
  | joinByKey (kind : JoinKind) (new : Source) :
    Alike r s (.joinByKey kind new) (.joinByKey kind new)
  | customJoin (new : Source) (sql : String) : Alike r s (.customJoin new sql) (.customJoin new sql)
  | filter (op : Connective) {condition condition' : Expr}
    (h : Expr.Alike r s condition condition') :
    Alike r s (.filter op condition) (.filter op condition')
  | filterRaw (sql : String) {params params' : List Value} (h : params.length = params'.length) :
    Alike r s (.filterRaw sql params) (.filterRaw sql params')
  | filterNamed (sql : String) {params params' : List (String × Json)}
    (h : (params.map Prod.fst).Perm (params'.map Prod.fst)) :
    Alike r s (.filterNamed sql params) (.filterNamed sql params')
  | filterExists (negated : Bool) {query query' : Fragment} (h : query.Alike query') :
    Alike r s (.filterExists negated query) (.filterExists negated query')
  | clearFilter : Alike r s .clearFilter .clearFilter
  | groupBy {key key' : Expr} (h : Expr.Alike r s key key') :
    Alike r s (.groupBy key) (.groupBy key')
  | having {condition condition' : Expr} (h : Expr.Alike r s condition condition') :
    Alike r s (.having condition) (.having condition')
  | orderBy {item item' : Expr} (h : Expr.Alike r s item item') :
    Alike r s (.orderBy item) (.orderBy item')
  | thenBy {item item' : Expr} (h : Expr.Alike r s item item') :
    Alike r s (.thenBy item) (.thenBy item')
  | clearOrder : Alike r s .clearOrder .clearOrder
  | select (distinct : Bool) {items items' : List Expr} (h : Expr.AllAlike r s items items') :
    Alike r s (.select distinct items) (.select distinct items')
  | selectRaw (sql : String) : Alike r s (.selectRaw sql) (.selectRaw sql)
  | limit (rows : Nat) : Alike r s (.limit rows) (.limit rows)
  | skip (rows : Nat) : Alike r s (.skip rows) (.skip rows)

/-- As many calls, each one alike to the other in its place. -/
inductive Calls.Alike : Calls → Calls → Prop
  | nil : Calls.Alike [] []
  | cons {env env' : Environment} {call call' : Call} {rest rest' : Calls}
    (names : env.parameterName = env'.parameterName)
    (h : call.Alike env.readings env'.readings call') (hs : Calls.Alike rest rest') :
    Calls.Alike ((env, call) :: rest) ((env', call') :: rest')

/-! ## One call -/

namespace Query

/-- Two queries that differ in the values of their clauses alone. -/
def Alike (q p : Query c) : Prop := q.outline = p.outline

/-- A change that acts on outlines as on queries. -/
theorem agree_change (f : Query c → Query c) (h : ∀ q, (f q).outline = f q.outline) :
    Agree Alike (fun _ _ => True) (modify f : Builder c Unit) (modify f) := by
  refine agree_modify fun q p same => ?_
  rw [Alike, h, h, same]

/-- A change by a fragment that acts on outlines as on queries. -/
theorem agree_changeBy (f : Fragment → Query c → Query c)
    (h : ∀ a q, (f a q).outline = f a.outline q.outline) {a b : Fragment} (hab : a.Alike b) :
    Agree Alike (fun _ _ => True) (modify (f a) : Builder c Unit) (modify (f b)) := by
  refine agree_modify fun q p same => ?_
  rw [Alike, h, h, hab, same]

/-- Queries that differ in values alone have one dialect and the same sources. -/
theorem Alike.sources {q p : Query c} (h : q.Alike p) :
    q.dialect = p.dialect ∧ q.root = p.root ∧ q.joined = p.joined := by
  have same : q.outline = p.outline := h
  have dialect := congrArg Query.dialect same
  have root := congrArg Query.root same
  have joined := congrArg Query.joined same
  exact ⟨dialect, root, joined⟩

theorem Alike.scope {q p : Query c} (h : q.Alike p) : q.scope = p.scope := by
  obtain ⟨-, root, joined⟩ := h.sources
  rw [Query.scope, Query.scope, root, joined]

theorem Alike.compiler {q p : Query c} (h : q.Alike p) (r s : Readings)
    (target : Option Source) : p.compiler s target = (q.compiler r target).reading s := by
  rw [Query.compiler, Query.compiler, Compiler.reading, h.sources.1, h.scope]

variable {env env' : Environment}

/-- An expression compiled over queries that differ in values alone. -/
theorem results_compile {q p : Query c} (same : q.Alike p) (position : Position)
    (target : Option Source) {e e' : Expr} (h : Expr.Alike env.readings env'.readings e e') :
    Results Fragment.Alike ((q.compiler env.readings target).compile position e).outcome
      ((p.compiler env'.readings target).compile position e').outcome := by
  rw [same.compiler env.readings env'.readings]
  exact (Compiler.agree_compile position h [] [] rfl).1

theorem agree_compile {position : Position} {e e' : Expr}
    (h : Expr.Alike env.readings env'.readings e e') :
    Agree Alike Fragment.Alike (compile env position e : Builder c Fragment)
      (compile env' position e') := by
  intro q p same
  have results := results_compile same position none h
  rw [compile, compile, ending_get_bind, ending_get_bind]
  generalize ((q.compiler env.readings none).compile position e).outcome = r at results ⊢
  generalize ((p.compiler env'.readings none).compile position e').outcome = r' at results ⊢
  cases results with
  | ok hf => exact agree_pure hf q p same
  | error why => exact agree_throw _ q p same

theorem agree_bindSource (new : Source) :
    Agree Alike (fun _ _ => True) (bind new : Builder c Unit) (bind new) := by
  intro q p same
  rw [bind, ending_get_bind, ending_get_bind, same.scope]
  cases p.scope.bind c new with
  | error why => exact agree_throw _ q p same
  | ok scope =>
    exact agree_change (fun q => { q with joined := q.joined ++ [new] }) (fun _ => rfl) q p same

theorem agree_unbind_throw {α : Type} {R : α → α → Prop} (why : QueryError) :
    Agree Alike R (do unbind; throw why : Builder c α) (do unbind; throw why) :=
  agree_bind (agree_change (fun q => { q with joined := q.joined.dropLast }) fun _ => rfl)
    fun _ _ _ => agree_throw why

theorem agree_addJoin (source : Source) (form : JoinForm) (h : form.outline = form) :
    Agree Alike (fun _ _ => True) (addJoin source form : Builder c Unit) (addJoin source form) :=
  agree_change (fun q => { q with joins := q.joins ++ [⟨source, form⟩] }) fun q => by
    simp [outline, Join.outline, h]

theorem agree_addJoin_on (source : Source) (kind : JoinKind) {f g : Fragment} (h : f.Alike g) :
    Agree Alike (fun _ _ => True) (addJoin source (.on kind f) : Builder c Unit)
      (addJoin source (.on kind g)) :=
  agree_changeBy (fun f q => { q with joins := q.joins ++ [⟨source, .on kind f⟩] })
    (fun f q => by simp [outline, Join.outline, JoinForm.outline]) h

theorem agree_addFilter (op : Connective) {f g : Fragment} (h : f.Alike g) :
    Agree Alike (fun _ _ => True) (addFilter op f : Builder c Unit) (addFilter op g) :=
  agree_changeBy (fun f q => { q with filter := q.filter.push f op })
    (fun f q => by simp [outline]) h

theorem agree_join (kind : JoinKind) (new : Source) {on on' : Expr}
    (h : Expr.Alike env.readings env'.readings on on') :
    Agree Alike (fun _ _ => True) (join env kind new on : Builder c Unit)
      (join env' kind new on') := by
  refine agree_bind (agree_bindSource new) fun _ _ _ q p same => ?_
  have results := results_compile same .predicate (some new) h
  rw [ending_get_bind, ending_get_bind]
  generalize ((q.compiler env.readings (some new)).compile .predicate on).outcome = r at results ⊢
  generalize ((p.compiler env'.readings (some new)).compile .predicate on').outcome = r'
    at results ⊢
  cases results with
  | ok hf => exact agree_addJoin_on new kind hf q p same
  | error why => exact agree_unbind_throw _ q p same

/-- Joins along a key look at the sources alone. -/
theorem agree_joinByKey (kind : JoinKind) (new : Source) :
    Agree Alike (fun _ _ => True) (joinByKey kind new : Builder c Unit) (joinByKey kind new) := by
  intro q p same
  rw [joinByKey, ending_get_bind, ending_get_bind, same.sources.1, same.scope]
  refine agree_bind (agree_bindSource new) (fun _ _ _ => ?_) q p same
  split
  · exact agree_addJoin_on new kind (.refl _)
  · exact agree_unbind_throw _

/-- The items of a projection are compiled, and then the query changes. -/
theorem agree_select (distinct : Bool) {items items' : List Expr}
    (h : Expr.AllAlike env.readings env'.readings items items') :
    Agree Alike (fun _ _ => True) (Call.run env (.select distinct items) : Builder c Unit)
      (Call.run env' (.select distinct items')) := by
  intro q p same
  have results : Results (fun a b => a.outline = b.outline)
      (Projection.compile (q.compiler env.readings none) items).outcome
      (Projection.compile (p.compiler env'.readings none) items').outcome := by
    rw [same.compiler env.readings env'.readings]
    exact (Compiler.agree_projection h [] [] rfl).1
  rw [Call.run, Call.run, ending_get_bind, ending_get_bind]
  generalize (Projection.compile (q.compiler env.readings none) items).outcome = r at results ⊢
  generalize (Projection.compile (p.compiler env'.readings none) items').outcome = r' at results ⊢
  cases results with
  | @ok a b hab =>
    refine agree_modify (fun q p same => ?_) q p same
    have outlined : ∀ (x : Projection) (q : Query c),
        ({ q with projection := some x, distinct } : Query c).outline =
          { q.outline with projection := some x.outline, distinct } := fun _ _ => rfl
    rw [Alike, outlined, outlined, hab, same]
  | error why => exact agree_throw _ q p same

end Query

namespace Call

open Query

variable {env env' : Environment}

/-- **A call goes alike** over queries that differ in values alone, if the call does too. -/
theorem agree_run (names : env.parameterName = env'.parameterName) {call call' : Call}
    (h : call.Alike env.readings env'.readings call') :
    Agree Query.Alike (fun _ _ => True) (call.run env : Builder c Unit) (call'.run env') := by
  cases h with
  | join kind new h => exact agree_join kind new h
  | crossJoin new => exact agree_bind (agree_bindSource new) fun _ _ _ => agree_addJoin new _ rfl
  | joinByKey kind new => exact agree_joinByKey kind new
  | customJoin new sql =>
    exact agree_bind (agree_bindSource new) fun _ _ _ => agree_addJoin new _ rfl
  | filter op h => exact agree_bind (agree_compile h) fun _ _ hf => agree_addFilter op hf
  | filterRaw sql h =>
    exact agree_bind (agree_lift (results_fill (results_positionalValue sql h) _))
      fun _ _ hf => agree_addFilter .and hf
  | filterNamed sql h =>
    rw [Call.run, Call.run, names]
    exact agree_bind (agree_lift (results_fill (results_namedValue env'.parameterName h) _))
      fun _ _ hf => agree_addFilter .and hf
  | filterExists negated h =>
    exact agree_bind (agree_compile (.existence negated h)) fun _ _ hf => agree_addFilter .and hf
  | clearFilter => exact agree_change (fun q => { q with filter := .empty }) fun _ => rfl
  | groupBy h =>
    exact agree_bind (agree_compile h) fun _ _ => agree_changeBy
      (fun f q => { q with groupBy := q.groupBy ++ [f] }) fun f q => by simp [outline]
  | having h =>
    exact agree_bind (agree_compile h) fun _ _ => agree_changeBy
      (fun f q => { q with having := q.having.push f .and }) fun f q => by simp [outline]
  | orderBy h =>
    exact agree_bind (agree_compile h) fun _ _ => agree_changeBy
      (fun f q => { q with orderBy := [f] }) fun f q => by simp [outline]
  | thenBy h =>
    exact agree_bind (agree_compile h) fun _ _ => agree_changeBy
      (fun f q => { q with orderBy := q.orderBy ++ [f] }) fun f q => by simp [outline]
  | clearOrder => exact agree_change (fun q => { q with orderBy := [] }) fun _ => rfl
  | select distinct h => exact agree_select distinct h
  | selectRaw sql =>
    exact agree_change (fun q => { q with projection := some (.raw sql), distinct := false })
      fun q => by simp [outline, Projection.raw, Projection.outline, OutputColumn.outline]
  | limit rows => exact agree_change (fun q => { q with rows := some rows }) fun _ => rfl
  | skip rows => exact agree_change (fun q => { q with offset := some rows }) fun _ => rfl

end Call

/-! ## Calls one after the other -/

/-- Alike calls end alike, and leave queries that differ in values alone. -/
theorem Calls.alike_run {calls others : Calls} (h : calls.Alike others) {q p : Query c}
    (same : q.Alike p) :
    (calls.run q).1 = (others.run p).1 ∧ (calls.run q).2.Alike (others.run p).2 := by
  induction h generalizing q p with
  | nil => exact ⟨rfl, same⟩
  | cons names hcall hs ih =>
    obtain ⟨results, next⟩ := Call.agree_run names hcall q p same
    obtain ⟨others, last⟩ := ih next
    refine ⟨?_, last⟩
    rw [Calls.run, Calls.run]
    exact List.cons_eq_cons.mpr ⟨results.eq_of_unit, others⟩

namespace Query

theorem Alike.toFragment {q p : Query c} (h : q.Alike p) : q.toFragment.Alike p.toFragment := by
  rw [Fragment.Alike, outline_toFragment, outline_toFragment, h]

theorem Alike.selectStatement {q p : Query c} (h : q.Alike p) :
    q.selectStatement.Alike p.selectStatement := by
  have shape : q.shape = p.shape := by rw [← q.shape_outline, ← p.shape_outline, h]
  rw [Query.selectStatement, Query.selectStatement, h.sources.1, shape]
  exact Statement.alike_ofFragment h.toFragment _ _

theorem Alike.countStatement {q p : Query c} (h : q.Alike p) :
    q.countStatement.Alike p.countStatement := by
  rw [Query.countStatement, Query.countStatement, h.sources.1]
  refine Statement.alike_ofFragment ?_ _ _
  rw [Fragment.Alike, outline_countFragment, outline_countFragment, h]

/-- Both deletions are refused, for the same reason, or have one text. -/
theorem Alike.deleteStatement {q p : Query c} (h : q.Alike p) :
    Results Statement.Alike q.deleteStatement p.deleteStatement := by
  have conditions := (outline_rootCondition q).trans
    ((congrArg rootCondition h).trans (outline_rootCondition p).symm)
  refine (results_of_map_eq conditions).bind fun condition condition' same => .ok ?_
  rw [rootTable, rootTable, h.sources.1, h.sources.2.1]
  refine Statement.alike_ofFragment ?_ _ _
  rw [Fragment.Alike, Fragment.outline_textThen, Fragment.outline_textThen, outline_clause,
    outline_clause, same]

end Query

/-- **The text of statements holds no values.** Two runs of calls that differ in values of one shape
alone end alike: each call succeeds in both runs or fails with one error in both, and the selection,
the count and the deletion have the same text, with parameters of the same origins. The queries can
be embedded in others, which are alike again. -/
theorem text_without_values {calls others : Calls} (h : calls.Alike others) (d : Dialect)
    (root : Source) :
    let run := calls.run (Query.ofRoot d root : Query c)
    let otherRun := others.run (Query.ofRoot d root : Query c)
    run.1 = otherRun.1 ∧
      run.2.selectStatement.Alike otherRun.2.selectStatement ∧
      run.2.countStatement.Alike otherRun.2.countStatement ∧
      Results Statement.Alike run.2.deleteStatement otherRun.2.deleteStatement ∧
      run.2.toFragment.Alike otherRun.2.toFragment := by
  intro run otherRun
  obtain ⟨ends, same⟩ := Calls.alike_run h (Eq.refl (Query.ofRoot d root : Query c).outline)
  exact ⟨ends, same.selectStatement, same.countStatement, same.deleteStatement, same.toFragment⟩

namespace Sample

/-- The teams of a name with one of some identifiers, between two bounds that come in some order. -/
def namedTeams (name : String) (ids : List Value) (bounds : List (String × Json)) : Calls :=
  [(plainly, .filter .and (.compare .eq (.column ⟨type "Team", "Name"⟩) (.literal (.text name)))),
    (plainly, .filter .and (.isIn (.column ⟨type "Team", "Id"⟩) (.values (some ids)))),
    (plainly, .filterNamed "Id BETWEEN \x7blow\x7d AND \x7bhigh\x7d" bounds)]

/-- A name with quotes in it, a list with null, and bounds in the other order do not change the
text. -/
theorem text_with_quoted_name :
    let plain := namedTeams "Operations" [.int 1, .int 2]
      [("low", .integer 1), ("high", .integer 9)]
    let quoted := namedTeams "' OR '1'='1" [.null, .bool true]
      [("high", .string "--"), ("low", .null)]
    plain.Alike quoted ∧ (plain.run teams).1 = [.ok (), .ok (), .ok ()] ∧
      (quoted.run teams).1 = [.ok (), .ok (), .ok ()] ∧
      (plain.run teams).2.selectStatement.Alike (quoted.run teams).2.selectStatement := by
  intro plain quoted
  have named : Expr.Alike plainly.readings plainly.readings
      (.compare .eq (.column ⟨type "Team", "Name"⟩) (.literal (.text "Operations")))
      (.compare .eq (.column ⟨type "Team", "Name"⟩) (.literal (.text "' OR '1'='1"))) :=
    .compare .eq (.column _) (.literal (.plain rfl rfl))
  have listed : Expr.Alike plainly.readings plainly.readings
      (.isIn (.column ⟨type "Team", "Id"⟩) (.values (some [.int 1, .int 2])))
      (.isIn (.column ⟨type "Team", "Id"⟩) (.values (some [.null, .bool true]))) :=
    .isIn (.column _) (.values rfl)
  have alike : plain.Alike quoted :=
    .cons rfl (.filter .and named) (.cons rfl (.filter .and listed)
      (.cons rfl (.filterNamed _ (.swap "high" "low" [])) .nil))
  obtain ⟨ends, selections, -⟩ := text_without_values alike .sqlite ⟨type "Team", none⟩
  have succeed : (plain.run teams).1 = [.ok (), .ok (), .ok ()] := by decide +kernel
  exact ⟨alike, succeed, ends.symm.trans succeed, selections⟩

end Sample

end RowGraph
