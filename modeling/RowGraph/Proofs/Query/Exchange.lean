import RowGraph.Proofs.Compile.SourceNames
import RowGraph.Proofs.Query.Calls
import RowGraph.Query.Statements

/-!
# Calls in another order

A call compiles its expressions over the sources that the query has by then, and adds the result to
one clause, or to the sources if it is a join. So every call is a change that is found from the
sources alone and made then. Changes of different clauses can be made in either order, and a join
can be put off or brought forward past a call whose expressions have no name for the new source.

Results:
* `endsWith_change`: a call makes its change, or fails and does nothing.
* `change_withScope`: what a call to a clause does depends on what its names lead to.
* `Independent.apart`: independent calls find the same change before and after each other.
* **`independent_calls_commute`**: they end alike in either order, and every statement is the same.
* **`run_exchanged`**: so do all runs that differ in the order of such calls.
-/

namespace RowGraph

open Attempt

variable {c : Catalog}

/-! ## Clauses -/

/-- The clauses of a query that calls add to. -/
inductive QueryClause
  | filter
  | groupBy
  | having
  | orderBy
  | projection
  | page
deriving DecidableEq, Repr

namespace Call

/-- The clause that a call is about. A join is about the sources. -/
def clause? : Call → Option QueryClause
  | .join _ _ _ | .crossJoin _ | .joinByKey _ _ | .customJoin _ _ => none
  | .filter _ _ | .filterRaw _ _ | .filterNamed _ _ | .filterExists _ _ | .clearFilter =>
    some .filter
  | .groupBy _ => some .groupBy
  | .having _ => some .having
  | .orderBy _ | .thenBy _ | .clearOrder => some .orderBy
  | .select _ _ | .selectRaw _ => some .projection
  | .limit _ | .skip _ => some .page

/-- The source that a call joins. -/
def added? : Call → Option Source
  | .join _ new _ | .crossJoin new | .joinByKey _ new | .customJoin new _ => some new
  | _ => none

/-- The expressions of a call to a clause. -/
def expressions : Call → List Expr
  | .filter _ e | .groupBy e | .having e | .orderBy e | .thenBy e => [e]
  | .select _ items => items
  | _ => []

/-- Two calls neither of which looks at what the other one adds. -/
inductive Independent (c : Catalog) : Call → Call → Prop
  /-- They are about different clauses. -/
  | clauses {a b : Call} {k l : QueryClause} (ha : a.clause? = some k) (hb : b.clause? = some l)
    (h : k ≠ l) : Independent c a b
  /-- One is a join, the other one is about a clause and has no name for the new source. -/
  | joined {a b : Call} {new : Source} {k : QueryClause} (ha : a.added? = some new)
    (hb : b.clause? = some k) (h : ∀ name ∈ Expr.sourceNamesOf b.expressions, name.Misses c new) :
    Independent c a b

end Call

/-! ## Calls as changes -/

/-- What a call adds: a join, or something in one clause. -/
inductive Change
  | join (new : Source) (form : JoinForm)
  | filter (f : FilterChain → FilterChain)
  | groupBy (f : List Fragment → List Fragment)
  | having (f : FilterChain → FilterChain)
  | orderBy (f : List Fragment → List Fragment)
  | projection (p : Projection) (distinct : Bool)
  | limit (rows : Nat)
  | skip (rows : Nat)

namespace Change

/-- The clause that is changed. -/
def clause? : Change → Option QueryClause
  | .join _ _ => none
  | .filter _ => some .filter
  | .groupBy _ => some .groupBy
  | .having _ => some .having
  | .orderBy _ => some .orderBy
  | .projection _ _ => some .projection
  | .limit _ | .skip _ => some .page

/-- The query with the change made. -/
def on : Change → Query c → Query c
  | .join new form, q => { q with joined := q.joined ++ [new], joins := q.joins ++ [⟨new, form⟩] }
  | .filter f, q => { q with filter := f q.filter }
  | .groupBy f, q => { q with groupBy := f q.groupBy }
  | .having f, q => { q with having := f q.having }
  | .orderBy f, q => { q with orderBy := f q.orderBy }
  | .projection p distinct, q => { q with projection := some p, distinct }
  | .limit rows, q => { q with rows := some rows }
  | .skip rows, q => { q with offset := some rows }

/-- The change is made, unless there is none to be made. -/
def attempt (r : Except QueryError Change) (q : Query c) : Query c :=
  match r with
  | .ok change => change.on q
  | .error _ => q

/-- Changes in different places can be made in either order. -/
theorem on_comm {a b : Change} (h : a.clause? ≠ b.clause?) (q : Query c) :
    a.on (b.on q) = b.on (a.on q) := by
  cases a <;> cases b <;> first | rfl | exact absurd rfl h

/-- A change of a clause leaves the sources as they are. -/
theorem compiler_on {a : Change} {k : QueryClause} (h : a.clause? = some k) (q : Query c)
    (readings : Readings) : (a.on q).compiler readings none = q.compiler readings none := by
  cases a <;> first | rfl | cases h

end Change

/-- The fragment of an expression, or the failure of a call. -/
def Compiler.fragment (t : Compiler) (position : Position) (e : Expr) :
    Except QueryError Fragment :=
  (t.compile position e).outcome.mapError .compile

/-- The compiler for the condition of a join, in which the new source is known already. -/
def Compiler.joining (t : Compiler) (new : Source) : Compiler :=
  { t with scope := ⟨t.scope.sources ++ [new]⟩, target := some new }

namespace Call

/-- The join of a new source, if its token is new. -/
def joinChange (t : Compiler) (new : Source) (form : Except QueryError JoinForm) :
    Except QueryError Change :=
  match t.scope.bind t.catalog new with
  | .ok _ => form.map (.join new)
  | .error why => .error (.scope why)

/-- The change that a call makes over these sources, or why it fails. -/
def change (env : Environment) (t : Compiler) : Call → Except QueryError Change
  | .join kind new on =>
    joinChange t new (((t.joining new).fragment .predicate on).map (.on kind))
  | .crossJoin new => joinChange t new (.ok .cross)
  | .joinByKey kind new =>
    joinChange t new <|
      match Source.inferCondition? t.catalog t.dialect t.scope.sources new with
      | some condition => .ok (.on kind condition)
      | none => .error (.noJoinCondition (t.catalog.entity new.entity).name)
  | .customJoin new sql => joinChange t new (.ok (.custom sql))
  | .filter op e => (t.fragment .predicate e).map fun f => .filter (·.push f op)
  | .filterRaw sql params =>
    (Query.positionalFragment sql params).map fun f => .filter (·.push f .and)
  | .filterNamed sql params =>
    (Query.namedFragment env.parameterName sql params).map fun f => .filter (·.push f .and)
  | .filterExists negated query =>
    (t.fragment .predicate (.existence negated query)).map fun f => .filter (·.push f .and)
  | .clearFilter => .ok (.filter fun _ => .empty)
  | .groupBy key => (t.fragment .groupKey key).map fun f => .groupBy (· ++ [f])
  | .having e => (t.fragment .having e).map fun f => .having (·.push f .and)
  | .orderBy item => (t.fragment .orderItem item).map fun f => .orderBy fun _ => [f]
  | .thenBy item => (t.fragment .orderItem item).map fun f => .orderBy (· ++ [f])
  | .clearOrder => .ok (.orderBy fun _ => [])
  | .select distinct items =>
    ((Projection.compile t items).outcome.mapError .compile).map (.projection · distinct)
  | .selectRaw sql => .ok (.projection (.raw sql) false)
  | .limit rows => .ok (.limit rows)
  | .skip rows => .ok (.skip rows)

end Call

/-! ## A call is its change -/

namespace Query

variable {q : Query c}

/-- The query ends with the change made, if there is one. -/
def EndsWith (x : Builder c Unit) (q : Query c) (r : Except QueryError Change) : Prop :=
  ending x q = (r.map fun _ => (), Change.attempt r q)

theorem endsWith_join {new : Source} {f : Builder c Unit} {form : Except QueryError JoinForm}
    (readings : Readings)
    (h : ending f (q.withSource new) =
      (form.map fun _ => (), Change.attempt (form.map (.join new)) q)) :
    EndsWith (do bind new; f) q (Call.joinChange (q.compiler readings none) new form) := by
  have step : (q.compiler readings none).scope.bind (q.compiler readings none).catalog new =
      q.scope.bind c new := rfl
  unfold EndsWith Call.joinChange
  rw [ending_bind, step]
  cases hs : q.scope.bind c new with
  | error why =>
    rw [ending_bind_error hs]
    rfl
  | ok scope =>
    rw [ending_bind_ok hs]
    change ending f (q.withSource new) = _
    rw [h]
    cases form <;> rfl

/-- An expression is compiled, and the change made of the fragment follows. -/
theorem endsWith_compile (env : Environment) (position : Position) (e : Expr)
    (change : Fragment → Change) :
    EndsWith (do let f ← compile env position e; modify (change f).on) q
      (((q.compiler env.readings none).fragment position e).map change) := by
  unfold EndsWith
  rw [ending_bind, compile, ending_get_bind, Compiler.fragment]
  cases ((q.compiler env.readings none).compile position e).outcome <;> rfl

/-- A condition that is written by hand. -/
theorem endsWith_lift (r : Except QueryError Fragment) (change : Fragment → Change) :
    EndsWith (do modify (change (← r)).on) q (r.map change) := by
  unfold EndsWith
  rw [ending_bind, ending_lift]
  cases r <;> rfl

end Query

namespace Call

open Query

/-- **A call is its change**: what it changes and how it ends is found from the sources of the
query alone, and nothing happens where it fails. -/
theorem endsWith_change (env : Environment) (call : Call) (q : Query c) :
    EndsWith (call.run env) q (call.change env (q.compiler env.readings none)) := by
  cases call with
  | join kind new on =>
    refine endsWith_join env.readings ?_
    rw [ending_get_bind, Compiler.fragment]
    have same : (q.withSource new).compiler env.readings (some new) =
        (q.compiler env.readings none).joining new := rfl
    rw [same]
    cases (((q.compiler env.readings none).joining new).compile .predicate on).outcome with
    | ok condition => rfl
    | error why => exact ending_unbind_throw q new (.compile why)
  | crossJoin new => exact endsWith_join env.readings rfl
  | joinByKey kind new =>
    rw [EndsWith, Call.run, Query.joinByKey, ending_get_bind]
    refine endsWith_join env.readings ?_
    have same : Source.inferCondition? (q.compiler env.readings none).catalog
        (q.compiler env.readings none).dialect (q.compiler env.readings none).scope.sources new =
        Source.inferCondition? c q.dialect q.scope.sources new := rfl
    rw [same]
    cases Source.inferCondition? c q.dialect q.scope.sources new with
    | some condition => rfl
    | none => exact ending_unbind_throw q new _
  | customJoin new sql => exact endsWith_join env.readings rfl
  | filter op e => exact endsWith_compile env .predicate e fun f => .filter (·.push f op)
  | filterRaw sql params =>
    exact endsWith_lift (positionalFragment sql params) fun f => .filter (·.push f .and)
  | filterNamed sql params =>
    exact endsWith_lift (namedFragment env.parameterName sql params)
      fun f => .filter (·.push f .and)
  | filterExists negated query =>
    exact endsWith_compile env .predicate (.existence negated query)
      fun f => .filter (·.push f .and)
  | groupBy key => exact endsWith_compile env .groupKey key fun f => .groupBy (· ++ [f])
  | having e => exact endsWith_compile env .having e fun f => .having (·.push f .and)
  | orderBy item => exact endsWith_compile env .orderItem item fun f => .orderBy fun _ => [f]
  | thenBy item => exact endsWith_compile env .orderItem item fun f => .orderBy (· ++ [f])
  | select distinct items =>
    rw [EndsWith, Call.run, ending_get_bind, change]
    cases (Projection.compile (q.compiler env.readings none) items).outcome <;> rfl
  | clearFilter | clearOrder | selectRaw sql | limit rows | skip rows => rfl

/-- The query after a call, and how the call ended. -/
theorem apply_eq (env : Environment) (call : Call) (q : Query c) :
    call.apply env q =
      ((call.change env (q.compiler env.readings none)).map fun _ => (),
        Change.attempt (call.change env (q.compiler env.readings none)) q) :=
  endsWith_change env call q

/-! ## What a change depends on -/

section Depends

variable {env : Environment} {t : Compiler} {call : Call}

theorem eq_ok_of_map_eq_ok {ε α β : Type} {r : Except ε α} {f : α → β} {b : β}
    (h : r.map f = .ok b) : ∃ a, f a = b := by
  cases r with
  | error why => cases h
  | ok a => exact ⟨a, Except.ok.inj h⟩

theorem eq_join_of_joinChange {new : Source} {form : Except QueryError JoinForm} {made : Change}
    (h : joinChange t new form = .ok made) : ∃ f, Change.join new f = made := by
  unfold joinChange at h
  split at h
  · exact eq_ok_of_map_eq_ok h
  · cases h

/-- A join adds its source. -/
theorem eq_join_of_added {new : Source} {made : Change} (hadded : call.added? = some new)
    (h : call.change env t = .ok made) : ∃ form, Change.join new form = made := by
  cases call with
  | join kind other on | crossJoin other | joinByKey kind other | customJoin other sql =>
    cases hadded
    exact eq_join_of_joinChange h
  | _ => cases hadded

/-- A call to a clause changes this clause. -/
theorem clause?_of_change {k : QueryClause} {made : Change} (hclause : call.clause? = some k)
    (h : call.change env t = .ok made) : made.clause? = some k := by
  rw [← hclause]
  cases call with
  | join kind new on | crossJoin new | joinByKey kind new | customJoin new sql => cases hclause
  | clearFilter | clearOrder | selectRaw sql | limit rows | skip rows =>
    cases h
    rfl
  | _ =>
    rw [change] at h
    obtain ⟨f, rfl⟩ := eq_ok_of_map_eq_ok h
    rfl

theorem fragment_withScope {s : Scope} (own : t.target = none) (position : Position) {e : Expr}
    (h : t.FindsAlike s e.sourceNames) :
    (t.withScope s).fragment position e = t.fragment position e := by
  rw [Compiler.fragment, Compiler.fragment, Compiler.compile_withScope own position h]

/-- **What a call to a clause does depends on what the names in its expressions lead to.** -/
theorem change_withScope {s : Scope} {k : QueryClause} (own : t.target = none)
    (hclause : call.clause? = some k)
    (h : t.FindsAlike s (Expr.sourceNamesOf call.expressions)) :
    call.change env (t.withScope s) = call.change env t := by
  cases call with
  | join kind new on | crossJoin new | joinByKey kind new | customJoin new sql => cases hclause
  | filter op e => rw [change, change, fragment_withScope own .predicate h.left]
  | filterExists negated query =>
    rw [change, change, fragment_withScope own .predicate (e := .existence negated query) h]
  | groupBy key => rw [change, change, fragment_withScope own .groupKey h.left]
  | having e => rw [change, change, fragment_withScope own .having h.left]
  | orderBy item => rw [change, change, fragment_withScope own .orderItem h.left]
  | thenBy item => rw [change, change, fragment_withScope own .orderItem h.left]
  | select distinct items =>
    have same : Projection.compile (t.withScope s) items = Projection.compile t items :=
      Compiler.projection_withScope own h
    rw [change, change, same]
  | filterRaw _ _ | filterNamed _ _ | clearFilter | clearOrder | selectRaw _ | limit _ | skip _ =>
    rfl

end Depends

/-! ## Two calls in either order -/

section Orders

variable {a b : Call} {env env' : Environment} {k : QueryClause}

/-- Calls to clauses leave the sources, so any call after them finds the same change. -/
theorem change_after_clause (hb : b.clause? = some k) (a : Call) (q : Query c) :
    a.change env ((b.apply env' q).2.compiler env.readings none) =
      a.change env (q.compiler env.readings none) := by
  rw [apply_eq]
  cases hr : b.change env' (q.compiler env'.readings none) with
  | error why => rfl
  | ok made =>
    exact congrArg (a.change env) (Change.compiler_on (clause?_of_change hb hr) q env.readings)

/-- A call to a clause finds the same change after a join whose source it has no name for. -/
theorem change_after_join {new : Source} (ha : a.added? = some new) (hb : b.clause? = some k)
    (h : ∀ name ∈ Expr.sourceNamesOf b.expressions, name.Misses c new) (q : Query c) :
    b.change env' ((a.apply env q).2.compiler env'.readings none) =
      b.change env' (q.compiler env'.readings none) := by
  rw [apply_eq]
  cases hr : a.change env (q.compiler env.readings none) with
  | error why => rfl
  | ok made =>
    obtain ⟨form, rfl⟩ := eq_join_of_added ha hr
    exact change_withScope (t := q.compiler env'.readings none) rfl hb
      (Compiler.findsAlike_append h)

/-- Each of two calls finds the same change before and after the other one, and the changes are in
different places. -/
structure Apart (a b : Call) (env env' : Environment) (q : Query c) : Prop where
  first : a.change env ((b.apply env' q).2.compiler env.readings none) =
    a.change env (q.compiler env.readings none)
  second : b.change env' ((a.apply env q).2.compiler env'.readings none) =
    b.change env' (q.compiler env'.readings none)
  places : ∀ made other, a.change env (q.compiler env.readings none) = .ok made →
    b.change env' (q.compiler env'.readings none) = .ok other → made.clause? ≠ other.clause?

theorem Independent.apart (h : Independent c a b) (env env' : Environment) (q : Query c) :
    Apart a b env env' q := by
  cases h with
  | @clauses k l ha hb differ =>
    refine ⟨change_after_clause hb a q, change_after_clause ha b q, fun made other hm ho => ?_⟩
    rw [clause?_of_change ha hm, clause?_of_change hb ho]
    exact fun same => differ (Option.some.inj same)
  | joined ha hb misses =>
    refine ⟨change_after_clause hb a q, change_after_join ha hb misses q,
      fun made other hm ho => ?_⟩
    obtain ⟨form, rfl⟩ := eq_join_of_added ha hm
    rw [clause?_of_change hb ho]
    exact nofun

theorem Apart.comm {q : Query c} (h : Apart a b env env' q) :
    Calls.run [(env', b), (env, a)] q =
      ((Calls.run [(env, a), (env', b)] q).1.reverse, (Calls.run [(env, a), (env', b)] q).2) := by
  have forth := h.second
  have back := h.first
  have places := h.places
  simp only [apply_eq] at forth back
  simp only [Calls.run, apply_eq, forth, back, List.reverse_cons, List.reverse_nil,
    List.nil_append, List.singleton_append, Prod.mk.injEq, true_and]
  cases hm : a.change env (q.compiler env.readings none) with
  | error why => rfl
  | ok made =>
    cases ho : b.change env' (q.compiler env'.readings none) with
    | error why => rfl
    | ok other => exact Change.on_comm (places made other hm ho) q

end Orders

end Call

/-- **Calls that have nothing to do with each other can be made in either order**, over every query:
each one ends as it does in the other order, and the queries that they leave are the same, so their
selections, counts and deletions are. -/
theorem independent_calls_commute {a b : Call} (h : a.Independent c b) (env env' : Environment)
    (q : Query c) :
    let forth := Calls.run [(env, a), (env', b)] q
    let back := Calls.run [(env', b), (env, a)] q
    back.1 = forth.1.reverse ∧ back.2 = forth.2 ∧
      back.2.selectStatement = forth.2.selectStatement ∧
      back.2.countStatement = forth.2.countStatement ∧
      back.2.deleteStatement = forth.2.deleteStatement := by
  intro forth back
  have same : back = (forth.1.reverse, forth.2) := (h.apart env env' q).comm
  rw [same]
  exact ⟨rfl, rfl, rfl, rfl, rfl⟩

/-! ## Runs -/

namespace Calls

theorem run_append (calls later : Calls) (q : Query c) :
    (calls ++ later).run q =
      ((calls.run q).1 ++ (later.run (calls.run q).2).1, (later.run (calls.run q).2).2) := by
  induction calls generalizing q with
  | nil => rfl
  | cons call rest ih => simp only [List.cons_append, run, ih]

/-- Runs that differ in the order of calls which have nothing to do with each other. -/
inductive Exchanged (c : Catalog) : Calls → Calls → Prop
  | refl (calls : Calls) : Exchanged c calls calls
  | symm {calls other : Calls} (h : Exchanged c calls other) : Exchanged c other calls
  | trans {calls between other : Calls} (h : Exchanged c calls between)
    (k : Exchanged c between other) : Exchanged c calls other
  | swap (before after : Calls) {a b : Call} (h : a.Independent c b) (env env' : Environment) :
    Exchanged c (before ++ [(env, a), (env', b)] ++ after)
      (before ++ [(env', b), (env, a)] ++ after)

/-- **Runs that differ in the order of independent calls** leave the same query, and their calls end
alike. -/
theorem run_exchanged {calls other : Calls} (h : Exchanged c calls other) (q : Query c) :
    (other.run q).2 = (calls.run q).2 ∧ (other.run q).1.Perm (calls.run q).1 := by
  induction h with
  | refl calls => exact ⟨rfl, .refl _⟩
  | symm _ ih => exact ⟨ih.1.symm, ih.2.symm⟩
  | trans _ _ first second => exact ⟨second.1.trans first.1, second.2.trans first.2⟩
  | swap before after h env env' =>
    have pair := (h.apart env env' (before.run q).2).comm
    simp only [run_append, pair]
    refine ⟨trivial, ?_⟩
    exact ((List.Perm.refl _).append (List.reverse_perm _)).append_right _

end Calls

namespace Sample

/-- Teams are grouped by name and joined with all users in either order: the key has no name for the
users. An order and a limit have nothing to do with each other at all. -/
theorem grouped_teams_with_users :
    let users := Call.crossJoin ⟨type "TeamUser", some "u"⟩
    let byName := Call.groupBy (.column ⟨type "Team", "Name"⟩)
    let last := Call.orderBy (.ordered (.column ⟨type "Team", "Name"⟩) true)
    users.Independent catalog byName ∧ last.Independent catalog (.limit 3) ∧
      (Calls.run [(plainly, users), (plainly, byName)] teams).1 = [.ok (), .ok ()] ∧
      (Calls.run [(plainly, byName), (plainly, users)] teams).2 =
        (Calls.run [(plainly, users), (plainly, byName)] teams).2 ∧
      (Calls.run [(plainly, .limit 3), (plainly, last)] teams).2 =
        (Calls.run [(plainly, last), (plainly, .limit 3)] teams).2 := by
  intro users byName last
  have misses : ∀ name ∈ Expr.sourceNamesOf byName.expressions,
      name.Misses catalog ⟨type "TeamUser", some "u"⟩ := by
    intro name hname
    obtain rfl := List.mem_singleton.mp hname
    exact (by decide : type "Team" ≠ type "TeamUser")
  have apart : users.Independent catalog byName := .joined rfl rfl misses
  have elsewhere : last.Independent catalog (.limit 3) := .clauses rfl rfl (by decide)
  refine ⟨apart, elsewhere, rfl, ?_, ?_⟩
  · exact (independent_calls_commute apart plainly plainly teams).2.1
  · exact (independent_calls_commute elsewhere plainly plainly teams).2.1

end Sample

end RowGraph
