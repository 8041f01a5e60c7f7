import RowGraph.Proofs.Attempt
import RowGraph.Sample

/-!
# Calls one after the other

A query is built by calls, each of which can fail. A failing call leaves no trace: what it changed
before it could fail is taken back, and the calls after it go on as if it had not been made.

Results:
* `ending_bind_ok`, `ending_bind_error`: all that adding a source can do.
* `atomic_run`: no call changes the query when it fails, whichever part of it does.
* **`failed_call_changes_nothing`**: the query is as before, and so is every later call.
-/

namespace RowGraph

open Attempt

variable {c : Catalog}

/-- Calls, each one with what it uses besides the query. -/
abbrev Calls := List (Environment × Call)

/-- How the calls end, in order, and the query that they leave. -/
def Calls.run : Calls → Query c → List (Except QueryError Unit) × Query c
  | [], q => ([], q)
  | (env, call) :: rest, q =>
    let next := call.apply env q
    let others := Calls.run rest next.2
    (next.1 :: others.1, others.2)

namespace Query

/-! ## Steps that cannot fail, and steps that change nothing -/

theorem reads_compile (env : Environment) (position : Position) (e : Expr) :
    Reads (compile env position e : Builder c Fragment) := by
  intro q
  rw [compile, ending_get_bind]
  split
  · rfl
  · rfl

theorem total_addFilter (op : Connective) (condition : Fragment) :
    Total (addFilter op condition : Builder c Unit) :=
  total_modify _

/-- An expression is compiled, and then the query changes. -/
theorem atomic_compile_bind {env : Environment} {position : Position} {e : Expr}
    {f : Fragment → Builder c Unit} (h : ∀ fragment, Total (f fragment)) :
    Atomic (compile env position e >>= f) :=
  (reads_compile env position e).atomic.bind_total h

/-! ## Joins -/

/-- The query with one more source. -/
def withSource (q : Query c) (new : Source) : Query c := { q with joined := q.joined ++ [new] }

theorem ending_bind_ok {q : Query c} {new : Source} {scope : Scope}
    (h : q.scope.bind c new = .ok scope) : ending (bind new) q = (.ok (), q.withSource new) := by
  rw [bind, ending_get_bind, h]
  rfl

theorem ending_bind_error {q : Query c} {new : Source} {why : AliasError}
    (h : q.scope.bind c new = .error why) : ending (bind new) q = (.error (.scope why), q) := by
  rw [bind, ending_get_bind, h]
  rfl

/-- Taking the last source back undoes adding it. -/
theorem ending_unbind_throw (q : Query c) (new : Source) (why : QueryError) :
    ending (do unbind; throw why : Builder c Unit) (q.withSource new) = (.error why, q) := by
  rw [ending_bind, unbind, ending_modify]
  simp only [withSource, List.dropLast_concat, ending_throw]

/-- A step behind a new source that goes back to the query without it wherever it fails. -/
theorem atomic_bind_source {new : Source} {f : Builder c Unit}
    (h : ∀ q why t, ending f (q.withSource new) = (.error why, t) → t = q) :
    Atomic (do bind new; f) := by
  intro q why t failed
  rw [ending_bind] at failed
  cases hs : q.scope.bind c new with
  | error reason =>
    rw [ending_bind_error hs] at failed
    exact (Prod.mk.inj failed).2.symm
  | ok scope =>
    rw [ending_bind_ok hs] at failed
    exact h q why t failed

theorem atomic_join (env : Environment) (kind : JoinKind) (new : Source) (on : Expr) :
    Atomic (join env kind new on : Builder c Unit) := by
  refine atomic_bind_source fun q why t failed => ?_
  rw [ending_get_bind] at failed
  split at failed
  · cases failed
  · rw [ending_unbind_throw] at failed
    exact (Prod.mk.inj failed).2.symm

theorem atomic_crossJoin (new : Source) : Atomic (crossJoin new : Builder c Unit) :=
  atomic_bind_source fun _ _ _ failed => by cases failed

theorem atomic_joinByKey (kind : JoinKind) (new : Source) :
    Atomic (joinByKey kind new : Builder c Unit) := by
  intro q
  rw [joinByKey, ending_get_bind]
  refine atomic_bind_source (fun q' why t failed => ?_) q
  split at failed
  · cases failed
  · rw [ending_unbind_throw] at failed
    exact (Prod.mk.inj failed).2.symm

theorem atomic_customJoin (new : Source) (sql : String) :
    Atomic (customJoin new sql : Builder c Unit) :=
  atomic_bind_source fun _ _ _ failed => by cases failed

end Query

namespace Call

open Query

/-- Only the compiled items change the query. -/
theorem atomic_select (env : Environment) (distinct : Bool) (items : List Expr) :
    Atomic (Call.run env (.select distinct items) : Builder c Unit) := by
  intro q why t failed
  rw [Call.run, ending_get_bind] at failed
  split at failed
  · cases failed
  · exact (Prod.mk.inj failed).2.symm

/-- **No call changes the query when it fails.** -/
theorem atomic_run (env : Environment) (call : Call) : Atomic (call.run env : Builder c Unit) := by
  cases call with
  | join kind new on => exact atomic_join env kind new on
  | crossJoin new => exact atomic_crossJoin new
  | joinByKey kind new => exact atomic_joinByKey kind new
  | customJoin new sql => exact atomic_customJoin new sql
  | filter op condition => exact atomic_compile_bind (total_addFilter op)
  | filterRaw sql params => exact (reads_lift _).atomic.bind_total (total_addFilter .and)
  | filterNamed sql params => exact (reads_lift _).atomic.bind_total (total_addFilter .and)
  | filterExists negated query => exact atomic_compile_bind (total_addFilter .and)
  | groupBy key => exact atomic_compile_bind fun _ => total_modify _
  | having condition => exact atomic_compile_bind fun _ => total_modify _
  | orderBy item => exact atomic_compile_bind fun _ => total_modify _
  | thenBy item => exact atomic_compile_bind fun _ => total_modify _
  | select distinct items => exact atomic_select env distinct items
  | clearFilter => exact (total_modify _).atomic
  | clearOrder => exact (total_modify _).atomic
  | selectRaw sql => exact (total_modify _).atomic
  | limit rows => exact (total_modify _).atomic
  | skip rows => exact (total_modify _).atomic

end Call

/-- **A failing call leaves the query as it was**, with all its sources, joins, conditions, groups,
order, projection and page; and whatever is called later ends as if the failing call had not been
made. -/
theorem failed_call_changes_nothing (env : Environment) (call : Call) (q : Query c)
    (why : QueryError) (failed : (call.apply env q).1 = .error why) :
    (call.apply env q).2 = q ∧
      ∀ later : Calls,
        Calls.run ((env, call) :: later) q = (.error why :: (later.run q).1, (later.run q).2) := by
  have unchanged : (call.apply env q).2 = q :=
    Call.atomic_run env call q why _ (Prod.ext failed rfl)
  refine ⟨unchanged, fun later => ?_⟩
  rw [Calls.run, failed, unchanged]

namespace Sample

/-- The teams. -/
def teams : Query catalog := .ofRoot .sqlite ⟨type "Team", none⟩

/-- A call without captured values. -/
def plainly : Environment := ⟨fun _ _ => .null, id⟩

/-- Users are joined on a column that users do not have. -/
def joinWithoutColumn : Call :=
  .join .inner ⟨type "TeamUser", some "u"⟩ (.column ⟨type "TeamUser", "Mood"⟩)

/-- The refused join leaves the teams alone, although its source was added before the condition was
looked at. -/
theorem refused_join :
    let why := QueryError.compile (.unknownField ⟨type "TeamUser", "Mood"⟩ "TeamUser")
    (joinWithoutColumn.apply plainly teams).1 = .error why ∧
      (joinWithoutColumn.apply plainly teams).2 = teams ∧
      ∀ later : Calls, Calls.run ((plainly, joinWithoutColumn) :: later) teams =
        (.error why :: (later.run teams).1, (later.run teams).2) := by
  intro why
  have refused : (joinWithoutColumn.apply plainly teams).1 = .error why := rfl
  exact ⟨refused, failed_call_changes_nothing plainly joinWithoutColumn teams why refused⟩

end Sample

end RowGraph
