import RowGraph.Row

/-!
# Databases

A database answers statements: with rows, with a number of rows, or with a single value. What it is
and in which monad it answers is left open.

A `Conversation` is a computation that stops at every statement and goes on when the answer is
there. It is a database's client like any other, so what is written for all databases also runs as a
conversation; `run` holds it with a given database.

Main statement: `run_bind`, a conversation is held piece by piece.

Modelled: what `Executor` and `AsyncExecutor` promise: `query`, `execute` and `scalar`, each of
which can fail.

Left out: everything that an engine does with a statement. Where a theorem needs it, it is a
hypothesis of the theorem.
-/

namespace RowGraph

/-- A failure that a database reports. -/
structure ExecutionError where
  message : String
deriving DecidableEq, Repr

/-- What executes statements. -/
structure Database (m : Type → Type) where
  /-- The rows of a statement. -/
  query : (sql : String) → (params : List Value) → m (Except ExecutionError (List Row))
  /-- The number of rows that a statement changes. -/
  execute : (sql : String) → (params : List Value) → m (Except ExecutionError Nat)
  /-- The first column of the first row, if there is one. -/
  scalar : (sql : String) → (params : List Value) → m (Except ExecutionError (Option Value))

/-- A computation that stops at each statement. -/
inductive Conversation (α : Type) : Type
  | done (a : α)
  | query (sql : String) (params : List Value)
      (next : Except ExecutionError (List Row) → Conversation α)
  | execute (sql : String) (params : List Value)
      (next : Except ExecutionError Nat → Conversation α)
  | scalar (sql : String) (params : List Value)
      (next : Except ExecutionError (Option Value) → Conversation α)

namespace Conversation

/-- One conversation after the other. -/
def bind {α β : Type} (f : α → Conversation β) : Conversation α → Conversation β
  | .done a => f a
  | .query sql params next => .query sql params fun answer => bind f (next answer)
  | .execute sql params next => .execute sql params fun answer => bind f (next answer)
  | .scalar sql params next => .scalar sql params fun answer => bind f (next answer)

instance : Monad Conversation where
  pure := .done
  bind x f := bind f x

theorem bind_assoc {α β γ : Type} (x : Conversation α) (f : α → Conversation β)
    (g : β → Conversation γ) : bind g (bind f x) = bind (fun a => bind g (f a)) x := by
  induction x with
  | done a => rfl
  | query sql params next ih | execute sql params next ih | scalar sql params next ih =>
    simp only [bind, ih]

theorem bind_done {α : Type} (x : Conversation α) : bind .done x = x := by
  induction x with
  | done a => rfl
  | query sql params next ih | execute sql params next ih | scalar sql params next ih =>
    simp only [bind, ih]

instance : LawfulMonad Conversation := .mk' Conversation bind_done (fun _ _ => rfl) bind_assoc

/-- The database whose answers are waited for. -/
def database : Database Conversation where
  query sql params := .query sql params .done
  execute sql params := .execute sql params .done
  scalar sql params := .scalar sql params .done

/-- The conversation held with a database. -/
def run {m : Type → Type} [Monad m] {α : Type} (db : Database m) : Conversation α → m α
  | .done a => pure a
  | .query sql params next => do run db (next (← db.query sql params))
  | .execute sql params next => do run db (next (← db.execute sql params))
  | .scalar sql params next => do run db (next (← db.scalar sql params))

/-- A conversation is held piece by piece. -/
theorem run_bind {m : Type → Type} [Monad m] [LawfulMonad m] {α β : Type} (db : Database m)
    (x : Conversation α) (f : α → Conversation β) :
    run db (x >>= f) = run db x >>= fun a => run db (f a) := by
  change run db (bind f x) = _
  induction x with
  | done a => simp [bind, run]
  | query sql params next ih => simp [bind, run, ih]
  | execute sql params next ih => simp [bind, run, ih]
  | scalar sql params next ih => simp [bind, run, ih]

end Conversation

end RowGraph
