import RowGraph.Database.Basic

/-!
# Databases that answer by a script

A script says what a database answers, so that saving and loading can be tried out without one. A
rule answers the statements that have a given text in them; the first rule that fits counts. Where
no rule fits a row is there exactly if its key is listed, a generated key is the next number, a
query has no rows, and an execution changes one row.

Every statement is noted in a journal, also one that fails.

Main statement: `journal_database`, the journal grows by one entry with each statement.

Modelled: no part of the library, but a database to run it with.
-/

namespace RowGraph

/-- What is wanted of a statement. -/
inductive Wanted
  | rows
  | effect
  | scalar
deriving DecidableEq, Repr

/-- A statement that was sent. -/
structure Sent where
  wanted : Wanted
  sql : String
  params : List Value

/-- An answer to the statements with a text in them. -/
structure Rule (α : Type) where
  text : String
  answer : α

/-- Whether a statement has the text of the rule in it. -/
def Rule.fits {α : Type} (r : Rule α) (sql : String) : Bool :=
  r.text.isEmpty || (sql.splitOn r.text).length > 1

/-- What a database answers, and what it has been asked. -/
structure Script where
  queries : List (Rule (List Row))
  /-- The answers that are left; used up, the answer is that there is no row. -/
  scalars : List (Rule (List (Option Value)))
  /-- The keys of the rows that are there. -/
  existing : List Value
  nextKey : Int
  /-- The number of the statement that fails, and why. -/
  failure : Option (Nat × ExecutionError)
  /-- How many statements have been sent. -/
  sent : Nat
  journal : List Sent

namespace Script

/-- The next answer of the first rule that fits, and the rules after it. -/
def nextAnswer (sql : String) : List (Rule (List (Option Value))) →
    Option (Option Value × List (Rule (List (Option Value))))
  | [] => none
  | r :: rest =>
    if r.fits sql then some (r.answer.head?.join, { r with answer := r.answer.tail } :: rest)
    else (nextAnswer sql rest).map fun (v, rest) => (v, r :: rest)

/-- A single value where no rule fits. -/
def scalarByDefault (s : Script) (sql : String) (params : List Value) : Value × Script :=
  if "SELECT COUNT(*)".isPrefixOf sql then
    (.int (if params.head?.any fun key => s.existing.any key.same then 1 else 0), s)
  else (.int (Int64.ofInt s.nextKey), { s with nextKey := s.nextKey + 1 })

/-- A single value. -/
def scalar (s : Script) (sql : String) (params : List Value) : Option Value × Script :=
  match nextAnswer sql s.scalars with
  | some (v, scalars) => (v, { s with scalars })
  | none => (s.scalarByDefault sql params).map some id

/-- The rows of a query. -/
def rows (s : Script) (sql : String) : List Row :=
  ((s.queries.find? (·.fits sql)).map Rule.answer).getD []

/-- An answer, with the statement noted. -/
def reply {α : Type} (note : Sent) (answer : Script → α × Script) :
    StateM Script (Except ExecutionError α) := fun s =>
  let noted := { s with sent := s.sent + 1, journal := s.journal ++ [note] }
  match s.failure.filter (·.1 = s.sent) with
  | some (_, why) => (.error why, noted)
  | none => (answer noted).map .ok id

/-- The database that answers by the script. -/
def database : Database (StateM Script) where
  query sql params := reply ⟨.rows, sql, params⟩ fun s => (s.rows sql, s)
  execute sql params := reply ⟨.effect, sql, params⟩ fun s => (1, s)
  scalar sql params := reply ⟨.scalar, sql, params⟩ fun s => s.scalar sql params

theorem journal_scalar (s : Script) (sql : String) (params : List Value) :
    (s.scalar sql params).2.journal = s.journal := by
  unfold scalar scalarByDefault
  split
  · rfl
  · split <;> rfl

theorem journal_reply {α : Type} (note : Sent) (answer : Script → α × Script)
    (h : ∀ s, (answer s).2.journal = s.journal) (s : Script) :
    (reply note answer s).2.journal = s.journal ++ [note] := by
  unfold reply
  split
  · rfl
  · exact h _

/-- Each statement is noted once, whatever is answered. -/
theorem journal_database (sql : String) (params : List Value) (s : Script) :
    (database.query sql params s).2.journal = s.journal ++ [⟨.rows, sql, params⟩] ∧
      (database.execute sql params s).2.journal = s.journal ++ [⟨.effect, sql, params⟩] ∧
      (database.scalar sql params s).2.journal = s.journal ++ [⟨.scalar, sql, params⟩] :=
  ⟨journal_reply _ _ (fun _ => rfl) s, journal_reply _ _ (fun _ => rfl) s,
    journal_reply _ _ (fun s => journal_scalar s sql params) s⟩

end Script

end RowGraph
