import RowGraph.Entity.Rows
import RowGraph.Proofs.Numbering

/-!
# What the statements for single rows say

The statements that store one row name the table first, and bind the key where a reader of the
statement looks for it. They can be made where the entity has a key.

* `sql_insertion`, `sql_insertionWithKey`, `sql_countByKey`, `sql_updateByKey`: how each begins.
* `values_countByKey`, `head_values_insertion`: where the key is bound.
* `countByKey_eq_ok`, `updateByKey_eq_ok`: an entity with a key has them.
-/

namespace RowGraph

/-- A fragment that begins with a text makes a statement that does. -/
theorem Statement.sql_ofFragment_textThen (d : Dialect) (text : String) (f : Fragment)
    (shape : Shape) :
    ∃ rest, (Statement.ofFragment d (.textThen text f) shape).sql = text ++ rest := by
  have sql : (Statement.ofFragment d (.textThen text f) shape).sql =
      (Draft.pushFrom d .outer (.textThen text f) Draft.empty).sql := rfl
  rw [sql, Draft.pushFrom_textThen, Draft.sql_pushFrom]
  simp only [Draft.addText, Draft.empty, String.empty_append]
  exact ⟨_, rfl⟩

theorem begins_of_append {lead more sql : String} (h : ∃ rest, sql = lead ++ more ++ rest) :
    ∃ rest, sql = lead ++ rest := by
  obtain ⟨rest, rfl⟩ := h
  exact ⟨more ++ rest, String.append_assoc⟩

namespace Entity

variable {e : Entity} {d : Dialect} {key : Value} {values : List Value} {statement : Statement}

/-- What is made with the key is made with some key. -/
theorem of_requireKey {α : Type} {f : Fin e.fields.length → α} {a : α}
    (h : (e.requireKey >>= fun i => pure (f i)) = .ok a) : ∃ i, f i = a := by
  cases hk : e.requireKey with
  | error why =>
    rw [hk] at h
    cases h
  | ok i =>
    rw [hk] at h
    cases h
    exact ⟨i, rfl⟩

theorem countByKey_eq_ok {i : Fin e.fields.length} (h : e.primaryKey = some i) (d : Dialect)
    (key : Value) : ∃ probe, e.countByKey d key = .ok probe := by
  rw [countByKey, requireKey, h]
  exact ⟨_, rfl⟩

theorem updateByKey_eq_ok {i : Fin e.fields.length} (h : e.primaryKey = some i) (d : Dialect)
    (values : List Value) : ∃ update, e.updateByKey d values = .ok update := by
  rw [updateByKey, requireKey, h]
  exact ⟨_, rfl⟩

/-! ## How they begin -/

theorem sql_insertion (e : Entity) (d : Dialect) (values : List Value) : ∃ rest,
    (e.insertion d values).sql = "INSERT INTO " ++ e.quotedTable d ++ rest := by
  rw [insertion, insertFragment, Fragment.wrap]
  exact begins_of_append (begins_of_append (begins_of_append
    (Statement.sql_ofFragment_textThen ..)))

/-- An insertion that yields its key goes on where the insertion ends. -/
theorem insertReturningKey_eq (d : Dialect) (sql quotedKey : String) :
    ∃ more, d.insertReturningKey sql quotedKey = sql ++ more := by
  cases d <;>
    exact ⟨_, by simp only [Dialect.insertReturningKey, String.append_assoc]; rfl⟩

theorem sql_insertionWithKey (h : e.insertionWithKey d values = .ok statement) :
    ∃ rest, statement.sql = "INSERT INTO " ++ e.quotedTable d ++ rest := by
  obtain ⟨i, rfl⟩ := of_requireKey h
  obtain ⟨rest, sql⟩ := sql_insertion e d values
  obtain ⟨more, returning⟩ :=
    insertReturningKey_eq d (e.insertion d values).sql (d.quoteName (e.fieldAt i).column)
  exact ⟨rest ++ more, returning.trans ((congrArg (· ++ more) sql).trans String.append_assoc)⟩

theorem sql_countByKey (h : e.countByKey d key = .ok statement) :
    ∃ rest, statement.sql = "SELECT COUNT(*) FROM " ++ e.quotedTable d ++ rest := by
  obtain ⟨i, rfl⟩ := of_requireKey h
  exact begins_of_append (Statement.sql_ofFragment_textThen ..)

theorem sql_updateByKey (h : e.updateByKey d values = .ok statement) :
    ∃ rest, statement.sql = "UPDATE " ++ e.quotedTable d ++ rest := by
  obtain ⟨i, rfl⟩ := of_requireKey h
  exact begins_of_append (Statement.sql_ofFragment_textThen ..)

/-! ## Where the key is bound -/

theorem values_countByKey (h : e.countByKey d key = .ok statement) : statement.values = [key] := by
  obtain ⟨i, rfl⟩ := of_requireKey h
  simp [Field.assignment, Fragment.param, Fragment.literals]

/-- An insertion sets the first field first, unless it awaits a key. -/
theorem head_values_insertion {i : Fin e.fields.length} (first : i.val = 0) (d : Dialect)
    (h : e.awaitsKey values i = false) :
    (e.insertion d values).values.headD .null = valueAt values i := by
  obtain ⟨f, rest, fields⟩ := List.exists_cons_of_length_pos (first ▸ i.isLt)
  rw [first] at h ⊢
  rw [values_insertion, insertedFields, fields, List.zipIdx_cons,
    List.filter_cons_of_pos (by simp [h])]
  rfl

end Entity

end RowGraph
