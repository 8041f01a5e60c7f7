import RowGraph.Proofs.BoundValues
import RowGraph.Proofs.Entity.RowStatements
import RowGraph.Sample

/-!
# The column lists of statements for single rows

An insertion and an update list columns and values side by side. Both lists come from the row: every
field with its value, null where there is none. The insertion leaves out a generated key without a
value, the update leaves out the key and binds it last.

Results:
* `insertedFields_eq`, `updateByKey_eq`: what is listed is the row, or the row without its key.
* **`row_statements`**: the text and the slots of both statements, for every entity with a key and
  values of any number; a list is empty for an entity with no field but its key, and only there.
* `Sample.empty_lists_of_ticket`: such an entity.
-/

namespace RowGraph

/-- What is made of the elements with another number than `k` is what is made of all of them,
without the part in place `k`. -/
theorem map_filter_zipIdx_ne {α β : Type} (f : α × Nat → β) (l : List α) (start k : Nat) :
    ((l.zipIdx start).filter fun p => p.2 ≠ start + k).map f =
      ((l.zipIdx start).map f).eraseIdx k := by
  induction l generalizing start k with
  | nil => rfl
  | cons a rest ih =>
    cases k with
    | zero =>
      have later : ∀ p ∈ rest.zipIdx (start + 1), p.2 ≠ start := by
        intro p hp
        have := List.le_snd_of_mem_zipIdx hp
        omega
      rw [List.zipIdx_cons, List.filter_cons_of_neg (by simp),
        List.filter_eq_self.mpr (by simpa using later), List.map_cons, List.eraseIdx_cons_zero]
    | succ k =>
      have next := ih (start + 1) k
      rw [Nat.add_assoc, Nat.add_comm 1] at next
      rw [List.zipIdx_cons, List.filter_cons_of_pos (by simp), List.map_cons, next, List.map_cons,
        List.eraseIdx_cons_succ]

namespace Entity

variable {e : Entity} {key : Fin e.fields.length}

/-- The row that some values stand for: every field with its value, null where there is none. -/
def row (e : Entity) (values : List Value) : List (Field × Value) :=
  e.fields.mapIdx fun i f => (f, valueAt values i)

@[simp] theorem length_row (e : Entity) (values : List Value) :
    (e.row values).length = e.fields.length := by
  simp [row]

/-- The fields with another number than `k`, with their values. -/
theorem row_eraseIdx (e : Entity) (values : List Value) (k : Nat) :
    (e.row values).eraseIdx k =
      (e.fields.zipIdx.filter fun p => p.2 ≠ k).map fun p => (p.1, valueAt values p.2) := by
  have others := map_filter_zipIdx_ne (fun p => (p.1, valueAt values p.2)) e.fields 0 k
  rw [Nat.zero_add] at others
  rw [others, row, List.mapIdx_eq_zipIdx_map]

/-- An insertion lists the row, without its key if that is generated and has no value. -/
theorem insertedFields_eq (h : e.primaryKey = some key) (values : List Value) :
    e.insertedFields values =
      if (e.fieldAt key).isGenerated && (valueAt values key).isUnassignedKey then
        (e.row values).eraseIdx key
      else e.row values := by
  have awaits : ∀ i, e.awaitsKey values i = (decide (i = key.val) &&
      ((e.fieldAt key).isGenerated && (valueAt values key).isUnassignedKey)) := by
    intro i
    rw [awaitsKey, h, Option.any_some, Bool.and_assoc]
    by_cases same : i = key.val
    · simp [same]
    · simp [same, Ne.symm same]
  rw [insertedFields]
  simp only [awaits]
  split
  · next left =>
    rw [left, row_eraseIdx]
    simp
  · next kept =>
    rw [Bool.not_eq_true] at kept
    rw [List.filter_eq_self.mpr (by simp [kept]), row, List.mapIdx_eq_zipIdx_map]

/-- The text of an insertion: the columns and as many placeholders. -/
theorem insertion_eq (e : Entity) (d : Dialect) (values : List Value) :
    let set := e.insertedFields values
    e.insertion d values =
      { sql := "INSERT INTO " ++ e.quotedTable d ++ " (" ++
          ",".intercalate (set.map fun p => d.quoteName p.1.column) ++ ") VALUES (" ++
          ",".intercalate (set.mapIdx fun k _ => d.placeholder k) ++ ")"
        slots := set.mapIdx fun k p => ⟨k, p.2, .outer⟩
        shape := .map } := by
  intro set
  rw [insertion, insertFragment, Fragment.wrap]
  have listed := Draft.ofFragment_bound (fun _ => "") Prod.snd d ("INSERT INTO " ++
    e.quotedTable d ++ " (" ++ ",".intercalate (set.map fun p => d.quoteName p.1.column) ++
    ") VALUES (") "," set (.sql ")") .map
  simp only [Fragment.textThen_empty, String.empty_append] at listed
  refine listed.trans ?_
  rw [Fragment.sql, Draft.pushFrom_textThen, Draft.pushFrom, Draft.addText]

/-- The text of an update: the columns but the key's, and the key behind them. -/
theorem updateByKey_eq (h : e.primaryKey = some key) (d : Dialect) (values : List Value) :
    let others := (e.row values).eraseIdx key
    e.updateByKey d values = .ok
      { sql := "UPDATE " ++ e.quotedTable d ++ " SET " ++
          ", ".intercalate
            (others.mapIdx fun k p => d.quoteName p.1.column ++ "=" ++ d.placeholder k) ++
          (" WHERE " ++ (d.quoteName (e.fieldAt key).column ++ "=" ++ d.placeholder others.length))
        slots := (others.mapIdx fun k p => ⟨k, p.2, .outer⟩) ++
          [⟨others.length, valueAt values key, .outer⟩]
        shape := .map } := by
  intro others
  have sets : (e.fields.zipIdx.filter fun p => p.2 ≠ key.val).map
      (fun p => p.1.assignment d (valueAt values p.2)) =
        others.map fun p => p.1.assignment d p.2 := by
    rw [show others = _ from row_eraseIdx e values key, List.map_map]
    rfl
  have listed := Draft.ofFragment_bound (fun p => d.quoteName p.1.column ++ "=") Prod.snd d
    ("UPDATE " ++ e.quotedTable d ++ " SET ") ", " others
    (.textThen " WHERE " ((e.fieldAt key).assignment d (valueAt values key))) .map
  rw [updateByKey, requireKey, h]
  refine congrArg Except.ok ((congrArg (fun parts => Statement.ofFragment d
    (.textThen ("UPDATE " ++ e.quotedTable d ++ " SET ") (Fragment.join ", " parts ++
      .textThen " WHERE " ((e.fieldAt key).assignment d (valueAt values key)))) .map) sets).trans
    (listed.trans ?_))
  rw [Draft.pushFrom_textThen, Field.assignment, Draft.pushFrom_entry]
  simp [Draft.addText, String.append_assoc]

/-- The last parameter of an update is the key. -/
theorem getLast?_values_updateByKey (h : e.primaryKey = some key) {d : Dialect}
    {values : List Value} {statement : Statement} (made : e.updateByKey d values = .ok statement) :
    statement.values.getLast? = some (valueAt values key) := by
  rw [updateByKey_eq h] at made
  cases made
  simp [Statement.values]

/-- **The column lists of an insertion and an update**, for every entity with a key and values of
any number. The row is every field with its value, in the order of the fields, and `others` is the
row without its key. An insertion sets the row, or `others` if the key is generated and its value is
missing or unassigned: it lists each column that it sets, as many placeholders, and for each one the
value. An update sets `others` and compares the key with its last parameter. So the update has an
empty list exactly if the key is the only field, and the insertion if it is also left out. -/
theorem row_statements (h : e.primaryKey = some key) (d : Dialect) (values : List Value) :
    let others := (e.row values).eraseIdx key
    let awaits := (e.fieldAt key).isGenerated && (values[key.val]?).all Value.isUnassignedKey
    let set := if awaits then others else e.row values
    e.insertion d values =
        { sql := "INSERT INTO " ++ e.quotedTable d ++ " (" ++
            ",".intercalate (set.map fun p => d.quoteName p.1.column) ++ ") VALUES (" ++
            ",".intercalate (set.mapIdx fun k _ => d.placeholder k) ++ ")"
          slots := set.mapIdx fun k p => ⟨k, p.2, .outer⟩
          shape := .map } ∧
      (set = [] ↔ e.fields.length = 1 ∧ awaits) ∧
      e.updateByKey d values = .ok
        { sql := "UPDATE " ++ e.quotedTable d ++ " SET " ++
            ", ".intercalate
              (others.mapIdx fun k p => d.quoteName p.1.column ++ "=" ++ d.placeholder k) ++
            (" WHERE " ++
              (d.quoteName (e.fieldAt key).column ++ "=" ++ d.placeholder others.length))
          slots := (others.mapIdx fun k p => ⟨k, p.2, .outer⟩) ++
            [⟨others.length, valueAt values key, .outer⟩]
          shape := .map } ∧
      (others = [] ↔ e.fields.length = 1) := by
  intro others awaits set
  have unassigned : awaits =
      ((e.fieldAt key).isGenerated && (valueAt values key).isUnassignedKey) := by
    cases given : values[key.val]? <;> simp [awaits, valueAt, given, Value.isUnassignedKey]
  have listed : e.insertedFields values = set := by
    rw [insertedFields_eq h, ← unassigned]
  have alone : others = [] ↔ e.fields.length = 1 := by
    have := key.isLt
    rw [← List.length_eq_zero_iff, List.length_eraseIdx_of_lt (by simp), length_row]
    omega
  refine ⟨by rw [insertion_eq, listed], ?_, updateByKey_eq h d values, alone⟩
  have row : e.row values ≠ [] := List.ne_nil_of_length_pos (by simpa using key.pos)
  by_cases left : awaits = true
  · simp [set, left, alone]
  · simp [set, left, row]

end Entity

namespace Sample

/-- Tickets, which are a number and nothing else. -/
def ticket : Entity := Description.build ⟨"Ticket", [.field generatedKey]⟩ ⟨names.length, "Ticket"⟩

/-- The lists of a ticket's statements are empty: neither is a statement of SQL. -/
theorem empty_lists_of_ticket :
    ticket.primaryKey = some ⟨0, Nat.one_pos⟩ ∧
      (ticket.insertion .sqlite [.null]).sql = "INSERT INTO \"Ticket\" () VALUES ()" ∧
      (ticket.updateByKey .sqlite [.int 7]).map Statement.sql =
        .ok "UPDATE \"Ticket\" SET  WHERE \"Id\"=@0" :=
  ⟨rfl, rfl, rfl⟩

/-- A team of which only the name is given: its key is left to the database, and its leader is
null. -/
theorem lists_of_team :
    let e := catalog.entity (type "Team")
    let key : Fin e.fields.length := ⟨0, by decide⟩
    e.primaryKey = some key ∧
      (e.insertion .sqlite [.null, .text "Red"]).sql =
        "INSERT INTO \"Team\" (\"Name\",\"TeamLeaderId\") VALUES (@0,@1)" ∧
      (e.insertion .sqlite [.null, .text "Red"]).values = [.text "Red", .null] ∧
      ∃ update, e.updateByKey .sqlite [.int 7, .text "Red"] = .ok update ∧
        update.values = [.text "Red", .null, .int 7] := by
  have hkey : (catalog.entity (type "Team")).primaryKey = some ⟨0, by decide⟩ := rfl
  obtain ⟨insertion, -⟩ := Entity.row_statements hkey .sqlite [.null, .text "Red"]
  obtain ⟨-, -, update, -⟩ := Entity.row_statements hkey .sqlite [.int 7, .text "Red"]
  refine ⟨hkey, ?_, ?_, _, update, ?_⟩
  · rw [insertion]
    rfl
  · rw [insertion]
    rfl
  · rfl

end Sample

end RowGraph
