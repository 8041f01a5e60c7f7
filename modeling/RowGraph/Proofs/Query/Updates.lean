import RowGraph.Proofs.BoundValues
import RowGraph.Proofs.Entity.Keys
import RowGraph.Proofs.Query.Changes

/-!
# Assignments of an update

An update is asked for with names of fields and values. Every name must be the name of a field; what
then is assigned to a generated key, or is null where null is not allowed, is left out; what is left
is set, in order. The rows are named as the deletion names them, behind the assignments: the
predicate is the same, with its parameters numbered further.

Results:
* `mapM_assignment?`: names are resolved in order, and the first one without a field is refused.
* `exists_changeCondition`: a root with fields has a key to name rows by.
* **`updateStatement_outcome`**: when an update is refused and why, and else what it sets and how
  its predicate stands to the deletion's, for all queries and assignments.
-/

namespace RowGraph

variable {c : Catalog}

namespace Query

variable (q : Query c)

/-- Whether a field of the root is its generated key. -/
def isGeneratedKey (i : Fin q.rootEntity.fields.length) : Bool :=
  (q.rootEntity.fieldAt i).isGenerated && q.rootEntity.primaryKey == some i

/-- The first assignment to a name without a field. -/
def unresolved? (assignments : List (String × Value)) : Option (String × Value) :=
  assignments.find? fun a => (q.rootEntity.fieldIndex? a.1).isNone

/-- The assignments with the fields of their names. -/
def resolved (assignments : List (String × Value)) :
    List (Fin q.rootEntity.fields.length × Value) :=
  assignments.filterMap fun a => (q.rootEntity.fieldIndex? a.1).map (·, a.2)

/-- Whether an assignment is left out: a generated key is never set, and null only where the field
may be null. -/
def isLeftOut (a : Fin q.rootEntity.fields.length × Value) : Bool :=
  q.isGeneratedKey a.1 || a.2.isNull && !(q.rootEntity.fieldAt a.1).isNullable

/-- The assignments that are not left out. -/
def kept (assignments : List (String × Value)) : List (Fin q.rootEntity.fields.length × Value) :=
  (q.resolved assignments).filter fun a => !q.isLeftOut a

variable {q} {name : String}

/-- Nothing is kept if each assignment is to the generated key, or is null where that is not
allowed. -/
theorem kept_eq_nil_iff {assignments : List (String × Value)} :
    q.kept assignments = [] ↔ ∀ a ∈ q.resolved assignments,
      q.isGeneratedKey a.1 = true ∨
        a.2.isNull = true ∧ (q.rootEntity.fieldAt a.1).isNullable = false := by
  simp only [kept, List.filter_eq_nil_iff, isLeftOut, Bool.not_eq_true', Bool.not_eq_false,
    Bool.or_eq_true, Bool.and_eq_true]

theorem unresolved?_cons_of_none (h : q.rootEntity.fieldIndex? name = none) (v : Value)
    (rest : List (String × Value)) : q.unresolved? ((name, v) :: rest) = some (name, v) :=
  List.find?_cons_of_pos (by rw [h]; rfl)

theorem unresolved?_cons_of_some {i : Fin q.rootEntity.fields.length}
    (h : q.rootEntity.fieldIndex? name = some i) (v : Value) (rest : List (String × Value)) :
    q.unresolved? ((name, v) :: rest) = q.unresolved? rest :=
  List.find?_cons_of_neg (by rw [h]; nofun)

theorem resolved_cons_of_some {i : Fin q.rootEntity.fields.length}
    (h : q.rootEntity.fieldIndex? name = some i) (v : Value) (rest : List (String × Value)) :
    q.resolved ((name, v) :: rest) = (i, v) :: q.resolved rest :=
  List.filterMap_cons_some (by rw [h]; rfl)

theorem assignment?_of_none (h : q.rootEntity.fieldIndex? name = none) (v : Value) :
    q.assignment? name v = .error (.catalog (.unknownField q.rootEntity.name name)) := by
  rw [assignment?, Entity.requireField, h]

theorem assignment?_of_some {i : Fin q.rootEntity.fields.length}
    (h : q.rootEntity.fieldIndex? name = some i) (v : Value) :
    q.assignment? name v = .ok (if q.isLeftOut (i, v) then none
      else some ((q.rootEntity.fieldAt i).assignment q.dialect v)) := by
  rw [assignment?, Entity.requireField, h]
  have spelled : q.isLeftOut (i, v) = (((q.rootEntity.fieldAt i).isGenerated &&
    q.rootEntity.primaryKey == some i) || v.isNull && !(q.rootEntity.fieldAt i).isNullable) := rfl
  rw [spelled]
  dsimp only
  split
  · next key => rw [key, Bool.true_or, if_pos rfl]
  · next key =>
    rw [Bool.not_eq_true] at key
    rw [key, Bool.false_or]
    split <;> rfl

/-- Names are resolved in order, and the first one without a field is refused. -/
theorem mapM_assignment? (assignments : List (String × Value)) :
    (assignments.mapM fun (name, v) => q.assignment? name v) =
      match q.unresolved? assignments with
      | some (name, _) => .error (.catalog (.unknownField q.rootEntity.name name))
      | none => .ok ((q.resolved assignments).map fun a => if q.isLeftOut a then none
          else some ((q.rootEntity.fieldAt a.1).assignment q.dialect a.2)) := by
  induction assignments with
  | nil => rfl
  | cons a rest ih =>
    obtain ⟨name, v⟩ := a
    rw [List.mapM_cons, ih]
    dsimp only
    cases found : q.rootEntity.fieldIndex? name with
    | none =>
      rw [assignment?_of_none found, unresolved?_cons_of_none found]
      rfl
    | some i =>
      rw [assignment?_of_some found, unresolved?_cons_of_some found, resolved_cons_of_some found]
      cases q.unresolved? rest <;> rfl

/-- What is set: the assignments that are not left out. -/
theorem filterMap_assignments (assignments : List (String × Value)) :
    ((q.resolved assignments).map fun a => if q.isLeftOut a then none
        else some ((q.rootEntity.fieldAt a.1).assignment q.dialect a.2)).filterMap id =
      (q.kept assignments).map fun a => (q.rootEntity.fieldAt a.1).assignment q.dialect a.2 := by
  rw [kept, List.filterMap_map]
  induction q.resolved assignments with
  | nil => rfl
  | cons a rest ih =>
    cases out : q.isLeftOut a with
    | true => simpa [out] using ih
    | false => simpa [out] using ih

/-- When an update is refused, and what it is else. -/
theorem updateStatement_eq (assignments : List (String × Value)) :
    q.updateStatement assignments =
      match q.unresolved? assignments with
      | some (name, _) => .error (.catalog (.unknownField q.rootEntity.name name))
      | none =>
        if q.kept assignments = [] then .error (.emptyUpdate q.rootEntity.name)
        else q.changeCondition.map (q.updateOf ((q.kept assignments).map fun a =>
          (q.rootEntity.fieldAt a.1).assignment q.dialect a.2)) := by
  rw [updateStatement, mapM_assignment?]
  cases q.unresolved? assignments with
  | some a => rfl
  | none =>
    dsimp only [Bind.bind, Except.bind]
    rw [filterMap_assignments, rootCondition_eq]
    cases q.kept assignments with
    | nil => rfl
    | cons a rest => cases q.changeCondition <;> rfl

/-! ## The rows of an update -/

/-- What follows the table of a deletion is its condition. -/
theorem deletionOf_eq (condition : RootCondition) :
    let predicate := clause " WHERE " (q.conditionText condition)
    q.deletionOf condition =
      { sql := "DELETE FROM " ++ q.rootTable ++
          weave predicate.gaps ((List.range predicate.count).map q.dialect.placeholder)
        slots := (Draft.pushFrom q.dialect .outer predicate .empty).slots
        shape := .map } := by
  intro predicate
  let named : Draft := ⟨"DELETE FROM " ++ q.rootTable, []⟩
  have added : Draft.pushFrom q.dialect .outer
      (.textThen ("DELETE FROM " ++ q.rootTable) predicate) .empty =
        Draft.pushFrom q.dialect .outer predicate named := by
    rw [Draft.pushFrom_textThen, Draft.addText, Draft.empty, String.empty_append]
  have deletion : q.deletionOf condition =
      ⟨(Draft.pushFrom q.dialect .outer predicate named).sql,
        (Draft.pushFrom q.dialect .outer predicate named).slots, .map⟩ := by
    rw [← added]
    rfl
  have unmoved : Slot.shift 0 = id := funext fun s => by simp [Slot.shift]
  rw [deletion, Draft.sql_pushFrom, Draft.slots_pushFrom]
  simp [named, unmoved, List.range_eq_range']

theorem length_slots_deletionOf (condition : RootCondition) :
    (q.deletionOf condition).slots.length =
      (clause " WHERE " (q.conditionText condition)).count := by
  simp [deletionOf_eq, Draft.length_slots_pushFrom, Draft.empty]

/-- What follows the assignments of an update is the condition of the deletion, with its parameters
numbered behind theirs. -/
theorem updateOf_eq (set : List (Fin q.rootEntity.fields.length × Value))
    (condition : RootCondition) :
    let predicate := clause " WHERE " (q.conditionText condition)
    q.updateOf (set.map fun a => (q.rootEntity.fieldAt a.1).assignment q.dialect a.2) condition =
      { sql := "UPDATE " ++ q.rootTable ++ " SET " ++
          ", ".intercalate (set.mapIdx fun k a =>
            q.dialect.quoteName (q.rootEntity.fieldAt a.1).column ++ "=" ++
              q.dialect.placeholder k) ++
          weave predicate.gaps
            ((List.range predicate.count).map fun i => q.dialect.placeholder (set.length + i))
        slots := (set.mapIdx fun k a => ⟨k, a.2, .outer⟩) ++
          (q.deletionOf condition).slots.map (Slot.shift set.length)
        shape := .map } := by
  intro predicate
  have listed := Draft.ofFragment_bound
    (fun a => q.dialect.quoteName (q.rootEntity.fieldAt a.1).column ++ "=") Prod.snd q.dialect
    ("UPDATE " ++ q.rootTable ++ " SET ") ", " set predicate .map
  refine listed.trans ?_
  rw [Draft.sql_pushFrom, Draft.slots_pushFrom, deletionOf_eq, List.range'_eq_map_range,
    List.map_map, List.length_mapIdx]
  rfl

end Query

/-- A described entity with fields has a key. -/
theorem Catalog.exists_primaryKey {descriptions : List (EntityType × Description)} {t : EntityType}
    (h : ((ofDescriptions descriptions).entity t).fields ≠ []) :
    ∃ i, ((ofDescriptions descriptions).entity t).primaryKey = some i := by
  let description := (descriptions.lookup t).getD ⟨t.name, []⟩
  have fields : (EntityDraft.addAll description.clauses .empty).fields ≠ [] := by
    intro none
    refine h ?_
    have built : ((ofDescriptions descriptions).entity t).fields =
        keyed (EntityDraft.addAll description.clauses .empty).fields := rfl
    rw [built, none]
    rfl
  obtain ⟨i, key⟩ := exists_isKey fields
  rw [← map_primaryKey_build description t, Option.map_eq_some_iff] at key
  obtain ⟨place, found, -⟩ := key
  exact ⟨place, found⟩

namespace Query

variable {descriptions : List (EntityType × Description)}
  (q : Query (.ofDescriptions descriptions))

/-- A root with fields has a key to name its rows by. -/
theorem exists_changeCondition (h : q.rootEntity.fields ≠ []) :
    ∃ condition, q.changeCondition = .ok condition := by
  obtain ⟨i, key⟩ := Catalog.exists_primaryKey h
  rw [changeCondition]
  split
  · cases q.filter.fragment <;> exact ⟨_, rfl⟩
  · have required : q.rootEntity.requireKey = .ok i := by
      rw [Entity.requireKey, show q.rootEntity.primaryKey = some i from key]
    rw [required]
    exact ⟨_, rfl⟩

/-- What is kept is assigned to a field, so the root has fields, and with them a key. -/
theorem exists_changeCondition_of_kept {assignments : List (String × Value)}
    (h : q.kept assignments ≠ []) : ∃ condition, q.changeCondition = .ok condition := by
  obtain ⟨a, -⟩ := List.exists_mem_of_ne_nil _ h
  exact q.exists_changeCondition (List.ne_nil_of_length_pos a.1.pos)

/-- An update is refused as empty if all names have fields and nothing is kept, and only then. -/
theorem updateStatement_eq_empty_iff (assignments : List (String × Value)) :
    q.updateStatement assignments = .error (.emptyUpdate q.rootEntity.name) ↔
      q.unresolved? assignments = none ∧ q.kept assignments = [] := by
  rw [updateStatement_eq]
  cases q.unresolved? assignments with
  | some a => simp
  | none =>
    by_cases nothing : q.kept assignments = []
    · simp [nothing]
    · obtain ⟨condition, changes⟩ := q.exists_changeCondition_of_kept nothing
      simp [nothing, changes, Except.map]

/-- **What an update sets and when it is refused**, for all queries over described entities and all
assignments:
* the first name without a field is refused;
* if all names have fields, the update is refused as empty exactly if each assignment is to the
  generated key, or is null where the field may not be null;
* else it succeeds, and so does the deletion. The update sets what is kept of the assignments, in
  their order, and the `k`-th one is bound to parameter `k`; then the texts of the deletion's
  predicate follow, and its parameters with indices greater by the number of set values. -/
theorem updateStatement_outcome (assignments : List (String × Value)) :
    let e := q.rootEntity
    let kept := q.kept assignments
    (∀ name v, q.unresolved? assignments = some (name, v) →
      q.updateStatement assignments = .error (.catalog (.unknownField e.name name))) ∧
    (q.updateStatement assignments = .error (.emptyUpdate e.name) ↔
      q.unresolved? assignments = none ∧ ∀ a ∈ q.resolved assignments,
        q.isGeneratedKey a.1 = true ∨ a.2.isNull = true ∧ (e.fieldAt a.1).isNullable = false) ∧
    (q.unresolved? assignments = none → kept ≠ [] →
      ∃ deletion texts, q.deleteStatement = .ok deletion ∧
        texts.length = deletion.slots.length + 1 ∧
        deletion.sql = "DELETE FROM " ++ q.rootTable ++
          weave texts ((List.range deletion.slots.length).map q.dialect.placeholder) ∧
        q.updateStatement assignments = .ok
          { sql := "UPDATE " ++ q.rootTable ++ " SET " ++
              ", ".intercalate (kept.mapIdx fun k a =>
                q.dialect.quoteName (e.fieldAt a.1).column ++ "=" ++ q.dialect.placeholder k) ++
              weave texts ((List.range deletion.slots.length).map fun i =>
                q.dialect.placeholder (kept.length + i))
            slots := (kept.mapIdx fun k a => ⟨k, a.2, .outer⟩) ++
              deletion.slots.map (Slot.shift kept.length)
            shape := .map }) := by
  intro e kept
  refine ⟨fun name v first => by rw [updateStatement_eq, first], ?_, fun resolved some => ?_⟩
  · rw [q.updateStatement_eq_empty_iff, kept_eq_nil_iff]
  · obtain ⟨condition, changes⟩ := q.exists_changeCondition_of_kept some
    refine ⟨q.deletionOf condition, (clause " WHERE " (q.conditionText condition)).gaps,
      ?_, ?_, ?_, ?_⟩
    · rw [deleteStatement_eq, changes]
      rfl
    · rw [Fragment.length_gaps, length_slots_deletionOf]
    · rw [length_slots_deletionOf, deletionOf_eq]
    · rw [updateStatement_eq, resolved, changes, length_slots_deletionOf]
      dsimp only
      rw [if_neg some]
      exact congrArg Except.ok (updateOf_eq kept condition)

end Query

namespace Sample

/-- The second team, under an alias. -/
def aliasedTeam : Query catalog :=
  (Calls.run [(plainly, secondTeam)] (.ofRoot .sqlite ⟨type "Team", some "t"⟩)).2

/-- A team is named and loses its leader; the key stays, and a name of null is left out. An unknown
name is refused, and so is an update that sets nothing. -/
theorem updates_of_aliasedTeam :
    let named : List (String × Value) :=
      [("NAME", .text "Red"), ("Id", .int 5), ("TeamLeaderId", .null), ("Name", .null)]
    (∃ deletion, aliasedTeam.deleteStatement = .ok deletion ∧
      deletion.slots = [⟨0, .int 2, .outer⟩] ∧
      (aliasedTeam.updateStatement named).map Statement.slots =
        .ok [⟨0, .text "Red", .outer⟩, ⟨1, .null, .outer⟩, ⟨2, .int 2, .outer⟩]) ∧
    aliasedTeam.updateStatement [("Id", .int 5), ("Mood", .null), ("Rank", .null)] =
      .error (.catalog (.unknownField "Team" "Mood")) ∧
    aliasedTeam.updateStatement [("Id", .int 5), ("Name", .null)] =
      .error (.emptyUpdate "Team") := by
  intro named
  obtain ⟨-, -, set⟩ := Query.updateStatement_outcome aliasedTeam named
  obtain ⟨refused, -⟩ := Query.updateStatement_outcome aliasedTeam
    [("Id", .int 5), ("Mood", .null), ("Rank", .null)]
  obtain ⟨-, empty, -⟩ := Query.updateStatement_outcome aliasedTeam
    [("Id", .int 5), ("Name", .null)]
  refine ⟨?_, refused "Mood" .null rfl, empty.mpr ⟨rfl, ?_⟩⟩
  · obtain ⟨deletion, texts, deleted, -, -, updated⟩ := set rfl (by decide)
    have slots : deletion.slots = [⟨0, .int 2, .outer⟩] := by
      cases deleted
      rfl
    refine ⟨deletion, deleted, slots, (congrArg (Except.map Statement.slots) updated).trans ?_⟩
    rw [Except.map, slots]
    rfl
  · decide

end Sample

end RowGraph
