import RowGraph.Entity.Link
import RowGraph.Proofs.Query.Sources

/-!
# Joins along the keys that keep references

Loading finds the children of a parent by the field that keeps the reference to them, which is
resolved once among the places of the child's fields. A join along a key looks among the fields of
both sides itself, each time it is asked for. It comes upon the same field, whichever foreign keys
the two entities have, also where they are one entity.

Where the child has no such field there is nothing to load, but a join can still be made in the
other direction: along a field of the parent that refers to the child.

Results:
* `joiningField?_eq`: the field that a join finds is the one that keeps references to several rows.
* `Query.apply_joinByKey`: what joining a second source comes to.
* **`joinByKey_as_resolved`**: how the join ends, by what the reference resolves to.
-/

namespace RowGraph

variable {c : Catalog}

/-! ## The field of a join and the field of a reference -/

/-- The field refers to an entity: as a foreign key, or by its name. -/
def Field.RefersTo (f : Field) (e : Entity) : Prop :=
  f.pointsAt e.type = true ∨ Text.sameName f.name (e.name ++ "Id") = true

namespace Entity

/-- **A join finds the field that keeps references to several rows.** -/
theorem joiningField?_eq (child parent : Entity) :
    child.joiningField? parent = (child.keyTo? parent).map child.fieldAt := by
  have at_place (p : Field → Bool) :
      child.fields.find? p = (child.fields.findFinIdx? p).map child.fieldAt :=
    List.find?_eq_map_findFinIdx?_getElem
  simp only [joiningField?, keyTo?, conventionalKey?, List.find?_filter, List.head?_filter,
    at_place, Option.orElse_eq_orElse, Option.orElse_eq_or, Option.map_or, Bool.decide_and,
    Bool.decide_eq_true]

/-- What is made of the field of a join and the key that it holds. -/
theorem joiningField?_bind_keyField? {α : Type} (child parent : Entity) (make : Field → Field → α) :
    (do
      let foreign ← child.joiningField? parent
      let key ← parent.keyField?
      return make foreign key) =
      (child.keyTo? parent).bind fun i => parent.primaryKey.map fun k =>
        make (child.fieldAt i) (parent.fieldAt k) := by
  rw [joiningField?_eq, keyField?]
  cases child.keyTo? parent with
  | none => rfl
  | some i => cases parent.primaryKey <;> rfl

/-- A field that keeps references to an entity refers to it. -/
theorem refersTo_of_keyTo? {child parent : Entity} {i : Fin child.fields.length}
    (h : child.keyTo? parent = some i) : (child.fieldAt i).RefersTo parent := by
  simp only [keyTo?, conventionalKey?, Option.orElse_eq_orElse, Option.orElse_eq_or,
    Option.or_eq_some_iff, List.findFinIdx?_eq_some_iff, Bool.and_eq_true] at h
  obtain ⟨⟨points, -⟩, -⟩ | ⟨-, ⟨points, -⟩ | ⟨-, named, -⟩⟩ := h
  · exact .inl points
  · exact .inl points
  · exact .inr named

/-- No field keeps references to an entity exactly if none refers to it. -/
theorem keyTo?_eq_none_iff {child parent : Entity} :
    child.keyTo? parent = none ↔ ∀ f ∈ child.fields, ¬ f.RefersTo parent := by
  simp only [keyTo?, conventionalKey?, Option.orElse_eq_orElse, Option.orElse_eq_or,
    Option.or_eq_none_iff, List.findFinIdx?_eq_none_iff, Field.RefersTo, not_or,
    Bool.and_eq_false_iff, Bool.not_eq_true]
  constructor
  · rintro ⟨-, unpointed, unnamed⟩ f hf
    exact ⟨unpointed f hf, unnamed f hf⟩
  · intro none
    exact ⟨fun f hf => .inl (none f hf).1, fun f hf => (none f hf).1, fun f hf => (none f hf).2⟩

end Entity

/-! ## Joining a second source -/

namespace Source

variable {d : Dialect} {existing new : Source}

/-- The condition on a field of the new source and the key of the one that is there. -/
theorem keyToExisting?_eq : existing.keyToExisting? c d new =
    ((c.entity new.entity).keyTo? (c.entity existing.entity)).bind fun i =>
      (c.entity existing.entity).primaryKey.map fun k =>
        equation (new.qualify c d ((c.entity new.entity).fieldAt i).column)
          (existing.qualify c d ((c.entity existing.entity).fieldAt k).column) :=
  Entity.joiningField?_bind_keyField? _ _ fun foreign key =>
    equation (new.qualify c d foreign.column) (existing.qualify c d key.column)

/-- The condition on the key of the new source and a field of the one that is there. -/
theorem keyFromExisting?_eq : existing.keyFromExisting? c d new =
    ((c.entity existing.entity).keyTo? (c.entity new.entity)).bind fun i =>
      (c.entity new.entity).primaryKey.map fun k =>
        equation (new.qualify c d ((c.entity new.entity).fieldAt k).column)
          (existing.qualify c d ((c.entity existing.entity).fieldAt i).column) :=
  Entity.joiningField?_bind_keyField? _ _ fun foreign key =>
    equation (new.qualify c d key.column) (existing.qualify c d foreign.column)

end Source

namespace Query

variable {q : Query c} {new : Source}

/-- A source with another token than the root can be added to a query of the root alone. -/
theorem bind_of_alone (alone : q.joined = [])
    (fresh : Text.sameName (q.root.token c) (new.token c) = false) :
    q.scope.bind c new = .ok ⟨q.scope.sources ++ [new]⟩ := by
  simp [Scope.bind, scope, alone, fresh]

section Ends

variable (env : Environment) (kind : JoinKind) (alone : q.joined = [])
  (fresh : Text.sameName (q.root.token c) (new.token c) = false)

include alone fresh

/-- A source is joined along a key if there is a condition for it; else nothing changes. -/
theorem apply_joinByKey : (Call.joinByKey kind new).apply env q =
    match (q.root.keyToExisting? c q.dialect new).or (q.root.keyFromExisting? c q.dialect new) with
    | some condition => (.ok (), q.withJoin new (.on kind condition))
    | none => (.error (.noJoinCondition (c.entity new.entity).name), q) := by
  have single : Source.inferCondition? c q.dialect q.scope.sources new =
      (q.root.keyToExisting? c q.dialect new).or (q.root.keyFromExisting? c q.dialect new) := by
    rw [scope, alone, Source.inferCondition?, List.findSome?_singleton, Option.orElse_eq_orElse,
      Option.orElse_eq_or]
  change Attempt.ending (joinByKey kind new) q = _
  rw [joinByKey, Attempt.ending_get_bind, Attempt.ending_bind,
    ending_bind_ok (bind_of_alone alone fresh), single]
  cases (q.root.keyToExisting? c q.dialect new).or (q.root.keyFromExisting? c q.dialect new) with
  | some condition => rfl
  | none => exact ending_unbind_throw q new _

/-- The child has a field for the key of the root. -/
theorem apply_joinByKey_of_held {k : Fin (c.entity q.root.entity).fields.length}
    {i : Fin (c.entity new.entity).fields.length}
    (keyed : (c.entity q.root.entity).primaryKey = some k)
    (held : (c.entity new.entity).keyTo? (c.entity q.root.entity) = some i) :
    (Call.joinByKey kind new).apply env q = (.ok (), q.withJoin new (.on kind (.sql
      ("(" ++ new.qualify c q.dialect ((c.entity new.entity).fieldAt i).column ++ " = " ++
        q.root.qualify c q.dialect ((c.entity q.root.entity).fieldAt k).column ++ ")")))) := by
  rw [apply_joinByKey env kind alone fresh, Source.keyToExisting?_eq, held, keyed]
  rfl

/-- The child has none, but the root has a field for the key of the child. -/
theorem apply_joinByKey_of_referred {k : Fin (c.entity new.entity).fields.length}
    {i : Fin (c.entity q.root.entity).fields.length}
    (unheld : (c.entity new.entity).keyTo? (c.entity q.root.entity) = none)
    (childKey : (c.entity new.entity).primaryKey = some k)
    (referred : (c.entity q.root.entity).keyTo? (c.entity new.entity) = some i) :
    (Call.joinByKey kind new).apply env q = (.ok (), q.withJoin new (.on kind (.sql
      ("(" ++ new.qualify c q.dialect ((c.entity new.entity).fieldAt k).column ++ " = " ++
        q.root.qualify c q.dialect ((c.entity q.root.entity).fieldAt i).column ++ ")")))) := by
  rw [apply_joinByKey env kind alone fresh, Source.keyToExisting?_eq, unheld,
    Source.keyFromExisting?_eq, referred, childKey]
  rfl

/-- Neither is the case. -/
theorem apply_joinByKey_of_unlinked
    (unheld : (c.entity new.entity).keyTo? (c.entity q.root.entity) = none)
    (unreferred : (c.entity new.entity).primaryKey = none ∨
      (c.entity q.root.entity).keyTo? (c.entity new.entity) = none) :
    (Call.joinByKey kind new).apply env q =
      (.error (.noJoinCondition (c.entity new.entity).name), q) := by
  have nothing : q.root.keyFromExisting? c q.dialect new = none := by
    rw [Source.keyFromExisting?_eq]
    obtain keyless | unreferred := unreferred
    · simp [keyless]
    · simp [unreferred]
  rw [apply_joinByKey env kind alone fresh, Source.keyToExisting?_eq, unheld, nothing]
  rfl

end Ends

end Query

/-! ## Joins and references -/

/-- **Joins and loads agree on the foreign key.** Let the only source of a query be a parent with a
primary key, and let a child be joined to it along a key, under a name that is not the parent's.
Where a reference from the parent to several children names no field, it resolves to the field of
the child on which the join is made, in the text `(child.column = parent.column)`; or to none, and
then the join is made on the child's primary key and a field of the parent that refers to the child,
or it fails and changes nothing, since the child has no primary key or the parent no such field. -/
theorem joinByKey_as_resolved (env : Environment) (kind : JoinKind) {q : Query c}
    (alone : q.joined = []) {key : Fin q.rootEntity.fields.length}
    (keyed : q.rootEntity.primaryKey = some key) {new : Source}
    (fresh : Text.sameName (q.root.token c) (new.token c) = false) {r : Reference}
    (unnamed : r.via = none) (several : r.cardinality = .many) :
    let parent := q.rootEntity
    let child := c.entity new.entity
    let on (own other : Field) : String :=
      "(" ++ new.qualify c q.dialect own.column ++ " = " ++
        q.root.qualify c q.dialect other.column ++ ")"
    (∃ i, parent.resolve r child = .ok (.childHoldsKey i) ∧
      (Call.joinByKey kind new).apply env q =
        (.ok (), q.withJoin new (.on kind (.sql (on (child.fieldAt i) (parent.fieldAt key)))))) ∨
    parent.resolve r child = .error (.referenceKeyNotFound parent.name r.name child.name) ∧
      ((∃ k i, child.primaryKey = some k ∧ (parent.fieldAt i).RefersTo child ∧
        (Call.joinByKey kind new).apply env q =
          (.ok (), q.withJoin new (.on kind (.sql (on (child.fieldAt k) (parent.fieldAt i)))))) ∨
      (child.primaryKey = none ∨ ∀ f ∈ parent.fields, ¬ f.RefersTo child) ∧
        (Call.joinByKey kind new).apply env q = (.error (.noJoinCondition child.name), q)) := by
  intro parent child on
  rw [Entity.resolve_many unnamed several]
  cases held : child.keyTo? parent with
  | some i =>
    exact .inl ⟨i, rfl, Query.apply_joinByKey_of_held env kind alone fresh keyed held⟩
  | none =>
    refine .inr ⟨rfl, ?_⟩
    cases childKey : child.primaryKey with
    | none =>
      exact .inr ⟨.inl rfl,
        Query.apply_joinByKey_of_unlinked env kind alone fresh held (.inl childKey)⟩
    | some k =>
      cases referred : parent.keyTo? child with
      | none =>
        exact .inr ⟨.inr (Entity.keyTo?_eq_none_iff.mp referred),
          Query.apply_joinByKey_of_unlinked env kind alone fresh held (.inr referred)⟩
      | some i =>
        exact .inl ⟨k, i, rfl, Entity.refersTo_of_keyTo? referred,
          Query.apply_joinByKey_of_referred env kind alone fresh held childKey referred⟩

namespace Sample

/-- The employees, as managers. -/
def managers : Query catalog := .ofRoot .sqlite ⟨type "Employee", some "m"⟩

/-- The users that are joined to teams. -/
def joinedUser : Source := ⟨type "TeamUser", some "u"⟩

/-- The employees that are joined to their managers. -/
def joinedReport : Source := ⟨type "Employee", some "e"⟩

/-- The users of a team and the reports of an employee are joined on the fields by which they are
loaded. -/
theorem joinByKey_users_reports :
    (∃ i, teams.rootEntity.resolve ⟨"Users", type "TeamUser", .many, none, none⟩
        (catalog.entity (type "TeamUser")) = .ok (.childHoldsKey i) ∧
      (Call.joinByKey .inner joinedUser).apply plainly teams =
        (.ok (), teams.withJoin joinedUser (.on .inner (.sql
          "(\"u\".\"TeamId\" = \"Team\".\"Id\")")))) ∧
    ∃ i, managers.rootEntity.resolve ⟨"Reports", type "Employee", .many, none, none⟩
        (catalog.entity (type "Employee")) = .ok (.childHoldsKey i) ∧
      (Call.joinByKey .inner joinedReport).apply plainly managers =
        (.ok (), managers.withJoin joinedReport (.on .inner (.sql
          "(\"e\".\"ManagerId\" = \"m\".\"Id\")"))) := by
  constructor
  · have keyed : teams.rootEntity.primaryKey = some ⟨0, by decide⟩ := by decide
    have fresh : Text.sameName (teams.root.token catalog) (joinedUser.token catalog) = false := by
      decide
    have held : (catalog.entity (type "TeamUser")).keyTo? teams.rootEntity =
        some ⟨2, by decide⟩ := by decide
    have found : teams.rootEntity.resolve ⟨"Users", type "TeamUser", .many, none, none⟩
        (catalog.entity (type "TeamUser")) = .ok (.childHoldsKey ⟨2, by decide⟩) := by
      rw [Entity.resolve_many rfl rfl, held]
    have text : "(" ++ joinedUser.qualify catalog .sqlite
          ((catalog.entity (type "TeamUser")).fieldAt ⟨2, by decide⟩).column ++ " = " ++
        teams.root.qualify catalog .sqlite (teams.rootEntity.fieldAt ⟨0, by decide⟩).column ++
        ")" = "(\"u\".\"TeamId\" = \"Team\".\"Id\")" := by decide
    obtain ⟨i, resolved, joined⟩ | ⟨unresolved, -⟩ := joinByKey_as_resolved plainly .inner rfl
      keyed fresh (r := ⟨"Users", type "TeamUser", .many, none, none⟩) rfl rfl
    · cases resolved.symm.trans found
      exact ⟨_, resolved, text ▸ joined⟩
    · cases unresolved.symm.trans found
  · have keyed : managers.rootEntity.primaryKey = some ⟨0, by decide⟩ := by decide
    have fresh : Text.sameName (managers.root.token catalog) (joinedReport.token catalog) =
        false := by decide
    have held : (catalog.entity (type "Employee")).keyTo? managers.rootEntity =
        some ⟨2, by decide⟩ := by decide
    have found : managers.rootEntity.resolve ⟨"Reports", type "Employee", .many, none, none⟩
        (catalog.entity (type "Employee")) = .ok (.childHoldsKey ⟨2, by decide⟩) := by
      rw [Entity.resolve_many rfl rfl, held]
    have text : "(" ++ joinedReport.qualify catalog .sqlite
          ((catalog.entity (type "Employee")).fieldAt ⟨2, by decide⟩).column ++ " = " ++
        managers.root.qualify catalog .sqlite
          (managers.rootEntity.fieldAt ⟨0, by decide⟩).column ++
        ")" = "(\"e\".\"ManagerId\" = \"m\".\"Id\")" := by decide
    obtain ⟨i, resolved, joined⟩ | ⟨unresolved, -⟩ := joinByKey_as_resolved plainly .inner rfl
      keyed fresh (r := ⟨"Reports", type "Employee", .many, none, none⟩) rfl rfl
    · cases resolved.symm.trans found
      exact ⟨_, resolved, text ▸ joined⟩
    · cases unresolved.symm.trans found

end Sample

end RowGraph
